import Mathlib.Data.List.TakeWhile
import Mathlib.Logic.Function.Iterate
import ScenarioScript.Proofs.Statement.OpenEnd

/-!
# Progress from statement to statement

Every call for the next statement takes tokens, until none comes any more. It does so whatever the tokens are and
in whatever way a statement fails. So there are no more results than tokens.
-/

namespace ScenarioScript

namespace StatementQueue

open Statement

/-- The queue after a number of calls for the next statement. -/
def afterCalls (queue : StatementQueue) (count : Nat) : StatementQueue := (fun queue => queue.next.2)^[count] queue

/-- The first token from here on that is no semicolon, and where it stands. -/
structure StartsAt (queue : StatementQueue) (start : Nat) (token : Token) : Prop where
  le : queue.position ≤ start
  get : queue.tokens[start]? = some token
  not_isSemicolon : ¬ isSemicolon token
  semicolons : ∀ index, queue.position ≤ index → index < start →
    ∃ semicolon, queue.tokens[index]? = some semicolon ∧ isSemicolon semicolon

/-- The queue stands behind its last token or before the end of a text. -/
def IsAtEnd (queue : StatementQueue) : Prop :=
  queue.position = queue.tokens.length ∨ ∃ final, queue.tokens[queue.position]? = some final ∧ final.isDone

/-- What the next call does. -/
structure Advances (queue : StatementQueue) : Prop where
  bounded : queue.position ≤ queue.tokens.length
  rest : queue.rest = queue.tokens.drop queue.position
  some : ∀ result, queue.next.1 = some result → queue.position < queue.next.2.position
  none : queue.next.1 = none → queue.next.2.IsAtEnd ∧
    ∀ count, (queue.next.2.afterCalls count).next = (.none, queue.next.2)
  ok : ∀ statement, queue.next.1 = .some (.ok statement) → ∃ start token, queue.StartsAt start token ∧
    queue.next.2.checkpoint = .some start ∧ statement.line = token.line
  error : ∀ error, queue.next.1 = .some (.error error) → queue.next.2.checkpoint = .none

section
variable {queue : StatementQueue}

/-! ## One call -/

theorem next_of_none (h : queue.next.1 = none) : Reader.atEnd (queue.rest.dropWhile isSemicolon) ∧
    queue.next.2 = { queue with rest := queue.rest.dropWhile isSemicolon } := by
  obtain ⟨hend, hnext⟩ | ⟨-, ⟨statement, rest, -, hnext⟩ | ⟨fault, rest, -, hnext⟩⟩ := queue.next_cases
  · rw [hnext]
    exact ⟨hend, rfl⟩
  · rw [hnext] at h
    cases h
  · rw [hnext] at h
    cases h

theorem dropWhile_of_atEnd {tokens : List Token} (h : Reader.atEnd tokens) : tokens.dropWhile isSemicolon = tokens := by
  cases tokens with
  | nil => rfl
  | cons token rest => exact List.dropWhile_cons_of_neg (not_isSemicolon_of_isDone h)

theorem next_next_of_none (h : queue.next.1 = none) : queue.next.2.next = (none, queue.next.2) := by
  obtain ⟨hend, hnext⟩ := next_of_none h
  have hdrop := dropWhile_of_atEnd hend
  rw [hnext, next_of_atEnd (by rwa [hdrop])]
  dsimp only
  rw [hdrop]

/-! ## Where a statement starts -/

theorem rest_eq_drop (hrest : queue.rest <:+ queue.tokens) : queue.rest = queue.tokens.drop queue.position :=
  List.suffix_iff_eq_drop.1 hrest

theorem position_add_length (hrest : queue.rest <:+ queue.tokens) :
    queue.position + queue.rest.length = queue.tokens.length :=
  Nat.sub_add_cancel hrest.length_le

theorem getElem?_rest (hrest : queue.rest <:+ queue.tokens) (index : Nat) :
    queue.tokens[queue.position + index]? = queue.rest[index]? := by
  rw [rest_eq_drop hrest, List.getElem?_drop]

theorem startsAt_dropWhile {token : Token} {more : List Token} (hrest : queue.rest <:+ queue.tokens)
    (hmore : queue.rest.dropWhile isSemicolon = token :: more) (htoken : ¬ isSemicolon token) :
    queue.StartsAt (position { queue with rest := queue.rest.dropWhile isSemicolon }) token := by
  obtain ⟨front, hfront⟩ : ∃ front, front = queue.rest.takeWhile isSemicolon := ⟨_, rfl⟩
  have hsplit : front ++ token :: more = queue.rest := by
    rw [hfront, ← hmore, List.takeWhile_append_dropWhile]
  have hstart : position { queue with rest := queue.rest.dropWhile isSemicolon } = queue.position + front.length := by
    have hplace := position_add_length hrest
    have hlength := congrArg List.length hsplit
    rw [List.length_append, ← hmore] at hlength
    unfold position at hplace ⊢
    dsimp only
    omega
  rw [hstart]
  constructor
  · exact Nat.le_add_right _ _
  · rw [getElem?_rest hrest, ← hsplit]
    simp
  · exact htoken
  · intro index hle hlt
    obtain ⟨offset, rfl⟩ := Nat.exists_eq_add_of_le hle
    have hoffset : offset < front.length := by omega
    refine ⟨front[offset], ?_, ?_⟩
    · rw [getElem?_rest hrest, ← hsplit, List.getElem?_append_left hoffset, List.getElem?_eq_getElem hoffset]
    · have hmem : front[offset] ∈ queue.rest.takeWhile isSemicolon := hfront ▸ List.getElem_mem hoffset
      exact List.mem_takeWhile_imp hmem

theorem next_checkpoint {statement : Statement} (hrest : queue.rest <:+ queue.tokens)
    (h : queue.next.1 = some (.ok statement)) : ∃ start token, queue.StartsAt start token ∧
      queue.next.2.checkpoint = some start ∧ statement.line = token.line := by
  obtain ⟨-, hnext⟩ | ⟨hend, ⟨other, rest, hread, hnext⟩ | ⟨fault, rest, -, hnext⟩⟩ := queue.next_cases
  · rw [hnext] at h
    cases h
  · obtain ⟨token, more, hmore, -, htoken⟩ := exists_cons_of_not_atEnd hend
    rw [hnext] at h ⊢
    cases h
    refine ⟨_, token, startsAt_dropWhile hrest hmore (by simpa using htoken), rfl, ?_⟩
    obtain ⟨e, middle, -, -, rfl⟩ := reader_eq_ok_iff.1 hread
    rw [hmore]
    rfl
  · rw [hnext] at h
    cases h

theorem next_checkpoint_of_error {error : ParseError} (h : queue.next.1 = some (.error error)) :
    queue.next.2.checkpoint = none := by
  obtain ⟨-, hnext⟩ | ⟨-, ⟨statement, rest, -, hnext⟩ | ⟨fault, rest, -, hnext⟩⟩ := queue.next_cases
  · rw [hnext] at h
    cases h
  · rw [hnext] at h
    cases h
  · rw [hnext]

/-! ## All calls -/

theorem isAtEnd_of_none (hrest : queue.rest <:+ queue.tokens) (h : queue.next.1 = none) : queue.next.2.IsAtEnd := by
  obtain ⟨hend, hnext⟩ := next_of_none h
  have hsuffix : queue.next.2.rest <:+ queue.next.2.tokens := by
    rw [next_tokens]
    exact (next_suffix hrest).1.trans hrest
  have hatEnd : Reader.atEnd queue.next.2.rest := by rwa [hnext]
  have hplace := position_add_length hsuffix
  have hget := getElem?_rest hsuffix 0
  cases hbehind : queue.next.2.rest with
  | nil =>
    rw [hbehind] at hplace
    exact .inl hplace
  | cons final rest =>
    rw [hbehind] at hget hatEnd
    exact .inr ⟨final, hget, hatEnd⟩

theorem afterCalls_succ (queue : StatementQueue) (count : Nat) :
    queue.afterCalls (count + 1) = (queue.afterCalls count).next.2 := Function.iterate_succ_apply' _ _ _

theorem afterCalls_of_none (h : queue.next = (none, queue)) (count : Nat) : queue.afterCalls count = queue := by
  refine Function.iterate_fixed ?_ count
  exact congrArg Prod.snd h

theorem advances (hrest : queue.rest <:+ queue.tokens) : queue.Advances where
  bounded := Nat.sub_le _ _
  rest := rest_eq_drop hrest
  some result hresult := by
    obtain ⟨hsuffix, hlength⟩ := next_suffix hrest
    have hlength := hlength (by simp [hresult])
    have hle := hrest.length_le
    unfold position
    rw [next_tokens]
    omega
  none hnone := by
    have hstays := next_next_of_none hnone
    refine ⟨isAtEnd_of_none hrest hnone, fun count => ?_⟩
    rw [afterCalls_of_none hstays, hstays]
  ok _ := next_checkpoint hrest
  error _ := next_checkpoint_of_error

theorem suffix_afterCalls (hrest : queue.rest <:+ queue.tokens) (count : Nat) :
    (queue.afterCalls count).tokens = queue.tokens ∧ (queue.afterCalls count).rest <:+ queue.tokens := by
  induction count with
  | zero => exact ⟨rfl, hrest⟩
  | succ count ih =>
    have hsuffix : (queue.afterCalls count).rest <:+ (queue.afterCalls count).tokens := ih.1 ▸ ih.2
    rw [afterCalls_succ, next_tokens]
    exact ⟨ih.1, (next_suffix hsuffix).1.trans ih.2⟩

/-! ## Runs -/

theorem run_length_le (hrest : queue.rest <:+ queue.tokens) (count : Nat) :
    ((queue.run count).filterMap Prod.fst).length ≤ queue.rest.length := by
  induction count generalizing queue with
  | zero => exact Nat.zero_le _
  | succ count ih =>
    obtain ⟨hsuffix, hlength⟩ := next_suffix hrest
    rw [run_succ]
    cases hresult : queue.next.1 with
    | none => simp [hresult]
    | some result =>
      have hlength := hlength (by simp [hresult])
      have hafter : queue.next.2.rest <:+ queue.next.2.tokens := next_tokens queue ▸ hsuffix.trans hrest
      have ih := ih hafter
      simp only [List.filterMap_cons, hresult, Option.isSome_some, if_true, List.length_cons]
      omega

end

/-- Whatever the tokens are, the first words of a text or all of them with its end, each call for the next statement
advances, however many calls there have been. So reading on comes to an end, with at most as many results as
there are tokens. -/
theorem ofTokens_advances (tokens : List Token) :
    (∀ count, ((StatementQueue.ofTokens tokens).afterCalls count).tokens = tokens ∧
      ((StatementQueue.ofTokens tokens).afterCalls count).Advances) ∧
    (∃ after, ((StatementQueue.ofTokens tokens).run (tokens.length + 1)).getLast? = some (none, after)) ∧
    (∀ count, tokens.length < count →
      (StatementQueue.ofTokens tokens).run count = (StatementQueue.ofTokens tokens).run (tokens.length + 1)) ∧
    (Statement.ofTokens tokens).length ≤ tokens.length := by
  have hrest : (StatementQueue.ofTokens tokens).rest <:+ (StatementQueue.ofTokens tokens).tokens := List.suffix_rfl
  obtain ⟨hends, hmore⟩ := run_ends hrest (Nat.lt_succ_self _)
  refine ⟨fun count => ?_, hends, fun count hcount => hmore count hcount, run_length_le hrest _⟩
  obtain ⟨htokens, hsuffix⟩ := suffix_afterCalls hrest count
  exact ⟨htokens, advances (htokens ▸ hsuffix)⟩

end StatementQueue

end ScenarioScript
