import ScenarioScript.Proofs.Statement.Recovery

/-!
# Tokens without an end

A list of tokens may lack the end of its text, as the first tokens of a text do. Then its last token stays in sight
where reading comes to the end of the list. No expression comes of that, so the list is read like the same list with an
end behind it.
-/

namespace ScenarioScript

theorem Reader.eq_nil_of_atEnd {tokens : List Token} (h : Reader.atEnd tokens)
    (htokens : ∀ token ∈ tokens, ¬ token.isDone) : tokens = [] := by
  cases tokens with
  | nil => rfl
  | cons token rest => exact absurd h (htokens token List.mem_cons_self)

theorem Expr.ofTokens?_eq_ok_iff_of_not_isDone {tokens : List Token} (htokens : ∀ token ∈ tokens, ¬ token.isDone)
    {e : Expr} : ofTokens? tokens = .ok e ↔ Derives 0 (.expression e) tokens := by
  rw [ofTokens?_eq_ok]
  constructor
  · rintro ⟨rest, hread, hend⟩
    obtain ⟨taken, happend, he⟩ := reader_spells _ (inSight_getLast? tokens) hread
    have hrest : rest = [] := Reader.eq_nil_of_atEnd hend fun token htoken => htokens token (by simp [happend, htoken])
    rwa [happend, hrest, List.append_nil]
  · intro he
    have hread : reader tokens.getLast? (tokens ++ []) = .ok e [] := reader_append he (endsExpression_of_atEnd rfl)
    exact ⟨[], by rwa [List.append_nil] at hread, rfl⟩

namespace Statement

theorem not_isSemicolon_of_isDone {token : Token} (h : token.isDone) : ¬ isSemicolon token := by
  rw [isSemicolon_iff, of_decide_eq_true h]
  simp

theorem Ends.suffix {tokens rest : List Token} (h : Ends tokens rest) : rest <:+ tokens := by
  rcases h with ⟨token, rfl, -⟩ | ⟨-, rfl⟩
  · exact List.suffix_cons token rest
  · exact List.suffix_rfl

/-! ## One statement -/

section
variable {last : Option Token} {final : Token} {tokens rest after : List Token} {e : Expr}

theorem inSight_splitLabel (h : InSight last tokens) : InSight last (splitLabel tokens).2 := by
  by_cases hlabel : HasLabel tokens
  · obtain ⟨name, colon, rest, rfl, hname, hcolon⟩ := hlabel
    have h : InSight last ([name] ++ colon :: rest) := h
    rw [splitLabel_cons hname hcolon]
    exact h.behind hcolon
  · rwa [splitLabel_of_not_hasLabel hlabel]

theorem exists_reader_ends_iff (hsight : InSight last tokens) :
    (∃ middle, Expr.reader last tokens = .ok e middle ∧ Ends middle rest) ↔
      ∃ taken middle, tokens = taken ++ middle ∧ Derives 0 (.expression e) taken ∧ Ends middle rest := by
  constructor
  · rintro ⟨middle, hread, hends⟩
    obtain ⟨taken, happend, he⟩ := Expr.reader_spells last hsight hread
    exact ⟨taken, middle, happend, he, hends⟩
  · rintro ⟨taken, middle, rfl, he, hends⟩
    exact ⟨middle, Expr.reader_append he hends.endsExpression, hends⟩

theorem reader_eq_ok_iff_derives {statement : Statement} (hsight : InSight last tokens) :
    reader last tokens = .ok statement rest ↔
      ∃ e, (∃ taken middle, (splitLabel tokens).2 = taken ++ middle ∧ Derives 0 (.expression e) taken ∧
        Ends middle rest) ∧ statement = ⟨(splitLabel tokens).1, e, firstLine last tokens⟩ := by
  simp only [reader_eq_ok_iff, ← exists_reader_ends_iff (inSight_splitLabel hsight)]
  constructor
  · rintro ⟨e, middle, hread, hends, rfl⟩
    exact ⟨e, ⟨middle, hread, hends⟩, rfl⟩
  · rintro ⟨e, ⟨middle, hread, hends⟩, rfl⟩
    exact ⟨e, middle, hread, hends, rfl⟩

theorem reader_suffix {statement : Statement} (hsight : InSight last tokens)
    (h : reader last tokens = .ok statement rest) : rest <:+ tokens ∧ rest.length < tokens.length := by
  obtain ⟨e, ⟨taken, middle, happend, he, hends⟩, -⟩ := (reader_eq_ok_iff_derives hsight).1 h
  have hpos : 0 < taken.length := List.length_pos_iff.2 (he.ne_nil (by simp))
  have hlength := congrArg List.length happend
  have hrest := hends.suffix.length_le
  have htokens := (splitLabel_suffix tokens).length_le
  rw [List.length_append] at hlength
  refine ⟨(hends.suffix.trans ?_).trans (splitLabel_suffix tokens), by omega⟩
  rw [happend]
  exact List.suffix_append taken middle

variable (hfinal : final.isDone) (htokens : ∀ token ∈ tokens, ¬ token.isDone)
include hfinal htokens

theorem ends_concat_iff : Ends (tokens ++ [final]) after ↔ ∃ rest, after = rest ++ [final] ∧ Ends tokens rest := by
  have hsemicolon := not_isSemicolon_of_isDone hfinal
  cases tokens with
  | nil =>
    constructor
    · rintro (⟨token, h, htoken⟩ | ⟨-, rfl⟩)
      · cases h
        exact absurd htoken hsemicolon
      · exact ⟨[], rfl, .inr ⟨rfl, rfl⟩⟩
    · rintro ⟨rest, rfl, ⟨token, h, -⟩ | ⟨-, rfl⟩⟩
      · cases h
      · exact .inr ⟨hfinal, rfl⟩
  | cons token more =>
    have htoken : ¬ token.isDone := htokens token List.mem_cons_self
    constructor
    · rintro (⟨_, h, hkind⟩ | ⟨hend, -⟩)
      · cases h
        exact ⟨more, rfl, .inl ⟨token, rfl, hkind⟩⟩
      · exact absurd hend htoken
    · rintro ⟨rest, rfl, ⟨_, h, hkind⟩ | ⟨hend, -⟩⟩
      · cases h
        exact .inl ⟨token, rfl, hkind⟩
      · exact absurd hend htoken

theorem exists_derives_concat_iff :
    (∃ taken middle, tokens ++ [final] = taken ++ middle ∧ Derives 0 (.expression e) taken ∧ Ends middle after) ↔
      ∃ rest, after = rest ++ [final] ∧
        ∃ taken middle, tokens = taken ++ middle ∧ Derives 0 (.expression e) taken ∧ Ends middle rest := by
  constructor
  · rintro ⟨taken, middle, happend, he, hends⟩
    rcases List.eq_nil_or_concat middle with rfl | ⟨middle, last, rfl⟩
    · -- the end of the text is no part of an expression
      rw [List.append_nil] at happend
      have hmem : final ∈ taken := happend ▸ List.mem_append_right tokens List.mem_cons_self
      simpa [hfinal] using he.not_isDone final hmem
    · rw [List.concat_eq_append, ← List.append_assoc] at happend
      obtain ⟨rfl, hlast⟩ := List.append_inj' happend rfl
      cases hlast
      have hmiddle : ∀ token ∈ middle, ¬ token.isDone := fun token htoken => htokens token (by simp [htoken])
      rw [List.concat_eq_append] at hends
      obtain ⟨rest, rfl, hrest⟩ := (ends_concat_iff hfinal hmiddle).1 hends
      exact ⟨rest, rfl, taken, middle, rfl, he, hrest⟩
  · rintro ⟨rest, rfl, taken, middle, rfl, he, hends⟩
    have hmiddle : ∀ token ∈ middle, ¬ token.isDone := fun token htoken => htokens token (by simp [htoken])
    exact ⟨taken, middle ++ [final], by simp, he, (ends_concat_iff hfinal hmiddle).2 ⟨rest, rfl, hends⟩⟩

theorem reader_concat_eq_ok_iff {statement : Statement} (hsight : InSight last tokens) (hne : tokens ≠ []) :
    reader (some final) (tokens ++ [final]) = .ok statement after ↔
      ∃ rest, after = rest ++ [final] ∧ reader last tokens = .ok statement rest := by
  have hlast : ∀ token ∈ some final, token.isDone := by simpa using hfinal
  have hlabel : splitLabel (tokens ++ [final]) = ((splitLabel tokens).1, (splitLabel tokens).2 ++ [final]) :=
    splitLabel_append (by simp [isInner, hfinal])
  have hline : firstLine (some final) (tokens ++ [final]) = firstLine last tokens := by
    obtain ⟨token, more, rfl⟩ := List.exists_cons_of_ne_nil hne
    rfl
  have hbehind : ∀ token ∈ (splitLabel tokens).2, ¬ token.isDone := fun token htoken =>
    htokens token (mem_of_mem_splitLabel htoken)
  rw [reader_eq_ok_iff_derives (inSight_of_isDone hlast _), hlabel, hline]
  simp only [exists_derives_concat_iff hfinal hbehind, reader_eq_ok_iff_derives hsight]
  constructor
  · rintro ⟨e, ⟨rest, rfl, he⟩, rfl⟩
    exact ⟨rest, rfl, e, he, rfl⟩
  · rintro ⟨rest, rfl, e, he, rfl⟩
    exact ⟨e, ⟨rest, rfl, he⟩, rfl⟩

/-! ## What is skipped -/

omit htokens in
theorem dropWhile_isSemicolon_concat :
    (tokens ++ [final]).dropWhile isSemicolon = tokens.dropWhile isSemicolon ++ [final] := by
  rw [List.dropWhile_append]
  split
  · have hempty : tokens.dropWhile isSemicolon = [] := List.isEmpty_iff.1 ‹_›
    rw [hempty, List.dropWhile_cons_of_neg (not_isSemicolon_of_isDone hfinal)]
    rfl
  · rfl

theorem skip_concat (openLine : Option UInt32) :
    skip openLine (tokens ++ [final]) = skip openLine tokens ++ [final] := by
  induction tokens generalizing openLine with
  | nil => exact skip_cons_of_isDone hfinal
  | cons token more ih =>
    have ih := ih fun other hother => htokens other (List.mem_cons_of_mem _ hother)
    rw [List.cons_append, skip, skip]
    split
    · rfl
    · split
      · rfl
      · exact ih _
      · exact ih _

end

end Statement

/-! ## Statement after statement -/

namespace StatementQueue

open Statement

section
variable {queue : StatementQueue}

theorem next_tokens (queue : StatementQueue) : queue.next.2.tokens = queue.tokens := by
  obtain ⟨-, hnext⟩ | ⟨-, ⟨statement, rest, -, hnext⟩ | ⟨fault, rest, -, hnext⟩⟩ := queue.next_cases <;> rw [hnext]

theorem inSight_of_suffix {rest : List Token} (hrest : rest <:+ queue.tokens) (hne : rest ≠ []) :
    InSight queue.tokens.getLast? rest := by
  obtain ⟨front, hfront⟩ := hrest
  rw [← hfront, List.getLast?_append_of_ne_nil _ hne]
  exact inSight_getLast? rest

theorem next_suffix (hrest : queue.rest <:+ queue.tokens) : queue.next.2.rest <:+ queue.rest ∧
    (queue.next.1 ≠ none → queue.next.2.rest.length < queue.rest.length) := by
  have hdrop : queue.rest.dropWhile isSemicolon <:+ queue.rest := List.dropWhile_suffix _
  obtain ⟨-, hnext⟩ | ⟨hend, hcases⟩ := queue.next_cases
  · rw [hnext]
    exact ⟨hdrop, fun hnone => absurd rfl hnone⟩
  obtain ⟨token, more, hmore, hdone, -⟩ := exists_cons_of_not_atEnd hend
  obtain ⟨statement, rest, hread, hnext⟩ | ⟨fault, rest, -, hnext⟩ := hcases
  · have hsight : InSight queue.tokens.getLast? (queue.rest.dropWhile isSemicolon) :=
      inSight_of_suffix (hdrop.trans hrest) (by simp [hmore])
    obtain ⟨hsuffix, hlength⟩ := reader_suffix hsight hread
    rw [hnext]
    exact ⟨hsuffix.trans hdrop, fun _ => Nat.lt_of_lt_of_le hlength hdrop.length_le⟩
  · rw [hnext]
    refine ⟨(skip_suffix _ _).trans hdrop, fun _ => Nat.lt_of_lt_of_le ?_ hdrop.length_le⟩
    dsimp only
    rw [hmore]
    exact skip_length_lt hdone

theorem run_succ (queue : StatementQueue) (count : Nat) :
    queue.run (count + 1) = queue.next :: if queue.next.1.isSome then queue.next.2.run count else [] := by
  rw [run]
  generalize queue.next = step
  obtain ⟨result, after⟩ := step
  cases result with
  | none => rfl
  | some result => rfl

theorem run_ends (hrest : queue.rest <:+ queue.tokens) {count : Nat} (hcount : queue.rest.length < count) :
    (∃ after, (queue.run count).getLast? = some (none, after)) ∧
      ∀ more, queue.rest.length < more → queue.run more = queue.run count := by
  induction count generalizing queue with
  | zero => omega
  | succ count ih =>
    obtain ⟨hsuffix, hlength⟩ := next_suffix hrest
    have hafter : queue.next.2.rest <:+ queue.next.2.tokens := next_tokens queue ▸ hsuffix.trans hrest
    cases hresult : queue.next.1 with
    | none =>
      have hrun (count : Nat) : queue.run (count + 1) = [queue.next] := by
        rw [run_succ, hresult]
        rfl
      refine ⟨⟨queue.next.2, ?_⟩, fun more hmore => ?_⟩
      · rw [hrun]
        exact congrArg some (Prod.ext hresult rfl)
      · obtain ⟨more, rfl⟩ := Nat.exists_eq_add_one_of_ne_zero (Nat.ne_zero_of_lt hmore)
        rw [hrun, hrun]
    | some result =>
      have hlength := hlength (by simp [hresult])
      have hrun (count : Nat) : queue.run (count + 1) = queue.next :: queue.next.2.run count := by
        rw [run_succ, hresult]
        rfl
      obtain ⟨⟨after, hend⟩, hmore⟩ := ih hafter (by omega)
      refine ⟨⟨after, ?_⟩, fun more hlt => ?_⟩
      · rw [hrun, List.getLast?_cons, hend]
        rfl
      · obtain ⟨more, rfl⟩ := Nat.exists_eq_add_one_of_ne_zero (Nat.ne_zero_of_lt hlt)
        rw [hrun, hrun, hmore more (by omega)]

end

/-! ## With an end and without -/

/-- The queue with an end behind its tokens. -/
def withEnd (queue : StatementQueue) (final : Token) : StatementQueue :=
  ⟨queue.tokens ++ [final], queue.rest ++ [final], queue.checkpoint⟩

/-- There is no end in the tokens of the queue. -/
structure IsOpen (queue : StatementQueue) : Prop where
  suffix : queue.rest <:+ queue.tokens
  not_isDone : ∀ token ∈ queue.tokens, ¬ token.isDone

/-- What is seen of a step: the statement that was read, if one was, and where reading goes on. -/
def outline (step : Option (Except ParseError Statement) × StatementQueue) : Option (Option Statement) × Nat :=
  (step.1.map Except.toOption, step.2.position)

section
variable {queue : StatementQueue} {final : Token}

theorem position_withEnd (queue : StatementQueue) (final : Token) :
    (queue.withEnd final).position = queue.position := by
  simp [withEnd, position]

theorem IsOpen.not_isDone_rest (h : queue.IsOpen) : ∀ token ∈ queue.rest, ¬ token.isDone :=
  fun token htoken => h.not_isDone token (h.suffix.subset htoken)

theorem IsOpen.atEnd_iff (h : queue.IsOpen) : Reader.atEnd queue.rest ↔ queue.rest = [] := by
  refine ⟨fun hend => Reader.eq_nil_of_atEnd hend h.not_isDone_rest, fun hnil => ?_⟩
  rw [hnil]
  rfl

theorem IsOpen.of_suffix (h : queue.IsOpen) {rest : List Token} {checkpoint : Option Nat}
    (hrest : rest <:+ queue.rest) : IsOpen ⟨queue.tokens, rest, checkpoint⟩ :=
  ⟨hrest.trans h.suffix, h.not_isDone⟩

theorem IsOpen.dropWhile (h : queue.IsOpen) :
    IsOpen { queue with rest := queue.rest.dropWhile isSemicolon } :=
  h.of_suffix (List.dropWhile_suffix _)

theorem IsOpen.next (h : queue.IsOpen) : queue.next.2.IsOpen where
  suffix := next_tokens queue ▸ (next_suffix h.suffix).1.trans h.suffix
  not_isDone := next_tokens queue ▸ h.not_isDone

/-- With an end behind the tokens a step gives the same, and reading goes on at the same place. -/
theorem next_withEnd (hfinal : final.isDone) (h : queue.IsOpen) :
    (queue.withEnd final).next.1.map Except.toOption = queue.next.1.map Except.toOption ∧
      (queue.withEnd final).next.2 = queue.next.2.withEnd final := by
  have hdrop : (queue.withEnd final).rest.dropWhile isSemicolon = queue.rest.dropWhile isSemicolon ++ [final] :=
    dropWhile_isSemicolon_concat hfinal
  have hlast : (queue.withEnd final).tokens.getLast? = some final := List.getLast?_concat
  have hrest := h.dropWhile.not_isDone_rest
  by_cases hend : Reader.atEnd (queue.rest.dropWhile isSemicolon)
  · have hended : Reader.atEnd ((queue.withEnd final).rest.dropWhile isSemicolon) := by
      have hnil : queue.rest.dropWhile isSemicolon = [] := h.dropWhile.atEnd_iff.1 hend
      rwa [hdrop, hnil]
    rw [next_of_atEnd hend, next_of_atEnd hended, hdrop]
    exact ⟨rfl, rfl⟩
  have hne : queue.rest.dropWhile isSemicolon ≠ [] := mt h.dropWhile.atEnd_iff.2 hend
  have hended : ¬ Reader.atEnd ((queue.withEnd final).rest.dropWhile isSemicolon) := by
    obtain ⟨token, more, hmore⟩ := List.exists_cons_of_ne_nil hne
    rw [hdrop, hmore]
    exact hrest token (hmore ▸ List.mem_cons_self)
  have hreads {statement : Statement} {after : List Token} :
      reader (queue.withEnd final).tokens.getLast? ((queue.withEnd final).rest.dropWhile isSemicolon) =
          .ok statement after ↔
        ∃ rest, after = rest ++ [final] ∧
          reader queue.tokens.getLast? (queue.rest.dropWhile isSemicolon) = .ok statement rest := by
    rw [hlast, hdrop]
    exact reader_concat_eq_ok_iff hfinal hrest (inSight_of_suffix h.dropWhile.suffix hne) hne
  cases hread : reader queue.tokens.getLast? (queue.rest.dropWhile isSemicolon) with
  | ok statement rest =>
    have hplace : position { queue.withEnd final with rest := queue.rest.dropWhile isSemicolon ++ [final] } =
        position { queue with rest := queue.rest.dropWhile isSemicolon } :=
      position_withEnd { queue with rest := queue.rest.dropWhile isSemicolon } final
    rw [next_of_ok hend hread, next_of_ok hended (hreads.2 ⟨rest, rfl, hread⟩), hdrop, hplace]
    exact ⟨rfl, rfl⟩
  | error fault rest =>
    cases hother : reader (queue.withEnd final).tokens.getLast?
        ((queue.withEnd final).rest.dropWhile isSemicolon) with
    | ok statement after =>
      obtain ⟨rest', -, hok⟩ := hreads.1 hother
      cases hread.symm.trans hok
    | error fault' rest' =>
      rw [next_of_error hend hread, next_of_error hended hother, hdrop, skip_concat hfinal hrest]
      exact ⟨rfl, rfl⟩

theorem run_withEnd (hfinal : final.isDone) (h : queue.IsOpen) (count : Nat) :
    ((queue.withEnd final).run count).map outline = (queue.run count).map outline := by
  induction count generalizing queue with
  | zero => rfl
  | succ count ih =>
    obtain ⟨hresult, hafter⟩ := next_withEnd hfinal h
    have hstep : outline (queue.withEnd final).next = outline queue.next := by
      rw [outline, outline, hresult, hafter, position_withEnd]
    have hgoes : (queue.withEnd final).next.1.isSome = queue.next.1.isSome := by
      simpa using congrArg Option.isSome hresult
    rw [run_succ, run_succ, List.map_cons, List.map_cons, hstep, hgoes, hafter]
    split
    · rw [ih h.next]
    · rfl

end

end StatementQueue

/-- Whether a list of tokens ends with the end of a text or not, the same expression and the same statements are read
from it. The same statements fail, reading goes on at the same places, and it comes to an end. -/
theorem reads_without_end (tokens : List Token) (final : Token) (hfinal : final.isDone)
    (htokens : ∀ token ∈ tokens, ¬ token.isDone) :
    let queue := StatementQueue.ofTokens tokens
    let ended := StatementQueue.ofTokens (tokens ++ [final])
    (∀ e, Expr.ofTokens? tokens = .ok e ↔ Expr.ofTokens? (tokens ++ [final]) = .ok e) ∧
      (∀ count, (queue.run count).map StatementQueue.outline = (ended.run count).map StatementQueue.outline) ∧
      ∀ count, tokens.length < count → (∃ after, (queue.run count).getLast? = some (none, after)) ∧
        ∃ after, (ended.run count).getLast? = some (none, after) := by
  intro queue ended
  have hopen : queue.IsOpen := ⟨List.suffix_rfl, htokens⟩
  have hruns (count : Nat) :
      (ended.run count).map StatementQueue.outline = (queue.run count).map StatementQueue.outline :=
    StatementQueue.run_withEnd hfinal hopen count
  refine ⟨fun e => ?_, fun count => (hruns count).symm, fun count hcount => ?_⟩
  · rw [Expr.ofTokens?_eq_ok_iff_of_not_isDone htokens, Expr.ofTokens?_concat hfinal htokens]
  · obtain ⟨⟨after, hafter⟩, -⟩ := StatementQueue.run_ends hopen.suffix hcount
    have hlast := congrArg List.getLast? (hruns count)
    rw [List.getLast?_map, List.getLast?_map, hafter] at hlast
    obtain ⟨⟨result, other⟩, hother, houtline⟩ := Option.map_eq_some_iff.1 hlast
    obtain rfl : result = none := Option.map_eq_none_iff.1 (Prod.ext_iff.1 houtline).1
    exact ⟨⟨after, hafter⟩, other, hother⟩

/-- The last parenthesis stays in sight, and it is no operand. -/
theorem reads_without_end_parenthesis :
    let tokens := (Token.ofText "x: a; b + (" "s.scn").dropLast
    (∀ token ∈ tokens, ¬ token.isDone) ∧
      (((StatementQueue.ofTokens tokens).run 8).map StatementQueue.outline).map
        (Prod.map (Option.map Option.isSome) id) = [(some true, 4), (some false, 7), (none, 7)] := by
  intro tokens
  have htokens : ∀ token ∈ tokens, ¬ token.isDone := by decide +kernel
  refine ⟨htokens, ?_⟩
  rw [(reads_without_end tokens ⟨.done, .ofString "", 1, "s.scn"⟩ rfl htokens).2.1 8]
  decide +kernel

end ScenarioScript
