import ScenarioScript.Proofs.Expr.Descent
import ScenarioScript.Proofs.Expr.Local
import ScenarioScript.Proofs.Expr.Soundness

/-!
# Where reading goes

Every reading of the grammar comes to an end. It passes words only, so that it stays before the first token that is no
word. If it returns, it has taken a token at least, and the counter of levels is back where it was.
-/

namespace ScenarioScript

/-- A tier and all tighter ones. -/
def Tier.onward (tier : Tier) : List Tier := Tier.all.dropWhile (· ≠ tier)

/-- How tightly binds what is read, from whole expressions to operands without operators. -/
inductive Binding where
  | expression
  | tier (tier : Tier)
  | unary
  | operand
deriving DecidableEq, Repr

namespace Binding

open Grammar Reader

/-- The reader for a budget. -/
def reader (last : Option Token) (budget : Nat) : Binding → Reader Expr
  | expression => (ofBudget last budget).expression
  | tier loosest => (ofBudget last budget).chain loosest.onward
  | unary => (ofBudget last budget).unary
  | operand => readOperand last (oneLess last budget)

/-- The same reading with a count of levels. -/
def descent (parser : Parser) : Binding → Descent Expr
  | expression => parser.expression
  | tier loosest => parser.chain loosest.onward
  | unary => parser.unary
  | operand => parser.operand

def phrase : Binding → Expr → Phrase
  | expression => .expression
  | tier loosest => .chain loosest.onward
  | unary => .chain []
  | operand => .operand

/-! ## One reading -/

section
variable {last : Option Token} {depth budget : Nat} (binding : Binding)

theorem reader_isLocal (last : Option Token) (budget : Nat) : (binding.reader last budget).IsLocal := by
  cases binding with
  | expression => exact (ofBudget_local last budget).expression
  | tier loosest => exact (ofBudget_local last budget).chain loosest.onward
  | unary => exact (ofBudget_local last budget).unary
  | operand =>
    refine readOperand_local (fun inner hinner => ?_) last
    obtain ⟨less, -, rfl⟩ := exists_of_mem_oneLess hinner
    exact ofBudget_local last less

theorem reader_looksAhead (hlast : ∀ token ∈ last, token.isDone) (other : Option Token) (budget : Nat) :
    (binding.reader last budget).Looks (binding.reader other budget) := by
  cases binding with
  | expression => exact (ofBudget_looks hlast other budget).expression
  | tier loosest => exact (ofBudget_looks hlast other budget).chain loosest.onward
  | unary => exact (ofBudget_looks hlast other budget).unary
  | operand =>
    refine readOperand_looks ?_ hlast
    cases budget with
    | zero => exact .none
    | succ budget => exact .some (ofBudget_looks hlast other budget)

theorem reader_spellsPhrase (last : Option Token) (hbudget : depth + budget = maxDepth) :
    (binding.reader last budget).Spells last depth binding.phrase := by
  cases binding with
  | expression => exact (ofBudget_sound last hbudget).expression
  | tier loosest => exact (ofBudget_sound last hbudget).chain loosest.onward
  | unary => exact (ofBudget_sound last hbudget).unary
  | operand =>
    refine readOperand_spells fun inner hinner => ?_
    obtain ⟨less, rfl, rfl⟩ := exists_of_mem_oneLess hinner
    exact ⟨by omega, ofBudget_sound last (by omega)⟩

theorem descent_follows (hlast : ∀ token ∈ last, token.isDone) (hbudget : depth + budget = maxDepth)
    (tokens : List Token) :
    Descent.Follows last (binding.descent ⟨last⟩) (binding.reader last budget) depth (· = depth) tokens := by
  cases binding with
  | expression => exact (Descent.ofBudget_agrees hlast hbudget).expression tokens
  | tier loosest => exact (Descent.ofBudget_agrees hlast hbudget).chain loosest.onward tokens
  | unary => exact (Descent.ofBudget_agrees hlast hbudget).unary tokens
  | operand =>
    refine Descent.operand_follows hbudget (fun inner hinner => ?_) tokens
    obtain ⟨less, rfl, rfl⟩ := exists_of_mem_oneLess hinner
    exact ⟨Descent.ofBudget_agrees hlast (by omega), (ofBudget_looks hlast last less).expression⟩

/-- Reading ends before a token that it had in sight, and what it passed are words. If it returns, it passed some. -/
theorem exists_taken (hlast : ∀ token ∈ last, token.isDone) (hbudget : depth + budget = maxDepth)
    {tokens : List Token} (hstop : ∃ token ∈ tokens, token.isWord = false) :
    ∃ outcome taken next behind, tokens = taken ++ next :: behind ∧ (∀ token ∈ taken, token.isWord) ∧
      binding.reader last budget tokens = ending outcome (next :: behind) ∧
      ∀ e, outcome = .ok e → taken ≠ [] := by
  have hfound : (tokens.find? fun token => !token.isWord).isSome := List.find?_isSome.2 (by simpa using hstop)
  obtain ⟨stop, hfind⟩ := Option.isSome_iff_exists.1 hfound
  obtain ⟨hword, front, behind, rfl, hfront⟩ := List.find?_eq_some_iff_append.1 hfind
  -- reading does not get past the first token that is no word, whatever stands behind it
  obtain ⟨outcome, more, ⟨taken, rfl⟩, hread⟩ : ∃ outcome more, more <:+ front ∧
      binding.reader last budget (front ++ stop :: behind) = ending outcome (more ++ stop :: behind) := by
    rcases binding.reader_isLocal last budget (by simpa using hword) front with
      ⟨e, more, hmore, hread⟩ | ⟨fault, more, hmore, hread⟩
    · exact ⟨.ok e, more, hmore, hread behind⟩
    · exact ⟨.error fault, more, hmore, hread behind⟩
  obtain ⟨next, rest, hnext⟩ := List.exists_cons_of_ne_nil (l := more ++ stop :: behind) (by simp)
  refine ⟨outcome, taken, next, rest, by rw [← hnext, List.append_assoc], ?_, hnext ▸ hread, ?_⟩
  · intro token htoken
    simpa using hfront token (List.mem_append_left more htoken)
  · rintro e rfl
    -- what is returned is spelled by what was taken, and no expression is spelled by nothing
    obtain ⟨others, happend, hspells⟩ :=
      binding.reader_spellsPhrase last hbudget (inSight_of_isDone hlast _) hread
    obtain rfl : taken = others := List.append_cancel_right (by rw [← happend, List.append_assoc])
    exact hspells.ne_nil (by cases binding <;> simp [phrase])

end

/-! ## What a reading comes to -/

theorem exists_not_isWord {tokens : List Token} (hlast : ∀ token ∈ tokens.getLast?, token.isDone) {start : Nat}
    (hstart : start < tokens.length) : ∃ token ∈ tokens.drop start, token.isWord = false := by
  have hne : tokens.drop start ≠ [] := by
    rw [ne_eq, List.drop_eq_nil_iff]
    omega
  have hfinal : ((tokens.drop start).getLast hne).isDone := by
    refine hlast _ ?_
    rw [List.getLast_drop, Option.mem_def, ← List.getLast?_eq_some_getLast]
  refine ⟨_, List.getLast_mem hne, Bool.eq_false_iff.2 fun hword => ?_⟩
  rw [Token.isDone_eq_false_of_isWord hword] at hfinal
  exact Bool.false_ne_true hfinal

theorem outcome_of_ending {α : Type} {r : Reader α} {outcome : Except ParseFault α} {tokens behind : List Token}
    {next : Token} (last : Option Token) (h : r tokens = ending outcome (next :: behind)) :
    r.outcome last tokens = (outcome.mapError fun fault => .atToken fault (some next), next :: behind) := by
  unfold Reader.outcome
  rw [h]
  cases outcome <;> rfl

theorem descent_eq (binding : Binding) {last : Option Token} (hlast : ∀ token ∈ last, token.isDone)
    {depth budget : Nat} (hbudget : depth + budget = maxDepth) {tokens behind : List Token} {next : Token}
    {outcome : Except ParseFault Expr} (h : binding.reader last budget tokens = ending outcome (next :: behind)) :
    ∃ left, binding.descent ⟨last⟩ ⟨tokens, depth⟩ =
        some (outcome.mapError fun fault => .atToken fault (some next), ⟨next :: behind, left⟩) ∧
      ∀ e, outcome = .ok e → left = depth := by
  obtain ⟨left, hdescent, hleft⟩ := (binding.descent_follows hlast hbudget tokens).outcome
  rw [outcome_of_ending last h] at hdescent hleft
  refine ⟨left, hdescent, ?_⟩
  rintro e rfl
  exact hleft e rfl

/-- From any place in some tokens that end with the end, every reading comes to an end. It passes words only and stays
before the last token. If it returns, the counter is back and a token at least has been taken. It is the reading for
what the counter leaves of the budget. Other tokens and another place make no difference if the tokens that were passed
and the next one are the same. -/
theorem descent_returns (binding : Binding) (tokens : List Token) (hlast : ∀ token ∈ tokens.getLast?, token.isDone)
    (start depth : Nat) (hstart : start < tokens.length) (hdepth : depth ≤ maxDepth) :
    ∃ outcome stop left,
      binding.descent ⟨tokens.getLast?⟩ ⟨tokens.drop start, depth⟩ = some (outcome, ⟨tokens.drop stop, left⟩) ∧
      start ≤ stop ∧ stop < tokens.length ∧
      (∀ index token, start ≤ index → index < stop → tokens[index]? = some token → token.isWord) ∧
      (∀ e, outcome = .ok e → left = depth ∧ start < stop) ∧
      (binding.reader tokens.getLast? (maxDepth - depth)).outcome tokens.getLast? (tokens.drop start) =
        (outcome, tokens.drop stop) ∧
      ∀ (others : List Token) (place : Nat), (∀ token ∈ others.getLast?, token.isDone) →
        (others.drop place).take (stop + 1 - start) = (tokens.drop start).take (stop + 1 - start) →
        ∃ left', binding.descent ⟨others.getLast?⟩ ⟨others.drop place, depth⟩ =
          some (outcome, ⟨others.drop (place + (stop - start)), left'⟩) := by
  have hbudget : depth + (maxDepth - depth) = maxDepth := Nat.add_sub_cancel' hdepth
  obtain ⟨outcome, taken, next, behind, htokens, htaken, hread, hok⟩ :=
    binding.exists_taken hlast hbudget (exists_not_isWord hlast hstart)
  obtain ⟨left, hdescent, hleft⟩ := binding.descent_eq hlast hbudget hread
  have hstop : tokens.drop (start + taken.length) = next :: behind := by
    rw [← List.drop_drop, htokens, List.drop_left]
  have hwindow : (tokens.drop start).take (taken.length + 1) = taken ++ [next] := by
    rw [htokens, List.take_length_add_append]
    rfl
  have hcount : start + taken.length + 1 - start = taken.length + 1 := by omega
  refine ⟨_, start + taken.length, left, hstop ▸ hdescent, Nat.le_add_right _ _, ?_, ?_, ?_, ?_, ?_⟩
  · have hlength := congrArg List.length hstop
    rw [List.length_drop, List.length_cons] at hlength
    omega
  · intro index token hle hlt hindex
    obtain ⟨count, rfl⟩ := Nat.exists_eq_add_of_le hle
    rw [← List.getElem?_drop, htokens, List.getElem?_append_left (by omega)] at hindex
    exact htaken token (List.mem_of_getElem? hindex)
  · intro e he
    obtain rfl : outcome = .ok e := by
      cases outcome with
      | ok e' =>
        cases he
        rfl
      | error fault => cases he
    have hpos : 0 < taken.length := List.length_pos_iff.2 (hok e rfl)
    exact ⟨hleft e rfl, by omega⟩
  · rw [hstop]
    exact outcome_of_ending _ hread
  · intro others place hother hsame
    rw [hcount, hwindow] at hsame
    obtain ⟨more, hmore⟩ : ∃ more, others.drop place = taken ++ next :: more :=
      ⟨(others.drop place).drop (taken.length + 1), by rw [List.append_cons, ← hsame, List.take_append_drop]⟩
    have hrest : others.drop (place + (start + taken.length - start)) = next :: more := by
      rw [Nat.add_sub_cancel_left, ← List.drop_drop, hmore, List.drop_left]
    obtain ⟨front, hfront, hlooks⟩ :=
      binding.reader_looksAhead hlast others.getLast? (maxDepth - depth) (tokens.drop start) outcome hread
    obtain rfl : front = taken := List.append_cancel_right (hfront.symm.trans htokens)
    obtain ⟨left', hdescent', -⟩ := binding.descent_eq hother hbudget (hlooks more)
    rw [hrest, hmore]
    exact ⟨left', hdescent'⟩

/-- Behind 63 levels, `-a + b` in `x: -a + b; c` is read up to the semicolon, and the counter is back at 63. -/
theorem descent_returns_sum :
    let name (text : String) : Token := ⟨.name, .ofString text, 1, "s.scn"⟩
    let sign (symbol : Symbol) : Token := ⟨.symbol symbol, .ofString symbol.text, 1, "s.scn"⟩
    let final : Token := ⟨.done, .ofString "", 1, "s.scn"⟩
    let var (text : String) : Expr := .var (StoredText.ofString text).toString
    let tokens := [name "x", sign .colon, sign .minus, name "a", sign .plus, name "b", sign .semicolon, name "c", final]
    (∀ token ∈ tokens.getLast?, token.isDone) ∧ 2 < tokens.length ∧ 63 ≤ maxDepth ∧
      (tier .sum).descent ⟨some final⟩ ⟨tokens.drop 2, 63⟩ =
        some (.ok (.binary .add (.unary .neg (var "a")) (var "b")), ⟨tokens.drop 6, 63⟩) := by
  intro name sign final var tokens
  have hlast : ∀ token ∈ tokens.getLast?, token.isDone := by decide
  refine ⟨hlast, by decide, by decide, ?_⟩
  obtain ⟨outcome, stop, left, hdescent, -, -, -, hok, hreader, -⟩ :=
    descent_returns (tier .sum) tokens hlast 2 63 (by decide) (by decide)
  have hread : ((tier .sum).reader (some final) 1).outcome (some final) (tokens.drop 2) =
      (.ok (.binary .add (.unary .neg (var "a")) (var "b")), tokens.drop 6) := rfl
  obtain ⟨rfl, hstop⟩ := Prod.mk.inj (hread.symm.trans hreader)
  obtain ⟨rfl, -⟩ := hok _ rfl
  rw [hstop]
  exact hdescent

end Binding

end ScenarioScript
