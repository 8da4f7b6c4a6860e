import ScenarioScript.Proofs.Expr.Soundness

/-!
# What spells a tree is read as that tree

A reader stops where it should: before tokens that cannot belong to what it reads. So the tree of a
row of tokens does not depend on what comes behind it.
-/

namespace ScenarioScript

/-! ## Where a phrase ends -/

/-- No operator of the tiers comes next, and no arguments of a call. -/
def Stops (tiers : List Tier) (rest : List Token) : Prop :=
  ¬ Begins .openParen rest ∧ ∀ op : BinaryOp, op.tier ∈ tiers → ¬ Begins op.symbol rest

/-- No operator at all comes next. -/
def EndsExpression (rest : List Token) : Prop := Stops Tier.all rest ∧ ¬ Begins .question rest

theorem Stops.next?_eq_none {tier : Tier} {tiers : List Tier} {rest : List Token}
    (h : Stops tiers rest) (htier : tier ∈ tiers) : tier.next? rest = none := by
  rw [Option.eq_none_iff_forall_ne_some]
  intro op hop
  obtain ⟨rfl, hbegins⟩ := Tier.next?_eq_some_iff.1 hop
  exact h.2 op htier hbegins

theorem Stops.of_cons {tier : Tier} {tighter : List Tier} {rest : List Token}
    (h : Stops (tier :: tighter) rest) : Stops tighter rest :=
  ⟨h.1, fun op hop => h.2 op (List.mem_cons_of_mem _ hop)⟩

theorem BinaryOp.symbol_injective {a b : BinaryOp} (h : a.symbol = b.symbol) : a = b := by
  cases a <;> cases b <;> first | rfl | cases h

theorem stops_of_operator {op : BinaryOp} {tighter : List Tier} {token : Token} {rest : List Token}
    (htoken : token.kind = .symbol op.symbol) (hop : op.tier ∉ tighter) :
    Stops tighter (token :: rest) := by
  constructor
  · rw [begins_cons, htoken]
    cases op <;> decide
  · intro other hother hbegins
    rw [begins_cons, htoken, TokenKind.symbol.injEq] at hbegins
    exact hop (BinaryOp.symbol_injective hbegins ▸ hother)

theorem endsExpression_of_symbol {symbol : Symbol} {token : Token} {rest : List Token}
    (htoken : token.kind = .symbol symbol)
    (h : symbol ∈ [Symbol.closeParen, .comma, .colon, .semicolon]) :
    EndsExpression (token :: rest) := by
  simp only [EndsExpression, Stops, begins_cons, htoken, TokenKind.symbol.injEq]
  simp only [List.mem_cons, List.not_mem_nil, or_false] at h
  rcases h with rfl | rfl | rfl | rfl
  all_goals
    refine ⟨⟨by decide, ?_⟩, by decide⟩
    rintro op - h
    cases op <;> cases h

theorem stops_of_question {token : Token} {rest : List Token}
    (htoken : token.kind = .symbol .question) : Stops Tier.all (token :: rest) := by
  simp only [Stops, begins_cons, htoken, TokenKind.symbol.injEq]
  refine ⟨by decide, ?_⟩
  rintro op - h
  cases op <;> cases h

theorem endsExpression_of_atEnd {rest : List Token} (h : Reader.atEnd rest) :
    EndsExpression rest := by
  cases rest with
  | nil => simp [EndsExpression, Stops]
  | cons token rest =>
    have hdone : token.kind = .done := of_decide_eq_true h
    simp [EndsExpression, Stops, hdone]

/-! ## How a phrase begins -/

theorem begins_append {symbol : Symbol} {tokens more : List Token} (h : tokens ≠ []) :
    Begins symbol (tokens ++ more) ↔ Begins symbol tokens := by
  obtain ⟨token, tokens, rfl⟩ := List.exists_cons_of_ne_nil h
  simp

namespace Derives

theorem not_begins_closeParen {charge : Nat} {phrase : Phrase} {tokens : List Token}
    (h : Derives charge phrase tokens) : ¬ Begins .closeParen tokens := by
  induction h with
  | number htoken | string htoken | var htoken => simp [htoken]
  | call hname => simp [hname]
  | parenthesis hopening => simp [hopening]
  | noArguments => simp
  | lastArgument he ih | operand he ih | first he ih | chain he ih | plain he ih => exact ih
  | argument he hcomma hargs ih => rwa [begins_append (he.ne_nil (by simp))]
  | @unary charge op e token tokens htoken =>
    rw [begins_cons, htoken]
    cases op <;> decide
  | next hleft htoken hcharge hright ih => rwa [begins_append (hleft.ne_nil (by simp))]
  | conditional hcondition hquestion hcharge hyes hcolon hno ih =>
    rwa [begins_append (hcondition.ne_nil (by simp))]

theorem unaryNext?_operand {charge : Nat} {e : Expr} {tokens rest : List Token}
    (h : Derives charge (.operand e) tokens) : UnaryOp.next? (tokens ++ rest) = none := by
  rw [Option.eq_none_iff_forall_ne_some]
  intro op hop
  have hbegins := UnaryOp.next?_eq_some_iff.1 hop
  cases h with
  | number htoken | string htoken | var htoken => simp [htoken] at hbegins
  | call hname => simp [hname] at hbegins
  | parenthesis hopening =>
    simp only [List.cons_append, begins_cons, hopening, TokenKind.symbol.injEq] at hbegins
    cases op <;> cases hbegins

/-! ## Reading a phrase -/

open Grammar Reader in
/-- What the readers for a budget make of the tokens of a phrase, whatever comes behind them. -/
def ReadsBack (last : Option Token) (budget : Nat) : Phrase → List Token → Prop
  | .expression e, tokens => ∀ rest, EndsExpression rest →
      (ofBudget last budget).expression (tokens ++ rest) = .ok e rest
  | .chain tiers e, tokens => tiers.Nodup → ∀ rest, Stops tiers rest →
      (ofBudget last budget).chain tiers (tokens ++ rest) = .ok e rest
  | .joined tier tighter count e, tokens => (tier :: tighter).Nodup → ∀ rest, Stops tighter rest →
      (ofBudget last budget).chain (tier :: tighter) (tokens ++ rest) =
        (ofBudget last (budget - count)).more tier tighter e rest
  | .operand e, tokens => ∀ rest, ¬ Begins .openParen rest →
      readOperand last (oneLess last budget) (tokens ++ rest) = .ok e rest
  | .arguments args, tokens => args ≠ [] → ∀ count rest, args.length ≤ count →
      EndsExpression rest → ¬ Begins .comma rest →
      readArguments (ofBudget last budget).expression count (tokens ++ rest) = .ok args rest

end Derives

namespace Grammar

theorem chain_eq {last : Option Token} {budget : Nat} {tiers : List Tier} :
    (ofBudget last budget).chain tiers = readChain last (oneLess last budget) tiers := by
  rw [ofBudget_eq]
  rfl

theorem more_eq {last : Option Token} {budget : Nat} {tier : Tier} {tighter : List Tier} {e : Expr} :
    (ofBudget last budget).more tier tighter e = readMore (oneLess last budget) tier tighter e := by
  rw [ofBudget_eq]
  rfl

theorem expression_eq {last : Option Token} {budget : Nat} :
    (ofBudget last budget).expression = readExpression last (oneLess last budget) := by
  rw [ofBudget_eq]
  rfl

theorem unary_eq {last : Option Token} {budget : Nat} :
    (ofBudget last budget).unary = (ofBudget last budget).chain [] := by
  rw [ofBudget_eq]
  rfl

theorem exists_oneLess (last : Option Token) {charge budget : Nat} (levels : Nat)
    (hbudget : charge + budget = maxDepth) (h : charge + (levels + 1) ≤ maxDepth) :
    ∃ smaller, budget - levels = smaller + 1 ∧ charge + (levels + 1) + smaller = maxDepth ∧
      oneLess last (budget - levels) = some (ofBudget last smaller) := by
  obtain ⟨smaller, hsmaller⟩ : ∃ smaller, budget - levels = smaller + 1 :=
    ⟨budget - levels - 1, by omega⟩
  exact ⟨smaller, hsmaller, by omega, by rw [hsmaller]; rfl⟩

end Grammar

namespace Derives

open Grammar Reader

theorem readsBack {charge : Nat} {phrase : Phrase} {tokens : List Token}
    (h : Derives charge phrase tokens) (last : Option Token) {budget : Nat}
    (hbudget : charge + budget = maxDepth) : ReadsBack last budget phrase tokens := by
  induction h generalizing budget with
  | number htoken =>
    intro rest hrest
    exact readOperand_number htoken
  | string htoken =>
    intro rest hrest
    exact readOperand_string htoken
  | var htoken =>
    intro rest hrest
    exact readOperand_var htoken hrest
  | @call charge args name opening closing tokens hname hopening hcharge hargs hclosing ih =>
    intro rest hrest
    obtain ⟨smaller, -, hsmaller, hless⟩ := exists_oneLess last 0 hbudget hcharge
    rw [List.cons_append, List.cons_append, readOperand_call hname hopening]
    rw [Nat.sub_zero] at hless
    rw [hless]
    by_cases hnil : args = []
    · subst hnil
      cases hargs
      exact readCall_noArguments hclosing
    · have hlength := hargs.length_arguments_le args rfl
      have hread := ih hsmaller hnil ((tokens ++ closing :: rest).length + 1) (closing :: rest)
        (by simp only [List.length_append]; omega) (endsExpression_of_symbol hclosing (by decide))
        (by rw [begins_cons, hclosing]; decide)
      have hne : tokens ≠ [] := hargs.ne_nil (by simpa using hnil)
      rw [List.append_assoc, List.singleton_append, readCall_arguments
        (by rw [begins_append hne]; exact hargs.not_begins_closeParen), bind_of_ok hread,
        bind_of_ok (expect_of_kind hclosing)]
      rfl
  | @parenthesis charge e opening closing tokens hopening hcharge he hclosing ih =>
    intro rest hrest
    obtain ⟨smaller, -, hsmaller, hless⟩ := exists_oneLess last 0 hbudget hcharge
    rw [Nat.sub_zero] at hless
    have hread := ih hsmaller (closing :: rest) (endsExpression_of_symbol hclosing (by decide))
    rw [List.cons_append, readOperand_openParen hopening, hless, readParenthesis_some,
      List.append_assoc, List.singleton_append, bind_of_ok hread,
      bind_of_ok (expect_of_kind hclosing)]
    rfl
  | noArguments =>
    intro h
    exact absurd rfl h
  | @lastArgument charge e tokens he ih =>
    intro _ count rest hcount hends hcomma
    obtain ⟨count, rfl⟩ : ∃ n, count = n + 1 := ⟨count - 1, by simp at hcount; omega⟩
    refine (bind_of_ok (ih hbudget rest hends)).trans ?_
    exact bind_of_ok (accept_of_not_begins hcomma)
  | @argument charge e next args comma tokens more he hcomma hargs ihe ihargs =>
    intro _ count rest hcount hends hrest
    obtain ⟨count, rfl⟩ : ∃ n, count = n + 1 := ⟨count - 1, by simp at hcount; omega⟩
    have hread := ihargs hbudget (by simp) count rest (by simpa using hcount) hends hrest
    rw [List.append_assoc, List.cons_append]
    refine (bind_of_ok (ihe hbudget _ (endsExpression_of_symbol hcomma (by decide)))).trans ?_
    refine (bind_of_ok (accept_of_kind hcomma)).trans ?_
    exact bind_of_ok hread
  | operand he ih =>
    intro _ rest hstops
    rw [chain_eq]
    exact (readUnary_operand he.unaryNext?_operand).trans (ih hbudget rest hstops.1)
  | @unary charge op e token tokens htoken hcharge he ih =>
    intro _ rest hstops
    obtain ⟨smaller, -, hsmaller, hless⟩ := exists_oneLess last 0 hbudget hcharge
    rw [Nat.sub_zero] at hless
    have hread := ih hsmaller List.nodup_nil rest hstops
    rw [chain_eq, hless]
    refine (readUnary_some htoken).trans ?_
    rw [unary_eq]
    exact bind_of_ok hread
  | first he ih =>
    intro hnodup rest hstops
    have hread := ih hbudget (List.nodup_cons.1 hnodup).2 rest hstops
    rw [chain_eq] at hread
    rw [chain_eq, more_eq]
    exact bind_of_ok hread
  | @next charge count tighter op left right token tokens more hleft htoken hcharge hright ihl ihr =>
    intro hnodup rest hstops
    obtain ⟨smaller, hlevels, hsmaller, hless⟩ := exists_oneLess last count hbudget hcharge
    have hread := ihr hsmaller (List.nodup_cons.1 hnodup).2 rest hstops
    rw [List.append_assoc, List.cons_append,
      ihl hbudget hnodup _ (stops_of_operator htoken (List.nodup_cons.1 hnodup).1), more_eq, hless,
      readMore_some htoken, bind_of_ok hread]
    rw [show budget - (count + 1) = smaller by omega]
  | chain he ih =>
    intro hnodup rest hstops
    rw [ih hbudget hnodup rest hstops.of_cons, more_eq]
    exact readMore_left (hstops.next?_eq_none List.mem_cons_self)
  | plain he ih =>
    intro rest hends
    have hread := ih hbudget (by decide) rest hends.1
    rw [chain_eq] at hread
    rw [expression_eq]
    exact readExpression_plain hread hends.2
  | @conditional charge condition yes no question colon tokens tokensYes tokensNo hcondition hquestion
      hcharge hyes hcolon hno ihc ihy ihn =>
    intro rest hends
    obtain ⟨smaller, -, hsmaller, hless⟩ := exists_oneLess last 0 hbudget hcharge
    rw [Nat.sub_zero] at hless
    have hread := ihc hbudget (by decide) (question :: (tokensYes ++ colon :: (tokensNo ++ rest)))
      (stops_of_question hquestion)
    rw [chain_eq, hless] at hread
    have hyes := ihy hsmaller (colon :: (tokensNo ++ rest))
      (endsExpression_of_symbol hcolon (by decide))
    have hno := ihn hsmaller rest hends
    simp only [List.append_assoc, List.cons_append]
    rw [expression_eq, hless, readExpression_some hread hquestion, bind_of_ok hyes,
      bind_of_ok (expect_of_kind hcolon), bind_of_ok hno]
    rfl

end Derives

end ScenarioScript
