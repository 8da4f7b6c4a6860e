import ScenarioScript.Proofs.Expr.Grammar

/-!
# What can still become an expression

Reading stops at the first token with which there is no expression any more. The tokens before it begin one, and a
number and the signs that are still open end it. That needs no level of the budget that is not taken already.
-/

namespace ScenarioScript

/-! ## The shortest phrases -/

/-- A token to end a phrase with. -/
def Token.filler (kind : TokenKind) : Token := ⟨kind, .ofString "", 1, ""⟩

/-- A number is the shortest operand. -/
def Token.zero : Token := filler (.number (Number.ofNat 0))

namespace Derives

theorem chain_of_operand {charge : Nat} {e : Expr} {tokens : List Token} (h : Derives charge (.operand e) tokens)
    (tiers : List Tier) : Derives charge (.chain tiers e) tokens := by
  induction tiers with
  | nil => exact .operand h
  | cons tier tighter ih => exact .chain (.first ih)

theorem zero (charge : Nat) : Derives charge (.operand (.literal (.number (Number.ofNat 0)))) [Token.zero] :=
  .number rfl

end Derives

/-- If the reader stops for want of anything but levels, then what it has taken begins some phrase. -/
def Reader.Viable {α : Type} (r : Reader α) (charge : Nat) (phrase : α → Phrase) : Prop :=
  ∀ ⦃tokens fault rest⦄, r tokens = .error fault rest → fault ≠ .tooDeep →
    ∃ taken more a, tokens = taken ++ rest ∧ Derives charge (phrase a) (taken ++ more)

namespace Grammar

open Reader

/-- The readers behind `charge` levels stop where there is no phrase any more. The rest of a chain belongs to a left
part that began before as many levels as it has operators. -/
structure Viable (g : Grammar) (charge : Nat) : Prop where
  expression : g.expression.Viable charge .expression
  unary : g.unary.Viable charge (.chain [])
  chain : ∀ tiers, (g.chain tiers).Viable charge (.chain tiers)
  more : ∀ {start count tier tighter left taken tokens fault rest}, start + count = charge →
    Derives start (.joined tier tighter count left) taken →
    g.more tier tighter left tokens = .error fault rest → fault ≠ .tooDeep →
    ∃ count' further more e, tokens = further ++ rest ∧
      Derives start (.joined tier tighter count' e) (taken ++ further ++ more)

section
variable {last : Option Token} {smaller : Option Grammar} {charge : Nat} {fault : ParseFault}
  {tokens rest : List Token}

theorem readArguments_viable {expression : Reader Expr} (hspells : expression.Spells last charge .expression)
    (hlast : ∀ token ∈ last, token.isDone) (hviable : expression.Viable charge .expression)
    (hfault : fault ≠ .tooDeep) {count : Nat}
    (h : readArguments expression count tokens = .error fault rest) :
    ∃ taken more args, tokens = taken ++ rest ∧ args ≠ [] ∧ Derives charge (.arguments args) (taken ++ more) := by
  induction count generalizing tokens with
  | zero => cases h
  | succ count ih =>
    cases hfirst : expression tokens with
    | error fault' middle =>
      cases (readArguments_error hfirst).symm.trans h
      obtain ⟨taken, more, e, rfl, he⟩ := hviable hfirst hfault
      exact ⟨taken, more, [e], rfl, by simp, .lastArgument he⟩
    | ok e middle =>
      obtain ⟨taken, rfl, he⟩ := hspells (inSight_of_isDone hlast _) hfirst
      by_cases hcomma : Begins .comma middle
      · obtain ⟨comma, behind, rfl, hkind⟩ := hcomma
        rw [readArguments_more hfirst hkind] at h
        rcases bind_eq_error_iff.1 h with hothers | ⟨args, final, -, hpure⟩
        · obtain ⟨further, more, args, rfl, hne, hargs⟩ := ih hothers
          obtain ⟨next, args, rfl⟩ := List.exists_cons_of_ne_nil hne
          exact ⟨taken ++ comma :: further, more, e :: next :: args, by simp, by simp,
            by simpa using he.argument hkind hargs⟩
        · cases hpure
      · rw [readArguments_last hfirst hcomma] at h
        cases h

variable (hsmaller : ∀ inner ∈ smaller,
    charge + 1 ≤ maxDepth ∧ inner.Sound last (charge + 1) ∧ inner.Viable (charge + 1))
  (hlast : ∀ token ∈ last, token.isDone)
include hsmaller hlast

theorem readParenthesis_viable {opening : Token} (hopening : opening.kind = .symbol .openParen)
    (h : readParenthesis smaller tokens = .error fault rest) (hfault : fault ≠ .tooDeep) :
    ∃ taken more e, opening :: tokens = taken ++ rest ∧ Derives charge (.operand e) (taken ++ more) := by
  have hclosing : (Token.filler (.symbol .closeParen)).kind = .symbol .closeParen := rfl
  cases smaller with
  | none =>
    cases h
    exact absurd rfl hfault
  | some inner =>
    obtain ⟨hcharge, hsound, hviable⟩ := hsmaller inner rfl
    rw [readParenthesis_some] at h
    rcases bind_eq_error_iff.1 h with hread | ⟨e, middle, hread, hend⟩
    · obtain ⟨taken, more, e, rfl, he⟩ := hviable.expression hread hfault
      exact ⟨opening :: taken, more ++ [.filler (.symbol .closeParen)], e, by simp,
        by simpa using he.parenthesis hopening hcharge hclosing⟩
    · obtain ⟨taken, rfl, he⟩ := hsound.expression (inSight_of_isDone hlast _) hread
      rcases bind_eq_error_iff.1 hend with hexpect | ⟨_, final, -, hpure⟩
      · obtain rfl := of_expect_eq_error hexpect
        exact ⟨opening :: taken, [.filler (.symbol .closeParen)], e, by simp,
          by simpa using he.parenthesis hopening hcharge hclosing⟩
      · cases hpure

theorem readCall_viable {name opening : Token} (hname : name.kind = .name)
    (hopening : opening.kind = .symbol .openParen)
    (h : readCall smaller name.text.toString tokens = .error fault rest) (hfault : fault ≠ .tooDeep) :
    ∃ taken more e, name :: opening :: tokens = taken ++ rest ∧ Derives charge (.operand e) (taken ++ more) := by
  have hclosing : (Token.filler (.symbol .closeParen)).kind = .symbol .closeParen := rfl
  cases smaller with
  | none =>
    cases h
    exact absurd rfl hfault
  | some inner =>
    obtain ⟨hcharge, hsound, hviable⟩ := hsmaller inner rfl
    by_cases hbegins : Begins .closeParen tokens
    · obtain ⟨closing, behind, rfl, hkind⟩ := hbegins
      rw [readCall_noArguments hkind] at h
      cases h
    · rw [readCall_arguments hbegins] at h
      rcases bind_eq_error_iff.1 h with hread | ⟨args, middle, hread, hend⟩
      · obtain ⟨taken, more, args, rfl, -, hargs⟩ :=
          readArguments_viable hsound.expression hlast hviable.expression hfault hread
        exact ⟨name :: opening :: taken, more ++ [.filler (.symbol .closeParen)], .call _ args, by simp,
          by simpa using Derives.call hname hopening hcharge hargs hclosing⟩
      · obtain ⟨taken, rfl, -, hargs⟩ :=
          readArguments_spells hsound.expression (Nat.lt_succ_self _) (inSight_of_isDone hlast _) hread
        rcases bind_eq_error_iff.1 hend with hexpect | ⟨_, final, -, hpure⟩
        · obtain rfl := of_expect_eq_error hexpect
          exact ⟨name :: opening :: taken, [.filler (.symbol .closeParen)], .call _ args, by simp,
            by simpa using Derives.call hname hopening hcharge hargs hclosing⟩
        · cases hpure

theorem readOperand_viable : (readOperand last smaller).Viable charge .operand := by
  intro tokens fault rest h hfault
  -- an operand that has not begun can be any
  have hnone (hrest : tokens = rest) :
      ∃ taken more e, tokens = taken ++ rest ∧ Derives charge (.operand e) (taken ++ more) :=
    ⟨[], [.zero], _, hrest, .zero charge⟩
  match tokens with
  | [] =>
    rw [readOperand_nil hlast] at h
    cases h
    exact hnone rfl
  | token :: tokens =>
    cases hkind : token.kind with
    | number x =>
      rw [readOperand_number hkind] at h
      cases h
    | string =>
      rw [readOperand_string hkind] at h
      cases h
    | name =>
      by_cases hbegins : Begins .openParen tokens
      · obtain ⟨opening, behind, rfl, hopening⟩ := hbegins
        rw [readOperand_call hkind hopening] at h
        exact readCall_viable hsmaller hlast hkind hopening h hfault
      · rw [readOperand_var hkind hbegins] at h
        cases h
    | symbol symbol =>
      by_cases hopening : symbol = .openParen
      · subst hopening
        rw [readOperand_openParen hkind] at h
        exact readParenthesis_viable hsmaller hlast hkind h hfault
      · rw [readOperand_symbol hkind hopening] at h
        cases h
        exact hnone rfl
    | fault fault =>
      rw [readOperand_fault hkind] at h
      cases h
      exact hnone rfl
    | done =>
      rw [readOperand_done hkind] at h
      cases h
      exact hnone rfl

theorem readUnary_viable : (readUnary last smaller).Viable charge (.chain []) := by
  intro tokens fault rest h hfault
  cases hop : UnaryOp.next? tokens with
  | none =>
    rw [readUnary_operand hop] at h
    obtain ⟨taken, more, e, rfl, he⟩ := readOperand_viable hsmaller hlast h hfault
    exact ⟨taken, more, e, rfl, .operand he⟩
  | some op =>
    obtain ⟨token, tokens, rfl, htoken⟩ := UnaryOp.next?_eq_some_iff.1 hop
    cases smaller with
    | none =>
      rw [readUnary_deep htoken] at h
      cases h
      exact absurd rfl hfault
    | some inner =>
      obtain ⟨hcharge, -, hviable⟩ := hsmaller inner rfl
      rw [readUnary_some htoken] at h
      rcases bind_eq_error_iff.1 h with hread | ⟨e, final, -, hpure⟩
      · obtain ⟨taken, more, e, rfl, he⟩ := hviable.unary hread hfault
        exact ⟨token :: taken, more, .unary op e, by simp, .unary htoken hcharge he⟩
      · cases hpure

theorem readMore_viable {start count : Nat} {tier : Tier} {tighter : List Tier} {left : Expr} {taken : List Token}
    (hstart : start + count = charge) (hleft : Derives start (.joined tier tighter count left) taken)
    (h : readMore smaller tier tighter left tokens = .error fault rest) (hfault : fault ≠ .tooDeep) :
    ∃ count' further more e, tokens = further ++ rest ∧
      Derives start (.joined tier tighter count' e) (taken ++ further ++ more) := by
  subst hstart
  cases hop : tier.next? tokens with
  | none =>
    rw [readMore_left hop] at h
    cases h
  | some op =>
    obtain ⟨rfl, token, tokens, rfl, htoken⟩ := Tier.next?_eq_some_iff.1 hop
    cases smaller with
    | none =>
      rw [readMore_deep htoken] at h
      cases h
      exact absurd rfl hfault
    | some inner =>
      obtain ⟨hcharge, hsound, hviable⟩ := hsmaller inner rfl
      rw [readMore_some htoken] at h
      rcases bind_eq_error_iff.1 h with hread | ⟨right, middle, hread, hmore⟩
      · obtain ⟨further, more, right, rfl, hright⟩ := hviable.chain tighter hread hfault
        exact ⟨count + 1, token :: further, more, _, by simp, by simpa using hleft.next htoken hcharge hright⟩
      · obtain ⟨further, rfl, hright⟩ := hsound.chain tighter (inSight_of_isDone hlast _) hread
        have hjoined := hleft.next htoken hcharge hright
        obtain ⟨count', others, more, e, rfl, he⟩ :=
          hviable.more (Nat.add_assoc start count 1).symm hjoined hmore hfault
        exact ⟨count', token :: (further ++ others), more, e, by simp, by simpa using he⟩

theorem readChain_viable (tiers : List Tier) : (readChain last smaller tiers).Viable charge (.chain tiers) := by
  have hsound : ∀ inner ∈ smaller, charge + 1 ≤ maxDepth ∧ inner.Sound last (charge + 1) := fun inner hinner =>
    ⟨(hsmaller inner hinner).1, (hsmaller inner hinner).2.1⟩
  induction tiers with
  | nil => exact readUnary_viable hsmaller hlast
  | cons tier tighter ih =>
    intro tokens fault rest h hfault
    rw [readChain_cons] at h
    rcases bind_eq_error_iff.1 h with hread | ⟨left, middle, hread, hmore⟩
    · obtain ⟨taken, more, e, rfl, he⟩ := ih hread hfault
      exact ⟨taken, more, e, rfl, .chain (.first he)⟩
    · obtain ⟨taken, rfl, hleft⟩ := readChain_spells hsound tighter (inSight_of_isDone hlast _) hread
      obtain ⟨count, further, more, e, rfl, he⟩ :=
        readMore_viable hsmaller hlast (Nat.add_zero charge) hleft.first hmore hfault
      exact ⟨taken ++ further, more, e, by simp, .chain he⟩

theorem readExpression_viable : (readExpression last smaller).Viable charge .expression := by
  have hsound : ∀ inner ∈ smaller, charge + 1 ≤ maxDepth ∧ inner.Sound last (charge + 1) := fun inner hinner =>
    ⟨(hsmaller inner hinner).1, (hsmaller inner hinner).2.1⟩
  have hzero (charge : Nat) : Derives charge (.expression (.literal (.number (Number.ofNat 0)))) [Token.zero] :=
    .plain ((Derives.zero charge).chain_of_operand Tier.all)
  have hcolon : (Token.filler (.symbol .colon)).kind = .symbol .colon := rfl
  intro tokens fault rest h hfault
  cases hread : readChain last smaller Tier.all tokens with
  | error fault' stop =>
    cases (readExpression_error hread).symm.trans h
    obtain ⟨taken, more, e, rfl, he⟩ := readChain_viable hsmaller hlast Tier.all hread hfault
    exact ⟨taken, more, e, rfl, .plain he⟩
  | ok condition middle =>
    obtain ⟨taken, rfl, hcondition⟩ := readChain_spells hsound Tier.all (inSight_of_isDone hlast _) hread
    by_cases hbegins : Begins .question middle
    · obtain ⟨question, behind, rfl, hquestion⟩ := hbegins
      cases smaller with
      | none =>
        cases (readExpression_deep hread hquestion).symm.trans h
        exact absurd rfl hfault
      | some inner =>
        obtain ⟨hcharge, hinner, hviable⟩ := hsmaller inner rfl
        rw [readExpression_some hread hquestion] at h
        have hconditional {yes no : Expr} {tokensYes tokensNo : List Token} {colon : Token}
            (hyes : Derives (charge + 1) (.expression yes) tokensYes) (hkind : colon.kind = .symbol .colon)
            (hno : Derives (charge + 1) (.expression no) tokensNo) :=
          Derives.conditional hcondition hquestion hcharge hyes hkind hno
        rcases bind_eq_error_iff.1 h with hreadYes | ⟨yes, afterYes, hreadYes, hcolonNo⟩
        · obtain ⟨further, more, yes, rfl, hyes⟩ := hviable.expression hreadYes hfault
          exact ⟨taken ++ question :: further, more ++ [.filler (.symbol .colon), .zero], _, by simp,
            by simpa using hconditional hyes hcolon (hzero _)⟩
        · obtain ⟨further, rfl, hyes⟩ := hinner.expression (inSight_of_isDone hlast _) hreadYes
          rcases bind_eq_error_iff.1 hcolonNo with hexpect | ⟨_, afterColon, hexpect, hreadNo⟩
          · obtain rfl := of_expect_eq_error hexpect
            exact ⟨taken ++ question :: further, [.filler (.symbol .colon), .zero], _, by simp,
              by simpa using hconditional hyes hcolon (hzero _)⟩
          · obtain ⟨colon, rfl, hkind⟩ := expect_eq_ok_iff.1 hexpect
            rcases bind_eq_error_iff.1 hreadNo with hreadNo | ⟨no, final, -, hpure⟩
            · obtain ⟨others, more, no, rfl, hno⟩ := hviable.expression hreadNo hfault
              exact ⟨taken ++ question :: (further ++ colon :: others), more, _, by simp,
                by simpa using hconditional hyes hkind hno⟩
            · cases hpure
    · cases (readExpression_plain hread hbegins).symm.trans h

theorem build_viable : (build last smaller).Viable charge where
  expression := readExpression_viable hsmaller hlast
  unary := readUnary_viable hsmaller hlast
  chain := readChain_viable hsmaller hlast
  more := readMore_viable hsmaller hlast

end

theorem ofBudget_viable {last : Option Token} (hlast : ∀ token ∈ last, token.isDone) {budget charge : Nat}
    (h : charge + budget = maxDepth) : (ofBudget last budget).Viable charge := by
  induction budget generalizing charge with
  | zero => exact build_viable (by simp) hlast
  | succ budget ih =>
    refine build_viable ?_ hlast
    rintro inner ⟨⟩
    exact ⟨by omega, ofBudget_sound last (by omega), ih (by omega)⟩

end Grammar

end ScenarioScript
