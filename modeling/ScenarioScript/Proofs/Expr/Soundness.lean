import ScenarioScript.Proofs.Expr.Reader

/-!
# What a reader takes is what it returns

If a reader returns a tree, the tokens that it took spell that tree. The token that stays in sight past the end of the
list is not read as an operand. It is the end of the text, or the last token of the list itself, and where an operand
is looked for past that one, it is a symbol.
-/

namespace ScenarioScript

/-- Where an operand is looked for past the end of the tokens, there is none in sight. -/
def InSight (last : Option Token) (tokens : List Token) : Prop :=
  ∀ token ∈ last, token.isDone ∨ (∃ symbol, token.kind = .symbol symbol) ∨ tokens.getLast? = some token

section
variable {last : Option Token}

theorem inSight_of_isDone (h : ∀ token ∈ last, token.isDone) (tokens : List Token) : InSight last tokens :=
  fun token htoken => .inl (h token htoken)

theorem inSight_getLast? (tokens : List Token) : InSight tokens.getLast? tokens :=
  fun _ htoken => .inr (.inr htoken)

theorem InSight.behind {front rest : List Token} {token : Token} {symbol : Symbol}
    (h : InSight last (front ++ token :: rest)) (hkind : token.kind = .symbol symbol) : InSight last rest := by
  intro final hfinal
  rcases h final hfinal with hdone | hsymbol | hlast
  · exact .inl hdone
  · exact .inr (.inl hsymbol)
  · cases rest with
    | nil =>
      rw [List.getLast?_append, List.getLast?_singleton] at hlast
      cases hlast
      exact .inr (.inl ⟨symbol, hkind⟩)
    | cons next rest => exact .inr (.inr (by simpa [List.getLast?_append] using hlast))

theorem InSight.tail {rest : List Token} {token : Token} {symbol : Symbol} (h : InSight last (token :: rest))
    (hkind : token.kind = .symbol symbol) : InSight last rest :=
  have h : InSight last ([] ++ token :: rest) := h
  h.behind hkind

end

/-- Whatever the reader returns is spelled by the tokens that it took. -/
def Reader.Spells {α : Type} (r : Reader α) (last : Option Token) (charge : Nat) (phrase : α → Phrase) : Prop :=
  ∀ ⦃tokens a rest⦄, InSight last tokens → r tokens = .ok a rest →
    ∃ taken, tokens = taken ++ rest ∧ Derives charge (phrase a) taken

namespace Grammar

open Reader

/-- The readers spell phrases behind `charge` levels. The rest of a chain belongs to a left part that
began before as many levels as it has operators. -/
structure Sound (g : Grammar) (last : Option Token) (charge : Nat) : Prop where
  expression : g.expression.Spells last charge .expression
  unary : g.unary.Spells last charge (.chain [])
  chain : ∀ tiers, (g.chain tiers).Spells last charge (.chain tiers)
  more : ∀ {start count tier tighter left taken tokens e rest}, start + count = charge →
    Derives start (.joined tier tighter count left) taken → InSight last (taken ++ tokens) →
    g.more tier tighter left tokens = .ok e rest →
    ∃ count' more, tokens = more ++ rest ∧ Derives start (.joined tier tighter count' e) (taken ++ more)

section
variable {last : Option Token} {smaller : Option Grammar} {charge : Nat}

/-- Arguments end before their number is used up, since each of them takes a token. -/
theorem readArguments_spells {expression : Reader Expr} (h : expression.Spells last charge .expression)
    {count : Nat} {tokens rest : List Token} {args : List Expr} (hcount : tokens.length < count)
    (hsight : InSight last tokens) (hargs : readArguments expression count tokens = .ok args rest) :
    ∃ taken, tokens = taken ++ rest ∧ args ≠ [] ∧ Derives charge (.arguments args) taken := by
  induction count generalizing tokens args with
  | zero => omega
  | succ count ih =>
    obtain ⟨e, afterFirst, hfirst, h₁⟩ := bind_eq_ok_iff.1 hargs
    obtain ⟨taken, rfl, he⟩ := h hsight hfirst
    have htaken : 0 < taken.length := List.length_pos_iff.2 (he.ne_nil (by simp))
    obtain ⟨hasMore, afterComma, hcomma, h₂⟩ := bind_eq_ok_iff.1 h₁
    cases hasMore with
    | true =>
      obtain ⟨comma, rfl, hkind⟩ := accept_true_iff.1 hcomma
      obtain ⟨others, final, hothers, h₃⟩ := bind_eq_ok_iff.1 h₂
      obtain ⟨rfl, rfl⟩ := pure_eq_ok_iff.1 h₃
      simp only [List.length_append, List.length_cons] at hcount
      obtain ⟨more, rfl, hne, hmore⟩ := ih (by omega) (hsight.behind hkind) hothers
      obtain ⟨next, others, rfl⟩ := List.exists_cons_of_ne_nil hne
      exact ⟨taken ++ comma :: more, by simp, by simp, .argument he hkind hmore⟩
    | false =>
      obtain ⟨rfl, -⟩ := accept_false_iff.1 hcomma
      obtain ⟨rfl, rfl⟩ := pure_eq_ok_iff.1 h₂
      exact ⟨taken, rfl, by simp, .lastArgument he⟩

variable (hsmaller : ∀ inner ∈ smaller, charge + 1 ≤ maxDepth ∧ inner.Sound last (charge + 1))
include hsmaller

theorem readParenthesis_spells {opening : Token} (hopening : opening.kind = .symbol .openParen)
    {tokens rest : List Token} {e : Expr} (hsight : InSight last tokens)
    (h : readParenthesis smaller tokens = .ok e rest) :
    ∃ taken, tokens = taken ++ rest ∧ taken ≠ [] ∧ Derives charge (.operand e) (opening :: taken) := by
  cases smaller with
  | none => cases h
  | some inner =>
    obtain ⟨hcharge, hinner⟩ := hsmaller inner rfl
    rw [readParenthesis_some] at h
    obtain ⟨e', middle, hread, h₁⟩ := bind_eq_ok_iff.1 h
    obtain ⟨_, final, hexpect, h₂⟩ := bind_eq_ok_iff.1 h₁
    obtain ⟨rfl, rfl⟩ := pure_eq_ok_iff.1 h₂
    obtain ⟨taken, rfl, he⟩ := hinner.expression hsight hread
    obtain ⟨closing, rfl, hclosing⟩ := expect_eq_ok_iff.1 hexpect
    exact ⟨taken ++ [closing], by simp, by simp, .parenthesis hopening hcharge he hclosing⟩

theorem readCall_spells {name opening : Token} (hname : name.kind = .name)
    (hopening : opening.kind = .symbol .openParen) {tokens rest : List Token} {e : Expr}
    (hsight : InSight last tokens) (h : readCall smaller name.text.toString tokens = .ok e rest) :
    ∃ taken, name :: opening :: tokens = taken ++ rest ∧ Derives charge (.operand e) taken := by
  cases smaller with
  | none => cases h
  | some inner =>
    obtain ⟨hcharge, hinner⟩ := hsmaller inner rfl
    by_cases hbegins : Begins .closeParen tokens
    · obtain ⟨closing, more, rfl, hclosing⟩ := hbegins
      rw [readCall_noArguments hclosing] at h
      cases h
      exact ⟨[name, opening, closing], by simp,
        .call hname hopening hcharge .noArguments hclosing⟩
    · rw [readCall_arguments hbegins] at h
      obtain ⟨args, middle, hread, h₁⟩ := bind_eq_ok_iff.1 h
      obtain ⟨_, final, hexpect, h₂⟩ := bind_eq_ok_iff.1 h₁
      obtain ⟨rfl, rfl⟩ := pure_eq_ok_iff.1 h₂
      obtain ⟨taken, rfl, -, hargs⟩ :=
        readArguments_spells hinner.expression (Nat.lt_succ_self _) hsight hread
      obtain ⟨closing, rfl, hclosing⟩ := expect_eq_ok_iff.1 hexpect
      exact ⟨name :: opening :: (taken ++ [closing]), by simp,
        .call hname hopening hcharge hargs hclosing⟩

theorem readOperand_nil_ne_ok (hsight : InSight last []) {e : Expr} {rest : List Token} :
    readOperand last smaller [] ≠ .ok e rest := by
  intro h
  cases last with
  | none => cases h
  | some token =>
    rw [readOperand_past] at h
    -- a symbol that is read again past the end leads to no operand, and behind a parenthesis there is none either
    rcases hsight token rfl with hdone | ⟨symbol, hkind⟩ | hlast
    · rw [readOperand_done (of_decide_eq_true hdone)] at h
      cases h
    · by_cases hopening : symbol = .openParen
      · subst hopening
        rw [readOperand_openParen hkind] at h
        obtain ⟨taken, hempty, htaken, -⟩ := readParenthesis_spells hsmaller hkind hsight h
        exact htaken (List.append_eq_nil_iff.1 hempty.symm).1
      · rw [readOperand_symbol hkind hopening] at h
        cases h
    · cases hlast

theorem readOperand_spells : (readOperand last smaller).Spells last charge .operand := by
  intro tokens e rest hsight h
  match tokens with
  | [] => exact absurd h (readOperand_nil_ne_ok hsmaller hsight)
  | token :: tokens =>
    cases hkind : token.kind with
    | number x =>
      rw [readOperand_number hkind] at h
      cases h
      exact ⟨[token], by simp, .number hkind⟩
    | string =>
      rw [readOperand_string hkind] at h
      cases h
      exact ⟨[token], by simp, .string hkind⟩
    | name =>
      by_cases hbegins : Begins .openParen tokens
      · obtain ⟨opening, more, rfl, hopening⟩ := hbegins
        rw [readOperand_call hkind hopening] at h
        have hsight : InSight last ([token] ++ opening :: more) := hsight
        exact readCall_spells hsmaller hkind hopening (hsight.behind hopening) h
      · rw [readOperand_var hkind hbegins] at h
        cases h
        exact ⟨[token], by simp, .var hkind⟩
    | symbol symbol =>
      by_cases hopening : symbol = .openParen
      · subst hopening
        rw [readOperand_openParen hkind] at h
        obtain ⟨taken, rfl, -, he⟩ := readParenthesis_spells hsmaller hkind (hsight.tail hkind) h
        exact ⟨token :: taken, rfl, he⟩
      · rw [readOperand_symbol hkind hopening] at h
        cases h
    | fault fault =>
      rw [readOperand_fault hkind] at h
      cases h
    | done =>
      rw [readOperand_done hkind] at h
      cases h

theorem readUnary_spells : (readUnary last smaller).Spells last charge (.chain []) := by
  intro tokens e rest hsight h
  cases hop : UnaryOp.next? tokens with
  | none =>
    rw [readUnary_operand hop] at h
    obtain ⟨taken, rfl, he⟩ := readOperand_spells hsmaller hsight h
    exact ⟨taken, rfl, .operand he⟩
  | some op =>
    obtain ⟨token, tokens, rfl, htoken⟩ := UnaryOp.next?_eq_some_iff.1 hop
    cases smaller with
    | none =>
      rw [readUnary_deep htoken] at h
      cases h
    | some inner =>
      obtain ⟨hcharge, hinner⟩ := hsmaller inner rfl
      rw [readUnary_some htoken] at h
      obtain ⟨operand, final, hread, h₁⟩ := bind_eq_ok_iff.1 h
      obtain ⟨rfl, rfl⟩ := pure_eq_ok_iff.1 h₁
      obtain ⟨taken, rfl, hoperand⟩ := hinner.unary (hsight.tail htoken) hread
      exact ⟨token :: taken, by simp, .unary htoken hcharge hoperand⟩

theorem readMore_spells {start count : Nat} {tier : Tier} {tighter : List Tier} {left e : Expr}
    {taken tokens rest : List Token} (hstart : start + count = charge)
    (hleft : Derives start (.joined tier tighter count left) taken) (hsight : InSight last (taken ++ tokens))
    (h : readMore smaller tier tighter left tokens = .ok e rest) :
    ∃ count' more, tokens = more ++ rest ∧
      Derives start (.joined tier tighter count' e) (taken ++ more) := by
  subst hstart
  cases hop : tier.next? tokens with
  | none =>
    rw [readMore_left hop] at h
    cases h
    exact ⟨count, [], rfl, by simpa using hleft⟩
  | some op =>
    obtain ⟨rfl, token, tokens, rfl, htoken⟩ := Tier.next?_eq_some_iff.1 hop
    cases smaller with
    | none =>
      rw [readMore_deep htoken] at h
      cases h
    | some inner =>
      obtain ⟨hcharge, hinner⟩ := hsmaller inner rfl
      rw [readMore_some htoken] at h
      obtain ⟨right, middle, hread, hrest⟩ := bind_eq_ok_iff.1 h
      obtain ⟨takenRight, rfl, hright⟩ := hinner.chain tighter (hsight.behind htoken) hread
      -- The joined part with this operator is the left part of what follows.
      have hjoined := hleft.next htoken hcharge hright
      obtain ⟨count', more, rfl, he⟩ :=
        hinner.more (Nat.add_assoc start count 1).symm hjoined (by simpa using hsight) hrest
      exact ⟨count', token :: (takenRight ++ more), by simp, by simpa using he⟩

theorem readChain_spells (tiers : List Tier) :
    (readChain last smaller tiers).Spells last charge (.chain tiers) := by
  induction tiers with
  | nil => exact readUnary_spells hsmaller
  | cons tier tighter ih =>
    intro tokens e rest hsight h
    rw [readChain_cons] at h
    obtain ⟨left, middle, hread, hrest⟩ := bind_eq_ok_iff.1 h
    obtain ⟨taken, rfl, hleft⟩ := ih hsight hread
    obtain ⟨count, more, rfl, he⟩ :=
      readMore_spells hsmaller (Nat.add_zero charge) hleft.first hsight hrest
    exact ⟨taken ++ more, by simp, .chain he⟩

theorem readExpression_spells : (readExpression last smaller).Spells last charge .expression := by
  intro tokens e rest hsight h
  cases hread : readChain last smaller Tier.all tokens with
  | error fault stop =>
    rw [readExpression_error hread] at h
    cases h
  | ok condition middle =>
    obtain ⟨taken, rfl, hcondition⟩ := readChain_spells hsmaller _ hsight hread
    by_cases hbegins : Begins .question middle
    · obtain ⟨question, middle, rfl, hquestion⟩ := hbegins
      cases smaller with
      | none =>
        rw [readExpression_deep hread hquestion] at h
        cases h
      | some inner =>
        obtain ⟨hcharge, hinner⟩ := hsmaller inner rfl
        rw [readExpression_some hread hquestion] at h
        obtain ⟨yes, afterYes, hreadYes, h₁⟩ := bind_eq_ok_iff.1 h
        obtain ⟨_, afterColon, hexpect, h₂⟩ := bind_eq_ok_iff.1 h₁
        obtain ⟨no, afterNo, hreadNo, h₃⟩ := bind_eq_ok_iff.1 h₂
        obtain ⟨rfl, rfl⟩ := pure_eq_ok_iff.1 h₃
        have hsight := hsight.behind hquestion
        obtain ⟨takenYes, rfl, hyes⟩ := hinner.expression hsight hreadYes
        obtain ⟨colon, rfl, hcolon⟩ := expect_eq_ok_iff.1 hexpect
        obtain ⟨takenNo, rfl, hno⟩ := hinner.expression (hsight.behind hcolon) hreadNo
        exact ⟨taken ++ question :: (takenYes ++ colon :: takenNo), by simp,
          .conditional hcondition hquestion hcharge hyes hcolon hno⟩
    · rw [readExpression_plain hread hbegins] at h
      cases h
      exact ⟨taken, rfl, .plain hcondition⟩

theorem build_sound : (build last smaller).Sound last charge where
  expression := readExpression_spells hsmaller
  unary := readUnary_spells hsmaller
  chain := readChain_spells hsmaller
  more := readMore_spells hsmaller

end

theorem ofBudget_sound (last : Option Token) {budget charge : Nat} (h : charge + budget = maxDepth) :
    (ofBudget last budget).Sound last charge := by
  induction budget generalizing charge with
  | zero => exact build_sound (by simp)
  | succ budget ih =>
    refine build_sound ?_
    rintro inner ⟨⟩
    exact ⟨by omega, ih (by omega)⟩

end Grammar

end ScenarioScript
