import ScenarioScript.Proofs.Expr.Reader

/-!
# Readers before a stop

No reader looks behind a token that is no word. What it returns, the fault that it stops with and the
tokens that are left up to there depend on the tokens before it.
-/

namespace ScenarioScript

section
variable {symbol : Symbol} {stop : Token} {front behind : List Token}

theorem kind_of_isWord_eq_false (h : stop.isWord = false) :
    stop.kind = .symbol .semicolon ∨ (∃ fault, stop.kind = .fault fault) ∨ stop.kind = .done := by
  unfold Token.isWord at h
  split at h <;> simp_all

theorem begins_append_stop (hstop : stop.isWord = false) (hsymbol : symbol ≠ .semicolon) :
    Begins symbol (front ++ stop :: behind) ↔ Begins symbol front := by
  cases front with
  | nil =>
    simp only [List.nil_append, begins_cons, not_begins_nil, iff_false]
    intro hkind
    simp [Token.isWord_of_symbol hkind hsymbol] at hstop
  | cons token front => simp

theorem Tier.next?_append_stop (hstop : stop.isWord = false) (tier : Tier) :
    tier.next? (front ++ stop :: behind) = tier.next? front := by
  ext op
  rw [next?_eq_some_iff, next?_eq_some_iff, begins_append_stop hstop op.symbol_ne_semicolon]

theorem UnaryOp.next?_append_stop (hstop : stop.isWord = false) :
    UnaryOp.next? (front ++ stop :: behind) = UnaryOp.next? front := by
  ext op
  rw [next?_eq_some_iff, next?_eq_some_iff, begins_append_stop hstop op.symbol_ne_semicolon]

end

namespace Reader

/-! ## Local readers -/

/-- The reader does the same with some tokens before a stop, whatever comes behind it. -/
def LocalAt {α : Type} (r : Reader α) (stop : Token) (front : List Token) : Prop :=
  (∃ a more, more <:+ front ∧ ∀ behind, r (front ++ stop :: behind) = .ok a (more ++ stop :: behind)) ∨
    ∃ fault more, more <:+ front ∧ ∀ behind, r (front ++ stop :: behind) = .error fault (more ++ stop :: behind)

def IsLocal {α : Type} (r : Reader α) : Prop := ∀ ⦃stop⦄, stop.isWord = false → ∀ front, r.LocalAt stop front

section
variable {α β : Type} {r : Reader α} {f : α → Reader β} {stop : Token} {front : List Token}

theorem LocalAt.ok {a : α} {more : List Token} (hmore : more <:+ front)
    (h : ∀ behind, r (front ++ stop :: behind) = .ok a (more ++ stop :: behind)) : r.LocalAt stop front :=
  .inl ⟨a, more, hmore, h⟩

theorem LocalAt.error {fault : ParseFault} {more : List Token} (hmore : more <:+ front)
    (h : ∀ behind, r (front ++ stop :: behind) = .error fault (more ++ stop :: behind)) : r.LocalAt stop front :=
  .inr ⟨fault, more, hmore, h⟩

theorem LocalAt.step {r' : Reader α} {behindFront : List Token} (h : r'.LocalAt stop behindFront)
    (hsuffix : behindFront <:+ front)
    (hr : ∀ behind, r (front ++ stop :: behind) = r' (behindFront ++ stop :: behind)) : r.LocalAt stop front := by
  rcases h with ⟨a, more, hmore, h⟩ | ⟨fault, more, hmore, h⟩
  · exact .ok (hmore.trans hsuffix) fun behind => (hr behind).trans (h behind)
  · exact .error (hmore.trans hsuffix) fun behind => (hr behind).trans (h behind)

theorem LocalAt.bind (h : r.LocalAt stop front) (hf : ∀ a more, more <:+ front → (f a).LocalAt stop more) :
    (r >>= f).LocalAt stop front := by
  rcases h with ⟨a, middle, hmiddle, h⟩ | ⟨fault, more, hmore, h⟩
  · rcases hf a middle hmiddle with ⟨b, more, hmore, hf⟩ | ⟨fault, more, hmore, hf⟩
    · exact .ok (hmore.trans hmiddle) fun behind => (bind_of_ok (h behind)).trans (hf behind)
    · exact .error (hmore.trans hmiddle) fun behind => (bind_of_ok (h behind)).trans (hf behind)
  · exact .error hmore fun behind => bind_of_error (h behind)

theorem IsLocal.bind (h : r.IsLocal) (hf : ∀ a, (f a).IsLocal) : (r >>= f).IsLocal :=
  fun _ hstop front => (h hstop front).bind fun a more _ => hf a hstop more

theorem isLocal_pure (a : α) : (pure a : Reader α).IsLocal :=
  fun _ _ _ => .ok List.suffix_rfl fun _ => rfl

theorem isLocal_throw (fault : ParseFault) : (throw fault : Reader α).IsLocal :=
  fun _ _ _ => .error List.suffix_rfl fun _ => rfl

theorem isLocal_accept {symbol : Symbol} (hsymbol : symbol ≠ .semicolon) : (accept symbol).IsLocal := by
  intro stop hstop front
  by_cases hbegins : Begins symbol front
  · obtain ⟨token, front, rfl, hkind⟩ := hbegins
    exact .ok (List.suffix_cons _ _) fun behind => accept_of_kind hkind
  · have hbegins {behind : List Token} : ¬ Begins symbol (front ++ stop :: behind) :=
      mt (begins_append_stop hstop hsymbol).1 hbegins
    exact .ok List.suffix_rfl fun behind => accept_of_not_begins hbegins

theorem isLocal_expect {symbol : Symbol} (hsymbol : symbol ≠ .semicolon) (fault : ParseFault) :
    (expect symbol fault).IsLocal := by
  refine (isLocal_accept hsymbol).bind fun accepted => ?_
  cases accepted with
  | true => exact isLocal_pure ()
  | false => exact isLocal_throw fault

end

end Reader

namespace Grammar

open Reader

/-! ## The readers of the grammar -/

structure IsLocal (g : Grammar) : Prop where
  expression : g.expression.IsLocal
  unary : g.unary.IsLocal
  chain : ∀ tiers, (g.chain tiers).IsLocal
  more : ∀ tier tighter left, (g.more tier tighter left).IsLocal

section
variable {last : Option Token} {smaller : Option Grammar}

theorem readArguments_local {g : Grammar} (h : g.IsLocal) {stop : Token} (hstop : stop.isWord = false)
    (front : List Token) :
    (∃ args more, more <:+ front ∧ ∀ behind count, front.length < count →
      readArguments g.expression count (front ++ stop :: behind) = .ok args (more ++ stop :: behind)) ∨
    ∃ fault more, more <:+ front ∧ ∀ behind count, front.length < count →
      readArguments g.expression count (front ++ stop :: behind) = .error fault (more ++ stop :: behind) := by
  induction hlength : front.length using Nat.strongRecOn generalizing front with
  | _ length ih =>
    have count_pos {count : Nat} (hcount : front.length < count) : ∃ c, count = c + 1 ∧ front.length ≤ c :=
      ⟨count - 1, by omega⟩
    subst hlength
    -- an argument takes a token, and so does the comma behind it, so the count does not run out
    rcases h.expression hstop front with ⟨e, middle, hmiddle, hread⟩ | ⟨fault, more, hmore, hread⟩
    · by_cases hcomma : Begins .comma middle
      · obtain ⟨comma, front', rfl, hkind⟩ := hcomma
        have hlt : front'.length < front.length := Nat.lt_of_lt_of_le (Nat.lt_succ_self _) hmiddle.length_le
        have hsuffix : front' <:+ front := (List.suffix_cons comma front').trans hmiddle
        rcases ih front'.length hlt front' rfl with ⟨args, more, hmore, hargs⟩ | ⟨fault, more, hmore, hargs⟩
        · refine .inl ⟨e :: args, more, hmore.trans hsuffix, fun behind count hcount => ?_⟩
          obtain ⟨c, rfl, hc⟩ := count_pos hcount
          exact (readArguments_more (hread behind) hkind).trans (bind_of_ok (hargs behind c (by omega)))
        · refine .inr ⟨fault, more, hmore.trans hsuffix, fun behind count hcount => ?_⟩
          obtain ⟨c, rfl, hc⟩ := count_pos hcount
          exact (readArguments_more (hread behind) hkind).trans (bind_of_error (hargs behind c (by omega)))
      · refine .inl ⟨[e], middle, hmiddle, fun behind count hcount => ?_⟩
        obtain ⟨c, rfl, -⟩ := count_pos hcount
        have hcomma : ¬ Begins .comma (middle ++ stop :: behind) :=
          mt (begins_append_stop hstop (by decide)).1 hcomma
        exact readArguments_last (hread behind) hcomma
    · refine .inr ⟨fault, more, hmore, fun behind count hcount => ?_⟩
      obtain ⟨c, rfl, -⟩ := count_pos hcount
      exact readArguments_error (hread behind)

variable (hsmaller : ∀ inner ∈ smaller, inner.IsLocal)
include hsmaller

theorem readParenthesis_local : (readParenthesis smaller).IsLocal := by
  cases smaller with
  | none => exact isLocal_throw .tooDeep
  | some inner =>
    refine (hsmaller inner rfl).expression.bind fun e => ?_
    exact (isLocal_expect (by decide) .openParenthesis).bind fun _ => isLocal_pure e

theorem readCall_local (name : String) : (readCall smaller name).IsLocal := by
  cases smaller with
  | none => exact isLocal_throw .tooDeep
  | some inner =>
    intro stop hstop front
    by_cases hbegins : Begins .closeParen front
    · obtain ⟨closing, front, rfl, hclosing⟩ := hbegins
      exact .ok (List.suffix_cons _ _) fun behind => readCall_noArguments hclosing
    have hbegins {behind : List Token} : ¬ Begins .closeParen (front ++ stop :: behind) :=
      mt (begins_append_stop hstop (by decide)).1 hbegins
    have hcount (behind : List Token) : front.length < (front ++ stop :: behind).length + 1 := by
      rw [List.length_append]
      omega
    rcases readArguments_local (hsmaller inner rfl) hstop front with
      ⟨args, middle, hmiddle, hargs⟩ | ⟨fault, more, hmore, hargs⟩
    · have hclose : (do expect .closeParen (.openArguments name); return .call name args : Reader Expr).IsLocal :=
        (isLocal_expect (by decide) _).bind fun _ => isLocal_pure _
      rcases hclose hstop middle with ⟨e, more, hmore, hread⟩ | ⟨fault, more, hmore, hread⟩
      · exact .ok (hmore.trans hmiddle) fun behind => (readCall_arguments hbegins).trans
          ((bind_of_ok (hargs behind _ (hcount behind))).trans (hread behind))
      · exact .error (hmore.trans hmiddle) fun behind => (readCall_arguments hbegins).trans
          ((bind_of_ok (hargs behind _ (hcount behind))).trans (hread behind))
    · exact .error hmore fun behind => (readCall_arguments hbegins).trans
        (bind_of_error (hargs behind _ (hcount behind)))

theorem readOperand_local (last : Option Token) : (readOperand last smaller).IsLocal := by
  intro stop hstop front
  match front with
  | [] =>
    rcases kind_of_isWord_eq_false hstop with hkind | ⟨fault, hkind⟩ | hkind
    · exact .error List.suffix_rfl fun behind => readOperand_symbol hkind (by decide)
    · exact .error List.suffix_rfl fun behind => readOperand_fault hkind
    · exact .error List.suffix_rfl fun behind => readOperand_done hkind
  | token :: front =>
    cases hkind : token.kind with
    | number x => exact .ok (List.suffix_cons _ _) fun behind => readOperand_number hkind
    | string => exact .ok (List.suffix_cons _ _) fun behind => readOperand_string hkind
    | name =>
      by_cases hbegins : Begins .openParen front
      · obtain ⟨opening, front, rfl, hopening⟩ := hbegins
        have hsuffix : front <:+ token :: opening :: front := List.suffix_append [token, opening] front
        exact (readCall_local hsmaller _ hstop front).step hsuffix fun behind => readOperand_call hkind hopening
      · exact .ok (List.suffix_cons _ _) fun behind =>
          readOperand_var hkind (mt (begins_append_stop hstop (by decide)).1 hbegins)
    | symbol symbol =>
      by_cases hopening : symbol = .openParen
      · subst hopening
        exact (readParenthesis_local hsmaller hstop front).step (List.suffix_cons _ _) fun behind =>
          readOperand_openParen hkind
      · exact .error List.suffix_rfl fun behind => readOperand_symbol hkind hopening
    | fault fault => exact .error List.suffix_rfl fun behind => readOperand_fault hkind
    | done => exact .error List.suffix_rfl fun behind => readOperand_done hkind

theorem readUnary_local (last : Option Token) : (readUnary last smaller).IsLocal := by
  intro stop hstop front
  cases hop : UnaryOp.next? front with
  | none =>
    exact (readOperand_local hsmaller last hstop front).step List.suffix_rfl fun behind =>
      readUnary_operand ((UnaryOp.next?_append_stop hstop).trans hop)
  | some op =>
    obtain ⟨token, front, rfl, htoken⟩ := UnaryOp.next?_eq_some_iff.1 hop
    cases smaller with
    | none => exact .error (List.suffix_cons _ _) fun behind => readUnary_deep htoken
    | some inner =>
      have hread : (do return .unary op (← inner.unary) : Reader Expr).IsLocal :=
        (hsmaller inner rfl).unary.bind fun e => isLocal_pure _
      exact (hread hstop front).step (List.suffix_cons _ _) fun behind => readUnary_some htoken

theorem readMore_local (tier : Tier) (tighter : List Tier) (left : Expr) :
    (readMore smaller tier tighter left).IsLocal := by
  intro stop hstop front
  cases hop : tier.next? front with
  | none =>
    exact .ok List.suffix_rfl fun behind => readMore_left ((tier.next?_append_stop hstop).trans hop)
  | some op =>
    obtain ⟨rfl, token, front, rfl, htoken⟩ := Tier.next?_eq_some_iff.1 hop
    cases smaller with
    | none => exact .error (List.suffix_cons _ _) fun behind => readMore_deep htoken
    | some inner =>
      have hread : (inner.chain tighter >>= fun right =>
          inner.more op.tier tighter (.binary op left right)).IsLocal :=
        ((hsmaller inner rfl).chain tighter).bind fun right => (hsmaller inner rfl).more _ _ _
      exact (hread hstop front).step (List.suffix_cons _ _) fun behind => readMore_some htoken

theorem readChain_local (last : Option Token) (tiers : List Tier) : (readChain last smaller tiers).IsLocal := by
  induction tiers with
  | nil => exact readUnary_local hsmaller last
  | cons tier tighter ih => exact ih.bind fun left => readMore_local hsmaller tier tighter left

theorem readExpression_local (last : Option Token) : (readExpression last smaller).IsLocal := by
  refine (readChain_local hsmaller last Tier.all).bind fun condition => ?_
  refine (isLocal_accept (by decide)).bind fun accepted => ?_
  cases accepted with
  | false => exact isLocal_pure condition
  | true =>
    cases smaller with
    | none => exact isLocal_throw .tooDeep
    | some inner =>
      refine (hsmaller inner rfl).expression.bind fun yes => ?_
      refine (isLocal_expect (by decide) .missingColon).bind fun _ => ?_
      exact (hsmaller inner rfl).expression.bind fun no => isLocal_pure _

theorem build_local (last : Option Token) : (build last smaller).IsLocal where
  expression := readExpression_local hsmaller last
  unary := readUnary_local hsmaller last
  chain := readChain_local hsmaller last
  more := readMore_local hsmaller

end

theorem ofBudget_local (last : Option Token) (budget : Nat) : (ofBudget last budget).IsLocal := by
  induction budget with
  | zero => exact build_local (by simp) last
  | succ budget ih =>
    refine build_local ?_ last
    rintro inner ⟨⟩
    exact ih

end Grammar

namespace Expr

theorem reader_local (last : Option Token) : (reader last).IsLocal :=
  (Grammar.ofBudget_local last maxDepth).expression

end Expr

end ScenarioScript
