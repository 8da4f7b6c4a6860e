import ScenarioScript.Proofs.Expr.Reader

/-!
# Readers look at one token ahead

What a reader does depends on the tokens that it takes and on the one behind them. It has not seen any token further
behind, and what it would find past the end of the list only matters there.
-/

namespace ScenarioScript

/-! ## What comes next -/

section
variable {tokens others : List Token}

theorem begins_congr {symbol : Symbol} (h : others.head? = tokens.head?) :
    Begins symbol others ↔ Begins symbol tokens := by
  cases tokens <;> cases others <;> simp_all

theorem Tier.next?_congr (tier : Tier) (h : others.head? = tokens.head?) : tier.next? others = tier.next? tokens := by
  ext op
  rw [next?_eq_some_iff, next?_eq_some_iff, begins_congr h]

theorem UnaryOp.next?_congr (h : others.head? = tokens.head?) : UnaryOp.next? others = UnaryOp.next? tokens := by
  ext op
  rw [next?_eq_some_iff, next?_eq_some_iff, begins_congr h]

theorem head?_append_cons (front : List Token) (next : Token) (behind other : List Token) :
    (front ++ next :: other).head? = (front ++ next :: behind).head? := by
  cases front <;> rfl

end

namespace Reader

/-! ## Endings -/

/-- How reading ends before the rest of the tokens. -/
def ending {α : Type} (outcome : Except ParseFault α) (rest : List Token) : EStateM.Result ParseFault (List Token) α :=
  match outcome with
  | .ok a => .ok a rest
  | .error fault => .error fault rest

section
variable {α β : Type} {r : Reader α} {f : α → Reader β} {tokens rest others : List Token}

theorem ending_inj {outcome other : Except ParseFault α} :
    ending outcome rest = ending other others ↔ outcome = other ∧ rest = others := by
  cases outcome <;> cases other <;> simp [ending]

theorem exists_ending (r : Reader α) (tokens : List Token) : ∃ outcome rest, r tokens = ending outcome rest := by
  cases h : r tokens with
  | ok a rest => exact ⟨.ok a, rest, rfl⟩
  | error fault rest => exact ⟨.error fault, rest, rfl⟩

theorem map_of_ending {outcome : Except ParseFault α} {g : α → β} (h : r tokens = ending outcome rest) :
    (do return g (← r) : Reader β) tokens = ending (outcome.map g) rest := by
  cases outcome with
  | ok a => exact bind_of_ok h
  | error fault => exact bind_of_error h

theorem bind_eq_ending_iff {outcome : Except ParseFault β} : (r >>= f) tokens = ending outcome rest ↔
    (∃ a middle, r tokens = .ok a middle ∧ f a middle = ending outcome rest) ∨
      ∃ fault, r tokens = .error fault rest ∧ outcome = .error fault := by
  cases h : r tokens with
  | ok a middle =>
    simp only [bind_of_ok h, EStateM.Result.ok.injEq, reduceCtorEq, false_and, exists_false, or_false]
    constructor
    · exact fun hf => ⟨a, middle, ⟨rfl, rfl⟩, hf⟩
    · rintro ⟨_, _, ⟨rfl, rfl⟩, hf⟩
      exact hf
  | error fault middle =>
    have hending : EStateM.Result.error fault middle = ending (.error fault : Except ParseFault β) middle := rfl
    rw [bind_of_error h, hending, ending_inj]
    simp only [reduceCtorEq, false_and, exists_false, false_or, EStateM.Result.error.injEq]
    constructor
    · rintro ⟨rfl, rfl⟩
      exact ⟨fault, ⟨rfl, rfl⟩, rfl⟩
    · rintro ⟨_, ⟨rfl, rfl⟩, rfl⟩
      exact ⟨rfl, rfl⟩

end

/-! ## Readers with one token in sight -/

/-- If the one reader stops before a token, then so does the other, whatever comes behind that token. -/
def LooksAt {α : Type} (r other : Reader α) (tokens : List Token) : Prop :=
  ∀ outcome ⦃next behind⦄, r tokens = ending outcome (next :: behind) → ∃ taken, tokens = taken ++ next :: behind ∧
    ∀ more, other (taken ++ next :: more) = ending outcome (next :: more)

def Looks {α : Type} (r other : Reader α) : Prop := ∀ tokens, r.LooksAt other tokens

section
variable {α β : Type} {r other : Reader α} {f otherF : α → Reader β} {tokens : List Token}

theorem looksAt_of_ending (outcome : Except ParseFault α) (h : r tokens = ending outcome tokens)
    (hother : ∀ others, others.head? = tokens.head? → other others = ending outcome others) :
    r.LooksAt other tokens := by
  intro found next behind hr
  obtain ⟨rfl, rfl⟩ := ending_inj.1 (h.symm.trans hr)
  exact ⟨[], rfl, fun more => hother _ rfl⟩

theorem LooksAt.step {r' other' : Reader α} (h : r'.LooksAt other' tokens) (front : List Token)
    (hr : r (front ++ tokens) = r' tokens)
    (hother : ∀ others, others.head? = tokens.head? → other (front ++ others) = other' others) :
    r.LooksAt other (front ++ tokens) := by
  intro outcome next behind hread
  obtain ⟨taken, rfl, hmore⟩ := h outcome (hr.symm.trans hread)
  refine ⟨front ++ taken, by simp, fun more => ?_⟩
  rw [List.append_assoc, hother _ (head?_append_cons taken next behind more), hmore]

theorem LooksAt.bind (h : r.LooksAt other tokens)
    (hf : ∀ a rest, r tokens = .ok a rest → (f a).LooksAt (otherF a) rest) :
    (r >>= f).LooksAt (other >>= otherF) tokens := by
  intro outcome next behind hread
  rcases bind_eq_ending_iff.1 hread with ⟨a, middle, hr, hsecond⟩ | ⟨fault, hr, rfl⟩
  · obtain ⟨taken, rfl, hmore⟩ := hf a middle hr outcome hsecond
    -- the second reader takes the token that the first had in sight, or stops before it as well
    obtain ⟨front, rfl, hfront⟩ : ∃ front, tokens = front ++ (taken ++ next :: behind) ∧
        ∀ more, other (front ++ (taken ++ next :: more)) = .ok a (taken ++ next :: more) := by
      cases taken with
      | nil => exact h (.ok a) hr
      | cons token taken =>
        obtain ⟨front, htokens, hfront⟩ := h (.ok a) hr
        exact ⟨front, htokens, fun more => hfront _⟩
    refine ⟨front ++ taken, by simp, fun more => ?_⟩
    rw [List.append_assoc, bind_of_ok (hfront more), hmore]
  · obtain ⟨taken, rfl, hmore⟩ := h (.error fault) hr
    exact ⟨taken, rfl, fun more => bind_of_error (hmore more)⟩

theorem Looks.bind (h : r.Looks other) (hf : ∀ a, (f a).Looks (otherF a)) : (r >>= f).Looks (other >>= otherF) :=
  fun tokens => (h tokens).bind fun a rest _ => hf a rest

theorem looks_pure (a : α) : (pure a : Reader α).Looks (pure a) :=
  fun _ => looksAt_of_ending (.ok a) rfl fun _ _ => rfl

theorem looks_throw (fault : ParseFault) : (throw fault : Reader α).Looks (throw fault) :=
  fun _ => looksAt_of_ending (.error fault) rfl fun _ _ => rfl

theorem looks_accept (symbol : Symbol) : (accept symbol).Looks (accept symbol) := by
  intro tokens
  by_cases hbegins : Begins symbol tokens
  · obtain ⟨token, rest, rfl, hkind⟩ := hbegins
    exact (looks_pure true rest).step [token] (accept_of_kind hkind) fun others _ => accept_of_kind hkind
  · exact looksAt_of_ending (.ok false) (accept_of_not_begins hbegins) fun others hothers =>
      accept_of_not_begins (mt (begins_congr hothers).1 hbegins)

theorem looks_expect (symbol : Symbol) (fault : ParseFault) : (expect symbol fault).Looks (expect symbol fault) := by
  refine (looks_accept symbol).bind fun accepted => ?_
  cases accepted with
  | true => exact looks_pure ()
  | false => exact looks_throw fault

end

end Reader

namespace Grammar

open Reader

/-! ## The readers of the grammar -/

structure Looks (g other : Grammar) : Prop where
  expression : g.expression.Looks other.expression
  unary : g.unary.Looks other.unary
  chain : ∀ tiers, (g.chain tiers).Looks (other.chain tiers)
  more : ∀ tier tighter left, (g.more tier tighter left).Looks (other.more tier tighter left)

theorem readArguments_looks {expression other : Reader Expr} (h : expression.Looks other) {count : Nat}
    {tokens behind : List Token} {next : Token} (outcome : Except ParseFault (List Expr))
    (hcount : tokens.length < count)
    (hread : readArguments expression count tokens = ending outcome (next :: behind)) :
    ∃ taken, tokens = taken ++ next :: behind ∧ ∀ more otherCount, (taken ++ next :: more).length < otherCount →
      readArguments other otherCount (taken ++ next :: more) = ending outcome (next :: more) := by
  induction count generalizing tokens outcome with
  | zero => omega
  | succ count ih =>
    have exists_succ {length otherCount : Nat} (hlt : length < otherCount) :
        ∃ c, otherCount = c + 1 ∧ length ≤ c := ⟨otherCount - 1, by omega⟩
    obtain ⟨first, middle, hfirst⟩ := exists_ending expression tokens
    cases first with
    | error fault =>
      rw [readArguments_error hfirst] at hread
      obtain ⟨rfl, rfl⟩ := ending_inj.1 ((rfl : ending (.error fault) middle = _).trans hread)
      obtain ⟨taken, rfl, hmore⟩ := h tokens _ hfirst
      refine ⟨taken, rfl, fun more otherCount hlt => ?_⟩
      obtain ⟨c, rfl, -⟩ := exists_succ hlt
      exact readArguments_error (hmore more)
    | ok e =>
      by_cases hcomma : Begins .comma middle
      · obtain ⟨comma, rest, rfl, hkind⟩ := hcomma
        obtain ⟨front, rfl, hfront⟩ := h tokens _ hfirst
        have hrest : rest.length < count := by
          simp only [List.length_append, List.length_cons] at hcount
          omega
        have hrestCount {others : List Token} {otherCount : Nat}
            (hlt : (front ++ comma :: others).length < otherCount + 1) : others.length < otherCount := by
          simp only [List.length_append, List.length_cons] at hlt
          omega
        obtain ⟨others, final, hothers⟩ := exists_ending (readArguments expression count) rest
        rw [readArguments_more hfirst hkind, map_of_ending hothers] at hread
        obtain ⟨rfl, rfl⟩ := ending_inj.1 hread
        obtain ⟨taken, rfl, hmore⟩ := ih others hrest hothers
        refine ⟨front ++ comma :: taken, by simp, fun more otherCount hlt => ?_⟩
        obtain ⟨c, rfl, -⟩ := exists_succ hlt
        rw [List.append_assoc, List.cons_append] at hlt ⊢
        exact (readArguments_more (hfront _) hkind).trans (map_of_ending (hmore more c (hrestCount hlt)))
      · rw [readArguments_last hfirst hcomma] at hread
        obtain ⟨rfl, rfl⟩ := ending_inj.1 ((rfl : ending (.ok [e]) middle = _).trans hread)
        obtain ⟨taken, rfl, hmore⟩ := h tokens _ hfirst
        refine ⟨taken, rfl, fun more otherCount hlt => ?_⟩
        obtain ⟨c, rfl, -⟩ := exists_succ hlt
        exact readArguments_last (hmore more) (by rwa [begins_cons] at hcomma ⊢)

section
variable {last otherLast : Option Token} {smaller otherSmaller : Option Grammar}
  (hsmaller : Option.Rel Looks smaller otherSmaller) (hlast : ∀ token ∈ last, token.isDone)
include hsmaller

theorem readParenthesis_looks : (readParenthesis smaller).Looks (readParenthesis otherSmaller) := by
  cases hsmaller with
  | none => exact looks_throw .tooDeep
  | some hinner =>
    refine hinner.expression.bind fun e => ?_
    exact (looks_expect .closeParen .openParenthesis).bind fun _ => looks_pure e

theorem readCall_looks (name : String) : (readCall smaller name).Looks (readCall otherSmaller name) := by
  cases hsmaller with
  | none => exact looks_throw .tooDeep
  | @some inner other hinner =>
    intro tokens
    by_cases hbegins : Begins .closeParen tokens
    · obtain ⟨closing, rest, rfl, hclosing⟩ := hbegins
      exact (looks_pure (.call name []) rest).step [closing] (readCall_noArguments hclosing) fun others _ =>
        readCall_noArguments hclosing
    · let all (g : Grammar) : Reader (List Expr) := fun tokens => readArguments g.expression (tokens.length + 1) tokens
      have hall : (all inner).LooksAt (all other) tokens := by
        intro outcome next behind hread
        obtain ⟨taken, htokens, hmore⟩ := readArguments_looks hinner.expression outcome (Nat.lt_succ_self _) hread
        exact ⟨taken, htokens, fun more => hmore more _ (Nat.lt_succ_self _)⟩
      have hclose (args : List Expr) : (do expect .closeParen (.openArguments name); return .call name args :
          Reader Expr).Looks (do expect .closeParen (.openArguments name); return .call name args) :=
        (looks_expect .closeParen _).bind fun _ => looks_pure _
      exact (hall.bind fun args rest _ => hclose args rest).step [] (readCall_arguments hbegins) fun others hothers =>
        readCall_arguments (mt (begins_congr hothers).1 hbegins)

include hlast

theorem readOperand_looks : (readOperand last smaller).Looks (readOperand otherLast otherSmaller) := by
  intro tokens
  match tokens with
  | [] =>
    -- past the end there is no token to stop before
    intro outcome next behind hread
    rw [readOperand_nil hlast] at hread
    cases outcome <;> cases hread
  | token :: tokens =>
    have hstop {fault : ParseFault}
        (h : ∀ {last smaller tokens}, readOperand last smaller (token :: tokens) = .error fault (token :: tokens)) :
        (readOperand last smaller).LooksAt (readOperand otherLast otherSmaller) (token :: tokens) := by
      refine looksAt_of_ending (.error fault) h fun others hothers => ?_
      obtain ⟨others, rfl⟩ : ∃ rest, others = token :: rest := by simpa [List.head?_eq_some_iff] using hothers
      exact h
    cases hkind : token.kind with
    | number x =>
      exact (looks_pure (.literal (.number x)) tokens).step [token] (readOperand_number hkind) fun others _ =>
        readOperand_number hkind
    | string =>
      exact (looks_pure (.literal (.text token.text.toString)) tokens).step [token] (readOperand_string hkind)
        fun others _ => readOperand_string hkind
    | name =>
      by_cases hbegins : Begins .openParen tokens
      · obtain ⟨opening, rest, rfl, hopening⟩ := hbegins
        exact (readCall_looks hsmaller _ rest).step [token, opening] (readOperand_call hkind hopening) fun others _ =>
          readOperand_call hkind hopening
      · exact (looks_pure (.var token.text.toString) tokens).step [token] (readOperand_var hkind hbegins)
          fun others hothers => readOperand_var hkind (mt (begins_congr hothers).1 hbegins)
    | symbol symbol =>
      by_cases hopening : symbol = .openParen
      · subst hopening
        exact (readParenthesis_looks hsmaller tokens).step [token] (readOperand_openParen hkind) fun others _ =>
          readOperand_openParen hkind
      · exact hstop (readOperand_symbol hkind hopening)
    | fault fault => exact hstop (readOperand_fault hkind)
    | done => exact hstop (readOperand_done hkind)

theorem readUnary_looks : (readUnary last smaller).Looks (readUnary otherLast otherSmaller) := by
  intro tokens
  cases hop : UnaryOp.next? tokens with
  | none =>
    exact (readOperand_looks hsmaller hlast tokens).step [] (readUnary_operand hop) fun others hothers =>
      readUnary_operand ((UnaryOp.next?_congr hothers).trans hop)
  | some op =>
    obtain ⟨token, rest, rfl, htoken⟩ := UnaryOp.next?_eq_some_iff.1 hop
    cases hsmaller with
    | none =>
      exact (looks_throw .tooDeep rest).step [token] (readUnary_deep htoken) fun others _ => readUnary_deep htoken
    | @some inner other hinner =>
      have hread : (do return .unary op (← inner.unary) : Reader Expr).Looks (do return .unary op (← other.unary)) :=
        hinner.unary.bind fun e => looks_pure _
      exact (hread rest).step [token] (readUnary_some htoken) fun others _ => readUnary_some htoken

omit hlast in
theorem readMore_looks (tier : Tier) (tighter : List Tier) (left : Expr) :
    (readMore smaller tier tighter left).Looks (readMore otherSmaller tier tighter left) := by
  intro tokens
  cases hop : tier.next? tokens with
  | none =>
    exact looksAt_of_ending (.ok left) (readMore_left hop) fun others hothers =>
      readMore_left ((tier.next?_congr hothers).trans hop)
  | some op =>
    obtain ⟨rfl, token, rest, rfl, htoken⟩ := Tier.next?_eq_some_iff.1 hop
    cases hsmaller with
    | none => exact (looks_throw .tooDeep rest).step [token] (readMore_deep htoken) fun others _ => readMore_deep htoken
    | @some inner other hinner =>
      have hread : (inner.chain tighter >>= fun right => inner.more op.tier tighter (.binary op left right)).Looks
          (other.chain tighter >>= fun right => other.more op.tier tighter (.binary op left right)) :=
        (hinner.chain tighter).bind fun right => hinner.more _ _ _
      exact (hread rest).step [token] (readMore_some htoken) fun others _ => readMore_some htoken

theorem readChain_looks (tiers : List Tier) :
    (readChain last smaller tiers).Looks (readChain otherLast otherSmaller tiers) := by
  induction tiers with
  | nil => exact readUnary_looks hsmaller hlast
  | cons tier tighter ih => exact ih.bind fun left => readMore_looks hsmaller tier tighter left

theorem readExpression_looks : (readExpression last smaller).Looks (readExpression otherLast otherSmaller) := by
  refine (readChain_looks hsmaller hlast Tier.all).bind fun condition => ?_
  refine (looks_accept .question).bind fun accepted => ?_
  cases accepted with
  | false => exact looks_pure condition
  | true =>
    cases hsmaller with
    | none => exact looks_throw .tooDeep
    | some hinner =>
      refine hinner.expression.bind fun yes => ?_
      refine (looks_expect .colon .missingColon).bind fun _ => ?_
      exact hinner.expression.bind fun no => looks_pure _

theorem build_looks : (build last smaller).Looks (build otherLast otherSmaller) where
  expression := readExpression_looks hsmaller hlast
  unary := readUnary_looks hsmaller hlast
  chain := readChain_looks hsmaller hlast
  more := readMore_looks hsmaller

end

theorem ofBudget_looks {last : Option Token} (hlast : ∀ token ∈ last, token.isDone) (otherLast : Option Token)
    (budget : Nat) : (ofBudget last budget).Looks (ofBudget otherLast budget) := by
  induction budget with
  | zero => exact build_looks .none hlast
  | succ budget ih => exact build_looks (.some ih) hlast

end Grammar

namespace Expr

theorem reader_looks {last : Option Token} (hlast : ∀ token ∈ last, token.isDone) (otherLast : Option Token) :
    (reader last).Looks (reader otherLast) :=
  (Grammar.ofBudget_looks hlast otherLast maxDepth).expression

end Expr

end ScenarioScript
