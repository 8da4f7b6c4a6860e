import ScenarioScript.Proofs.Expr.Derivation

/-!
# The rows of the readers

What each reader does on each kind of front token. The proofs about the grammar use these rows and
never the definitions.
-/

namespace ScenarioScript

/-- Whether a symbol comes next. -/
def Begins (symbol : Symbol) (tokens : List Token) : Prop :=
  ∃ token rest, tokens = token :: rest ∧ token.kind = .symbol symbol

@[simp] theorem not_begins_nil (symbol : Symbol) : ¬ Begins symbol [] := by
  rintro ⟨token, rest, h, -⟩
  cases h

@[simp] theorem begins_cons {symbol : Symbol} {token : Token} {rest : List Token} :
    Begins symbol (token :: rest) ↔ token.kind = .symbol symbol := by
  constructor
  · rintro ⟨_, _, h, hkind⟩
    cases h
    exact hkind
  · intro h
    exact ⟨token, rest, rfl, h⟩

namespace Reader

variable {α β : Type} {r : Reader α} {f : α → Reader β} {tokens rest : List Token}

/-! ## Sequences -/

theorem bind_eq_ok_iff {b : β} :
    (r >>= f) tokens = .ok b rest ↔ ∃ a middle, r tokens = .ok a middle ∧ f a middle = .ok b rest := by
  change EStateM.bind r f tokens = _ ↔ _
  unfold EStateM.bind
  cases r tokens <;> simp [and_assoc]

theorem bind_eq_error_iff {fault : ParseFault} :
    (r >>= f) tokens = .error fault rest ↔
      r tokens = .error fault rest ∨ ∃ a middle, r tokens = .ok a middle ∧ f a middle = .error fault rest := by
  change EStateM.bind r f tokens = _ ↔ _
  unfold EStateM.bind
  cases r tokens <;> simp [and_assoc]

theorem bind_of_ok {a : α} (h : r tokens = .ok a rest) : (r >>= f) tokens = f a rest := by
  change EStateM.bind r f tokens = _
  unfold EStateM.bind
  rw [h]

theorem bind_of_error {fault : ParseFault} (h : r tokens = .error fault rest) :
    (r >>= f) tokens = .error fault rest := by
  change EStateM.bind r f tokens = _
  unfold EStateM.bind
  rw [h]

theorem get_bind {f : List Token → Reader α} : (get >>= f) tokens = f tokens tokens := rfl

@[simp] theorem pure_eq_ok_iff {a b : α} :
    (pure a : Reader α) tokens = .ok b rest ↔ a = b ∧ tokens = rest := by
  change EStateM.Result.ok a tokens = .ok b rest ↔ _
  simp

/-! ## Single symbols -/

theorem accept_of_kind {symbol : Symbol} {token : Token} (h : token.kind = .symbol symbol) :
    accept symbol (token :: rest) = .ok true rest := by
  change (if token.kind = .symbol symbol then skip >>= fun _ => pure true else pure false :
    Reader Bool) (token :: rest) = _
  rw [if_pos h]
  rfl

theorem accept_of_not_begins {symbol : Symbol} (h : ¬ Begins symbol tokens) :
    accept symbol tokens = .ok false tokens := by
  cases tokens with
  | nil => rfl
  | cons token rest =>
    change (if token.kind = .symbol symbol then skip >>= fun _ => pure true else pure false :
      Reader Bool) (token :: rest) = _
    rw [if_neg (by simpa using h)]
    rfl

theorem accept_true_iff {symbol : Symbol} :
    accept symbol tokens = .ok true rest ↔
      ∃ token, tokens = token :: rest ∧ token.kind = .symbol symbol := by
  constructor
  · intro h
    by_cases hbegins : Begins symbol tokens
    · obtain ⟨token, more, rfl, hkind⟩ := hbegins
      rw [accept_of_kind hkind] at h
      cases h
      exact ⟨token, rfl, hkind⟩
    · rw [accept_of_not_begins hbegins] at h
      cases h
  · rintro ⟨token, rfl, hkind⟩
    exact accept_of_kind hkind

theorem accept_false_iff {symbol : Symbol} :
    accept symbol tokens = .ok false rest ↔ tokens = rest ∧ ¬ Begins symbol tokens := by
  constructor
  · intro h
    by_cases hbegins : Begins symbol tokens
    · obtain ⟨token, more, rfl, hkind⟩ := hbegins
      rw [accept_of_kind hkind] at h
      cases h
    · rw [accept_of_not_begins hbegins] at h
      cases h
      exact ⟨rfl, hbegins⟩
  · rintro ⟨rfl, h⟩
    exact accept_of_not_begins h

theorem expect_of_kind {symbol : Symbol} {fault : ParseFault} {token : Token}
    (h : token.kind = .symbol symbol) : expect symbol fault (token :: rest) = .ok () rest :=
  bind_of_ok (accept_of_kind h)

theorem expect_of_not_begins {symbol : Symbol} {fault : ParseFault} (h : ¬ Begins symbol tokens) :
    expect symbol fault tokens = .error fault tokens :=
  bind_of_ok (accept_of_not_begins h)

theorem of_expect_eq_error {symbol : Symbol} {fault fault' : ParseFault}
    (h : expect symbol fault tokens = .error fault' rest) : tokens = rest := by
  by_cases hbegins : Begins symbol tokens
  · obtain ⟨token, more, rfl, hkind⟩ := hbegins
    rw [expect_of_kind hkind] at h
    cases h
  · rw [expect_of_not_begins hbegins] at h
    cases h
    rfl

theorem expect_eq_ok_iff {symbol : Symbol} {fault : ParseFault} :
    expect symbol fault tokens = .ok () rest ↔
      ∃ token, tokens = token :: rest ∧ token.kind = .symbol symbol := by
  constructor
  · intro h
    by_cases hbegins : Begins symbol tokens
    · obtain ⟨token, more, rfl, hkind⟩ := hbegins
      rw [expect_of_kind hkind] at h
      cases h
      exact ⟨token, rfl, hkind⟩
    · rw [expect_of_not_begins hbegins] at h
      cases h
  · rintro ⟨token, rfl, hkind⟩
    exact expect_of_kind hkind

end Reader

/-! ## Operators that come next -/

theorem Tier.next?_eq_some_iff {tier : Tier} {tokens : List Token} {op : BinaryOp} :
    tier.next? tokens = some op ↔ op.tier = tier ∧ Begins op.symbol tokens := by
  match tokens with
  | [] => simp [Tier.next?]
  | ⟨.symbol symbol, text, line, file⟩ :: rest =>
    rw [begins_cons, TokenKind.symbol.injEq]
    exact Tier.operator?_eq_some_iff
  | ⟨.number _, _, _, _⟩ :: _ | ⟨.string, _, _, _⟩ :: _ | ⟨.name, _, _, _⟩ :: _
  | ⟨.fault _, _, _, _⟩ :: _ | ⟨.done, _, _, _⟩ :: _ => simp [Tier.next?]

theorem UnaryOp.next?_eq_some_iff {tokens : List Token} {op : UnaryOp} :
    UnaryOp.next? tokens = some op ↔ Begins op.symbol tokens := by
  match tokens with
  | [] => simp [UnaryOp.next?]
  | ⟨.symbol symbol, text, line, file⟩ :: rest =>
    rw [begins_cons, TokenKind.symbol.injEq]
    cases symbol <;> cases op <;> simp [UnaryOp.next?, UnaryOp.symbol]
  | ⟨.number _, _, _, _⟩ :: _ | ⟨.string, _, _, _⟩ :: _ | ⟨.name, _, _, _⟩ :: _
  | ⟨.fault _, _, _, _⟩ :: _ | ⟨.done, _, _, _⟩ :: _ => simp [UnaryOp.next?]

namespace Grammar

open Reader

variable {last : Option Token} {smaller : Option Grammar} {inner : Grammar} {token : Token}
  {tokens : List Token}

/-! ## Rows of an operand -/

theorem readOperand_number {x : Float} (h : token.kind = .number x) :
    readOperand last smaller (token :: tokens) = .ok (.literal (.number x)) tokens := by
  obtain ⟨kind, text, line, file⟩ := token
  subst h
  rfl

theorem readOperand_string (h : token.kind = .string) :
    readOperand last smaller (token :: tokens) =
      .ok (.literal (.text token.text.toString)) tokens := by
  obtain ⟨kind, text, line, file⟩ := token
  subst h
  rfl

theorem readOperand_call {opening : Token} (h : token.kind = .name)
    (hopening : opening.kind = .symbol .openParen) :
    readOperand last smaller (token :: opening :: tokens) =
      readCall smaller token.text.toString tokens := by
  obtain ⟨kind, text, line, file⟩ := token
  subst h
  exact bind_of_ok (accept_of_kind hopening)

theorem readOperand_var (h : token.kind = .name) (hopening : ¬ Begins .openParen tokens) :
    readOperand last smaller (token :: tokens) = .ok (.var token.text.toString) tokens := by
  obtain ⟨kind, text, line, file⟩ := token
  subst h
  exact bind_of_ok (accept_of_not_begins hopening)

theorem readOperand_openParen (h : token.kind = .symbol .openParen) :
    readOperand last smaller (token :: tokens) = readParenthesis smaller tokens := by
  obtain ⟨kind, text, line, file⟩ := token
  subst h
  rfl

theorem readOperand_symbol {symbol : Symbol} (h : token.kind = .symbol symbol)
    (hne : symbol ≠ .openParen) :
    readOperand last smaller (token :: tokens) = .error .unexpectedToken (token :: tokens) := by
  obtain ⟨kind, text, line, file⟩ := token
  subst h
  cases symbol <;> first | rfl | exact absurd rfl hne

theorem readOperand_fault {fault : LexicalFault} (h : token.kind = .fault fault) :
    readOperand last smaller (token :: tokens) = .error .unexpectedToken (token :: tokens) := by
  obtain ⟨kind, text, line, file⟩ := token
  subst h
  rfl

theorem readOperand_done (h : token.kind = .done) :
    readOperand last smaller (token :: tokens) = .error .missingOperand (token :: tokens) := by
  obtain ⟨kind, text, line, file⟩ := token
  subst h
  rfl

theorem readOperand_nil (hlast : ∀ token ∈ last, token.isDone) :
    readOperand last smaller [] = .error .missingOperand [] := by
  cases last with
  | none => rfl
  | some token =>
    have hdone := of_decide_eq_true (hlast token rfl)
    obtain ⟨kind, text, line, file⟩ := token
    subst hdone
    rfl

theorem readOperand_past {e : Expr} {rest : List Token} :
    readOperand (some token) smaller [] = .ok e rest ↔ readOperand none smaller [token] = .ok e rest := by
  obtain ⟨kind, text, line, file⟩ := token
  cases kind with
  | symbol symbol => cases symbol <;> first | rfl | exact iff_of_false (nomatch ·) (nomatch ·)
  | fault _ | done => exact iff_of_false (nomatch ·) (nomatch ·)
  | _ => rfl

/-! ## Rows that go deeper -/

theorem readParenthesis_deep : readParenthesis none tokens = .error .tooDeep tokens := rfl

theorem readParenthesis_some :
    readParenthesis (some inner) tokens =
      (do
        let e ← inner.expression
        expect .closeParen .openParenthesis
        return e : Reader Expr) tokens := rfl

theorem readCall_deep {name : String} : readCall none name tokens = .error .tooDeep tokens := rfl

theorem readCall_noArguments {name : String} (h : token.kind = .symbol .closeParen) :
    readCall (some inner) name (token :: tokens) = .ok (.call name []) tokens :=
  bind_of_ok (accept_of_kind h)

theorem readCall_arguments {name : String} (h : ¬ Begins .closeParen tokens) :
    readCall (some inner) name tokens =
      (do
        let args ← readArguments inner.expression (tokens.length + 1)
        expect .closeParen (.openArguments name)
        return .call name args : Reader Expr) tokens :=
  bind_of_ok (accept_of_not_begins h)

section
variable {expression : Reader Expr} {e : Expr} {rest : List Token} {count : Nat}

theorem readArguments_more {comma : Token} (h : expression tokens = .ok e (comma :: rest))
    (hcomma : comma.kind = .symbol .comma) : readArguments expression (count + 1) tokens =
      (do return e :: (← readArguments expression count) : Reader (List Expr)) rest :=
  (bind_of_ok h).trans (bind_of_ok (accept_of_kind hcomma))

theorem readArguments_last (h : expression tokens = .ok e rest) (hcomma : ¬ Begins .comma rest) :
    readArguments expression (count + 1) tokens = .ok [e] rest :=
  (bind_of_ok h).trans (bind_of_ok (accept_of_not_begins hcomma))

theorem readArguments_error {fault : ParseFault} (h : expression tokens = .error fault rest) :
    readArguments expression (count + 1) tokens = .error fault rest :=
  bind_of_error h

end

theorem readUnary_deep {op : UnaryOp} (h : token.kind = .symbol op.symbol) :
    readUnary last none (token :: tokens) = .error .tooDeep tokens := by
  have hop : UnaryOp.next? (token :: tokens) = some op := UnaryOp.next?_eq_some_iff.2 (begins_cons.2 h)
  unfold readUnary
  refine get_bind.trans ?_
  rw [hop]
  rfl

theorem readUnary_some {op : UnaryOp} (h : token.kind = .symbol op.symbol) :
    readUnary last (some inner) (token :: tokens) =
      (do return .unary op (← inner.unary) : Reader Expr) tokens := by
  have hop : UnaryOp.next? (token :: tokens) = some op := UnaryOp.next?_eq_some_iff.2 (begins_cons.2 h)
  unfold readUnary
  refine get_bind.trans ?_
  rw [hop]
  rfl

theorem readUnary_operand (h : UnaryOp.next? tokens = none) :
    readUnary last smaller tokens = readOperand last smaller tokens := by
  unfold readUnary
  refine get_bind.trans ?_
  rw [h]

/-! ## Rows of a chain and of a whole expression -/

section
variable {tighter : List Tier} {left : Expr}

theorem readMore_deep {op : BinaryOp} (h : token.kind = .symbol op.symbol) :
    readMore none op.tier tighter left (token :: tokens) = .error .tooDeep tokens := by
  have hop : op.tier.next? (token :: tokens) = some op := Tier.next?_eq_some_iff.2 ⟨rfl, begins_cons.2 h⟩
  unfold readMore
  refine get_bind.trans ?_
  rw [hop]
  rfl

theorem readMore_some {op : BinaryOp} (h : token.kind = .symbol op.symbol) :
    readMore (some inner) op.tier tighter left (token :: tokens) =
      (inner.chain tighter >>= fun right =>
        inner.more op.tier tighter (.binary op left right)) tokens := by
  have hop : op.tier.next? (token :: tokens) = some op := Tier.next?_eq_some_iff.2 ⟨rfl, begins_cons.2 h⟩
  unfold readMore
  refine get_bind.trans ?_
  rw [hop]
  rfl

theorem readMore_left {tier : Tier} (h : tier.next? tokens = none) :
    readMore smaller tier tighter left tokens = .ok left tokens := by
  unfold readMore
  refine get_bind.trans ?_
  rw [h]
  rfl

theorem readChain_cons {tier : Tier} :
    readChain last smaller (tier :: tighter) tokens =
      (readChain last smaller tighter >>= readMore smaller tier tighter) tokens := rfl

theorem readExpression_error {fault : ParseFault} {rest : List Token}
    (h : readChain last smaller Tier.all tokens = .error fault rest) :
    readExpression last smaller tokens = .error fault rest :=
  bind_of_error h

theorem readExpression_plain {e : Expr} {rest : List Token}
    (h : readChain last smaller Tier.all tokens = .ok e rest) (hquestion : ¬ Begins .question rest) :
    readExpression last smaller tokens = .ok e rest := by
  refine (bind_of_ok h).trans ?_
  exact bind_of_ok (accept_of_not_begins hquestion)

theorem readExpression_deep {e : Expr} {rest : List Token}
    (h : readChain last none Tier.all tokens = .ok e (token :: rest))
    (hquestion : token.kind = .symbol .question) :
    readExpression last none tokens = .error .tooDeep rest := by
  refine (bind_of_ok h).trans ?_
  exact bind_of_ok (accept_of_kind hquestion)

theorem readExpression_some {condition : Expr} {rest : List Token}
    (h : readChain last (some inner) Tier.all tokens = .ok condition (token :: rest))
    (hquestion : token.kind = .symbol .question) :
    readExpression last (some inner) tokens =
      (do
        let yes ← inner.expression
        expect .colon .missingColon
        let no ← inner.expression
        return .conditional condition yes no : Reader Expr) rest := by
  refine (bind_of_ok h).trans ?_
  exact bind_of_ok (accept_of_kind hquestion)

end

/-! ## Budgets -/

/-- The readers for the next smaller budget, if there is one. -/
def oneLess (last : Option Token) : (budget : Nat) → Option Grammar
  | 0 => none
  | budget + 1 => some (ofBudget last budget)

theorem exists_of_mem_oneLess {budget : Nat} (h : inner ∈ oneLess last budget) :
    ∃ less, budget = less + 1 ∧ inner = ofBudget last less := by
  cases budget with
  | zero => cases h
  | succ less => exact ⟨less, rfl, (Option.some.inj h).symm⟩

theorem ofBudget_eq (budget : Nat) : ofBudget last budget = build last (oneLess last budget) := by
  cases budget <;> rfl

end Grammar

end ScenarioScript
