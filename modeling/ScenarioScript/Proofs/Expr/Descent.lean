import ScenarioScript.Proofs.Expr.Lookahead

/-!
# Reading with a count of levels

The readers for a budget never count. Here is the same reading with one counter for the whole statement: what goes a
level deeper adds one to it, and whoever returns puts it back to what it was before. Nothing bounds how long such a
reading may go on, so it might have no result. The readers for what the counter leaves of the budget read the same.
-/

namespace ScenarioScript

/-- What comes of reading some tokens, and the tokens that are left. An error names the token in sight. -/
def Reader.outcome {α : Type} (r : Reader α) (last : Option Token) (tokens : List Token) :
    Except ParseError α × List Token :=
  match r tokens with
  | .ok a rest => (.ok a, rest)
  | .error fault rest => (.error (.atToken fault (rest.head?.or last)), rest)

/-- Where a descent is: the tokens ahead, and how many levels are taken. -/
structure DescentState where
  rest : List Token
  depth : Nat

/-- A reading that keeps its place even if it stops. A reading that goes on forever is `none`. -/
abbrev Descent := ExceptT ParseError (StateT DescentState Option)

namespace Descent

section
variable (last : Option Token)

/-- Reads without counting. -/
def lift {α : Type} (r : Reader α) : Descent α := fun state =>
  let (outcome, rest) := r.outcome last state.rest
  some (outcome, ⟨rest, state.depth⟩)

/-- Goes one level deeper, if there is one. -/
def descend : Descent Unit := do
  let state ← get
  if maxDepth ≤ state.depth then lift last (throw .tooDeep)
  set ({ state with depth := state.depth + 1 } : DescentState)

/-- Puts the counter back. -/
def ascend (depth : Nat) : Descent Unit := modify fun state => { state with depth }

end

end Descent

/-! ## The descents -/

/-- A parser that counts. Past the end of the list the last token stays in sight. -/
structure Parser where
  last : Option Token

namespace Parser

open Descent

mutual

def expression (parser : Parser) : Descent Expr := do
  let condition ← parser |>.chain Tier.all
  if ← lift parser.last (Reader.accept .question) then
    let base := (← get).depth
    descend parser.last
    let yes ← parser |>.expression
    lift parser.last (Reader.expect .colon .missingColon)
    let no ← parser |>.expression
    ascend base
    return .conditional condition yes no
  else return condition
partial_fixpoint

/-- Every operator of a chain leaves the counter one higher, up to the end of the chain. -/
def chain (parser : Parser) (tiers : List Tier) : Descent Expr := do
  match tiers with
  | [] => parser |>.unary
  | tier :: tighter =>
    let base := (← get).depth
    let left ← parser |>.chain tighter
    let e ← parser |>.more tier tighter left
    ascend base
    return e
partial_fixpoint

def more (parser : Parser) (tier : Tier) (tighter : List Tier) (left : Expr) : Descent Expr := do
  match tier.next? (← get).rest with
  | some op =>
    lift parser.last Reader.skip
    descend parser.last
    let right ← parser |>.chain tighter
    parser |>.more tier tighter (.binary op left right)
  | none => return left
partial_fixpoint

def unary (parser : Parser) : Descent Expr := do
  match UnaryOp.next? (← get).rest with
  | some op =>
    lift parser.last Reader.skip
    let base := (← get).depth
    descend parser.last
    let e ← parser |>.unary
    ascend base
    return .unary op e
  | none => parser |>.operand
partial_fixpoint

def operand (parser : Parser) : Descent Expr := do
  match (← get).rest.head?.or parser.last with
  | none => lift parser.last (throw .missingOperand)
  | some token =>
    match token.kind with
    | .done => lift parser.last (throw .missingOperand)
    | .number x =>
      lift parser.last Reader.skip
      return .literal (.number x)
    | .string =>
      lift parser.last Reader.skip
      return .literal (.text token.text.toString)
    | .name =>
      lift parser.last Reader.skip
      if ← lift parser.last (Reader.accept .openParen) then parser |>.call token.text.toString
      else return .var token.text.toString
    | .symbol .openParen =>
      lift parser.last Reader.skip
      parser |>.parenthesis
    | _ => lift parser.last (throw .unexpectedToken)
partial_fixpoint

def call (parser : Parser) (name : String) : Descent Expr := do
  let base := (← get).depth
  descend parser.last
  if ← lift parser.last (Reader.accept .closeParen) then
    ascend base
    return .call name []
  else
    let args ← parser |>.arguments
    lift parser.last (Reader.expect .closeParen (.openArguments name))
    ascend base
    return .call name args
partial_fixpoint

def arguments (parser : Parser) : Descent (List Expr) := do
  let first ← parser |>.expression
  if ← lift parser.last (Reader.accept .comma) then
    return first :: (← parser |>.arguments)
  else return [first]
partial_fixpoint

def parenthesis (parser : Parser) : Descent Expr := do
  let base := (← get).depth
  descend parser.last
  let e ← parser |>.expression
  lift parser.last (Reader.expect .closeParen .openParenthesis)
  ascend base
  return e
partial_fixpoint

end

end Parser

namespace Descent

/-! ## Descents and readers -/

/-- The descent does what the reader does on the tokens. If it returns, the counter has the property then. -/
def Follows {α : Type} (last : Option Token) (d : Descent α) (r : Reader α) (depth : Nat) (returns : Nat → Prop)
    (tokens : List Token) : Prop :=
  (∃ a rest left, r tokens = .ok a rest ∧ d ⟨tokens, depth⟩ = some (.ok a, ⟨rest, left⟩) ∧ returns left) ∨
    ∃ fault rest left, r tokens = .error fault rest ∧
      d ⟨tokens, depth⟩ = some (.error (.atToken fault (rest.head?.or last)), ⟨rest, left⟩)

section
variable {α β : Type} {last : Option Token} {d : Descent α} {r : Reader α} {f : α → Descent β} {g : α → Reader β}
  {depth : Nat} {returns : Nat → Prop} {tokens : List Token}

theorem bind_of_ok {a : α} {state after : DescentState} (h : d state = some (.ok a, after)) :
    (d >>= f) state = f a after := by
  change StateT.bind d (ExceptT.bindCont f) state = _
  unfold StateT.bind
  rw [h]
  rfl

theorem bind_of_error {error : ParseError} {state after : DescentState} (h : d state = some (.error error, after)) :
    (d >>= f) state = some (.error error, after) := by
  change StateT.bind d (ExceptT.bindCont f) state = _
  unfold StateT.bind
  rw [h]
  rfl

theorem follows_pure (a : α) (h : returns depth) : Follows last (pure a) (pure a) depth returns tokens :=
  .inl ⟨a, tokens, depth, rfl, rfl, h⟩

theorem follows_lift (r : Reader α) : Follows last (lift last r) r depth (· = depth) tokens := by
  unfold Follows lift Reader.outcome
  cases r tokens with
  | ok a rest => exact .inl ⟨a, rest, depth, rfl, rfl, rfl⟩
  | error fault rest => exact .inr ⟨fault, rest, depth, rfl, rfl⟩

theorem follows_throw (fault : ParseFault) :
    Follows last (lift last (throw fault)) (throw fault : Reader α) depth returns tokens :=
  .inr ⟨fault, tokens, depth, rfl, rfl⟩

theorem Follows.outcome (h : Follows last d r depth returns tokens) :
    ∃ left, d ⟨tokens, depth⟩ = some ((r.outcome last tokens).1, ⟨(r.outcome last tokens).2, left⟩) ∧
      ∀ a, (r.outcome last tokens).1 = .ok a → returns left := by
  unfold Reader.outcome
  rcases h with ⟨a, rest, left, hr, hd, hleft⟩ | ⟨fault, rest, left, hr, hd⟩
  · rw [hr]
    exact ⟨left, hd, fun _ _ => hleft⟩
  · rw [hr]
    exact ⟨left, hd, nofun⟩

theorem Follows.bind {after : Nat → Prop} (h : Follows last d r depth returns tokens)
    (hf : ∀ a rest left, r tokens = .ok a rest → returns left → Follows last (f a) (g a) left after rest) :
    Follows last (d >>= f) (r >>= g) depth after tokens := by
  rcases h with ⟨a, rest, left, hr, hd, hleft⟩ | ⟨fault, rest, left, hr, hd⟩
  · rcases hf a rest left hr hleft with ⟨b, rest', left', hg, hf, hleft'⟩ | ⟨fault, rest', left', hg, hf⟩
    · exact .inl ⟨b, rest', left', (Reader.bind_of_ok hr).trans hg, (bind_of_ok hd).trans hf, hleft'⟩
    · exact .inr ⟨fault, rest', left', (Reader.bind_of_ok hr).trans hg, (bind_of_ok hd).trans hf⟩
  · exact .inr ⟨fault, rest, left, Reader.bind_of_error hr, bind_of_error hd⟩

theorem follows_get {f : DescentState → Descent α} {g : List Token → Reader α}
    (h : Follows last (f ⟨tokens, depth⟩) (g tokens) depth returns tokens) :
    Follows last (get >>= f) (get >>= g) depth returns tokens := h

theorem follows_state {f : DescentState → Descent α} (h : Follows last (f ⟨tokens, depth⟩) r depth returns tokens) :
    Follows last (get >>= f) r depth returns tokens := h

theorem follows_lift_bind {after : Nat → Prop}
    (hf : ∀ a rest, r tokens = .ok a rest → Follows last (f a) (g a) depth after rest) :
    Follows last (lift last r >>= f) (r >>= g) depth after tokens := by
  refine (follows_lift r).bind fun a rest left hr hleft => ?_
  subst hleft
  exact hf a rest hr

theorem follows_ascend (a : α) {left : Nat} :
    Follows last (do ascend depth; return a) (pure a) left (· = depth) tokens :=
  .inl ⟨a, tokens, depth, rfl, rfl, rfl⟩

theorem descend_of_lt (h : depth < maxDepth) : descend last ⟨tokens, depth⟩ = some (.ok (), ⟨tokens, depth + 1⟩) := by
  change (if maxDepth ≤ depth then lift last (throw .tooDeep) >>= fun _ => set (DescentState.mk tokens (depth + 1))
    else set (DescentState.mk tokens (depth + 1)) : Descent Unit) ⟨tokens, depth⟩ = _
  rw [if_neg (Nat.not_le.2 h)]
  rfl

theorem descend_of_le (h : maxDepth ≤ depth) :
    descend last ⟨tokens, depth⟩ = some (.error (.atToken .tooDeep (tokens.head?.or last)), ⟨tokens, depth⟩) := by
  change (if maxDepth ≤ depth then lift last (throw .tooDeep) >>= fun _ => set (DescentState.mk tokens (depth + 1))
    else set (DescentState.mk tokens (depth + 1)) : Descent Unit) ⟨tokens, depth⟩ = _
  rw [if_pos h]
  rfl

end

/-! ## The readers of the grammar -/

open Grammar

/-- The descents from a depth do what the readers of a grammar do. -/
structure Agrees (last : Option Token) (depth : Nat) (g : Grammar) : Prop where
  expression : ∀ tokens, Follows last (Parser.expression ⟨last⟩) g.expression depth (· = depth) tokens
  unary : ∀ tokens, Follows last (Parser.unary ⟨last⟩) g.unary depth (· = depth) tokens
  chain : ∀ tiers tokens, Follows last (Parser.chain ⟨last⟩ tiers) (g.chain tiers) depth (· = depth) tokens
  more : ∀ tier tighter left tokens,
    Follows last (Parser.more ⟨last⟩ tier tighter left) (g.more tier tighter left) depth (fun _ => True) tokens

section
variable {last : Option Token} {depth budget : Nat}

theorem follows_descend {β : Type} {f : Descent β} {g : Grammar → Reader β} {after : Nat → Prop} {tokens : List Token}
    (hbudget : depth + budget = maxDepth)
    (hf : ∀ inner ∈ oneLess last budget, Follows last f (g inner) (depth + 1) after tokens) :
    Follows last (descend last >>= fun _ => f) (deeper (oneLess last budget) >>= g) depth after tokens := by
  cases budget with
  | zero => exact .inr ⟨.tooDeep, tokens, depth, rfl, bind_of_error (descend_of_le (by omega))⟩
  | succ budget =>
    have hdescend : (descend last >>= fun _ => f) ⟨tokens, depth⟩ = f ⟨tokens, depth + 1⟩ :=
      bind_of_ok (descend_of_lt (by omega))
    unfold Follows
    rw [hdescend]
    exact hf _ rfl

theorem arguments_follows {inner : Reader Expr} (hlooks : inner.Looks inner)
    (h : ∀ tokens, Follows last (Parser.expression ⟨last⟩) inner depth (· = depth) tokens) {count : Nat}
    {tokens : List Token} (hcount : tokens.length < count) :
    Follows last (Parser.arguments ⟨last⟩) (readArguments inner count) depth (· = depth) tokens := by
  -- every argument but the last takes a comma, so the reader comes to the last one
  induction count generalizing tokens with
  | zero => omega
  | succ count ih =>
    rw [Parser.arguments]
    refine (h tokens).bind fun first rest left hfirst hleft => ?_
    subst hleft
    refine follows_lift_bind fun accepted behind haccept => ?_
    cases accepted with
    | false => exact follows_pure [first] rfl
    | true =>
      obtain ⟨comma, rfl, -⟩ := Reader.accept_true_iff.1 haccept
      obtain ⟨taken, rfl, -⟩ := hlooks tokens (.ok first) hfirst
      have hbehind : behind.length < count := by
        rw [List.length_append, List.length_cons] at hcount
        omega
      refine (ih hbehind).bind fun others final left _ hleft => ?_
      exact follows_pure (first :: others) hleft

variable (hbudget : depth + budget = maxDepth)
  (hinner : ∀ inner ∈ oneLess last budget, Agrees last (depth + 1) inner ∧ inner.expression.Looks inner.expression)
include hbudget hinner

theorem parenthesis_follows (tokens : List Token) :
    Follows last (Parser.parenthesis ⟨last⟩) (readParenthesis (oneLess last budget)) depth (· = depth) tokens := by
  rw [Parser.parenthesis]
  unfold readParenthesis
  refine follows_state (follows_descend hbudget fun inner hmem => ?_)
  refine ((hinner inner hmem).1.expression tokens).bind fun e rest left _ _ => ?_
  refine follows_lift_bind fun _ _ _ => ?_
  exact follows_ascend e

theorem call_follows (name : String) (tokens : List Token) :
    Follows last (Parser.call ⟨last⟩ name) (readCall (oneLess last budget) name) depth (· = depth) tokens := by
  rw [Parser.call]
  unfold readCall
  refine follows_state (follows_descend hbudget fun inner hmem => ?_)
  obtain ⟨hagrees, hlooks⟩ := hinner inner hmem
  refine follows_lift_bind fun accepted rest _ => ?_
  cases accepted with
  | true => exact follows_ascend (Expr.call name [])
  | false =>
    refine (arguments_follows hlooks hagrees.expression (Nat.lt_succ_self _)).bind fun args rest left _ _ => ?_
    refine follows_lift_bind fun _ _ _ => ?_
    exact follows_ascend (Expr.call name args)

theorem operand_follows (tokens : List Token) :
    Follows last (Parser.operand ⟨last⟩) (readOperand last (oneLess last budget)) depth (· = depth) tokens := by
  rw [Parser.operand]
  unfold readOperand
  refine follows_get ?_
  dsimp only
  cases tokens.head?.or last with
  | none => exact follows_throw .missingOperand
  | some token =>
    dsimp only
    cases token.kind with
    | number x => exact follows_lift_bind fun _ _ _ => follows_pure _ rfl
    | string => exact follows_lift_bind fun _ _ _ => follows_pure _ rfl
    | name =>
      refine follows_lift_bind fun _ rest _ => follows_lift_bind fun accepted behind _ => ?_
      cases accepted with
      | true => exact call_follows hbudget hinner _ behind
      | false => exact follows_pure _ rfl
    | symbol symbol =>
      by_cases hopening : symbol = .openParen
      · subst hopening
        exact follows_lift_bind fun _ rest _ => parenthesis_follows hbudget hinner rest
      · cases symbol <;> first | exact follows_throw .unexpectedToken | exact absurd rfl hopening
    | fault fault => exact follows_throw .unexpectedToken
    | done => exact follows_throw .missingOperand

theorem unary_follows (tokens : List Token) :
    Follows last (Parser.unary ⟨last⟩) (readUnary last (oneLess last budget)) depth (· = depth) tokens := by
  rw [Parser.unary]
  unfold readUnary
  refine follows_get ?_
  dsimp only
  cases UnaryOp.next? tokens with
  | none => exact operand_follows hbudget hinner tokens
  | some op =>
    refine follows_lift_bind fun _ rest _ => follows_state (follows_descend hbudget fun inner hmem => ?_)
    refine ((hinner inner hmem).1.unary rest).bind fun e rest left _ _ => ?_
    exact follows_ascend (Expr.unary op e)

theorem more_follows (tier : Tier) (tighter : List Tier) (left : Expr) (tokens : List Token) :
    Follows last (Parser.more ⟨last⟩ tier tighter left) (readMore (oneLess last budget) tier tighter left) depth
      (fun _ => True) tokens := by
  rw [Parser.more]
  unfold readMore
  refine follows_get ?_
  dsimp only
  cases tier.next? tokens with
  | none => exact follows_pure left trivial
  | some op =>
    refine follows_lift_bind fun _ rest _ => follows_descend hbudget fun inner hmem => ?_
    obtain ⟨hagrees, -⟩ := hinner inner hmem
    refine (hagrees.chain tighter rest).bind fun right rest level _ hlevel => ?_
    subst hlevel
    exact hagrees.more tier tighter (.binary op left right) rest

theorem chain_follows (tiers : List Tier) (tokens : List Token) :
    Follows last (Parser.chain ⟨last⟩ tiers) (readChain last (oneLess last budget) tiers) depth (· = depth) tokens := by
  induction tiers generalizing tokens with
  | nil =>
    rw [Parser.chain]
    exact unary_follows hbudget hinner tokens
  | cons tier tighter ih =>
    rw [Parser.chain]
    refine follows_state ?_
    -- behind the chain the counter is put back, which is nothing to the reader
    let reader := readMore (oneLess last budget) tier tighter
    have hmore : (reader · >>= pure) = reader := funext fun left => bind_pure _
    unfold readChain
    change Follows last _ (_ >>= reader) depth _ tokens
    rw [← hmore]
    refine (ih tokens).bind fun left rest level _ hlevel => ?_
    subst hlevel
    refine (more_follows hbudget hinner tier tighter left rest).bind fun e rest level _ _ => ?_
    exact follows_ascend e

theorem expression_follows (tokens : List Token) :
    Follows last (Parser.expression ⟨last⟩) (readExpression last (oneLess last budget)) depth (· = depth) tokens := by
  rw [Parser.expression]
  unfold readExpression
  refine (chain_follows hbudget hinner Tier.all tokens).bind fun condition rest level _ hlevel => ?_
  subst hlevel
  refine follows_lift_bind fun accepted rest _ => ?_
  cases accepted with
  | false => exact follows_pure condition rfl
  | true =>
    refine follows_state (follows_descend hbudget fun inner hmem => ?_)
    obtain ⟨hagrees, -⟩ := hinner inner hmem
    refine (hagrees.expression rest).bind fun yes rest level _ hlevel => ?_
    subst hlevel
    refine follows_lift_bind fun _ rest _ => ?_
    refine (hagrees.expression rest).bind fun no rest level _ _ => ?_
    exact follows_ascend (Expr.conditional condition yes no)

theorem build_agrees : Agrees last depth (build last (oneLess last budget)) where
  expression := expression_follows hbudget hinner
  unary := unary_follows hbudget hinner
  chain := chain_follows hbudget hinner
  more := more_follows hbudget hinner

end

/-- A descent does what the readers do for what the counter leaves of the budget. -/
theorem ofBudget_agrees {last : Option Token} (hlast : ∀ token ∈ last, token.isDone) {depth budget : Nat}
    (hbudget : depth + budget = maxDepth) : Agrees last depth (ofBudget last budget) := by
  induction budget using Nat.strongRecOn generalizing depth with
  | _ budget ih =>
    rw [ofBudget_eq]
    refine build_agrees hbudget fun inner hinner => ?_
    obtain ⟨less, rfl, rfl⟩ := exists_of_mem_oneLess hinner
    exact ⟨ih less (Nat.lt_succ_self less) (by omega), (ofBudget_looks hlast last less).expression⟩

end Descent

end ScenarioScript
