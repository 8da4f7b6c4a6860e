import ScenarioScript.Evaluator.Eval

/-!
# Evaluation step by step

Evaluation takes the steps of variables, calls and operators in the order of the expression. So two
evaluators agree on whole expressions if they agree on the steps.
-/

namespace ScenarioScript

variable {State : Type}

/-! ## Steps -/

/-- What an evaluator does at the nodes of an expression. -/
structure Steps (State : Type) where
  resolve : String → Eval State Value
  call : String → List Value → Eval State Value
  unary : UnaryOp → Value → Eval State Value
  binary : BinaryOp → Value → Value → Eval State Value

namespace Steps

mutual

def eval (steps : Steps State) : Expr → Eval State Value
  | .literal value => return value
  | .var name => steps.resolve name
  | .call name args => do
    let values ← steps.evalAll args
    steps.call name values
  | .unary op operand => do
    let value ← steps.eval operand
    steps.unary op value
  | .binary .and left right => do
    let a ← steps.eval left
    if a.isTrue then
      let b ← steps.eval right
      return .ofBool b.isTrue
    else return .ofBool false
  | .binary .or left right => do
    let a ← steps.eval left
    if a.isTrue then return .ofBool true
    else
      let b ← steps.eval right
      return .ofBool b.isTrue
  | .binary op left right => do
    let a ← steps.eval left
    let b ← steps.eval right
    steps.binary op a b
  | .conditional condition yes no => do
    let value ← steps.eval condition
    if value.isTrue then steps.eval yes else steps.eval no

def evalAll (steps : Steps State) : List Expr → Eval State (List Value)
  | [] => return []
  | e :: es => do
    let value ← steps.eval e
    let values ← steps.evalAll es
    return value :: values

end

end Steps

namespace Evaluator

def steps (evaluator : Evaluator State) : Steps State where
  resolve name := do
    let (value, _) ← Eval.ofWorld (modifyGet (evaluator.resolve name))
    return .number value
  call := evaluator.callNoting
  unary := evaluator.apply
  binary := evaluator.combine

mutual

theorem eval_eq_steps (evaluator : Evaluator State) : ∀ e, evaluator.eval e = evaluator.steps.eval e
  | .literal value => by rw [eval, Steps.eval]
  | .var name => by rw [eval, Steps.eval]; rfl
  | .call name args => by rw [eval, Steps.eval, evalAll_eq_steps]; rfl
  | .unary op operand => by rw [eval, Steps.eval, eval_eq_steps]; rfl
  | .binary op left right => by
    cases op <;> simp only [eval, Steps.eval, eval_eq_steps evaluator left, eval_eq_steps evaluator right] <;> rfl
  | .conditional condition yes no => by
    rw [eval, Steps.eval, eval_eq_steps evaluator condition, eval_eq_steps evaluator yes,
      eval_eq_steps evaluator no]

theorem evalAll_eq_steps (evaluator : Evaluator State) : ∀ es, evaluator.evalAll es = evaluator.steps.evalAll es
  | [] => by rw [evalAll, Steps.evalAll]
  | e :: es => by rw [evalAll, Steps.evalAll, eval_eq_steps evaluator e, evalAll_eq_steps evaluator es]

end

end Evaluator

/-! ## Sequences -/

theorem bind_eq {ε σ α β : Type} (r : EStateM ε σ α) (f : α → EStateM ε σ β) (state : σ) :
    (r >>= f) state = match r state with
      | .ok a after => f a after
      | .error crash after => .error crash after := by
  change EStateM.bind r f state = _
  unfold EStateM.bind
  cases r state <;> rfl

theorem exists_of_bind {ε σ α β : Type} {r : EStateM ε σ α} {f : α → EStateM ε σ β} {state after : σ} {b : β}
    (h : (r >>= f) state = .ok b after) : ∃ a middle, r state = .ok a middle ∧ f a middle = .ok b after := by
  rw [bind_eq] at h
  cases hr : r state with
  | ok a middle =>
    rw [hr] at h
    exact ⟨a, middle, rfl, h⟩
  | error crash middle =>
    rw [hr] at h
    cases h

theorem exists_ok_of_any {ε α : Type} {x : Except ε α} {check : α → Bool} (h : x.toOption.any check) :
    ∃ a, x = .ok a ∧ check a := by
  cases x with
  | ok a => exact ⟨a, rfl, h⟩
  | error error => cases h

theorem WorldAction.modifyGet_eq {α : Type} (f : World State → α × World State) (world : World State) :
    (modifyGet f : WorldAction State α) world = .ok (f world).1 (f world).2 := rfl

/-- Whether a run does not crash and ends as it should. -/
def runPasses {ε σ α : Type} (run : EStateM.Result ε σ α) (check : α → σ → Bool) : Bool :=
  match run with
  | .ok a after => check a after
  | .error _ _ => false

theorem exists_of_runPasses {ε σ α : Type} {run : EStateM.Result ε σ α} {check : α → σ → Bool}
    (h : runPasses run check) : ∃ a after, run = .ok a after ∧ check a after := by
  cases run with
  | ok a after => exact ⟨a, after, rfl, h⟩
  | error crash after => cases h

namespace Eval

section
variable {α β : Type} {r : Eval State α} {f : α → Eval State β} {pass after : Pass State}

theorem bind_of_ok {a : α} (h : r pass = .ok a after) : (r >>= f) pass = f a after := by
  rw [bind_eq, h]

theorem bind_of_error {crash : Crash} (h : r pass = .error crash after) : (r >>= f) pass = .error crash after := by
  rw [bind_eq, h]

theorem get_eq (pass : Pass State) : (get : Eval State (Pass State)) pass = .ok pass pass := rfl

theorem ofWorld_modifyGet (f : World State → α × World State) (pass : Pass State) :
    (Eval.ofWorld (modifyGet f) : Eval State α) pass =
      .ok (f pass.world).1 { pass with world := (f pass.world).2 } := rfl

end

end Eval

/-! ## Calls -/

namespace Evaluator

section
variable {evaluator : Evaluator State} {name : String} {args : List Value} {operation : Operation State}

theorem call_of_none (h : evaluator.functions.get? name = none) (world : World State) :
    evaluator.call name args world = .ok (.error (.unknownFunction name))
      (evaluator.complain (.callFailure (.unknownFunction name)) world) := by
  have hfunction : evaluator.function name world =
      (none, evaluator.complain (.callFailure (.unknownFunction name)) world) := by
    simp only [function, h]
  unfold call
  rw [bind_eq, WorldAction.modifyGet_eq, hfunction]
  rfl

theorem call_of_some (h : evaluator.functions.get? name = some operation) (world : World State) :
    evaluator.call name args world = match operation args world.host with
      | .ok (.ok value) host => .ok (.ok value) { world with host }
      | .ok (.error reason) host => .ok (.error (.failed name reason))
          (evaluator.complain (.callFailure (.failed name reason)) { world with host })
      | .error crash host => .error crash { world with host } := by
  have hfunction : evaluator.function name world = (some operation, world) := by
    simp only [function, h]
  unfold call
  rw [bind_eq, WorldAction.modifyGet_eq, hfunction]
  simp only [bind_eq, WorldAction.ofHost]
  cases operation args world.host with
  | ok answer host => cases answer <;> rfl
  | error crash host => rfl

theorem callNoting_eq (evaluator : Evaluator State) (name : String) (args : List Value) (pass : Pass State) :
    evaluator.callNoting name args pass = match evaluator.call name args pass.world with
      | .ok (.ok value) world => evaluator.finite name value { pass with world }
      | .ok (.error failure) world => .ok .zero { pass with world, failures := pass.failures.push failure }
      | .error crash world => .error crash { pass with world } := by
  unfold callNoting
  cases h : evaluator.call name args pass.world with
  | ok result world =>
    have hworld : Eval.ofWorld (evaluator.call name args) pass = .ok result { pass with world } := by
      rw [Eval.ofWorld, h]
    rw [Eval.bind_of_ok hworld]
    cases result <;> rfl
  | error crash world =>
    have hworld : Eval.ofWorld (evaluator.call name args) pass = .error crash { pass with world } := by
      rw [Eval.ofWorld, h]
    rw [Eval.bind_of_error hworld]

end

/-! ## Whole evaluations -/

section
variable {evaluator : Evaluator State} {e : Expr} {world : World State} {pass : Pass State}

theorem evaluate_of_ok {value : Value} (h : evaluator.eval e ⟨world, evaluator.patterns, #[]⟩ = .ok value pass) :
    evaluator.evaluate e world =
      .ok (⟨value, pass.failures.toList⟩, { evaluator with patterns := pass.patterns }) pass.world := by
  unfold evaluate
  rw [h]

theorem evaluate_of_error {crash : Crash}
    (h : evaluator.eval e ⟨world, evaluator.patterns, #[]⟩ = .error crash pass) :
    evaluator.evaluate e world = .error crash pass.world := by
  unfold evaluate
  rw [h]

theorem evaluateAt_eq (evaluator : Evaluator State) (e : Expr) (origin : Origin) (world : World State) :
    evaluator.evaluateAt e origin world =
      match { evaluator with origin := some origin }.eval e ⟨world, evaluator.patterns, #[]⟩ with
      | .ok value pass =>
        .ok (⟨value, pass.failures.toList⟩, { evaluator with patterns := pass.patterns }) pass.world
      | .error crash pass => .error crash pass.world := by
  unfold evaluateAt
  rw [bind_eq]
  unfold evaluate
  cases { evaluator with origin := some origin }.eval e ⟨world, evaluator.patterns, #[]⟩ <;> rfl

end

end Evaluator

/-! ## Relations between evaluations -/

/-- A relation between computations that holds of whole evaluations if it holds of their steps. -/
structure EvalRelation (R : ∀ {α : Type}, Eval State α → Eval State α → Prop) : Prop where
  pure : ∀ {α : Type} (a : α), R (pure a) (pure a)
  bind : ∀ {α β : Type} {r r' : Eval State α} {f f' : α → Eval State β}, R r r' → (∀ a, R (f a) (f' a)) →
    R (r >>= f) (r' >>= f')

structure Steps.Related (R : ∀ {α : Type}, Eval State α → Eval State α → Prop) (s t : Steps State) : Prop where
  resolve : ∀ name, R (s.resolve name) (t.resolve name)
  call : ∀ name args, R (s.call name args) (t.call name args)
  unary : ∀ op value, R (s.unary op value) (t.unary op value)
  binary : ∀ op a b, R (s.binary op a b) (t.binary op a b)

namespace EvalRelation

section
variable {R : ∀ {α : Type}, Eval State α → Eval State α → Prop} {evaluator other : Evaluator State}
  (hR : EvalRelation R)
  (hmissing : ∀ problem, problem.kind = .arithmetic → R (evaluator.missing problem) (other.missing problem))
include hR hmissing

theorem finite (maker : String) (value : Value) : R (evaluator.finite maker value) (other.finite maker value) := by
  unfold Evaluator.finite
  split
  · split
    · exact hR.pure _
    · exact hmissing _ rfl
  · exact hR.pure _

theorem apply (op : UnaryOp) (value : Value) : R (evaluator.apply op value) (other.apply op value) := by
  cases op with
  | neg => exact hR.finite hmissing UnaryOp.neg.symbol.text value.neg
  | not => exact hR.pure _

theorem combine_of_ne (op : BinaryOp) (hop : op ≠ .patternMatch) (hop' : op ≠ .notPatternMatch) (a b : Value) :
    R (evaluator.combine op a b) (other.combine op a b) := by
  have hfinite := hR.finite hmissing op.symbol.text
  cases op with
  | add => exact hfinite (a.add b)
  | sub => exact hfinite (a.sub b)
  | mul => exact hfinite (a.mul b)
  | div | rem =>
    unfold Evaluator.combine
    dsimp only
    split
    · exact hfinite _
    · exact hmissing _ rfl
  | patternMatch => exact absurd rfl hop
  | notPatternMatch => exact absurd rfl hop'
  | _ => exact hR.pure _

theorem combine (hmatch : ∀ pattern text, R (evaluator.patternMatch pattern text) (other.patternMatch pattern text))
    (op : BinaryOp) (a b : Value) : R (evaluator.combine op a b) (other.combine op a b) := by
  have hcombine := hR.combine_of_ne hmissing op
  cases op with
  | patternMatch | notPatternMatch => exact hR.bind (hmatch b.toText a.toText) fun _ => hR.pure _
  | _ => exact hcombine (by simp) (by simp) a b

end

end EvalRelation

namespace Expr

mutual

/-- The functions that an expression calls from left to right, each as often as it occurs. -/
def functionNames : Expr → List String
  | literal _ | var _ => []
  | call name args => name :: functionNamesOfAll args
  | unary _ operand => operand.functionNames
  | binary _ left right => left.functionNames ++ right.functionNames
  | conditional condition yes no => condition.functionNames ++ yes.functionNames ++ no.functionNames

def functionNamesOfAll : List Expr → List String
  | [] => []
  | e :: es => e.functionNames ++ functionNamesOfAll es

end

end Expr

namespace Steps

section
variable {R : ∀ {α : Type}, Eval State α → Eval State α → Prop} {s t : Steps State} {names calls : List String}

/-- Steps that are related as far as they look up some names and call some functions. -/
structure RelatedOn (R : ∀ {α : Type}, Eval State α → Eval State α → Prop) (names calls : List String)
    (s t : Steps State) : Prop where
  resolve : ∀ name ∈ names, R (s.resolve name) (t.resolve name)
  call : ∀ name ∈ calls, ∀ args, R (s.call name args) (t.call name args)
  unary : ∀ op value, R (s.unary op value) (t.unary op value)
  binary : ∀ op a b, R (s.binary op a b) (t.binary op a b)

mutual

theorem eval_relatedOn (hR : EvalRelation R) (h : RelatedOn R names calls s t) :
    ∀ e : Expr, e.variableNames ⊆ names → e.functionNames ⊆ calls → R (s.eval e) (t.eval e)
  | .literal value, _, _ => by
    rw [eval, eval]
    exact hR.pure value
  | .var name, hnames, _ => by
    rw [eval, eval]
    exact h.resolve name (hnames List.mem_cons_self)
  | .call name args, hnames, hcalls => by
    obtain ⟨hname, hcalls⟩ := List.cons_subset.1 hcalls
    rw [eval, eval]
    exact hR.bind (evalAll_relatedOn hR h args hnames hcalls) fun values => h.call name hname values
  | .unary op operand, hnames, hcalls => by
    rw [eval, eval]
    exact hR.bind (eval_relatedOn hR h operand hnames hcalls) fun value => h.unary op value
  | .binary op left right, hnames, hcalls => by
    obtain ⟨hleftNames, hrightNames⟩ := List.append_subset.1 hnames
    obtain ⟨hleftCalls, hrightCalls⟩ := List.append_subset.1 hcalls
    have hleft := eval_relatedOn hR h left hleftNames hleftCalls
    have hright := eval_relatedOn hR h right hrightNames hrightCalls
    have hstrict : R (do let a ← s.eval left; let b ← s.eval right; s.binary op a b)
        (do let a ← t.eval left; let b ← t.eval right; t.binary op a b) :=
      hR.bind hleft fun a => hR.bind hright fun b => h.binary op a b
    have hlast : R (do let b ← s.eval right; return Value.ofBool b.isTrue)
        (do let b ← t.eval right; return Value.ofBool b.isTrue) := hR.bind hright fun b => hR.pure _
    cases op with
    | and =>
      rw [eval, eval]
      refine hR.bind hleft fun a => ?_
      split
      · exact hlast
      · exact hR.pure _
    | or =>
      rw [eval, eval]
      refine hR.bind hleft fun a => ?_
      split
      · exact hR.pure _
      · exact hlast
    | _ =>
      simp only [eval]
      exact hstrict
  | .conditional condition yes no, hnames, hcalls => by
    obtain ⟨hfirstNames, hnoNames⟩ := List.append_subset.1 hnames
    obtain ⟨hconditionNames, hyesNames⟩ := List.append_subset.1 hfirstNames
    obtain ⟨hfirstCalls, hnoCalls⟩ := List.append_subset.1 hcalls
    obtain ⟨hconditionCalls, hyesCalls⟩ := List.append_subset.1 hfirstCalls
    rw [eval, eval]
    refine hR.bind (eval_relatedOn hR h condition hconditionNames hconditionCalls) fun value => ?_
    split
    · exact eval_relatedOn hR h yes hyesNames hyesCalls
    · exact eval_relatedOn hR h no hnoNames hnoCalls

theorem evalAll_relatedOn (hR : EvalRelation R) (h : RelatedOn R names calls s t) :
    ∀ es : List Expr, Expr.variableNamesOfAll es ⊆ names → Expr.functionNamesOfAll es ⊆ calls →
      R (s.evalAll es) (t.evalAll es)
  | [], _, _ => by
    rw [evalAll, evalAll]
    exact hR.pure []
  | e :: es, hnames, hcalls => by
    obtain ⟨heNames, hesNames⟩ := List.append_subset.1 hnames
    obtain ⟨heCalls, hesCalls⟩ := List.append_subset.1 hcalls
    rw [evalAll, evalAll]
    exact hR.bind (eval_relatedOn hR h e heNames heCalls) fun value =>
      hR.bind (evalAll_relatedOn hR h es hesNames hesCalls) fun values => hR.pure _

end

theorem eval_related (hR : EvalRelation R) (h : Related R s t) (e : Expr) : R (s.eval e) (t.eval e) := by
  have hon : RelatedOn R e.variableNames e.functionNames s t :=
    ⟨fun name _ => h.resolve name, fun name _ => h.call name, h.unary, h.binary⟩
  exact eval_relatedOn hR hon e (List.Subset.refl _) (List.Subset.refl _)

end

end Steps

end ScenarioScript
