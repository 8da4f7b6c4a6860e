import ScenarioScript.Proofs.Evaluator.Course
import ScenarioScript.Proofs.Evaluator.Inputs

/-!
# The calls of an evaluation

An evaluation writes to the host only where a function does that it calls. So the calls that it really makes
decide what it leaves of the host as it is, and not the functions that it could have called.
-/

namespace ScenarioScript

variable {State : Type}

/-! ## Calls -/

/-- A function that is called with some arguments on a host. -/
structure Call (State : Type) where
  operation : Operation State
  args : List Value
  host : Host State

/-- If the function answers to this call, it keeps what is seen of the host. -/
def Call.Keeps {τ : Type} (view : Host State → τ) (call : Call State) : Prop :=
  ∀ answer after, call.operation call.args call.host = .ok answer after → view after = view call.host

theorem Call.Keeps.host {call : Call State} (h : call.Keeps Host.globals) (hstate : call.Keeps Host.state) :
    call.Keeps id := by
  intro answer after hresult
  have hglobals := h answer after hresult
  have hkept := hstate answer after hresult
  cases after
  subst hglobals hkept
  rfl

/-- Whether an operator needs no right operand if it has this left one. -/
def BinaryOp.isDecided : BinaryOp → Value → Bool
  | and, a => !a.isTrue
  | or, a => a.isTrue
  | _, _ => false

/-- What there is behind a computation, unless it crashes. -/
def Eval.behind {α β : Type} (r : Eval State α) (pass : Pass State) (next : α → Pass State → List β) : List β :=
  match r pass with
  | .ok a after => next a after
  | .error _ _ => []

namespace Evaluator

/-- A call of a name that no function has calls nothing. -/
def callsOf (evaluator : Evaluator State) (name : String) (args : List Value) (host : Host State) : List (Call State) :=
  (evaluator.functions.get? name).toList.map fun operation => ⟨operation, args, host⟩

mutual

/-- The calls that an evaluation makes, in their order. If it crashes, they end with the call that does. -/
def calls (evaluator : Evaluator State) : Expr → Pass State → List (Call State)
  | .literal _, _ | .var _, _ => []
  | .call name args, pass =>
    evaluator.callsOfAll args pass ++ (evaluator.evalAll args).behind pass fun values after =>
      evaluator.callsOf name values after.world.host
  | .unary _ operand, pass => evaluator.calls operand pass
  | .binary op left right, pass =>
    evaluator.calls left pass ++ (evaluator.eval left).behind pass fun a after =>
      if op.isDecided a then [] else evaluator.calls right after
  | .conditional condition yes no, pass =>
    evaluator.calls condition pass ++ (evaluator.eval condition).behind pass fun value after =>
      if value.isTrue then evaluator.calls yes after else evaluator.calls no after

def callsOfAll (evaluator : Evaluator State) : List Expr → Pass State → List (Call State)
  | [], _ => []
  | e :: es, pass =>
    evaluator.calls e pass ++ (evaluator.eval e).behind pass fun _ after => evaluator.callsOfAll es after

end

end Evaluator

/-! ## The host -/

/-- If the action starts here and does not crash, it keeps what is seen of its state. -/
def KeepsAt {ε σ τ α : Type} (view : σ → τ) (action : EStateM ε σ α) (state : σ) : Prop :=
  ∀ a after, action state = .ok a after → view after = view state

theorem keepsAt_pure {ε σ τ α : Type} {view : σ → τ} (a : α) (state : σ) :
    KeepsAt view (pure a : EStateM ε σ α) state := by
  rintro _ _ ⟨⟩
  rfl

theorem KeepsAt.bind {ε σ τ α β : Type} {view : σ → τ} {action : EStateM ε σ α} {next : α → EStateM ε σ β}
    {state : σ} (h : KeepsAt view action state)
    (hnext : ∀ a middle, action state = .ok a middle → KeepsAt view (next a) middle) :
    KeepsAt view (action >>= next) state := by
  intro b after hresult
  obtain ⟨a, middle, ha, hb⟩ := exists_of_bind hresult
  exact (hnext a middle ha b after hb).trans (h a middle ha)

namespace Eval

abbrev KeepsHostAt {τ α : Type} (view : Host State → τ) (r : Eval State α) (pass : Pass State) : Prop :=
  KeepsAt (fun pass : Pass State => view pass.world.host) r pass

section
variable {τ α : Type} {r : Eval State α} {pass : Pass State}

theorem keepsHost_property (view : Host State → τ) : EvalProperty fun r => ∀ pass, KeepsHostAt view r pass where
  pure := keepsAt_pure
  bind h hf pass := (h pass).bind fun a middle _ => hf a middle

theorem forall_mem_behind {next : α → Pass State → List (Call State)} {a : α} {middle : Pass State}
    {P : Call State → Prop} (h : ∀ call ∈ r.behind pass next, P call) (hr : r pass = .ok a middle) :
    ∀ call ∈ next a middle, P call := by
  unfold behind at h
  rwa [hr] at h

end

end Eval

namespace Evaluator

open Eval

variable {τ : Type} {view : Host State → τ}

section
variable (evaluator : Evaluator State)

theorem keepsHostAt_missing (problem : Problem) (_ : problem.kind = .arithmetic) (pass : Pass State) :
    KeepsHostAt view (evaluator.missing problem) pass := by
  rintro _ _ ⟨⟩
  exact congrArg view (complain_host evaluator problem pass.world)

theorem keepsHostAt_patternMatch (pattern text : String) (pass : Pass State) :
    KeepsHostAt view (evaluator.patternMatch pattern text) pass := by
  intro matched after h
  unfold patternMatch at h
  obtain ⟨found, middle, hget, h⟩ := exists_of_bind h
  cases hget
  obtain ⟨_, known, hmodify, h⟩ := exists_of_bind h
  cases hmodify
  split at h
  · obtain ⟨_, told, htold, h⟩ := exists_of_bind h
    cases htold
    cases h
    exact congrArg view (complain_host evaluator _ _)
  · cases h
    rfl

theorem keepsHostAt_combine (op : BinaryOp) (a b : Value) (pass : Pass State) :
    KeepsHostAt view (evaluator.combine op a b) pass :=
  (keepsHost_property view).combine (keepsHostAt_missing evaluator) (keepsHostAt_patternMatch evaluator) op a b pass

end

section
variable {evaluator : Evaluator State}

theorem call_keeps {name : String} {args : List Value} {world found : World State} {answer : Except CallFailure Value}
    (hcalls : ∀ call ∈ evaluator.callsOf name args world.host, call.Keeps view)
    (h : evaluator.call name args world = .ok answer found) : view found.host = view world.host := by
  unfold callsOf at hcalls
  cases hfound : evaluator.functions.get? name with
  | none =>
    rw [call_of_none hfound] at h
    cases h
    exact congrArg view (complain_host evaluator _ world)
  | some operation =>
    have hleaves : Call.Keeps view ⟨operation, args, world.host⟩ := by simpa [hfound] using hcalls
    rw [call_of_some hfound] at h
    cases hresult : operation args world.host with
    | ok result host =>
      have hhost : view host = view world.host := hleaves result host hresult
      rw [hresult] at h
      cases result with
      | ok value =>
        cases h
        exact hhost
      | error reason =>
        cases h
        exact (congrArg view (complain_host evaluator _ _)).trans hhost
    | error crash host =>
      rw [hresult] at h
      cases h

theorem keepsHostAt_callNoting {name : String} {args : List Value} {pass : Pass State}
    (hcalls : ∀ call ∈ evaluator.callsOf name args pass.world.host, call.Keeps view) :
    KeepsHostAt view (evaluator.callNoting name args) pass := by
  refine KeepsAt.bind (fun answer after h => ?_) fun answer middle _ => ?_
  · unfold Eval.ofWorld at h
    cases hcall : evaluator.call name args pass.world with
    | ok result found =>
      rw [hcall] at h
      cases h
      exact call_keeps hcalls hcall
    | error crash found =>
      rw [hcall] at h
      cases h
  · cases answer with
    | ok value => exact (keepsHost_property view).finite (keepsHostAt_missing evaluator) name value middle
    | error failure =>
      rintro _ _ ⟨⟩
      rfl

mutual

theorem eval_keepsHostAt : ∀ (e : Expr) (pass : Pass State), (∀ call ∈ evaluator.calls e pass, call.Keeps view) →
    KeepsHostAt view (evaluator.eval e) pass
  | .literal value, pass, _ => by
    rw [eval]
    exact keepsAt_pure value pass
  | .var name, pass, _ => by
    rw [eval]
    refine KeepsAt.bind ?_ fun value middle _ => keepsAt_pure _ middle
    rintro _ _ ⟨⟩
    exact congrArg (view ·.2.host) (evaluator.resolve_eq name pass.world)
  | .call name args, pass, hcalls => by
    rw [calls, List.forall_mem_append] at hcalls
    rw [eval]
    refine (evalAll_keepsHostAt args pass hcalls.1).bind fun values middle hvalues => ?_
    exact keepsHostAt_callNoting (forall_mem_behind hcalls.2 hvalues)
  | .unary op operand, pass, hcalls => by
    rw [calls] at hcalls
    rw [eval]
    refine (eval_keepsHostAt operand pass hcalls).bind fun value middle _ => ?_
    exact (keepsHost_property view).apply (keepsHostAt_missing evaluator) op value middle
  | .binary op left right, pass, hcalls => by
    rw [calls, List.forall_mem_append] at hcalls
    have hleft := eval_keepsHostAt left pass hcalls.1
    have hright (a : Value) (middle : Pass State) (ha : evaluator.eval left pass = .ok a middle)
        (hop : op.isDecided a = false) : KeepsHostAt view (evaluator.eval right) middle := by
      refine eval_keepsHostAt right middle ?_
      simpa [hop] using forall_mem_behind hcalls.2 ha
    cases op with
    | and =>
      rw [eval]
      refine hleft.bind fun a middle ha => ?_
      split
      · rename_i htrue
        exact (hright a middle ha (by simp [BinaryOp.isDecided, htrue])).bind fun b _ _ => keepsAt_pure _ _
      · exact keepsAt_pure _ _
    | or =>
      rw [eval]
      refine hleft.bind fun a middle ha => ?_
      split
      · exact keepsAt_pure _ _
      · rename_i hfalse
        exact (hright a middle ha (by simpa [BinaryOp.isDecided] using hfalse)).bind fun b _ _ => keepsAt_pure _ _
    | _ =>
      simp only [eval]
      refine hleft.bind fun a middle ha => (hright a middle ha rfl).bind fun b last _ => ?_
      exact keepsHostAt_combine evaluator _ a b last
  | .conditional condition yes no, pass, hcalls => by
    rw [calls, List.forall_mem_append] at hcalls
    rw [eval]
    refine (eval_keepsHostAt condition pass hcalls.1).bind fun value middle hvalue => ?_
    have hbranch := forall_mem_behind hcalls.2 hvalue
    split
    · rename_i htrue
      exact eval_keepsHostAt yes middle (by simpa [htrue] using hbranch)
    · rename_i hfalse
      exact eval_keepsHostAt no middle (by simpa [hfalse] using hbranch)

theorem evalAll_keepsHostAt : ∀ (es : List Expr) (pass : Pass State),
    (∀ call ∈ evaluator.callsOfAll es pass, call.Keeps view) → KeepsHostAt view (evaluator.evalAll es) pass
  | [], pass, _ => by
    rw [evalAll]
    exact keepsAt_pure [] pass
  | e :: es, pass, hcalls => by
    rw [callsOfAll, List.forall_mem_append] at hcalls
    rw [evalAll]
    refine (eval_keepsHostAt e pass hcalls.1).bind fun value middle hvalue => ?_
    have hrest := forall_mem_behind hcalls.2 hvalue
    exact (evalAll_keepsHostAt es middle hrest).bind fun values last _ => keepsAt_pure _ last

end

/-! ## Functions that never write -/

theorem forall_mem_callsOf {P : Operation State → Prop}
    (h : ∀ name operation, evaluator.functions.get? name = some operation → P operation) (name : String)
    (args : List Value) (host : Host State) : ∀ call ∈ evaluator.callsOf name args host, P call.operation := by
  intro call hcall
  obtain ⟨operation, hfound, rfl⟩ := List.mem_map.1 hcall
  exact h name operation (Option.mem_toList.1 hfound)

theorem forall_mem_behind_of_forall {α : Type} {r : Eval State α} {pass : Pass State}
    {next : α → Pass State → List (Call State)} {P : Call State → Prop}
    (h : ∀ a middle, ∀ call ∈ next a middle, P call) : ∀ call ∈ r.behind pass next, P call := by
  unfold behind
  split
  · exact h _ _
  · simp

mutual

theorem forall_mem_calls {P : Operation State → Prop}
    (h : ∀ name operation, evaluator.functions.get? name = some operation → P operation) :
    ∀ (e : Expr) (pass : Pass State), ∀ call ∈ evaluator.calls e pass, P call.operation
  | .literal _, _ | .var _, _ => by simp [calls]
  | .call name args, pass => by
    rw [calls, List.forall_mem_append]
    refine ⟨forall_mem_callsOfAll h args pass, forall_mem_behind_of_forall fun values middle => ?_⟩
    exact forall_mem_callsOf h name values middle.world.host
  | .unary _ operand, pass => by
    rw [calls]
    exact forall_mem_calls h operand pass
  | .binary op left right, pass => by
    rw [calls, List.forall_mem_append]
    refine ⟨forall_mem_calls h left pass, forall_mem_behind_of_forall fun a middle => ?_⟩
    split
    · simp
    · exact forall_mem_calls h right middle
  | .conditional condition yes no, pass => by
    rw [calls, List.forall_mem_append]
    refine ⟨forall_mem_calls h condition pass, forall_mem_behind_of_forall fun value middle => ?_⟩
    split
    · exact forall_mem_calls h yes middle
    · exact forall_mem_calls h no middle

theorem forall_mem_callsOfAll {P : Operation State → Prop}
    (h : ∀ name operation, evaluator.functions.get? name = some operation → P operation) :
    ∀ (es : List Expr) (pass : Pass State), ∀ call ∈ evaluator.callsOfAll es pass, P call.operation
  | [], _ => by simp [callsOfAll]
  | e :: es, pass => by
    rw [callsOfAll, List.forall_mem_append]
    exact ⟨forall_mem_calls h e pass, forall_mem_behind_of_forall fun _ middle => forall_mem_callsOfAll h es middle⟩

end

variable (hfunctions : evaluator.functions.Keeps view)
include hfunctions

theorem eval_keepsHost (e : Expr) (pass : Pass State) : KeepsHostAt view (evaluator.eval e) pass :=
  eval_keepsHostAt e pass fun call hcall => forall_mem_calls hfunctions e pass call hcall call.args call.host

theorem evalAll_keepsHost (es : List Expr) (pass : Pass State) : KeepsHostAt view (evaluator.evalAll es) pass :=
  evalAll_keepsHostAt es pass fun call hcall => forall_mem_callsOfAll hfunctions es pass call hcall call.args call.host

end

end Evaluator

end ScenarioScript
