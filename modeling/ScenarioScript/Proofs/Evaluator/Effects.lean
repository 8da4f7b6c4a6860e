import ScenarioScript.Evaluator.Step
import ScenarioScript.Proofs.Evaluator.Calls

/-!
# What a step of an evaluator changes

A step changes of its evaluator what it says, and the cache. It keeps of the host what the functions keep that it
calls. It never looks into the log.
-/

namespace ScenarioScript

variable {State : Type}

abbrev WorldAction.KeepsHostAt {τ α : Type} (view : Host State → τ) (action : WorldAction State α)
    (world : World State) : Prop :=
  KeepsAt (fun world : World State => view world.host) action world

/-- What the action comes to, and what it adds to the log, does not depend on what is in the log. -/
def WorldAction.IgnoresLog {α : Type} (action : WorldAction State α) : Prop :=
  ∀ host, ∃ (outcome : Except Crash α) (after : Host State) (reports : List Diagnostic), ∀ log,
    action ⟨host, log⟩ = resultOf outcome (World.add ⟨after, log⟩ reports)

namespace WorldAction

section
variable {α β : Type} {action : WorldAction State α}

theorem ignoresLog_pure (a : α) : IgnoresLog (pure a : WorldAction State α) :=
  fun host => ⟨.ok a, host, [], fun log => by rw [World.add_nil]; rfl⟩

theorem ignoresLog_modifyGet {f : World State → α × World State}
    (h : ∀ host, ∃ a after reports, ∀ log, f ⟨host, log⟩ = (a, World.add ⟨after, log⟩ reports)) :
    IgnoresLog (modifyGet f) := by
  intro host
  obtain ⟨a, after, reports, hf⟩ := h host
  refine ⟨.ok a, after, reports, fun log => ?_⟩
  rw [modifyGet_eq, hf]
  rfl

theorem ignoresLog_modifyHost (f : Host State → Host State) :
    IgnoresLog (modify fun world => { world with host := f world.host }) :=
  ignoresLog_modifyGet fun host => ⟨(), f host, [], fun log => by rw [World.add_nil]⟩

theorem IgnoresLog.bind {next : α → WorldAction State β} (h : IgnoresLog action) (hnext : ∀ a, IgnoresLog (next a)) :
    IgnoresLog (action >>= next) := by
  intro host
  obtain ⟨outcome, middle, reports, hfirst⟩ := h host
  cases outcome with
  | error crash =>
    refine ⟨.error crash, middle, reports, fun log => ?_⟩
    rw [bind_eq, hfirst]
    rfl
  | ok a =>
    obtain ⟨outcome, after, more, hsecond⟩ := hnext a middle
    refine ⟨outcome, after, reports ++ more, fun log => ?_⟩
    rw [bind_eq, hfirst]
    refine (hsecond (log ++ reports.toArray)).trans ?_
    unfold World.add
    simp

theorem IgnoresLog.of_ok {world otherWorld found : World State} {a : α} (h : IgnoresLog action)
    (hhost : otherWorld.host = world.host) (haction : action world = .ok a found) :
    ∃ otherFound, action otherWorld = .ok a otherFound ∧ otherFound.host = found.host ∧
      otherFound.log.toList.drop otherWorld.log.size = found.log.toList.drop world.log.size := by
  obtain ⟨outcome, after, reports, hresult⟩ := h world.host
  have hworld : action world = resultOf outcome (World.add ⟨after, world.log⟩ reports) := hresult world.log
  have hother : action otherWorld = resultOf outcome (World.add ⟨after, otherWorld.log⟩ reports) := by
    rw [← hresult otherWorld.log, ← hhost]
  rw [haction] at hworld
  cases outcome with
  | error crash => cases hworld
  | ok a =>
    cases hworld
    refine ⟨_, hother, rfl, ?_⟩
    simp

theorem ignoresLog_ofHost (action : HostAction State α) : IgnoresLog (ofHost action) := by
  intro host
  cases haction : action host with
  | ok a after =>
    refine ⟨.ok a, after, [], fun log => ?_⟩
    simp only [ofHost, haction, World.add_nil]
    rfl
  | error crash after =>
    refine ⟨.error crash, after, [], fun log => ?_⟩
    simp only [ofHost, haction, World.add_nil]
    rfl

end

end WorldAction

open WorldAction

/-! ## Evaluators -/

namespace Evaluator

/-- The calls of an evaluation that starts in a world. -/
def callsIn (evaluator : Evaluator State) (e : Expr) (world : World State) : List (Call State) :=
  evaluator.calls e ⟨world, evaluator.patterns, #[]⟩

def stepCalls (evaluator : Evaluator State) (world : World State) : EvaluatorStep State → List (Call State)
  | .call name args => evaluator.callsOf name args world.host
  | .evaluate e => evaluator.callsIn e world
  | .evaluateAt e origin => { evaluator with origin := some origin }.callsIn e world
  | .evaluateText text =>
    match Expr.parse text evaluator.component with
    | .error _ => []
    | .ok e => evaluator.callsIn e world
  | .evaluateTextAt text origin =>
    match Expr.parse text ParseError.unnamedFile with
    | .error _ => []
    | .ok e => { evaluator with origin := some origin }.callsIn e world
  | _ => []

/-- What a step changes by itself. -/
def changed (evaluator : Evaluator State) : EvaluatorStep State → Evaluator State
  | .setLocal name value => evaluator.setLocal name value
  | .unsetLocal name => evaluator.unsetLocal name
  | .bind name operation => evaluator.bind name operation
  | .replaceOrigin origin => { evaluator with origin }
  | _ => evaluator

section
variable {τ : Type} {view : Host State → τ} {evaluator after : Evaluator State} {e : Expr} {origin : Origin}
  {world found : World State} {evaluation : Evaluation}

theorem evaluate_patterns (h : evaluator.evaluate e world = .ok (evaluation, after) found) :
    after = { evaluator with patterns := after.patterns } := by
  unfold evaluate at h
  split at h
  · cases h
    rfl
  · cases h

theorem evaluateAt_patterns (h : evaluator.evaluateAt e origin world = .ok (evaluation, after) found) :
    after = { evaluator with patterns := after.patterns } := by
  rw [evaluateAt_eq] at h
  split at h
  · cases h
    rfl
  · cases h

theorem evaluate_keepsHostAt (h : ∀ call ∈ evaluator.callsIn e world, call.Keeps view) :
    KeepsHostAt view (evaluator.evaluate e) world := by
  intro result found heval
  unfold evaluate at heval
  cases hvalue : evaluator.eval e ⟨world, evaluator.patterns, #[]⟩ with
  | ok value pass =>
    rw [hvalue] at heval
    cases heval
    exact eval_keepsHostAt e _ h value pass hvalue
  | error crash pass =>
    rw [hvalue] at heval
    cases heval

theorem evaluateAt_keepsHostAt
    (h : ∀ call ∈ { evaluator with origin := some origin }.callsIn e world, call.Keeps view) :
    KeepsHostAt view (evaluator.evaluateAt e origin) world :=
  (evaluate_keepsHostAt h).bind fun _ middle _ => keepsAt_pure _ middle

theorem evaluateText_patterns {text : String} {result : Except ParseError Evaluation}
    (h : evaluator.evaluateText text world = .ok (result, after) found) :
    after = { evaluator with patterns := after.patterns } := by
  unfold evaluateText at h
  cases hparse : Expr.parse text evaluator.component with
  | error error =>
    rw [hparse] at h
    cases h
    rfl
  | ok e =>
    rw [hparse] at h
    obtain ⟨⟨evaluation, evaluated⟩, middle, heval, hresult⟩ := exists_of_bind h
    cases hresult
    exact evaluate_patterns heval

theorem evaluateTextAt_patterns {text : String} {result : Except ParseError Evaluation}
    (h : evaluator.evaluateTextAt text origin world = .ok (result, after) found) :
    after = { evaluator with patterns := after.patterns } := by
  unfold evaluateTextAt at h
  cases hparse : Expr.parse text ParseError.unnamedFile with
  | error error =>
    rw [hparse] at h
    cases h
    rfl
  | ok e =>
    rw [hparse] at h
    obtain ⟨⟨evaluation, evaluated⟩, middle, heval, hresult⟩ := exists_of_bind h
    cases hresult
    exact evaluateAt_patterns heval

variable {step : EvaluatorStep State} {answer : EvaluatorAnswer State}

theorem step_changed (h : evaluator.step step world = .ok (answer, after) found) :
    after = { evaluator.changed step with patterns := after.patterns } := by
  cases step with
  | evaluate e =>
    obtain ⟨⟨evaluation, evaluated⟩, middle, heval, hresult⟩ := exists_of_bind h
    cases hresult
    exact evaluate_patterns heval
  | evaluateAt e origin =>
    obtain ⟨⟨evaluation, evaluated⟩, middle, heval, hresult⟩ := exists_of_bind h
    cases hresult
    exact evaluateAt_patterns heval
  | evaluateText text =>
    obtain ⟨⟨evaluation, evaluated⟩, middle, heval, hresult⟩ := exists_of_bind h
    cases hresult
    exact evaluateText_patterns heval
  | evaluateTextAt text origin =>
    obtain ⟨⟨evaluation, evaluated⟩, middle, heval, hresult⟩ := exists_of_bind h
    cases hresult
    exact evaluateTextAt_patterns heval
  | call name args =>
    obtain ⟨result, middle, hcall, hresult⟩ := exists_of_bind h
    cases hresult
    rfl
  | _ =>
    cases h
    rfl

theorem step_keepsHostAt (hcalls : ∀ call ∈ evaluator.stepCalls world step, call.Keeps view) :
    KeepsHostAt view (evaluator.step step) world := by
  cases step with
  | evaluate e => exact (evaluate_keepsHostAt hcalls).bind fun _ middle _ => keepsAt_pure _ middle
  | evaluateAt e origin => exact (evaluateAt_keepsHostAt hcalls).bind fun _ middle _ => keepsAt_pure _ middle
  | evaluateText text =>
    refine KeepsAt.bind ?_ fun _ middle _ => keepsAt_pure _ middle
    unfold stepCalls at hcalls
    unfold evaluateText
    cases hparse : Expr.parse text evaluator.component with
    | error error => exact keepsAt_pure _ world
    | ok e =>
      simp only [hparse] at hcalls
      exact (evaluate_keepsHostAt hcalls).bind fun _ middle _ => keepsAt_pure _ middle
  | evaluateTextAt text origin =>
    refine KeepsAt.bind ?_ fun _ middle _ => keepsAt_pure _ middle
    unfold stepCalls at hcalls
    unfold evaluateTextAt
    cases hparse : Expr.parse text ParseError.unnamedFile with
    | error error => exact keepsAt_pure _ world
    | ok e =>
      simp only [hparse] at hcalls
      exact (evaluateAt_keepsHostAt hcalls).bind fun _ middle _ => keepsAt_pure _ middle
  | call name args =>
    refine KeepsAt.bind (fun result found hcall => ?_) fun _ middle _ => keepsAt_pure _ middle
    exact call_keeps hcalls hcall
  | resolve name =>
    rintro _ _ ⟨⟩
    exact congrArg (view ·.2.host) (evaluator.resolve_eq name world)
  | findFunction name =>
    rintro _ _ ⟨⟩
    exact congrArg (view ·.2.host) (evaluator.function_eq name world)
  | report diagnostic | complain problem origin =>
    rintro _ _ ⟨⟩
    exact congrArg (view ·.host) (evaluator.report_eq _ world)
  | _ =>
    rintro _ _ ⟨⟩
    rfl

end

/-! ### The log -/

section
variable (evaluator : Evaluator State)

theorem step_resolve (name : String) (world : World State) : evaluator.step (.resolve name) world =
    .ok (.resolved ((evaluator.lookup? world.host name).getD (Number.ofNat 0))
        (evaluator.lookup? world.host name).isSome, evaluator)
      (world.add (evaluator.unresolved name (evaluator.lookup? world.host name))) := by
  have hstep : evaluator.step (.resolve name) world =
      .ok (.resolved (evaluator.resolve name world).1.1 (evaluator.resolve name world).1.2, evaluator)
        (evaluator.resolve name world).2 := rfl
  rw [hstep, resolve_eq]

theorem ignoresLog_report (diagnostic : Diagnostic) : IgnoresLog (modify (evaluator.report diagnostic)) :=
  ignoresLog_modifyGet fun host => ⟨(), host, _, fun _ => by rw [report_eq]⟩

theorem ignoresLog_resolve (name : String) : IgnoresLog (modifyGet (evaluator.resolve name)) :=
  ignoresLog_modifyGet fun host => ⟨((evaluator.lookup? host name).getD (Number.ofNat 0),
    (evaluator.lookup? host name).isSome), host, evaluator.unresolved name (evaluator.lookup? host name),
    fun log => evaluator.resolve_eq name ⟨host, log⟩⟩

theorem ignoresLog_function (name : String) : IgnoresLog (modifyGet (evaluator.function name)) :=
  ignoresLog_modifyGet fun host => ⟨_, host, _, fun _ => evaluator.function_eq name _⟩

theorem ignoresLog_call (name : String) (args : List Value) : IgnoresLog (evaluator.call name args) := by
  refine (ignoresLog_function evaluator name).bind fun found => ?_
  cases found with
  | none => exact ignoresLog_pure _
  | some operation =>
    refine (ignoresLog_ofHost (operation args)).bind fun answer => ?_
    cases answer with
    | ok value => exact ignoresLog_pure _
    | error reason => exact (ignoresLog_report evaluator _).bind fun _ => ignoresLog_pure _

theorem ignoresLog_evaluate (e : Expr) : IgnoresLog (evaluator.evaluate e) := by
  intro host
  have hlookup (host : Host State) (name : String) : evaluator.lookup? host name = evaluator.lookup? host name := rfl
  obtain ⟨⟨outcome, after, patterns, failures, problems⟩, hcourse⟩ :=
    eval_parallel hlookup rfl rfl e host evaluator.patterns #[]
  refine ⟨outcome.map fun value => (⟨value, failures.toList⟩, { evaluator with patterns }), after,
    problems.flatMap evaluator.written, fun log => ?_⟩
  have heval := (hcourse log).1
  rw [Course.result, tell_eq] at heval
  cases outcome with
  | ok value => exact evaluate_of_ok heval
  | error crash => exact evaluate_of_error heval

theorem ignoresLog_evaluateAt (e : Expr) (origin : Origin) : IgnoresLog (evaluator.evaluateAt e origin) :=
  (ignoresLog_evaluate _ e).bind fun _ => ignoresLog_pure _

theorem ignoresLog_evaluateText (text : String) : IgnoresLog (evaluator.evaluateText text) := by
  unfold evaluateText
  split
  · exact ignoresLog_pure _
  · exact (ignoresLog_evaluate _ _).bind fun _ => ignoresLog_pure _

theorem ignoresLog_evaluateTextAt (text : String) (origin : Origin) :
    IgnoresLog (evaluator.evaluateTextAt text origin) := by
  unfold evaluateTextAt
  split
  · exact ignoresLog_pure _
  · exact (ignoresLog_evaluateAt _ _ _).bind fun _ => ignoresLog_pure _

/-- No step of an evaluator depends on what has been reported. -/
theorem ignoresLog_step (step : EvaluatorStep State) : IgnoresLog (evaluator.step step) := by
  cases step with
  | evaluate e => exact (ignoresLog_evaluate evaluator e).bind fun _ => ignoresLog_pure _
  | evaluateAt e origin => exact (ignoresLog_evaluateAt evaluator e origin).bind fun _ => ignoresLog_pure _
  | evaluateText text => exact (ignoresLog_evaluateText evaluator text).bind fun _ => ignoresLog_pure _
  | evaluateTextAt text origin =>
    exact (ignoresLog_evaluateTextAt evaluator text origin).bind fun _ => ignoresLog_pure _
  | call name args => exact (ignoresLog_call evaluator name args).bind fun _ => ignoresLog_pure _
  | resolve name => exact (ignoresLog_resolve evaluator name).bind fun _ => ignoresLog_pure _
  | findFunction name => exact (ignoresLog_function evaluator name).bind fun _ => ignoresLog_pure _
  | report diagnostic | complain problem origin =>
    exact (ignoresLog_report evaluator _).bind fun _ => ignoresLog_pure _
  | _ => exact ignoresLog_pure _

end

end Evaluator

end ScenarioScript
