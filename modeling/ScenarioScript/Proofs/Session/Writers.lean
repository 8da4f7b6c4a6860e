import ScenarioScript.Proofs.Session.Steps

/-!
# Sessions without writers

If no function of an evaluator writes what is seen of the host, and none that does is added, then no step calls one.
-/

namespace ScenarioScript

variable {State : Type}

/-! ## Calls -/

section
variable {τ : Type} {view : Host State → τ} {evaluator : Evaluator State} (h : evaluator.functions.Keeps view)
include h

theorem Evaluator.stepCalls_keep (world : World State) (step : EvaluatorStep State) :
    ∀ call ∈ evaluator.stepCalls world step, call.operation.Keeps view := by
  unfold Evaluator.stepCalls
  cases step with
  | call name args => exact forall_mem_callsOf h name args world.host
  | evaluate e => exact forall_mem_calls h e _
  | evaluateAt e origin =>
    have hlocated : { evaluator with origin := some origin }.functions.Keeps view := h
    exact forall_mem_calls hlocated e _
  | evaluateText text =>
    dsimp only
    split
    · simp
    · exact forall_mem_calls h _ _
  | evaluateTextAt text origin =>
    have hlocated : { evaluator with origin := some origin }.functions.Keeps view := h
    dsimp only
    split
    · simp
    · exact forall_mem_calls hlocated _ _
  | _ => simp

theorem Scenario.calls_keep (scenario : Scenario) (mode : RunMode) (statements : List Statement)
    (world : World State) : ∀ call ∈ scenario.calls mode evaluator statements world, call.operation.Keeps view := by
  induction statements generalizing evaluator world with
  | nil => simp [Scenario.calls]
  | cons statement rest ih =>
    rw [Scenario.calls, List.forall_mem_append]
    constructor
    · have hlocated : (scenario.located mode statement evaluator).functions = evaluator.functions := by
        unfold Scenario.located
        split <;> rfl
      exact Evaluator.forall_mem_calls (hlocated ▸ h) _ _
    · cases hone : scenario.runStatement mode evaluator statement world with
      | error crash found => simp
      | ok result found =>
        have hafter : result.2.functions = evaluator.functions := by rw [Scenario.runStatement_patterns hone]
        exact ih (hafter ▸ h) found

end

/-! ## Sessions -/

/-- The step brings no function that writes what is seen of the host, and makes no label a global. -/
def SessionStep.AddsNoWriter {τ : Type} (view : Host State → τ) : SessionStep State → Prop
  | .create _ evaluator => evaluator.functions.Keeps view
  | .ask _ (.bind _ operation) => operation.Keeps view
  | .run _ _ mode => mode.publishes = false
  | _ => True

namespace Session

/-- No evaluator has a function that writes what is seen of the host. -/
def HasNoWriter {τ : Type} (session : Session State) (view : Host State → τ) : Prop :=
  ∀ name evaluator, session.evaluators.get? name = some evaluator → evaluator.functions.Keeps view

section
variable {τ : Type} {view : Host State → τ}
variable {session after : Session State} {world found : World State} {step : SessionStep State}
  {steps : List (SessionStep State)} {answer : SessionAnswer State}

theorem HasNoWriter.callsNoWriter (h : session.HasNoWriter view) (hstep : step.AddsNoWriter view) :
    session.CallsNoWriter view world step := by
  unfold CallsNoWriter calls
  cases step with
  | ask name step =>
    refine ⟨rfl, ?_⟩
    dsimp only
    split
    · rename_i evaluator hevaluator
      exact fun call hcall =>
        evaluator.stepCalls_keep (h name evaluator hevaluator) world step call hcall call.args call.host
    · simp
  | run name scenario mode =>
    refine ⟨hstep, ?_⟩
    dsimp only
    split
    · rename_i evaluator scenario hevaluator _
      exact fun call hcall =>
        scenario.calls_keep (h name evaluator hevaluator) mode _ world call hcall call.args call.host
    · simp
  | _ => exact ⟨rfl, by simp⟩

theorem HasNoWriter.evaluatorAfter (h : session.HasNoWriter view) (hstep : step.AddsNoWriter view) {name : String}
    {evaluator : Evaluator State} (hafter : session.evaluatorAfter name step = some evaluator) :
    evaluator.functions.Keeps view := by
  unfold Session.evaluatorAfter at hafter
  cases step with
  | create created other =>
    dsimp only at hafter
    split at hafter
    · cases hafter
      exact hstep
    · exact h name evaluator hafter
  | clone source target =>
    dsimp only at hafter
    split at hafter
    · rcases Option.or_eq_some_iff.1 hafter with hsource | ⟨-, hname⟩
      · exact h source evaluator hsource
      · exact h name evaluator hname
    · exact h name evaluator hafter
  | ask asked step =>
    dsimp only at hafter
    split at hafter
    · obtain ⟨before, hbefore, rfl⟩ := Option.map_eq_some_iff.1 hafter
      have hkeeps := h name before hbefore
      cases step with
      | bind bound operation => exact hkeeps.set hstep bound
      | _ => exact hkeeps
    · exact h name evaluator hafter
  | _ => exact h name evaluator hafter

theorem HasNoWriter.kept (h : session.HasNoWriter view) (hadds : step.AddsNoWriter view)
    (hstep : session.step step world = .ok (answer, after) found) : after.HasNoWriter view := by
  intro name evaluator hevaluator
  have hexpected := session.step_evaluators hstep name
  rw [hevaluator] at hexpected
  obtain ⟨expected, hfound, hsame⟩ := Option.map_eq_some_iff.1 hexpected.symm
  have hfunctions : expected.functions = evaluator.functions := by simpa using congrArg Evaluator.functions hsame
  exact hfunctions ▸ h.evaluatorAfter hadds hfound

theorem HasNoWriter.callsNoWriters (h : session.HasNoWriter view) (hsteps : ∀ step ∈ steps, step.AddsNoWriter view)
    (concerned : SessionStep State → Prop) : session.CallsNoWriters view world steps concerned := by
  rintro front step back reached found rfl hfront -
  rw [List.forall_mem_append, List.forall_mem_cons] at hsteps
  obtain ⟨hfronts, hstep, -⟩ := hsteps
  -- the steps before keep the session without writers
  induction front generalizing session world with
  | nil =>
    cases hfront
    exact h.callsNoWriter hstep
  | cons first front ih =>
    rw [proceed_eq] at hfront
    cases hfirst : session.step first world with
    | ok result middle =>
      rw [hfirst] at hfront
      rw [List.forall_mem_cons] at hfronts
      exact ih (h.kept hfronts.1 hfirst) hfront hfronts.2
    | error crash middle =>
      rw [hfirst] at hfront
      cases hfront

end

end Session

end ScenarioScript
