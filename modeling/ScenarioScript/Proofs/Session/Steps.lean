import ScenarioScript.Proofs.Evaluator.Effects
import ScenarioScript.Proofs.Evaluator.Inputs
import ScenarioScript.Session

/-!
# The steps of a session

A step writes to the host if it sets a global, if it runs a scenario whose labels become globals, or if it calls
a function that does. What is kept of the host may be its globals, or all of it. No step looks into the log.
-/

namespace ScenarioScript

variable {State : Type}

open WorldAction

/-! ## Runs of scenarios -/

namespace Scenario

/-- The evaluator with the place of a statement, if reports are to name it. -/
def located (scenario : Scenario) (mode : RunMode) (statement : Statement) (evaluator : Evaluator State) :
    Evaluator State :=
  if mode.locates then { evaluator with origin := some (scenario.origin statement) } else evaluator

def evaluateStatement (scenario : Scenario) (mode : RunMode) (evaluator : Evaluator State) (statement : Statement) :
    WorldAction State (Evaluation × Evaluator State) :=
  if mode.locates then evaluator.evaluateAt statement.expr (scenario.origin statement)
  else evaluator.evaluate statement.expr

/-- The calls of the statements, up to the first that crashes. -/
def calls (scenario : Scenario) (mode : RunMode) : Evaluator State → List Statement → World State → List (Call State)
  | _, [], _ => []
  | evaluator, statement :: rest, world =>
    (scenario.located mode statement evaluator).callsIn statement.expr world ++
      match scenario.runStatement mode evaluator statement world with
      | .ok (_, after) found => scenario.calls mode after rest found
      | .error _ _ => []

section
variable {τ : Type} {view : Host State → τ}
variable {scenario : Scenario} {mode : RunMode} {evaluator after : Evaluator State} {statement : Statement}
  {statements : List Statement} {world found : World State}

theorem runStatement_eq_bind (scenario : Scenario) (mode : RunMode) (evaluator : Evaluator State)
    (statement : Statement) : scenario.runStatement mode evaluator statement = (do
      let (evaluation, after) ← scenario.evaluateStatement mode evaluator statement
      modify (mode.publish statement.label evaluation.value.toNumber)
      return (evaluation, after)) := by
  unfold runStatement evaluateStatement
  split <;> rfl

theorem runStatement_patterns {evaluation : Evaluation}
    (h : scenario.runStatement mode evaluator statement world = .ok (evaluation, after) found) :
    after = { evaluator with patterns := after.patterns } := by
  rw [runStatement_eq_bind] at h
  obtain ⟨⟨evaluation, evaluated⟩, middle, heval, hrest⟩ := exists_of_bind h
  cases hrest
  unfold evaluateStatement at heval
  split at heval
  · exact Evaluator.evaluateAt_patterns heval
  · exact Evaluator.evaluate_patterns heval

theorem runStatements_patterns {evaluations : List LabelledEvaluation}
    (h : scenario.runStatements mode evaluator statements world = .ok (evaluations, after) found) :
    after = { evaluator with patterns := after.patterns } := by
  induction statements generalizing evaluator world evaluations with
  | nil =>
    cases h
    rfl
  | cons statement rest ih =>
    obtain ⟨⟨evaluation, middle⟩, between, hone, hrest⟩ := exists_of_bind h
    obtain ⟨⟨more, last⟩, final, hmore, hresult⟩ := exists_of_bind hrest
    cases hresult
    rw [ih hmore, runStatement_patterns hone]

theorem runStatement_keepsHostAt (hmode : mode.publishes = false)
    (hcalls : ∀ call ∈ (scenario.located mode statement evaluator).callsIn statement.expr world, call.Keeps view) :
    KeepsHostAt view (scenario.runStatement mode evaluator statement) world := by
  rw [runStatement_eq_bind]
  refine KeepsAt.bind ?_ fun result middle _ => KeepsAt.bind ?_ fun _ last _ => keepsAt_pure _ last
  · unfold located at hcalls
    unfold evaluateStatement
    by_cases hlocates : mode.locates = true
    · rw [if_pos hlocates] at hcalls ⊢
      exact Evaluator.evaluateAt_keepsHostAt hcalls
    · rw [if_neg hlocates] at hcalls ⊢
      exact Evaluator.evaluate_keepsHostAt hcalls
  · rintro _ _ ⟨⟩
    unfold RunMode.publish
    cases statement.label <;> simp [hmode]

theorem runStatements_keepsHostAt (hmode : mode.publishes = false)
    (hcalls : ∀ call ∈ scenario.calls mode evaluator statements world, call.Keeps view) :
    KeepsHostAt view (scenario.runStatements mode evaluator statements) world := by
  induction statements generalizing evaluator world with
  | nil => exact keepsAt_pure _ world
  | cons statement rest ih =>
    rw [calls, List.forall_mem_append] at hcalls
    refine (runStatement_keepsHostAt hmode hcalls.1).bind fun result middle hone => ?_
    refine (ih ?_).bind fun _ last _ => keepsAt_pure _ last
    simpa [hone] using hcalls.2

theorem ignoresLog_publish (mode : RunMode) (label : Option String) (number : Float) :
    IgnoresLog (modify (mode.publish label number) : WorldAction State Unit) := by
  refine ignoresLog_modifyGet fun host => ?_
  unfold RunMode.publish
  cases label with
  | none => exact ⟨(), host, [], fun log => by simp⟩
  | some name =>
    cases mode.publishes with
    | true => exact ⟨(), host.setGlobal name number, [], fun log => by simp⟩
    | false => exact ⟨(), host, [], fun log => by simp⟩

theorem ignoresLog_runStatements (scenario : Scenario) (mode : RunMode) (evaluator : Evaluator State)
    (statements : List Statement) : IgnoresLog (scenario.runStatements mode evaluator statements) := by
  induction statements generalizing evaluator with
  | nil => exact ignoresLog_pure _
  | cons statement rest ih =>
    refine IgnoresLog.bind ?_ fun _ => (ih _).bind fun _ => ignoresLog_pure _
    rw [runStatement_eq_bind]
    refine IgnoresLog.bind ?_ fun _ => (ignoresLog_publish mode _ _).bind fun _ => ignoresLog_pure _
    unfold evaluateStatement
    split
    · exact Evaluator.ignoresLog_evaluateAt _ _ _
    · exact Evaluator.ignoresLog_evaluate _ _

end

end Scenario

/-! ## Steps -/

/-- Whether the step makes globals of labels. -/
def SessionStep.publishes : SessionStep State → Bool
  | .run _ _ mode => mode.publishes
  | _ => false

/-- The host after a step that sets a global itself. -/
def SessionStep.hostAfter : SessionStep State → Host State → Host State
  | .setGlobal name value, host => host.setGlobal name value
  | .beginTick tick, host => host.beginTick tick
  | _, host => host

namespace Session

section
variable {session after : Session State} {world found : World State} {answer : SessionAnswer State}
  {name scenarioName : String}

theorem step_clone_iff {source target : String} :
    session.step (.clone source target) world = .ok (answer, after) found ↔ found = world ∧
      ((session.evaluators.get? source = none ∧ answer = .absent ∧ after = session) ∨
        ∃ evaluator, session.evaluators.get? source = some evaluator ∧ answer = .done ∧
          after = session.setEvaluator target evaluator) := by
  cases hsource : session.evaluators.get? source with
  | none =>
    have hstep : session.step (.clone source target) = pure (.absent, session) := by simp only [Session.step, hsource]
    rw [hstep]
    constructor
    · rintro ⟨⟩
      exact ⟨rfl, .inl ⟨rfl, rfl, rfl⟩⟩
    · rintro ⟨rfl, ⟨-, rfl, rfl⟩ | ⟨_, ⟨⟩, -⟩⟩
      rfl
  | some evaluator =>
    have hstep : session.step (.clone source target) = pure (.done, session.setEvaluator target evaluator) := by
      simp only [Session.step, hsource]
    rw [hstep]
    constructor
    · rintro ⟨⟩
      exact ⟨rfl, .inr ⟨evaluator, rfl, rfl, rfl⟩⟩
    · rintro ⟨rfl, ⟨⟨⟩, -⟩ | ⟨_, ⟨⟩, rfl, rfl⟩⟩
      rfl

theorem step_ask_iff {step : EvaluatorStep State} :
    session.step (.ask name step) world = .ok (answer, after) found ↔
      (session.evaluators.get? name = none ∧ answer = .absent ∧ after = session ∧ found = world) ∨
        ∃ evaluator result changed, session.evaluators.get? name = some evaluator ∧
          evaluator.step step world = .ok (result, changed) found ∧ answer = .evaluator result ∧
          after = session.setEvaluator name changed := by
  cases hname : session.evaluators.get? name with
  | none =>
    have hask : session.step (.ask name step) = pure (.absent, session) := by simp only [Session.step, hname]
    rw [hask]
    constructor
    · rintro ⟨⟩
      exact .inl ⟨rfl, rfl, rfl, rfl⟩
    · rintro (⟨-, rfl, rfl, rfl⟩ | ⟨_, _, _, ⟨⟩, -⟩)
      rfl
  | some evaluator =>
    have hask : session.step (.ask name step) = evaluator.step step >>= fun result =>
        pure (.evaluator result.1, session.setEvaluator name result.2) := by simp only [Session.step, hname]
    rw [hask]
    constructor
    · intro h
      obtain ⟨⟨result, changed⟩, middle, hstep, hresult⟩ := exists_of_bind h
      cases hresult
      exact .inr ⟨evaluator, result, changed, rfl, hstep, rfl, rfl⟩
    · rintro (⟨⟨⟩, -⟩ | ⟨_, result, changed, ⟨⟩, hstep, rfl, rfl⟩)
      rw [bind_eq, hstep]
      rfl

theorem step_run_iff {mode : RunMode} :
    session.step (.run name scenarioName mode) world = .ok (answer, after) found ↔
      ((session.evaluators.get? name = none ∨ session.scenarios.get? scenarioName = none) ∧ answer = .absent ∧
        after = session ∧ found = world) ∨
      ∃ evaluator scenario results changed, session.evaluators.get? name = some evaluator ∧
        session.scenarios.get? scenarioName = some scenario ∧
        scenario.run mode evaluator world = .ok (results, changed) found ∧ answer = .ran results ∧
        after = session.setEvaluator name changed := by
  by_cases hnone : session.evaluators.get? name = none ∨ session.scenarios.get? scenarioName = none
  · have hrun : session.step (.run name scenarioName mode) = pure (.absent, session) := by
      unfold Session.step
      rcases hnone with hname | hscenario
      · simp only [hname]
      · cases hname : session.evaluators.get? name <;> simp only [hname, hscenario]
    rw [hrun]
    constructor
    · rintro ⟨⟩
      exact .inl ⟨hnone, rfl, rfl, rfl⟩
    · rintro (⟨-, rfl, rfl, rfl⟩ | ⟨_, _, _, _, hname, hscenario, -⟩)
      · rfl
      · simp [hname, hscenario] at hnone
  · obtain ⟨evaluator, hname⟩ := Option.ne_none_iff_exists'.1 fun h => hnone (.inl h)
    obtain ⟨scenario, hscenario⟩ := Option.ne_none_iff_exists'.1 fun h => hnone (.inr h)
    have hrun : session.step (.run name scenarioName mode) = scenario.run mode evaluator >>= fun result =>
        pure (.ran result.1, session.setEvaluator name result.2) := by simp only [Session.step, hname, hscenario]
    rw [hrun, hname, hscenario]
    constructor
    · intro h
      obtain ⟨⟨results, changed⟩, middle, hran, hresult⟩ := exists_of_bind h
      cases hresult
      exact .inr ⟨evaluator, scenario, results, changed, rfl, rfl, hran, rfl, rfl⟩
    · rintro (⟨⟨⟨⟩⟩ | ⟨⟨⟩⟩, -⟩ | ⟨_, _, results, changed, ⟨⟩, ⟨⟩, hran, rfl, rfl⟩)
      rw [bind_eq, hran]
      rfl

end

/-! ### The host and the log -/

def calls (session : Session State) (world : World State) : SessionStep State → List (Call State)
  | .ask name step =>
    match session.evaluators.get? name with
    | some evaluator => evaluator.stepCalls world step
    | none => []
  | .run evaluator scenario mode =>
    match session.evaluators.get? evaluator, session.scenarios.get? scenario with
    | some found, some scenario => scenario.calls mode found scenario.statements world
    | _, _ => []
  | _ => []

/-- No function that the step calls writes what is seen of the host, and no label becomes a global. -/
def CallsNoWriter {τ : Type} (session : Session State) (view : Host State → τ) (world : World State)
    (step : SessionStep State) : Prop :=
  step.publishes = false ∧ ∀ call ∈ session.calls world step, call.Keeps view

section
variable {τ : Type} {view : Host State → τ}
variable {session after : Session State} {world found : World State} {step : SessionStep State}
  {answer : SessionAnswer State}

theorem step_host (hcalls : session.CallsNoWriter view world step)
    (h : session.step step world = .ok (answer, after) found) :
    view found.host = view (step.hostAfter world.host) := by
  obtain ⟨hpublishes, hcalls⟩ := hcalls
  unfold calls at hcalls
  cases step with
  | ask name step =>
    rcases step_ask_iff.1 h with ⟨-, -, -, rfl⟩ | ⟨evaluator, result, changed, hevaluator, hstep, -, -⟩
    · rfl
    · simp only [hevaluator] at hcalls
      exact Evaluator.step_keepsHostAt hcalls _ found hstep
  | run name scenarioName mode =>
    rcases step_run_iff.1 h with
      ⟨-, -, -, rfl⟩ | ⟨evaluator, scenario, results, changed, hevaluator, hscenario, hrun, -, -⟩
    · rfl
    · simp only [hevaluator, hscenario] at hcalls
      exact Scenario.runStatements_keepsHostAt hpublishes hcalls _ found hrun
  | clone source target => rw [(step_clone_iff.1 h).1]; rfl
  | _ =>
    cases h
    rfl

theorem ignoresLog_step (session : Session State) (step : SessionStep State) : IgnoresLog (session.step step) := by
  cases step with
  | ask name step =>
    unfold Session.step
    dsimp only
    split
    · exact (Evaluator.ignoresLog_step _ _).bind fun _ => ignoresLog_pure _
    · exact ignoresLog_pure _
  | run name scenario mode =>
    unfold Session.step
    dsimp only
    split
    · exact (Scenario.ignoresLog_runStatements _ _ _ _).bind fun _ => ignoresLog_pure _
    · exact ignoresLog_pure _
  | clone source target =>
    unfold Session.step
    dsimp only
    split <;> exact ignoresLog_pure _
  | setGlobal name value => exact (ignoresLog_modifyHost (·.setGlobal name value)).bind fun _ => ignoresLog_pure _
  | beginTick tick => exact (ignoresLog_modifyHost (·.beginTick tick)).bind fun _ => ignoresLog_pure _
  | getGlobal name =>
    intro host
    exact ⟨.ok (.global (host.global? name), session), host, [], fun log => by rw [World.add_nil]; rfl⟩
  | create name evaluator => exact ignoresLog_pure _
  | load name text file => exact ignoresLog_pure _

end

end Session

/-! ### Evaluators -/

/-- The evaluator but for what its cache holds. -/
def Evaluator.withoutCache (evaluator : Evaluator State) : Evaluator State := { evaluator with patterns := .empty }

section
variable (evaluator : Evaluator State)

@[simp] theorem Evaluator.withoutCache_locals : evaluator.withoutCache.locals = evaluator.locals := rfl

@[simp] theorem Evaluator.withoutCache_functions : evaluator.withoutCache.functions = evaluator.functions := rfl

end

namespace Session

/-- The evaluator of a name after a step, apart from its cache. -/
def evaluatorAfter (session : Session State) (name : String) : SessionStep State → Option (Evaluator State)
  | .create created evaluator => if name = created then some evaluator else session.evaluators.get? name
  | .clone source target =>
    if name = target then (session.evaluators.get? source).or (session.evaluators.get? name)
    else session.evaluators.get? name
  | .ask asked step =>
    if name = asked then (session.evaluators.get? name).map (·.changed step) else session.evaluators.get? name
  | _ => session.evaluators.get? name

section
variable {session after : Session State} {world found : World State} {step : SessionStep State}
  {answer : SessionAnswer State}

theorem get?_setEvaluator (session : Session State) (changed : String) (evaluator : Evaluator State) (name : String) :
    (session.setEvaluator changed evaluator).evaluators.get? name =
      if name = changed then some evaluator else session.evaluators.get? name :=
  NameTable.get?_set session.evaluators changed evaluator name

theorem step_evaluators (h : session.step step world = .ok (answer, after) found) (name : String) :
    (after.evaluators.get? name).map Evaluator.withoutCache =
      (session.evaluatorAfter name step).map Evaluator.withoutCache := by
  unfold evaluatorAfter
  cases step with
  | create created evaluator =>
    cases h
    rw [get?_setEvaluator]
  | clone source target =>
    obtain ⟨-, ⟨hsource, -, rfl⟩ | ⟨evaluator, hsource, -, rfl⟩⟩ := step_clone_iff.1 h
    · simp [hsource]
    · simp [get?_setEvaluator, hsource]
  | ask asked step =>
    rcases step_ask_iff.1 h with ⟨hasked, -, rfl, -⟩ | ⟨evaluator, result, changed, hasked, hstep, -, rfl⟩
    · dsimp only
      split
      · rename_i hname
        rw [hname, hasked]
        rfl
      · rfl
    · dsimp only
      rw [get?_setEvaluator]
      split
      · rename_i hname
        rw [hname, hasked, Evaluator.step_changed hstep]
        rfl
      · rfl
  | run ran scenarioName mode =>
    rcases step_run_iff.1 h with ⟨-, -, rfl, -⟩ | ⟨evaluator, scenario, results, changed, hran, -, hrun, -, rfl⟩
    · rfl
    · dsimp only
      rw [get?_setEvaluator]
      split
      · rename_i hname
        rw [hname, hran, Scenario.runStatements_patterns hrun]
        rfl
      · rfl
  | _ =>
    cases h
    rfl

end

/-! ## Runs -/

/-- Goes through steps of which none may crash. -/
def proceed (session : Session State) : List (SessionStep State) → WorldAction State (Session State)
  | [] => return session
  | step :: steps => do
    let (_, after) ← session.step step
    after.proceed steps

/-- Wherever the run comes to a step that is concerned, the step calls nothing that writes what is seen of the host. -/
def CallsNoWriters {τ : Type} (session : Session State) (view : Host State → τ) (world : World State)
    (steps : List (SessionStep State)) (concerned : SessionStep State → Prop) : Prop :=
  ∀ front step back reached found, steps = front ++ step :: back →
    session.proceed front world = .ok reached found → concerned step → reached.CallsNoWriter view found step

section
variable {τ : Type} {view : Host State → τ}
variable {session after reached : Session State} {world found : World State} {step : SessionStep State}
  {steps more : List (SessionStep State)} {answer : SessionAnswer State} {concerned : SessionStep State → Prop}

theorem proceed_eq : session.proceed (step :: steps) world = match session.step step world with
    | .ok (_, after) found => after.proceed steps found
    | .error crash found => .error crash found := by
  change (session.step step >>= fun result => result.2.proceed steps) world = _
  rw [bind_eq]
  cases session.step step world <;> rfl

theorem proceed_cons (h : session.step step world = .ok (answer, reached) found) :
    session.proceed (step :: steps) world = reached.proceed steps found := by
  rw [proceed_eq, h]

theorem proceed_append : session.proceed (steps ++ more) world = match session.proceed steps world with
    | .ok reached found => reached.proceed more found
    | .error crash found => .error crash found := by
  induction steps generalizing session world with
  | nil => rfl
  | cons step steps ih =>
    rw [List.cons_append, proceed_eq, proceed_eq]
    cases session.step step world with
    | ok result found => exact ih
    | error crash found => rfl

theorem CallsNoWriters.of_cons (h : session.CallsNoWriters view world (step :: steps) concerned)
    (hstep : session.step step world = .ok (answer, reached) found) :
    reached.CallsNoWriters view found steps concerned := by
  rintro front other back last final rfl hfront
  exact h (step :: front) other back last final rfl ((proceed_cons hstep).trans hfront)

theorem CallsNoWriters.host (h : session.CallsNoWriters Host.globals world steps concerned)
    (hstate : session.CallsNoWriters Host.state world steps concerned) :
    session.CallsNoWriters id world steps concerned := by
  rintro front step back reached found hsteps hfront hconcerned
  obtain ⟨hpublishes, hglobals⟩ := h front step back reached found hsteps hfront hconcerned
  obtain ⟨-, hstates⟩ := hstate front step back reached found hsteps hfront hconcerned
  exact ⟨hpublishes, fun call hcall => (hglobals call hcall).host (hstates call hcall)⟩

/-- Where there is but one state beside the globals, nothing writes it. -/
theorem CallsNoWriters.state [Subsingleton State] (h : session.CallsNoWriters view world steps concerned) :
    session.CallsNoWriters Host.state world steps concerned :=
  fun front step back reached found hsteps hfront hconcerned =>
    ⟨(h front step back reached found hsteps hfront hconcerned).1, fun _ _ _ _ _ => Subsingleton.elim _ _⟩

theorem CallsNoWriters.of_append (h : session.CallsNoWriters view world (steps ++ more) concerned) :
    session.CallsNoWriters view world steps concerned := by
  rintro front step back last final rfl hfront
  exact h front step (back ++ more) last final (by simp) hfront

end

end Session

end ScenarioScript
