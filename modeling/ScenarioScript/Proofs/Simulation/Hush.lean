import ScenarioScript.Proofs.Evaluator.Listing
import ScenarioScript.Proofs.Simulation.Globals

/-!
# Simulations without a log

Whether a simulation logs its problems makes no difference to it. At every point the same simulation that tells
nobody has the same globals, the same cache and the same records, and it crashes where the other does. What the other
has in its log are the problems of all evaluations so far.
-/

namespace ScenarioScript

namespace Simulation

/-- The simulation with nobody to tell. -/
def hush (simulation : Simulation) : Simulation where
  world := { simulation.world with log := #[] }
  evaluator := { simulation.evaluator with sink := .discard }
  records := simulation.records

/-- The statement is evaluated at the point and meets the problems in this order. The failed calls among them are the
failures of the evaluation, and with a log each of them is reported from the line of the statement. -/
structure Meets (point : Simulation) (scenario : Scenario) (statement : Statement) (evaluation : Evaluation)
    (problems : List Problem) : Prop where
  evaluates : point.Evaluates scenario statement evaluation
  failures : evaluation.failures = problems.filterMap Problem.failure?
  logged : ∃ evaluator host,
    { point.evaluator with sink := .log }.evaluateAt statement.expr (scenario.origin statement) point.world =
      .ok (evaluation, evaluator) (World.add ⟨host, point.world.log⟩ (problems.map fun problem =>
        (Diagnostic.about point.evaluator.component problem).placedAt (scenario.origin statement)))

/-! ## One statement -/

section
variable {scenario : Scenario} {tick index : Nat} {statement : Statement} {point : Simulation} {evaluation : Evaluation}

theorem Evaluates.exists_meets (h : point.Evaluates scenario statement evaluation) :
    ∃ problems, point.Meets scenario statement evaluation problems := by
  obtain ⟨outcome, patterns, after, problems, hfailures, htold⟩ :=
    point.evaluator.evaluateAt_told statement.expr (scenario.origin statement) point.world.host
  have hpoint := htold point.evaluator.sink point.world.log
  obtain ⟨evaluator, world, heval⟩ := id h
  cases outcome with
  | error crash => cases heval.symm.trans hpoint
  | ok result =>
    cases heval.symm.trans hpoint
    refine ⟨problems, h, hfailures _ rfl, { point.evaluator with sink := .log, patterns }, after, ?_⟩
    rw [List.map_eq_flatMap]
    exact htold .log point.world.log

theorem runStatement_hush (scenario : Scenario) (tick index : Nat) (statement : Statement) (point : Simulation) :
    ∃ outcome after, runStatement scenario tick index statement point = resultOf outcome after ∧
      runStatement scenario tick index statement point.hush = resultOf outcome after.hush := by
  obtain ⟨outcome, patterns, after, problems, -, htold⟩ :=
    point.evaluator.evaluateAt_told statement.expr (scenario.origin statement) point.world.host
  obtain ⟨reports, hpoint⟩ : ∃ reports,
      point.evaluator.evaluateAt statement.expr (scenario.origin statement) point.world =
        resultOf (outcome.map fun evaluation => (evaluation, { point.evaluator with patterns }))
          (World.add ⟨after, point.world.log⟩ reports) :=
    ⟨_, htold point.evaluator.sink point.world.log⟩
  have hhush := htold .discard #[]
  have hsilent : problems.flatMap
      { point.evaluator with sink := .discard, origin := some (scenario.origin statement) }.written = [] :=
    List.flatMap_eq_nil_iff.2 fun _ _ => rfl
  rw [hsilent, World.add_nil] at hhush
  rw [runStatement_eq, runStatement_eq]
  cases outcome with
  | ok evaluation =>
    refine ⟨.ok (), point.pointBehind tick index statement evaluation patterns
      (World.add ⟨after, point.world.log⟩ reports), ?_, ?_⟩
    · rw [hpoint]
      rfl
    · simp only [hush, hhush]
      unfold pointBehind RunMode.publish
      cases statement.label <;> rfl
  | error crash =>
    refine ⟨.error crash, { point with world := World.add ⟨after, point.world.log⟩ reports }, ?_, ?_⟩
    · rw [hpoint]
      rfl
    · simp only [hush, hhush]
      rfl

end

/-! ## Runs -/

/-- Without a log the action comes to the same. -/
def Hushes (action : Action) : Prop :=
  ∀ simulation, ∃ outcome after, action simulation = resultOf outcome after ∧
    action simulation.hush = resultOf outcome after.hush

theorem hushes_pure : Hushes (pure ()) := fun simulation => ⟨.ok (), simulation, rfl, rfl⟩

theorem Hushes.bind {action next : Action} (h : Hushes action) (hnext : Hushes next) :
    Hushes (action >>= fun _ => next) := by
  intro simulation
  obtain ⟨outcome, middle, hloud, hquiet⟩ := h simulation
  rw [bind_eq, bind_eq, hloud, hquiet]
  cases outcome with
  | ok _ => exact hnext middle
  | error crash => exact ⟨.error crash, middle, rfl, rfl⟩

section
variable (scenario : Scenario) (tick : Nat)

theorem hushes_runStatements (index : Nat) (statements : List Statement) :
    Hushes (runStatements scenario tick index statements) := by
  induction statements generalizing index with
  | nil => exact hushes_pure
  | cons statement rest ih => exact Hushes.bind (runStatement_hush scenario tick index statement) (ih (index + 1))

theorem hushes_runTicks (count : Nat) : Hushes (runTicks scenario tick count) := by
  induction count generalizing tick with
  | zero => exact hushes_pure
  | succ count ih =>
    have hbegin : Hushes (modify (beginTick tick)) := fun simulation => ⟨.ok (), simulation.beginTick tick, rfl, rfl⟩
    exact (hbegin.bind (hushes_runStatements scenario tick 0 scenario.statements)).bind (ih (tick + 1))

end

section
variable {start point last : Simulation} {scenario : Scenario} {tick index : Nat} {crash : Crash}

theorem Reaches.hush (h : start.Reaches scenario tick index point) :
    start.hush.Reaches scenario tick index point.hush := by
  induction h with
  | first => exact .first
  | @statement tick index statement point after h hstatement hrun ih =>
    obtain ⟨outcome, found, hloud, hquiet⟩ := runStatement_hush scenario tick index statement point
    cases outcome with
    | ok _ =>
      cases hrun.symm.trans hloud
      exact ih.statement hstatement hquiet
    | error crash => cases hrun.symm.trans hloud
  | tick h ih => exact .tick ih

theorem CrashesAt.hush (h : start.CrashesAt scenario tick index crash last) :
    start.hush.CrashesAt scenario tick index crash last.hush := by
  obtain ⟨point, statement, hpoint, hstatement, hrun⟩ := h
  obtain ⟨outcome, found, hloud, hquiet⟩ := runStatement_hush scenario tick index statement point
  cases outcome with
  | ok _ => cases hrun.symm.trans hloud
  | error crash =>
    cases hrun.symm.trans hloud
    exact ⟨point.hush, statement, hpoint.hush, hstatement, hquiet⟩

end

/-! ## The log -/

/-- Whenever a run that starts here has evaluated a statement at a tick, it has met the problems. -/
def Encounters (start : Simulation) (scenario : Scenario) (problems : Nat → Nat → List Problem) : Prop :=
  ∀ tick index point statement evaluation, start.Reaches scenario tick index point →
    scenario.statements[index]? = some statement → point.Evaluates scenario statement evaluation →
      point.Meets scenario statement evaluation (problems tick index)

/-- The reports of a tick that has been run to its end, statement by statement. -/
def reportsOf (scenario : Scenario) (component : String) (problems : Nat → Nat → List Problem) (tick : Nat) :
    List (List Diagnostic) :=
  scenario.statements.mapIdx fun index statement => (problems tick index).map fun problem =>
    (Diagnostic.about component problem).placedAt (scenario.origin statement)

section
variable {start point final : Simulation} {scenario : Scenario} {problems : Nat → Nat → List Problem} {tick index : Nat}

theorem length_reportsOf (scenario : Scenario) (component : String) (problems : Nat → Nat → List Problem) (tick : Nat) :
    (reportsOf scenario component problems tick).length = scenario.size := List.length_mapIdx

theorem exists_encounters (start : Simulation) (scenario : Scenario) :
    ∃ problems, start.Encounters scenario problems := by
  have hproblems (tick index : Nat) : ∃ problems, ∀ point statement evaluation,
      start.Reaches scenario tick index point → scenario.statements[index]? = some statement →
        point.Evaluates scenario statement evaluation → point.Meets scenario statement evaluation problems := by
    by_cases hex : ∃ point statement evaluation, start.Reaches scenario tick index point ∧
        scenario.statements[index]? = some statement ∧ point.Evaluates scenario statement evaluation
    · obtain ⟨point, statement, evaluation, hpoint, hstatement, heval⟩ := hex
      obtain ⟨problems, hmeets⟩ := heval.exists_meets
      refine ⟨problems, fun other otherStatement otherEvaluation hother hstatement' heval' => ?_⟩
      cases hpoint.unique hother
      cases hstatement.symm.trans hstatement'
      cases heval.unique heval'
      exact hmeets
    · exact ⟨[], fun point statement evaluation hpoint hstatement heval =>
        absurd ⟨point, statement, evaluation, hpoint, hstatement, heval⟩ hex⟩
  choose problems hmeets using hproblems
  exact ⟨problems, hmeets⟩

/-- At a point the log holds the problems of the ticks before and of the statements before. -/
theorem Reaches.log (hsink : start.evaluator.sink = .log) (hready : start.evaluator.IsReady)
    (hencounters : start.Encounters scenario problems) (h : start.Reaches scenario tick index point) :
    let reports := reportsOf scenario start.evaluator.component problems
    point.world.log.toList = start.world.log.toList ++
      (List.range tick).flatMap (fun earlier => (reports earlier).flatten) ++ ((reports tick).take index).flatten := by
  intro reports
  induction h with
  | first => simp [beginTick]
  | @statement tick index statement point after h hstatement hrun ih =>
    obtain ⟨evaluation, patterns, world, heval, rfl⟩ := exists_of_runStatement hrun
    have hevaluator := (h.evaluator hready).2
    obtain ⟨-, -, evaluator, host, hlogged⟩ :=
      hencounters tick index point statement evaluation h hstatement ⟨_, _, heval⟩
    have hloud : { point.evaluator with sink := .log } = point.evaluator := by
      rw [hevaluator]
      dsimp only
      rw [← hsink]
    rw [hloud, heval] at hlogged
    cases hlogged
    have hreport : (reports tick)[index]? = some ((problems tick index).map fun problem =>
        (Diagnostic.about point.evaluator.component problem).placedAt (scenario.origin statement)) := by
      have hcomponent : point.evaluator.component = start.evaluator.component := by rw [hevaluator]
      simp [reports, reportsOf, hstatement, hcomponent]
    have hlog (world : World Unit) (label : Option String) (number : Float) :
        (RunMode.simulation.publish label number world).log = world.log := by
      unfold RunMode.publish
      cases label <;> rfl
    rw [pointBehind, hlog, World.add_log, List.take_add_one, hreport]
    simp [ih]
  | @tick tick point h ih =>
    simp [beginTick, ih, reports, ← length_reportsOf scenario start.evaluator.component problems tick, List.range_succ]

theorem Ends.log {ticks : Nat} (hsink : start.evaluator.sink = .log) (hready : start.evaluator.IsReady)
    (hencounters : start.Encounters scenario problems) (h : start.Ends scenario ticks final) :
    final.world.log.toList = start.world.log.toList ++ (List.range ticks).flatMap fun tick =>
      (reportsOf scenario start.evaluator.component problems tick).flatten := by
  have hlog := h.reaches.log hsink hready hencounters
  simpa [beginTick] using hlog

theorem run_problems {ticks : Nat} (hrun : runTicks scenario 0 ticks start = .ok () final) :
    ∃ problems, start.Encounters scenario problems ∧
      ∀ tick < ticks, ∀ index statement, scenario.statements[index]? = some statement →
        ∃ point evaluation, start.Reaches scenario tick index point ∧
          point.Meets scenario statement evaluation (problems tick index) := by
  obtain ⟨results, hyields⟩ := start.exists_yields scenario
  obtain ⟨problems, hencounters⟩ := start.exists_encounters scenario
  obtain ⟨hevaluates, -⟩ := run_results hrun hyields
  refine ⟨problems, hencounters, fun tick htick index statement hstatement => ?_⟩
  obtain ⟨point, hpoint, heval⟩ := hevaluates tick htick index statement hstatement
  exact ⟨point, _, hpoint, hencounters tick index point statement _ hpoint hstatement heval⟩

end

end Simulation

end ScenarioScript
