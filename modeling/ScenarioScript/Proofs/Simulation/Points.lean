import Mathlib.Tactic.Choose
import ScenarioScript.Proofs.Evaluator.Steps
import ScenarioScript.Simulation

/-!
# The points of a simulation

A simulation is at a point of its run before each statement and behind the last one of a tick. Where
the run goes on is settled by the point, so each statement has one evaluation at a tick.
-/

namespace ScenarioScript

theorem Scenario.next_of_drop (scenario : Scenario) {index : Nat} {statement : Statement} {rest : List Statement}
    (h : scenario.statements.drop index = statement :: rest) :
    scenario.statements[index]? = some statement ∧ scenario.statements.drop (index + 1) = rest := by
  refine ⟨?_, ?_⟩
  · rw [← List.head?_drop, h, List.head?_cons]
  · rw [← List.tail_drop, h, List.tail_cons]

namespace Simulation

/-! ## One statement -/

/-- How a statement comes out that is evaluated at a point. -/
def Evaluates (point : Simulation) (scenario : Scenario) (statement : Statement) (evaluation : Evaluation) : Prop :=
  ∃ evaluator world, point.evaluator.evaluateAt statement.expr (scenario.origin statement) point.world =
    .ok (evaluation, evaluator) world

/-- The point behind a statement, if its evaluation has left a cache and a world. -/
def pointBehind (point : Simulation) (tick index : Nat) (statement : Statement) (evaluation : Evaluation)
    (patterns : PatternCache) (world : World Unit) : Simulation where
  world := RunMode.simulation.publish statement.label evaluation.value.toNumber world
  evaluator := { point.evaluator with patterns }
  records := point.records.push ⟨tick, statement.name index, evaluation⟩

section
variable {scenario : Scenario} {tick index : Nat} {statement : Statement} {point after : Simulation}
  {evaluation other : Evaluation}

theorem Evaluates.unique (h : point.Evaluates scenario statement evaluation)
    (h' : point.Evaluates scenario statement other) : other = evaluation := by
  obtain ⟨_, _, h⟩ := h
  obtain ⟨_, _, h'⟩ := h'
  rw [h] at h'
  cases h'
  rfl

theorem runStatement_eq (scenario : Scenario) (tick index : Nat) (statement : Statement) (point : Simulation) :
    runStatement scenario tick index statement point =
      match point.evaluator.evaluateAt statement.expr (scenario.origin statement) point.world with
      | .ok (evaluation, evaluator) world =>
        .ok () ⟨RunMode.simulation.publish statement.label evaluation.value.toNumber world, evaluator,
          point.records.push ⟨tick, statement.name index, evaluation⟩⟩
      | .error crash world => .error crash { point with world } := by
  unfold runStatement Scenario.runStatement
  simp only [RunMode.simulation, if_true, bind_eq]
  cases point.evaluator.evaluateAt statement.expr (scenario.origin statement) point.world <;> rfl

theorem exists_of_runStatement (h : runStatement scenario tick index statement point = .ok () after) :
    ∃ evaluation patterns world,
      point.evaluator.evaluateAt statement.expr (scenario.origin statement) point.world =
        .ok (evaluation, { point.evaluator with patterns }) world ∧
      after = point.pointBehind tick index statement evaluation patterns world := by
  rw [runStatement_eq, Evaluator.evaluateAt_eq] at h
  rw [Evaluator.evaluateAt_eq]
  cases heval : { point.evaluator with origin := some (scenario.origin statement) }.eval statement.expr
      ⟨point.world, point.evaluator.patterns, #[]⟩ with
  | ok value pass =>
    rw [heval] at h
    cases h
    exact ⟨_, _, _, rfl, rfl⟩
  | error crash pass =>
    rw [heval] at h
    cases h

end

/-! ## Runs -/

/-- `start.Reaches scenario tick index point`: a run that starts with the first tick comes to the
point, at which it is before the statement of an index. Behind the last statement the index is the
size of the scenario. -/
inductive Reaches (start : Simulation) (scenario : Scenario) : (tick index : Nat) → Simulation → Prop
  | first : Reaches start scenario 0 0 (start.beginTick 0)
  | statement {tick index : Nat} {statement : Statement} {point after : Simulation}
      (h : Reaches start scenario tick index point) (hstatement : scenario.statements[index]? = some statement)
      (hrun : runStatement scenario tick index statement point = .ok () after) :
      Reaches start scenario tick (index + 1) after
  | tick {tick : Nat} {point : Simulation} (h : Reaches start scenario tick scenario.size point) :
      Reaches start scenario (tick + 1) 0 (point.beginTick (tick + 1))

/-- The run has been through some number of ticks. -/
def Ends (start : Simulation) (scenario : Scenario) : (ticks : Nat) → Simulation → Prop
  | 0, simulation => simulation = start
  | tick + 1, simulation => start.Reaches scenario tick scenario.size simulation

section
variable {start point other final simulation : Simulation} {scenario : Scenario} {tick index : Nat}

theorem Reaches.unique (h : start.Reaches scenario tick index point)
    (hother : start.Reaches scenario tick index other) : other = point := by
  induction h generalizing other with
  | first =>
    cases hother
    rfl
  | statement h hstatement hrun ih =>
    rcases hother with _ | ⟨hother, hstatement', hrun'⟩
    cases ih hother
    cases hstatement.symm.trans hstatement'
    rw [hrun] at hrun'
    cases hrun'
    rfl
  | tick h ih =>
    rcases hother with _ | _ | hother
    rw [ih hother]

theorem Ends.reaches (h : start.Ends scenario tick simulation) :
    start.Reaches scenario tick 0 (simulation.beginTick tick) := by
  cases tick with
  | zero =>
    cases h
    exact .first
  | succ tick => exact .tick h

/-! ### The loops -/

theorem Reaches.index_le (h : start.Reaches scenario tick index point) : index ≤ scenario.size := by
  cases h with
  | first | tick => exact Nat.zero_le _
  | statement h hstatement hrun => exact (List.getElem?_eq_some_iff.1 hstatement).1

theorem Reaches.runStatements {statements : List Statement} (h : start.Reaches scenario tick index point)
    (hstatements : scenario.statements.drop index = statements)
    (hrun : runStatements scenario tick index statements point = .ok () final) :
    start.Reaches scenario tick scenario.size final ∧
      ∀ later, index ≤ later → later ≤ scenario.size → ∃ point, start.Reaches scenario tick later point := by
  induction statements generalizing index point with
  | nil =>
    cases hrun
    have hindex : index = scenario.size := Nat.le_antisymm h.index_le (List.drop_eq_nil_iff.1 hstatements)
    rw [hindex] at h ⊢
    refine ⟨h, fun later hle hle' => ?_⟩
    rw [Nat.le_antisymm hle' hle]
    exact ⟨_, h⟩
  | cons statement rest ih =>
    obtain ⟨hstatement, hrest⟩ := scenario.next_of_drop hstatements
    unfold Simulation.runStatements at hrun
    rw [bind_eq] at hrun
    cases hone : runStatement scenario tick index statement point with
    | error crash after =>
      rw [hone] at hrun
      cases hrun
    | ok _ after =>
      rw [hone] at hrun
      obtain ⟨hfinal, hlater⟩ := ih (h.statement hstatement hone) hrest hrun
      refine ⟨hfinal, fun later hle hle' => ?_⟩
      rcases Nat.eq_or_lt_of_le hle with rfl | hlt
      · exact ⟨point, h⟩
      · exact hlater later hlt hle'

theorem runTick_eq (scenario : Scenario) (tick : Nat) (simulation : Simulation) :
    runTick scenario tick simulation =
      runStatements scenario tick 0 scenario.statements (simulation.beginTick tick) := rfl

theorem Ends.runTicks {first count : Nat} (h : start.Ends scenario first simulation)
    (hrun : runTicks scenario first count simulation = .ok () final) :
    start.Ends scenario (first + count) final ∧ ∀ tick, first ≤ tick → tick < first + count →
      ∀ index ≤ scenario.size, ∃ point, start.Reaches scenario tick index point := by
  induction count generalizing first simulation with
  | zero =>
    cases hrun
    exact ⟨h, fun tick hle hlt => absurd hle (Nat.not_le.2 hlt)⟩
  | succ count ih =>
    unfold Simulation.runTicks at hrun
    rw [bind_eq, runTick_eq] at hrun
    cases hone : runStatements scenario first 0 scenario.statements (simulation.beginTick first) with
    | error crash after =>
      rw [hone] at hrun
      cases hrun
    | ok _ after =>
      rw [hone] at hrun
      obtain ⟨hlast, hpoints⟩ := h.reaches.runStatements List.drop_zero hone
      have hend : start.Ends scenario (first + 1) after := hlast
      obtain ⟨hfinal, hlater⟩ := ih hend hrun
      have hcount : first + 1 + count = first + (count + 1) := by omega
      rw [hcount] at hfinal hlater
      refine ⟨hfinal, fun tick hle hlt index hindex => ?_⟩
      rcases Nat.eq_or_lt_of_le hle with rfl | hlt'
      · exact hpoints index (Nat.zero_le _) hindex
      · exact hlater tick hlt' hlt index hindex

theorem ends_of_run {ticks : Nat} (hrun : Simulation.runTicks scenario 0 ticks start = .ok () final) :
    start.Ends scenario ticks final := by
  have hstart : start.Ends scenario 0 start := rfl
  obtain ⟨hend, -⟩ := hstart.runTicks hrun
  rwa [Nat.zero_add] at hend

theorem exists_reaches {ticks : Nat} (hrun : Simulation.runTicks scenario 0 ticks start = .ok () final)
    (htick : tick < ticks) (hindex : index ≤ scenario.size) : ∃ point, start.Reaches scenario tick index point := by
  have hstart : start.Ends scenario 0 start := rfl
  obtain ⟨-, hpoints⟩ := hstart.runTicks hrun
  exact hpoints tick (Nat.zero_le _) (by omega) index hindex

theorem runStatements_cons (statement : Statement) (rest : List Statement) :
    runStatements scenario tick index (statement :: rest) simulation =
      match runStatement scenario tick index statement simulation with
      | .ok _ after => runStatements scenario tick (index + 1) rest after
      | .error crash after => .error crash after := by
  rw [Simulation.runStatements, bind_eq]
  cases runStatement scenario tick index statement simulation <;> rfl

theorem runStatements_append (front back : List Statement) :
    runStatements scenario tick index (front ++ back) simulation =
      match runStatements scenario tick index front simulation with
      | .ok _ after => runStatements scenario tick (index + front.length) back after
      | .error crash after => .error crash after := by
  induction front generalizing index simulation with
  | nil => rfl
  | cons statement rest ih =>
    rw [List.cons_append, runStatements_cons, runStatements_cons]
    cases runStatement scenario tick index statement simulation with
    | ok _ after =>
      have hlength : index + (statement :: rest).length = index + 1 + rest.length := by
        rw [List.length_cons]
        omega
      rw [hlength]
      exact ih
    | error crash after => rfl

theorem runTicks_succ {first count : Nat} : Simulation.runTicks scenario first (count + 1) simulation =
    match Simulation.runTicks scenario first count simulation with
    | .ok _ after => runTick scenario (first + count) after
    | .error crash after => .error crash after := by
  have hfirst (first count : Nat) (simulation : Simulation) :
      Simulation.runTicks scenario first (count + 1) simulation =
        match runTick scenario first simulation with
        | .ok _ after => Simulation.runTicks scenario (first + 1) count after
        | .error crash after => .error crash after := by
    rw [Simulation.runTicks, bind_eq]
    cases runTick scenario first simulation <;> rfl
  induction count generalizing first simulation with
  | zero =>
    rw [hfirst]
    change _ = runTick scenario first simulation
    cases runTick scenario first simulation <;> rfl
  | succ count ih =>
    rw [hfirst, hfirst]
    have hcount : first + (count + 1) = first + 1 + count := by omega
    rw [hcount]
    cases runTick scenario first simulation with
    | ok _ after => exact ih
    | error crash after => rfl

theorem Reaches.loops (h : start.Reaches scenario tick index point) :
    ∃ simulation, Simulation.runTicks scenario 0 tick start = .ok () simulation ∧
      Simulation.runStatements scenario tick 0 (scenario.statements.take index) (simulation.beginTick tick) =
        .ok () point := by
  induction h with
  | first => exact ⟨start, rfl, rfl⟩
  | @statement tick index statement point after h hstatement hrun ih =>
    obtain ⟨simulation, hticks, hstatements⟩ := ih
    refine ⟨simulation, hticks, ?_⟩
    have hindex : index < scenario.statements.length := (List.getElem?_eq_some_iff.1 hstatement).1
    have htake : (scenario.statements.take index).length = index := List.length_take_of_le (Nat.le_of_lt hindex)
    rw [List.take_add_one, hstatement, runStatements_append, hstatements, htake, Nat.zero_add]
    dsimp only [Option.toList_some]
    rw [runStatements_cons, hrun]
    rfl
  | @tick tick point h ih =>
    obtain ⟨simulation, hticks, hstatements⟩ := ih
    refine ⟨point, ?_, rfl⟩
    have hall : scenario.statements.take scenario.size = scenario.statements := List.take_length
    rw [runTicks_succ, hticks, Nat.zero_add]
    rwa [hall] at hstatements

theorem Ends.run {ticks : Nat} (h : start.Ends scenario ticks final) :
    Simulation.runTicks scenario 0 ticks start = .ok () final := by
  cases ticks with
  | zero =>
    cases h
    rfl
  | succ tick =>
    obtain ⟨simulation, hticks, hstatements⟩ := Reaches.loops h
    have hall : scenario.statements.take scenario.size = scenario.statements := List.take_length
    rw [runTicks_succ, hticks, Nat.zero_add]
    rwa [hall] at hstatements

end

/-! ## Crashes -/

/-- The run comes to a statement at a tick whose evaluation crashes, which leaves the last simulation. -/
def CrashesAt (start : Simulation) (scenario : Scenario) (tick index : Nat) (crash : Crash)
    (last : Simulation) : Prop :=
  ∃ point statement, start.Reaches scenario tick index point ∧ scenario.statements[index]? = some statement ∧
    runStatement scenario tick index statement point = .error crash last

section
variable {start point last : Simulation} {scenario : Scenario} {tick index : Nat} {crash : Crash}

theorem Reaches.exists_crashesAt {statements : List Statement} (h : start.Reaches scenario tick index point)
    (hstatements : scenario.statements.drop index = statements)
    (hrun : Simulation.runStatements scenario tick index statements point = .error crash last) :
    ∃ later, start.CrashesAt scenario tick later crash last := by
  induction statements generalizing index point with
  | nil => cases hrun
  | cons statement rest ih =>
    obtain ⟨hstatement, hrest⟩ := scenario.next_of_drop hstatements
    rw [runStatements_cons] at hrun
    cases hone : runStatement scenario tick index statement point with
    | ok _ after =>
      rw [hone] at hrun
      exact ih (h.statement hstatement hone) hrest hrun
    | error crash after =>
      rw [hone] at hrun
      cases hrun
      exact ⟨index, point, statement, h, hstatement, hone⟩

theorem exists_crashesAt {ticks : Nat} (hrun : runTicks scenario 0 ticks start = .error crash last) :
    ∃ tick < ticks, ∃ index, start.CrashesAt scenario tick index crash last := by
  induction ticks with
  | zero => cases hrun
  | succ count ih =>
    rw [runTicks_succ] at hrun
    cases hfront : runTicks scenario 0 count start with
    | ok _ simulation =>
      rw [hfront, Nat.zero_add] at hrun
      obtain ⟨index, hcrash⟩ := (ends_of_run hfront).reaches.exists_crashesAt List.drop_zero hrun
      exact ⟨count, Nat.lt_succ_self count, index, hcrash⟩
    | error crash after =>
      rw [hfront] at hrun
      cases hrun
      obtain ⟨tick, htick, hcrash⟩ := ih hfront
      exact ⟨tick, Nat.lt_succ_of_lt htick, hcrash⟩

end

/-! ## Results -/

/-- Whenever a run that starts here comes to a statement at a tick, its evaluation is the result. -/
def Yields (start : Simulation) (scenario : Scenario) (results : Nat → Nat → Evaluation) : Prop :=
  ∀ tick index point statement evaluation, start.Reaches scenario tick index point →
    scenario.statements[index]? = some statement → point.Evaluates scenario statement evaluation →
      results tick index = evaluation

/-- The records of a tick that has been run to its end. -/
def recordsOf (scenario : Scenario) (results : Nat → Nat → Evaluation) (tick : Nat) : List Record :=
  scenario.statements.mapIdx fun index statement => ⟨tick, statement.name index, results tick index⟩

section
variable {start point final : Simulation} {scenario : Scenario} {results : Nat → Nat → Evaluation}
  {tick index : Nat}

theorem length_recordsOf (scenario : Scenario) (results : Nat → Nat → Evaluation) (tick : Nat) :
    (recordsOf scenario results tick).length = scenario.size := List.length_mapIdx

theorem mem_recordsOf {record : Record} : record ∈ recordsOf scenario results tick ↔ ∃ index statement,
    scenario.statements[index]? = some statement ∧ record = ⟨tick, statement.name index, results tick index⟩ := by
  unfold recordsOf
  rw [List.mem_mapIdx]
  constructor
  · rintro ⟨index, hindex, rfl⟩
    exact ⟨index, _, List.getElem?_eq_getElem hindex, rfl⟩
  · rintro ⟨index, statement, hstatement, rfl⟩
    obtain ⟨hindex, rfl⟩ := List.getElem?_eq_some_iff.1 hstatement
    exact ⟨index, hindex, rfl⟩

theorem map_recordsOf {α : Type} (f : Record → α) (scenario : Scenario) (results : Nat → Nat → Evaluation)
    (tick : Nat) : (recordsOf scenario results tick).map f =
      scenario.statements.mapIdx fun index statement => f ⟨tick, statement.name index, results tick index⟩ := by
  apply List.ext_getElem?
  simp [recordsOf, Function.comp_def]

theorem exists_yields (start : Simulation) (scenario : Scenario) : ∃ results, start.Yields scenario results := by
  have hresult (tick index : Nat) : ∃ result, ∀ point statement evaluation,
      start.Reaches scenario tick index point → scenario.statements[index]? = some statement →
        point.Evaluates scenario statement evaluation → result = evaluation := by
    by_cases hex : ∃ point statement evaluation, start.Reaches scenario tick index point ∧
        scenario.statements[index]? = some statement ∧ point.Evaluates scenario statement evaluation
    · obtain ⟨point, statement, evaluation, hpoint, hstatement, heval⟩ := hex
      refine ⟨evaluation, fun other otherStatement otherEvaluation hother hstatement' heval' => ?_⟩
      cases hpoint.unique hother
      cases hstatement.symm.trans hstatement'
      exact heval'.unique heval
    · refine ⟨⟨.zero, []⟩, fun point statement evaluation hpoint hstatement heval => ?_⟩
      exact absurd ⟨point, statement, evaluation, hpoint, hstatement, heval⟩ hex
  choose results hresults using hresult
  exact ⟨results, hresults⟩

theorem Reaches.records (hyields : start.Yields scenario results) (h : start.Reaches scenario tick index point) :
    point.records.toList = start.records.toList ++ (List.range tick).flatMap (recordsOf scenario results) ++
      (recordsOf scenario results tick).take index := by
  induction h with
  | first => simp [beginTick]
  | @statement tick index statement point after h hstatement hrun ih =>
    obtain ⟨evaluation, patterns, world, heval, rfl⟩ := exists_of_runStatement hrun
    have hresult : results tick index = evaluation :=
      hyields tick index point statement evaluation h hstatement ⟨_, _, heval⟩
    have hrecord : (recordsOf scenario results tick)[index]? =
        some ⟨tick, statement.name index, evaluation⟩ := by
      simp [recordsOf, hstatement, hresult]
    simp [pointBehind, ih, List.take_add_one, hrecord]
  | @tick tick point h ih => simp [beginTick, ih, ← length_recordsOf scenario results tick, List.range_succ]

theorem Ends.records {ticks : Nat} (hyields : start.Yields scenario results)
    (h : start.Ends scenario ticks final) : final.records.toList =
      start.records.toList ++ (List.range ticks).flatMap (recordsOf scenario results) := by
  have hrecords := h.reaches.records hyields
  simpa [beginTick] using hrecords

theorem Reaches.evaluates (hyields : start.Yields scenario results) (h : start.Reaches scenario tick index point)
    {earlier : Nat} (hearlier : earlier < index) : ∃ statement before,
      scenario.statements[earlier]? = some statement ∧ start.Reaches scenario tick earlier before ∧
        before.Evaluates scenario statement (results tick earlier) := by
  induction h with
  | first | tick => exact absurd hearlier (Nat.not_lt_zero earlier)
  | @statement tick index statement point after h hstatement hrun ih =>
    rcases Nat.lt_succ_iff_lt_or_eq.1 hearlier with hlt | rfl
    · exact ih hlt
    · obtain ⟨evaluation, patterns, world, heval, -⟩ := exists_of_runStatement hrun
      have hresult : results tick earlier = evaluation :=
        hyields tick earlier point statement evaluation h hstatement ⟨_, _, heval⟩
      exact ⟨statement, point, hstatement, h, hresult ▸ ⟨_, _, heval⟩⟩

/-- A run that does not crash has come to each statement at each tick, and has records of all of them. -/
theorem run_results {ticks : Nat} (hrun : runTicks scenario 0 ticks start = .ok () final)
    (hyields : start.Yields scenario results) :
    (∀ tick < ticks, ∀ index statement, scenario.statements[index]? = some statement →
      ∃ point, start.Reaches scenario tick index point ∧
        point.Evaluates scenario statement (results tick index)) ∧
    final.records.toList = start.records.toList ++ (List.range ticks).flatMap (recordsOf scenario results) := by
  refine ⟨fun tick htick index statement hstatement => ?_, (ends_of_run hrun).records hyields⟩
  have hindex : index < scenario.size := (List.getElem?_eq_some_iff.1 hstatement).1
  obtain ⟨last, hlast⟩ := exists_reaches hrun htick (Nat.le_refl scenario.size)
  obtain ⟨other, point, hother, hpoint, heval⟩ := hlast.evaluates hyields hindex
  cases hstatement.symm.trans hother
  exact ⟨point, hpoint, heval⟩

end

end Simulation

end ScenarioScript
