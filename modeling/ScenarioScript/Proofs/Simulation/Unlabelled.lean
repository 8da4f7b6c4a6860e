import ScenarioScript.Proofs.Simulation.Globals

/-!
# Statements without a label

A statement without a label writes no global. What it leaves behind is in the cache and in the log, and these
make no difference to results. So such statements can be removed, and the others come out as before.
-/

namespace ScenarioScript

/-! ## Removal -/

namespace Scenario

/-- The statements that are kept, each with the index that it has among all. -/
def keptEntries (scenario : Scenario) (kept : Nat → Bool) : List (Statement × Nat) :=
  scenario.statements.zipIdx.filter fun entry => kept entry.2

/-- The scenario with the statements of some indices. -/
def keep (scenario : Scenario) (kept : Nat → Bool) : Scenario :=
  { scenario with statements := (scenario.keptEntries kept).map Prod.fst }

/-- How many statements before an index are kept. So it is the index that a statement has afterwards. -/
def keptBefore (scenario : Scenario) (kept : Nat → Bool) (index : Nat) : Nat :=
  ((scenario.statements.zipIdx.take index).filter fun entry => kept entry.2).length

section
variable {scenario : Scenario} {kept : Nat → Bool} {index : Nat} {statement : Statement}

theorem getElem?_zipIdx (hstatement : scenario.statements[index]? = some statement) :
    scenario.statements.zipIdx[index]? = some (statement, index) := by
  rw [List.getElem?_zipIdx, hstatement, Nat.zero_add]
  rfl

theorem keptBefore_succ (hstatement : scenario.statements[index]? = some statement) :
    scenario.keptBefore kept (index + 1) =
      if kept index then scenario.keptBefore kept index + 1 else scenario.keptBefore kept index := by
  unfold keptBefore
  rw [List.take_add_one, getElem?_zipIdx hstatement, List.filter_append, List.length_append]
  cases hkept : kept index <;> simp [hkept]

theorem keptBefore_size (scenario : Scenario) (kept : Nat → Bool) :
    scenario.keptBefore kept scenario.size = (scenario.keep kept).size := by
  have hall : scenario.statements.zipIdx.take scenario.size = scenario.statements.zipIdx := by
    rw [Scenario.size, ← List.length_zipIdx, List.take_length]
  unfold keptBefore
  rw [hall]
  exact (List.length_map _).symm

theorem getElem?_keep (hstatement : scenario.statements[index]? = some statement) (hkept : kept index = true) :
    (scenario.keep kept).statements[scenario.keptBefore kept index]? = some statement := by
  -- the entries that are kept of those before come first, and this one is the next
  have hsplit : scenario.keptEntries kept =
      ((scenario.statements.zipIdx.take (index + 1)).filter fun entry => kept entry.2) ++
        (scenario.statements.zipIdx.drop (index + 1)).filter fun entry => kept entry.2 := by
    rw [← List.filter_append, List.take_append_drop]
    rfl
  have hfront : ((scenario.statements.zipIdx.take (index + 1)).filter fun entry => kept entry.2) =
      ((scenario.statements.zipIdx.take index).filter fun entry => kept entry.2) ++ [(statement, index)] := by
    rw [List.take_add_one, getElem?_zipIdx hstatement, List.filter_append]
    simp [hkept]
  have hentry : (scenario.keptEntries kept)[scenario.keptBefore kept index]? = some (statement, index) := by
    unfold keptBefore
    rw [hsplit, hfront, List.append_assoc, List.getElem?_append_right (Nat.le_refl _), Nat.sub_self]
    rfl
  rw [keep, List.getElem?_map, hentry]
  rfl

end

end Scenario

namespace Simulation

section
variable {start point other after : Simulation} {scenario : Scenario} {kept : Nat → Bool} {tick position index : Nat}
  {statement : Statement} {evaluation : Evaluation}

/-! ## One statement -/

theorem host_publish (label : Option String) (number : Float) {world otherWorld : World Unit}
    (h : otherWorld.host = world.host) :
    (RunMode.simulation.publish label number otherWorld).host =
      (RunMode.simulation.publish label number world).host := by
  cases label with
  | none => exact h
  | some name => exact congrArg (·.setGlobal name number) h

/-- Whatever has been run in either of two scenarios from the same start, on the same host a statement comes out
the same. -/
theorem Evaluates.of_host (hready : start.evaluator.IsReady) (hpoint : start.Reaches scenario tick index point)
    (hother : start.Reaches (scenario.keep kept) tick position other) (hhost : other.world.host = point.world.host)
    (h : point.Evaluates scenario statement evaluation) :
    other.Evaluates (scenario.keep kept) statement evaluation := by
  obtain ⟨hpointReady, hevaluator⟩ := hpoint.evaluator hready
  obtain ⟨hotherReady, hotherEvaluator⟩ := hother.evaluator hready
  have hsame : point.evaluator.SameOn Eq statement.expr.variableNames statement.expr.functionNames other.evaluator := by
    constructor
    · rw [hevaluator, hotherEvaluator]
    · rintro name - host _ rfl
      rw [hevaluator, hotherEvaluator]
      rfl
    · intro name _
      rw [hpointReady.functions, hotherReady.functions]
    · intro name _ operation hfound
      exact FunctionTable.simulation_seesOnly_eq (hpointReady.functions ▸ hfound)
  obtain ⟨_, _, heval⟩ := h
  obtain ⟨_, _, _, found, -, -, -, -, hresult⟩ :=
    hsame.evaluateAt hpointReady.isValid hotherReady.isValid hhost.symm (scenario.origin statement)
  rw [heval] at hresult
  rcases hresult with ⟨result, hr, hr'⟩ | ⟨crash, hr, -⟩
  · cases hr
    exact ⟨_, _, hr'⟩
  · cases hr

theorem Evaluates.exists_runStatement (hready : point.evaluator.IsReady)
    (h : point.Evaluates scenario statement evaluation) :
    ∃ after, runStatement scenario tick index statement point = .ok () after ∧
      after.world.host = (RunMode.simulation.publish statement.label evaluation.value.toNumber point.world).host := by
  obtain ⟨evaluator, found, heval⟩ := h
  obtain ⟨hhost, -, -⟩ := hready.evaluateAt heval
  have hrun : runStatement scenario tick index statement point =
      .ok () ⟨RunMode.simulation.publish statement.label evaluation.value.toNumber found, evaluator,
        point.records.push ⟨tick, statement.name index, evaluation⟩⟩ := by
    rw [runStatement_eq, heval]
  exact ⟨_, hrun, host_publish _ _ hhost⟩

/-! ## Runs -/

theorem Reaches.keep (hready : start.evaluator.IsReady)
    (hunlabelled : ∀ index statement, scenario.statements[index]? = some statement → kept index = false →
      statement.label = none)
    (h : start.Reaches scenario tick index point) :
    ∃ other, start.Reaches (scenario.keep kept) tick (scenario.keptBefore kept index) other ∧
      other.world.host = point.world.host := by
  induction h with
  | first => exact ⟨_, .first, rfl⟩
  | @statement tick index statement point after h hstatement hrun ih =>
    obtain ⟨other, hother, hhost⟩ := ih
    obtain ⟨evaluation, patterns, world, heval, rfl⟩ := exists_of_runStatement hrun
    obtain ⟨hworld, -, -⟩ := (h.evaluator hready).1.evaluateAt heval
    have hafter : (RunMode.simulation.publish statement.label evaluation.value.toNumber other.world).host =
        (point.pointBehind tick index statement evaluation patterns world).world.host :=
      host_publish _ _ (hhost.trans hworld.symm)
    rw [Scenario.keptBefore_succ hstatement]
    cases hkept : kept index with
    | true =>
      have hpoint : point.Evaluates scenario statement evaluation := ⟨_, _, heval⟩
      have hevaluates := hpoint.of_host hready h hother hhost
      obtain ⟨otherAfter, hotherRun, hotherAfter⟩ := hevaluates.exists_runStatement (hother.evaluator hready).1
      exact ⟨otherAfter, hother.statement (Scenario.getElem?_keep hstatement hkept) hotherRun, hotherAfter.trans hafter⟩
    | false =>
      refine ⟨other, hother, ?_⟩
      rwa [hunlabelled index statement hstatement hkept] at hafter
  | @tick tick point h ih =>
    obtain ⟨other, hother, hhost⟩ := ih
    rw [Scenario.keptBefore_size] at hother
    exact ⟨_, hother.tick, congrArg (·.beginTick (tick + 1)) hhost⟩

theorem Ends.keep {ticks : Nat} (hready : start.evaluator.IsReady)
    (hunlabelled : ∀ index statement, scenario.statements[index]? = some statement → kept index = false →
      statement.label = none)
    (h : start.Ends scenario ticks point) : ∃ other, start.Ends (scenario.keep kept) ticks other := by
  cases ticks with
  | zero => exact ⟨start, rfl⟩
  | succ tick =>
    obtain ⟨other, hother, -⟩ := Reaches.keep hready hunlabelled h
    rw [Scenario.keptBefore_size] at hother
    exact ⟨other, hother⟩

theorem Reaches.results_keep {results otherResults : Nat → Nat → Evaluation} (hready : start.evaluator.IsReady)
    (hunlabelled : ∀ index statement, scenario.statements[index]? = some statement → kept index = false →
      statement.label = none)
    (hyields : start.Yields scenario results) (hotherYields : start.Yields (scenario.keep kept) otherResults)
    (h : start.Reaches scenario tick scenario.size point) (hstatement : scenario.statements[index]? = some statement)
    (hkept : kept index = true) : otherResults tick (scenario.keptBefore kept index) = results tick index := by
  have hindex : index < scenario.size := (List.getElem?_eq_some_iff.1 hstatement).1
  obtain ⟨found, before, hfound, hbefore, heval⟩ := h.evaluates hyields hindex
  cases hstatement.symm.trans hfound
  obtain ⟨otherBefore, hotherBefore, hhost⟩ := hbefore.keep hready hunlabelled
  exact hotherYields _ _ _ _ _ hotherBefore (Scenario.getElem?_keep hstatement hkept)
    (heval.of_host hready hbefore hotherBefore hhost)

end

end Simulation

end ScenarioScript
