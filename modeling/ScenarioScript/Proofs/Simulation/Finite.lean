import ScenarioScript.Proofs.Evaluator.Finite
import ScenarioScript.Proofs.Simulation.Globals

/-!
# Finite numbers in a simulation

A number goes from a result through a label into a global and from there into later results. Results
that are numbers are finite. But a label makes a number of a text too, and a text can spell infinity.
-/

namespace ScenarioScript

/-- If the value is a text that spells a number, the number is finite. -/
def Value.SpellsFinite : Value → Prop
  | number _ => True
  | text s => (spelledNumber? s).all Float.isFinite

instance (value : Value) : Decidable value.SpellsFinite := by
  unfold Value.SpellsFinite
  cases value <;> exact inferInstance

theorem Value.isFinite_toNumber {value : Value} (h : value.IsFinite) :
    value.toNumber.isFinite ↔ value.SpellsFinite := by
  cases value with
  | number x => exact iff_of_true h trivial
  | text s =>
    change ((spelledNumber? s).getD (Number.ofNat 0)).isFinite ↔ (spelledNumber? s).all Float.isFinite
    cases spelledNumber? s with
    | some x => simp
    | none =>
      have hzero : (Number.ofNat 0).isFinite := isFinite_zero
      simpa using hzero

namespace Simulation

/-- All globals, and all results so far that are numbers, are finite. -/
structure IsFinite (point : Simulation) : Prop where
  global : ∀ name x, point.world.host.global? name = some x → x.isFinite
  record : ∀ record ∈ point.records, record.evaluation.value.IsFinite

/-- Within some ticks, no statement with a label results in a text that spells a number that is not finite. -/
def LabelsFinite (start : Simulation) (scenario : Scenario) (ticks : Nat) : Prop :=
  ∀ tick < ticks, ∀ index point statement label evaluation, start.Reaches scenario tick index point →
    scenario.statements[index]? = some statement → statement.label = some label →
      point.Evaluates scenario statement evaluation → evaluation.value.SpellsFinite

section
variable {start point final : Simulation} {scenario : Scenario} {ticks tick index : Nat}

theorem labelsFinite_of_records (hrun : runTicks scenario 0 ticks start = .ok () final)
    (hrecords : ∀ record ∈ final.records.toList, record.evaluation.value.SpellsFinite) :
    start.LabelsFinite scenario ticks := by
  intro tick htick index point statement label evaluation hpoint hstatement _ heval
  obtain ⟨results, hyields⟩ := start.exists_yields scenario
  rw [(run_results hrun hyields).2] at hrecords
  have hresult := hyields tick index point statement evaluation hpoint hstatement heval
  have hrecord : ⟨tick, statement.name index, evaluation⟩ ∈ recordsOf scenario results tick := by
    apply List.mem_iff_getElem?.2
    exact ⟨index, by simp [recordsOf, hstatement, hresult]⟩
  refine hrecords _ (List.mem_append_right _ (List.mem_flatMap.2 ⟨tick, ?_, hrecord⟩))
  exact List.mem_range.2 htick

/-- A published number is read by the next statements, so it has to be finite itself. -/
theorem labelsFinite_of_isFinite
    (h : ∀ tick < ticks, ∀ index point, start.Reaches scenario tick index point → point.IsFinite) :
    start.LabelsFinite scenario ticks := by
  intro tick htick index point statement label evaluation hpoint hstatement hlabel heval
  obtain ⟨evaluator, world, heval⟩ := heval
  have hrun := runStatement_eq scenario tick index statement point
  rw [heval] at hrun
  have hafter := h tick htick (index + 1) _ (hpoint.statement hstatement hrun)
  have hvalue : evaluation.value.IsFinite := hafter.record ⟨tick, statement.name index, evaluation⟩ (by simp)
  rw [← Value.isFinite_toNumber hvalue]
  apply hafter.global label
  rw [global?_publish, if_pos hlabel]

theorem IsFinite.beginTick {tick : Nat} (h : point.IsFinite) (htick : tick < 2 ^ 64) :
    (point.beginTick tick).IsFinite where
  global name x hx := by
    rw [global?_beginTick] at hx
    split at hx
    · cases hx
      exact Number.isFinite_ofNat htick
    · exact h.global name x hx
  record := h.record

variable (hready : start.evaluator.IsReady)
  (hlookup : ∀ host name, start.evaluator.lookup? host name = host.global? name)
  (hliterals : ∀ statement ∈ scenario.statements, ∀ value ∈ statement.expr.literals, value.IsFinite)
include hready hlookup hliterals

theorem IsFinite.runStatement {statement : Statement} {after : Simulation} (h : point.IsFinite)
    (hpoint : start.Reaches scenario tick index point) (hstatement : scenario.statements[index]? = some statement)
    (hspells : ∀ label evaluation, statement.label = some label → point.Evaluates scenario statement evaluation →
      evaluation.value.SpellsFinite)
    (hrun : runStatement scenario tick index statement point = .ok () after) : after.IsFinite := by
  obtain ⟨evaluation, patterns, world, heval, rfl⟩ := exists_of_runStatement hrun
  obtain ⟨hpointReady, hevaluator⟩ := hpoint.evaluator hready
  obtain ⟨hhost, -, -⟩ := hpointReady.evaluateAt heval
  have hglobals (name : String) (x : Float) (hx : point.evaluator.lookup? point.world.host name = some x) :
      x.isFinite := by
    rw [hevaluator] at hx
    exact h.global name x ((hlookup _ name).symm.trans hx)
  have hvalue : evaluation.value.IsFinite :=
    Evaluator.evaluateAt_isFinite (hliterals statement (List.mem_of_getElem? hstatement)) hglobals
      (hpointReady.functions ▸ FunctionTable.simulation_keeps) heval
  constructor
  · intro name x hx
    unfold pointBehind at hx
    rw [global?_publish] at hx
    split at hx
    · rename_i hlabel
      cases hx
      exact (Value.isFinite_toNumber hvalue).2 (hspells name evaluation hlabel ⟨_, _, heval⟩)
    · rw [hhost] at hx
      exact h.global name x hx
  · intro record hrecord
    rcases Array.mem_push.1 hrecord with hrecord | rfl
    · exact h.record record hrecord
    · exact hvalue

theorem Reaches.isFinite (hstart : start.IsFinite) (hticks : ticks ≤ 2 ^ 64)
    (hlabels : start.LabelsFinite scenario ticks) (h : start.Reaches scenario tick index point) (htick : tick < ticks) :
    point.IsFinite := by
  induction h with
  | first => exact hstart.beginTick (by omega)
  | @statement tick index statement point after h hstatement hrun ih =>
    exact (ih htick).runStatement hready hlookup hliterals h hstatement
      (fun label evaluation => hlabels tick htick index point statement label evaluation h hstatement) hrun
  | tick h ih => exact (ih (Nat.lt_of_succ_lt htick)).beginTick (by omega)

end

end Simulation

end ScenarioScript
