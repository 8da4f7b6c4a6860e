import ScenarioScript.Proofs.Command.Output
import ScenarioScript.Proofs.Scenario.Literals
import ScenarioScript.Proofs.Simulation.Finite

/-!
# The numbers of the command

From finite definitions and a text of finite literals come finite numbers only, unless a label makes a
number of a text.
-/

namespace ScenarioScript

namespace Command

section
variable {engine : PatternEngine} {arguments : Arguments} (text file component : String)

theorem start_isFinite (job : Job) (hdefines : ∀ define ∈ arguments.defines, define.2.isFinite) :
    (job.start engine arguments).IsFinite := by
  obtain ⟨hhost, -, hrecords⟩ := start_fields engine job arguments
  constructor
  · intro name x hx
    rw [hhost] at hx
    exact hdefines (name, x) (NameTable.mem_of_get?_ofList hx)
  · rw [hrecords]
    simp

/-- At all points of a run all globals and all numbers among the results are finite, just if no label stands
before a text that spells another number. -/
theorem simulate_isFinite_iff (hdefines : ∀ define ∈ arguments.defines, define.2.isFinite)
    (hticks : arguments.ticks < tickLimit) :
    let job := Job.ofText text file component
    (∀ tick < arguments.ticks, ∀ index point,
      (job.start engine arguments).Reaches job.scenario tick index point → point.IsFinite) ↔
        (job.start engine arguments).LabelsFinite job.scenario arguments.ticks := by
  intro job
  have hlookup (host : Host Unit) (name : String) :
      (job.start engine arguments).evaluator.lookup? host name = host.global? name := by
    rw [(start_fields engine job arguments).2.1]
    rfl
  have hliterals (statement : Statement) (hstatement : statement ∈ job.scenario.statements) :
      ∀ value ∈ statement.expr.literals, value.IsFinite :=
    statement.expr.isFinite_of_mem_literals (Scenario.printable_of_load text file statement hstatement)
  constructor
  · exact Simulation.labelsFinite_of_isFinite
  · intro hlabels tick htick index point hpoint
    exact hpoint.isFinite (start_isReady engine job arguments) hlookup hliterals (start_isFinite job hdefines)
      (Nat.le_of_lt hticks) hlabels htick

/-- A label makes a number of the text `7`. Division by zero and an overflow are made zero. -/
theorem simulate_isFinite_iff_text :
    let arguments : Arguments := ⟨[("z", Number.ofNat 0)], 2, false, .inline ""⟩
    let job := Job.ofText "x: '7'; y: x / z + 1e300 * 1e300; y + tick" "s.scn" "s"
    (∀ define ∈ arguments.defines, define.2.isFinite) ∧ arguments.ticks < tickLimit ∧
      ∀ tick < arguments.ticks, ∀ index point,
        (job.start .words arguments).Reaches job.scenario tick index point → point.IsFinite := by
  intro arguments job
  have hdefines : ∀ define ∈ arguments.defines, define.2.isFinite := by decide +kernel
  have hticks : arguments.ticks < tickLimit := by decide
  have hends : endPasses .words arguments job fun final =>
      final.records.toList.all fun record => decide record.evaluation.value.SpellsFinite := by decide +kernel
  obtain ⟨final, hrun, hrecords⟩ := exists_of_endPasses hends
  simp only [List.all_eq_true, decide_eq_true_eq] at hrecords
  have hlabels := Simulation.labelsFinite_of_records hrun hrecords
  exact ⟨hdefines, hticks, (simulate_isFinite_iff _ _ _ hdefines hticks).2 hlabels⟩

/-- The label `x` publishes infinity, and `y` is that number. -/
theorem not_simulate_isFinite :
    let arguments : Arguments := ⟨[], 1, false, .inline "x: 'inf'; y: x"⟩
    let job := Job.ofText "x: 'inf'; y: x" inlineFile inlineComponent
    ∃ point, (job.start .words arguments).Reaches job.scenario 0 2 point ∧
      (∃ x, point.world.host.global? "x" = some x ∧ x.isFinite = false) ∧
      ∃ record ∈ point.records, ∃ x, record.evaluation.value = .number x ∧ x.isFinite = false := by
  intro arguments job
  have hsize : job.scenario.size = 2 := by decide +kernel
  have hends : endPasses .words arguments job fun final => (final.world.host.global? "x").any fun x =>
      !x.isFinite && final.records.any fun record => decide (record.evaluation.value = .number x) := by
    decide +kernel
  obtain ⟨final, hrun, hfinal⟩ := exists_of_endPasses hends
  simp only [Bool.and_eq_true, Bool.not_eq_true', Option.any_eq_true, Array.any_eq_true', decide_eq_true_eq] at hfinal
  obtain ⟨x, hx, hinfinite, record, hrecord, hvalue⟩ := hfinal
  have hpoint : (job.start .words arguments).Reaches job.scenario 0 job.scenario.size final :=
    Simulation.ends_of_run hrun
  exact ⟨final, hsize ▸ hpoint, ⟨x, hx, hinfinite⟩, record, hrecord, x, hvalue, hinfinite⟩

end

end Command

end ScenarioScript
