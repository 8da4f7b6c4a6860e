import Mathlib.Data.List.Basic
import ScenarioScript.Proofs.Command.Output
import ScenarioScript.Proofs.Simulation.Timeless

/-!
# Ticks of the command

What the ticks of one run have in common.
-/

namespace ScenarioScript

namespace Command

section
variable {engine : PatternEngine} {arguments : Arguments} {job : Job} {final : Simulation}

/-- If no statement reads the tick, its own label or a later one, then each has the same value and the same
failures at every tick. -/
theorem simulate_timeless (htimeless : job.scenario.IsTimeless) (hrun : simulate engine arguments job = .ok () final) :
    ∃ results : Nat → Evaluation,
      (∀ tick < arguments.ticks, ∀ index statement, job.scenario.statements[index]? = some statement →
        ∃ point, (job.start engine arguments).Reaches job.scenario tick index point ∧
          point.Evaluates job.scenario statement (results index)) ∧
      final.records.toList = (List.range arguments.ticks).flatMap fun tick =>
        job.scenario.statements.mapIdx fun index statement => ⟨tick, statement.name index, results index⟩ := by
  rw [simulate_eq] at hrun
  obtain ⟨results, hyields⟩ := (job.start engine arguments).exists_yields job.scenario
  obtain ⟨hevaluates, hrecords⟩ := Simulation.run_results hrun hyields
  have hresults (tick : Nat) (htick : tick < arguments.ticks) (index : Nat) (hindex : index < job.scenario.size) :
      results tick index = results 0 index := by
    obtain ⟨point, hpoint⟩ := Simulation.exists_reaches hrun htick (Nat.le_refl job.scenario.size)
    obtain ⟨first, hfirst⟩ := Simulation.exists_reaches hrun (Nat.zero_lt_of_lt htick) (Nat.le_refl job.scenario.size)
    exact hpoint.results_eq htimeless (start_isReady engine job arguments) hyields hfirst hindex
  refine ⟨results 0, fun tick htick index statement hstatement => ?_, ?_⟩
  · obtain ⟨point, hpoint, heval⟩ := hevaluates tick htick index statement hstatement
    rw [hresults tick htick index (List.getElem?_eq_some_iff.1 hstatement).1] at heval
    exact ⟨point, hpoint, heval⟩
  · rw [hrecords, (start_fields engine job arguments).2.2]
    apply List.flatMap_congr
    intro tick htick
    refine List.mapIdx_eq_mapIdx_iff.2 fun index hindex => ?_
    rw [hresults tick (List.mem_range.1 htick) index hindex]

/-- The invalid pattern is only reported at the first tick, but that makes no difference to the results. -/
theorem simulate_timeless_chain :
    let arguments : Arguments := ⟨[("x", Number.ofNat 2), ("ego.position", Number.ofNat 5)], 2, false, .inline ""⟩
    let job := Job.ofText "a: x + 1; b: distanceTo(a) + ('p' =/ '('); f(b)" "s.scn" "s"
    job.scenario.IsTimeless ∧ ∃ final, ∃ results : Nat → Evaluation,
      simulate .words arguments job = .ok () final ∧ final.world.log.size = 3 ∧
      final.records.toList = (List.range 2).flatMap fun tick =>
        job.scenario.statements.mapIdx fun index statement => ⟨tick, statement.name index, results index⟩ := by
  intro arguments job
  have htimeless : job.scenario.IsTimeless := by decide +kernel
  have hends : endPasses .words arguments job fun final => final.world.log.size == 3 := by decide +kernel
  obtain ⟨final, hrun, hlog⟩ := exists_of_endPasses hends
  obtain ⟨results, -, hrecords⟩ := simulate_timeless htimeless hrun
  exact ⟨htimeless, final, results, hrun, by simpa using hlog, hrecords⟩

end

end Command

end ScenarioScript
