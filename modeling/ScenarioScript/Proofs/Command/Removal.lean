import ScenarioScript.Proofs.Command.Output
import ScenarioScript.Proofs.Simulation.Unlabelled

/-!
# Removal of statements from a job

Statements without a label cannot influence the rest of a run.
-/

namespace ScenarioScript

namespace Command

def Job.keep (job : Job) (kept : Nat → Bool) : Job := { job with scenario := job.scenario.keep kept }

section
variable {engine : PatternEngine} {arguments : Arguments} {job : Job} {kept : Nat → Bool} {final : Simulation}

/-- If no statement that is removed has a label, then a run that does not crash does not crash without them either.
At every tick all others have the same values and the same failures, and behind it the globals are the same. -/
theorem simulate_keep
    (hunlabelled : ∀ index statement, job.scenario.statements[index]? = some statement → kept index = false →
      statement.label = none)
    (hrun : simulate engine arguments job = .ok () final) :
    ∃ otherFinal, ∃ results otherResults : Nat → Nat → Evaluation,
      simulate engine arguments (job.keep kept) = .ok () otherFinal ∧
      final.records.toList =
        (List.range arguments.ticks).flatMap (Simulation.recordsOf job.scenario results) ∧
      otherFinal.records.toList =
        (List.range arguments.ticks).flatMap (Simulation.recordsOf (job.scenario.keep kept) otherResults) ∧
      ∀ tick < arguments.ticks,
        (∀ index statement, job.scenario.statements[index]? = some statement → kept index = true →
          (job.scenario.keep kept).statements[job.scenario.keptBefore kept index]? = some statement ∧
          otherResults tick (job.scenario.keptBefore kept index) = results tick index) ∧
        ∃ point other, (job.start engine arguments).Reaches job.scenario tick job.scenario.size point ∧
          ((job.keep kept).start engine arguments).Reaches (job.scenario.keep kept) tick
            (job.scenario.keep kept).size other ∧
          other.world.host = point.world.host := by
  rw [simulate_eq] at hrun
  have hready := start_isReady engine job arguments
  have hrecords := (start_fields engine job arguments).2.2
  obtain ⟨results, hyields⟩ := (job.start engine arguments).exists_yields job.scenario
  obtain ⟨otherResults, hotherYields⟩ := (job.start engine arguments).exists_yields (job.scenario.keep kept)
  obtain ⟨otherFinal, hother⟩ := (Simulation.ends_of_run hrun).keep hready hunlabelled
  refine ⟨otherFinal, results, otherResults, hother.run, ?_, ?_, fun tick htick => ?_⟩
  · simpa [hrecords] using (Simulation.ends_of_run hrun).records hyields
  · simpa [hrecords] using hother.records hotherYields
  · obtain ⟨point, hpoint⟩ := Simulation.exists_reaches hrun htick (Nat.le_refl job.scenario.size)
    obtain ⟨other, hreaches, hhost⟩ := hpoint.keep hready hunlabelled
    rw [Scenario.keptBefore_size] at hreaches
    refine ⟨fun index statement hstatement hkept => ⟨Scenario.getElem?_keep hstatement hkept, ?_⟩, ?_⟩
    · exact hpoint.results_keep hready hunlabelled hyields hotherYields hstatement hkept
    · exact ⟨point, other, hpoint, hreaches, hhost⟩

end

/-- The removed statements have written into the log at the first tick and have filled the cache. -/
theorem simulate_keep_pattern :
    let arguments : Arguments := ⟨[("x", Number.ofNat 2)], 2, false, .inline ""⟩
    let job := Job.ofText "a: x + tick; 'p' =/ '('; b: a + 1; nope; b * 2" "s.scn" "s"
    let kept (index : Nat) : Bool := index != 1 && index != 3
    ∃ final otherFinal, ∃ results otherResults : Nat → Nat → Evaluation,
      simulate .words arguments job = .ok () final ∧ simulate .words arguments (job.keep kept) = .ok () otherFinal ∧
        final.world.log.size = 3 ∧ otherFinal.world.log.size = 0 ∧
        final.records.toList = (List.range 2).flatMap (Simulation.recordsOf job.scenario results) ∧
        otherFinal.records.toList =
          (List.range 2).flatMap (Simulation.recordsOf (job.scenario.keep kept) otherResults) ∧
        otherResults 1 2 = results 1 4 ∧
        ∃ point other, (job.start .words arguments).Reaches job.scenario 1 job.scenario.size point ∧
          ((job.keep kept).start .words arguments).Reaches (job.scenario.keep kept) 1
            (job.scenario.keep kept).size other ∧
          other.world.host = point.world.host := by
  intro arguments job kept
  have hends : endPasses .words arguments job fun final => final.world.log.size == 3 := by decide +kernel
  have hkeeps : endPasses .words arguments (job.keep kept) fun final => final.world.log.size == 0 := by decide +kernel
  have hlabels : ∀ entry ∈ job.scenario.statements.zipIdx, kept entry.2 = false → entry.1.label = none := by
    decide +kernel
  have hlast : job.scenario.statements[4]?.isSome := by decide +kernel
  have hindex : job.scenario.keptBefore kept 4 = 2 := by decide +kernel
  have hunlabelled (index : Nat) (statement : Statement)
      (hstatement : job.scenario.statements[index]? = some statement) : kept index = false → statement.label = none :=
    hlabels (statement, index) (List.mem_zipIdx_iff_getElem?.2 hstatement)
  obtain ⟨final, hrun, hlog⟩ := exists_of_endPasses hends
  obtain ⟨otherFinal, results, otherResults, hother, hrecords, hotherRecords, hticks⟩ := simulate_keep hunlabelled hrun
  obtain ⟨hresults, hpoints⟩ := hticks 1 (by decide)
  obtain ⟨statement, hstatement⟩ := Option.isSome_iff_exists.1 hlast
  have hotherLog : otherFinal.world.log.size = 0 := by
    unfold endPasses at hkeeps
    rw [hother] at hkeeps
    simpa using hkeeps
  refine ⟨final, otherFinal, results, otherResults, hrun, hother, by simpa using hlog, hotherLog, hrecords,
    hotherRecords, ?_, hpoints⟩
  rw [← (hresults 4 statement hstatement rfl).2, hindex]

end Command

end ScenarioScript
