import ScenarioScript.Proofs.Command.Output
import ScenarioScript.Proofs.Scenario.Places
import ScenarioScript.Proofs.Simulation.Hush

/-!
# The quiet command

A quiet command does what the other does and only keeps the diagnostics for itself. What the other writes are the
errors of the text and then the problems of the evaluations, each with its place.
-/

namespace ScenarioScript

namespace Command

/-! ## Runs of a job -/

section
variable {engine : PatternEngine} {arguments : Arguments} {read : String → Except ReadFault ByteArray}
  {source : Source} {job : Job}

theorem execute_of_error {error : ReadError} (hread : readSource read arguments.source = .error error) :
    execute engine arguments read = .ok ⟨.failure, "", errorLine error.message⟩ := by
  unfold execute
  rw [hread]

theorem execute_of_ok (hread : readSource read arguments.source = .ok job) :
    execute engine arguments read =
      match Simulation.runTicks job.scenario 0 arguments.ticks (job.start engine arguments) with
      | .ok _ final => .ok (.ofSimulation arguments job final)
      | .error crash _ => .error crash := by
  unfold execute
  rw [hread]
  rfl

theorem exists_text (hread : readSource read source = .ok job) :
    ∃ text component, job = .ofText text job.scenario.file component := by
  cases source with
  | inline text =>
    cases hread
    exact ⟨text, inlineComponent, rfl⟩
  | file path =>
    change (readText read path >>= fun text => .ok (.ofText text path (stem path))) = .ok job at hread
    cases htext : readText read path with
    | ok text =>
      rw [htext] at hread
      cases hread
      exact ⟨text, stem path, rfl⟩
    | error error =>
      rw [htext] at hread
      cases hread

theorem ofSimulation_hush (arguments : Arguments) (isQuiet : Bool) (job : Job) (final : Simulation) :
    Report.ofSimulation { arguments with isQuiet } job final.hush =
      { Report.ofSimulation arguments job final with errors := "" } := rfl

theorem start_quiet (engine : PatternEngine) (job : Job) (arguments : Arguments) :
    job.start engine { arguments with isQuiet := true } =
      (job.start engine { arguments with isQuiet := false }).hush := by
  rw [start_eq, start_eq, Simulation.hush]
  simp [World.add, Job.evaluator]

end

/-! ## What is written -/

/-- What is written of an error in the text. -/
def syntaxLine (error : ParseError) : String :=
  "simexpr: " ++ error.file ++ ":" ++ toString error.line ++ ": " ++ error.summary ++ "\n"

/-- What is written of a problem in a statement. -/
def Job.problemLine (job : Job) (statement : Statement) (problem : Problem) : String :=
  "simexpr: " ++ job.scenario.file ++ ":" ++ toString statement.line ++ ": " ++
    (job.component ++ ": " ++ problem.message) ++ "\n"

section
variable {engine : PatternEngine} {arguments : Arguments} {job : Job} {final : Simulation}
  {problems : Nat → Nat → List Problem}

theorem errorLine_ofParseError (error : ParseError) :
    errorLine (Diagnostic.ofParseError error).text = syntaxLine error := by
  simp [errorLine, syntaxLine, Diagnostic.text, Diagnostic.ofParseError, String.append_assoc]

theorem errorLine_placedAt (job : Job) (statement : Statement) (problem : Problem) :
    errorLine ((Diagnostic.about job.component problem).placedAt (job.scenario.origin statement)).text =
      job.problemLine statement problem := by
  simp [errorLine, Job.problemLine, Diagnostic.text, Diagnostic.about, Diagnostic.placedAt, Scenario.origin,
    String.append_assoc]

/-- A run that is not quiet writes the errors of the text and then all problems, tick by tick and statement by
statement. -/
theorem errors_of_run (hloud : arguments.isQuiet = false)
    (hrun : Simulation.runTicks job.scenario 0 arguments.ticks (job.start engine arguments) = .ok () final)
    (hencounters : (job.start engine arguments).Encounters job.scenario problems) :
    (Report.ofSimulation arguments job final).errors =
      String.join (job.errors.map syntaxLine ++ (List.range arguments.ticks).flatMap fun tick =>
        (job.scenario.statements.mapIdx fun index statement =>
          (problems tick index).map (job.problemLine statement)).flatten) := by
  have hevaluator := (start_fields engine job arguments).2.1
  have hsink : (job.start engine arguments).evaluator.sink = .log := by
    rw [hevaluator, hloud]
    rfl
  have hcomponent : (job.start engine arguments).evaluator.component = job.component := by
    rw [hevaluator]
    rfl
  have hlog := (Simulation.ends_of_run hrun).log hsink (start_isReady engine job arguments) hencounters
  have hstart : (job.start engine arguments).world.log.toList = job.errors.map .ofParseError := by
    rw [start_eq, hloud]
    simp
  have htick (tick : Nat) : ((Simulation.reportsOf job.scenario job.component problems tick).flatten).map
      (fun diagnostic => errorLine diagnostic.text) = (job.scenario.statements.mapIdx fun index statement =>
        (problems tick index).map (job.problemLine statement)).flatten := by
    rw [List.map_flatten]
    congr 1
    apply List.ext_getElem?
    simp [Simulation.reportsOf, Function.comp_def, errorLine_placedAt]
  unfold Report.ofSimulation
  dsimp only
  rw [hlog, hstart, hcomponent, List.map_append, List.map_map, List.map_flatMap]
  simp only [htick, Function.comp_def, errorLine_ofParseError]

end

/-- Two runs that differ only in whether they are quiet have the same output and the same status, or crash at the
same statement of the same tick behind the same output. If there is no crash and the source can be read, then the
quiet one writes no errors, and the other writes a line for each error of the text, in the order of the text, and
then one for each problem of an evaluation, in the order in which they are met. -/
theorem execute_quiet (engine : PatternEngine) (arguments : Arguments) (read : String → Except ReadFault ByteArray) :
    let loud := { arguments with isQuiet := false }
    let quiet := { arguments with isQuiet := true }
    (∃ error, readSource read arguments.source = .error error ∧
      execute engine loud read = .ok ⟨.failure, "", errorLine error.message⟩ ∧
      execute engine quiet read = .ok ⟨.failure, "", errorLine error.message⟩) ∨
    ∃ job, readSource read arguments.source = .ok job ∧
      ((∃ report, ∃ problems : Nat → Nat → List Problem,
        execute engine loud read = .ok report ∧ execute engine quiet read = .ok { report with errors := "" } ∧
        (∃ text component places, job = .ofText text job.scenario.file component ∧
          places.Sublist (Token.ofText text job.scenario.file) ∧
          List.Forall₂ (fun place error => ∃ fault, error = ParseError.atToken fault (some place)) places job.errors) ∧
        (∀ tick < arguments.ticks, ∀ index statement, job.scenario.statements[index]? = some statement →
          ∃ point evaluation, (job.start engine loud).Reaches job.scenario tick index point ∧
            point.Meets job.scenario statement evaluation (problems tick index)) ∧
        report.errors = String.join (job.errors.map syntaxLine ++ (List.range arguments.ticks).flatMap fun tick =>
          (job.scenario.statements.mapIdx fun index statement =>
            (problems tick index).map (job.problemLine statement)).flatten)) ∨
      ∃ crash loudLast quietLast, ∃ tick < arguments.ticks, ∃ index,
        execute engine loud read = .error crash ∧ execute engine quiet read = .error crash ∧
        (job.start engine loud).CrashesAt job.scenario tick index crash loudLast ∧
        (job.start engine quiet).CrashesAt job.scenario tick index crash quietLast ∧
        quietLast.records = loudLast.records) := by
  intro loud quiet
  cases hread : readSource read arguments.source with
  | error error => exact .inl ⟨error, rfl, execute_of_error hread, execute_of_error hread⟩
  | ok job =>
    refine .inr ⟨job, rfl, ?_⟩
    have hloud : execute engine loud read = _ := execute_of_ok hread
    have hquiet : execute engine quiet read = _ := execute_of_ok hread
    have hstart : job.start engine quiet = (job.start engine loud).hush := start_quiet engine job arguments
    obtain ⟨outcome, last, hrun, hhush⟩ :=
      Simulation.hushes_runTicks job.scenario 0 arguments.ticks (job.start engine loud)
    rw [← hstart] at hhush
    rw [hrun] at hloud
    rw [hhush] at hquiet
    cases outcome with
    | ok _ =>
      obtain ⟨problems, hencounters, hmeets⟩ := Simulation.run_problems hrun
      obtain ⟨text, component, hjob⟩ := exists_text hread
      obtain ⟨places, hplaces, hall⟩ := Scenario.exists_errorPlaces text job.scenario.file
      refine .inl ⟨.ofSimulation loud job last, problems, hloud, hquiet.trans ?_, ?_, hmeets, ?_⟩
      · exact congrArg Except.ok (ofSimulation_hush loud true job last)
      · refine ⟨text, component, places, hjob, hplaces, ?_⟩
        rw [hjob]
        exact hall
      · exact errors_of_run rfl hrun hencounters
    | error crash =>
      obtain ⟨tick, htick, index, hcrash⟩ := Simulation.exists_crashesAt hrun
      exact .inr ⟨crash, last, last.hush, tick, htick, index, hloud, hquiet, hcrash, hstart ▸ hcrash.hush, rfl⟩

end Command

end ScenarioScript
