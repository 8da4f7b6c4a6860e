import ScenarioScript.Command.Run
import ScenarioScript.Proofs.Evaluator.Course
import ScenarioScript.Proofs.Simulation.Globals

/-!
# The output of the command

The command runs one simulation, which starts with the definitions as globals and with the errors of
the text in its log. Its output is made of the records of that simulation.
-/

namespace ScenarioScript

namespace Command

/-! ## The start -/

/-- Where the simulation of a job starts. -/
def Job.start (engine : PatternEngine) (job : Job) (arguments : Arguments) : Simulation :=
  job.errors.foldl (fun simulation error => simulation.report (.ofParseError error))
    (.start (.ofList arguments.defines) (job.evaluator engine arguments.isQuiet))

section
variable (engine : PatternEngine) (job : Job) (arguments : Arguments)

theorem simulate_eq :
    simulate engine arguments job =
      Simulation.runTicks job.scenario 0 arguments.ticks (job.start engine arguments) := rfl

theorem foldl_report (errors : List ParseError) (simulation : Simulation) :
    errors.foldl (fun simulation error => simulation.report (.ofParseError error)) simulation =
      { simulation with
        world := simulation.world.add
          (if simulation.evaluator.sink = .log then errors.map .ofParseError else []) } := by
  induction errors generalizing simulation with
  | nil => simp
  | cons error rest ih =>
    rw [List.foldl_cons, ih]
    unfold Simulation.report
    rw [Evaluator.report_eq, World.add_add]
    split <;> rfl

theorem start_eq : job.start engine arguments = ⟨World.add ⟨⟨.ofList arguments.defines, ()⟩, #[]⟩
    (if arguments.isQuiet then [] else job.errors.map .ofParseError), job.evaluator engine arguments.isQuiet, #[]⟩ := by
  unfold Job.start
  rw [foldl_report]
  cases arguments.isQuiet <;> rfl

theorem start_fields :
    (job.start engine arguments).world.host = ⟨.ofList arguments.defines, ()⟩ ∧
      (job.start engine arguments).evaluator = job.evaluator engine arguments.isQuiet ∧
      (job.start engine arguments).records = #[] := by
  rw [start_eq]
  exact ⟨rfl, rfl, rfl⟩

theorem start_isReady : (job.start engine arguments).evaluator.IsReady := by
  rw [(start_fields engine job arguments).2.1]
  exact ⟨rfl, PatternCache.isValid_empty⟩

theorem start_global? (name : String) :
    (job.start engine arguments).world.host.global? name = arguments.defines.reverse.lookup name := by
  rw [(start_fields engine job arguments).1]
  exact NameTable.get?_ofList arguments.defines name

end

/-- Whether the simulation of a job does not crash and ends as it should. -/
def endPasses (engine : PatternEngine) (arguments : Arguments) (job : Job) (check : Simulation → Bool) : Bool :=
  match simulate engine arguments job with
  | .ok _ final => check final
  | .error _ _ => false

theorem exists_of_endPasses {engine : PatternEngine} {arguments : Arguments} {job : Job} {check : Simulation → Bool}
    (h : endPasses engine arguments job check) :
    ∃ final, simulate engine arguments job = .ok () final ∧ check final := by
  unfold endPasses at h
  cases hrun : simulate engine arguments job with
  | ok _ final =>
    rw [hrun] at h
    exact ⟨final, rfl, h⟩
  | error crash after =>
    rw [hrun] at h
    cases h

/-! ## The output -/

section
variable {engine : PatternEngine} {argv : List String} {read : String → Except ReadFault ByteArray}
  {arguments : Arguments} {job : Job} {report : Report}

theorem exists_of_run (hparse : Arguments.parse argv = .ok arguments)
    (hread : readSource read arguments.source = .ok job) (hrun : run engine argv read = .ok report) :
    ∃ final, Simulation.runTicks job.scenario 0 arguments.ticks (job.start engine arguments) = .ok () final ∧
      report = .ofSimulation arguments job final := by
  unfold run at hrun
  rw [hparse] at hrun
  dsimp only at hrun
  unfold execute at hrun
  rw [hread] at hrun
  dsimp only at hrun
  rw [simulate_eq] at hrun
  cases hsimulate : Simulation.runTicks job.scenario 0 arguments.ticks (job.start engine arguments) with
  | ok _ final =>
    rw [hsimulate] at hrun
    cases hrun
    exact ⟨final, rfl, rfl⟩
  | error crash final =>
    rw [hsimulate] at hrun
    cases hrun

/-- The last writer of a global wins over the whole run. The output has a line for each evaluation, tick
by tick and in the order of the statements. -/
theorem run_lastWriter (hparse : Arguments.parse argv = .ok arguments)
    (hread : readSource read arguments.source = .ok job) (hrun : run engine argv read = .ok report) :
    ∃ results : Nat → Nat → Evaluation,
      (∀ tick < arguments.ticks, ∀ index statement, job.scenario.statements[index]? = some statement →
        ∃ point, (job.start engine arguments).Reaches job.scenario tick index point ∧
          point.Evaluates job.scenario statement (results tick index) ∧
          ∀ name, point.world.host.global? name =
            job.scenario.globalBefore (fun name => arguments.defines.reverse.lookup name) results tick index name) ∧
      report.output = String.join ((List.range arguments.ticks).flatMap fun tick =>
        job.scenario.statements.mapIdx fun index statement =>
          (if 1 < arguments.ticks then "[" ++ toString tick ++ "] " else "") ++
            statement.label.getD ("#" ++ toString (index + 1)) ++ " = " ++
            (results tick index).value.toText ++ "\n") := by
  obtain ⟨final, hticks, rfl⟩ := exists_of_run hparse hread hrun
  obtain ⟨results, hyields⟩ := (job.start engine arguments).exists_yields job.scenario
  obtain ⟨hevaluates, hrecords⟩ := Simulation.run_results hticks hyields
  have hready := start_isReady engine job arguments
  refine ⟨results, fun tick htick index statement hstatement => ?_, ?_⟩
  · obtain ⟨point, hpoint, heval⟩ := hevaluates tick htick index statement hstatement
    refine ⟨point, hpoint, heval, fun name => ?_⟩
    rw [hpoint.global? hready hyields, funext (start_global? engine job arguments)]
  · have hlines : final.records.toList = (List.range arguments.ticks).flatMap
        (Simulation.recordsOf job.scenario results) := by
      simpa [(start_fields engine job arguments).2.2] using hrecords
    unfold Report.ofSimulation unlines
    dsimp only
    rw [hlines, List.map_map, List.map_flatMap]
    simp only [Simulation.map_recordsOf, Function.comp_apply, Record.line, Statement.name, decide_eq_true_eq]

/-- The later definition of `x` counts until its label does, and a tick begins with its number in `tick`. -/
theorem run_lastWriter_shadowed :
    let argv := ["-t2", "-Dx=1", "-Dx=2", "-e", "x: x + tick; tick: 7; tick * 3"]
    let read (_ : String) : Except ReadFault ByteArray := .error .notFound
    ∃ arguments job report point, ∃ results : Nat → Nat → Evaluation,
      Arguments.parse argv = .ok arguments ∧ readSource read arguments.source = .ok job ∧
        run .words argv read = .ok report ∧
        report.output = "[0] x = 2\n[0] tick = 7\n[0] #3 = 21\n[1] x = 3\n[1] tick = 7\n[1] #3 = 21\n" ∧
        (job.start .words arguments).Reaches job.scenario 1 0 point ∧
        point.world.host.global? "x" = some (results 0 0).value.toNumber ∧
        point.world.host.global? "tick" = some (Number.ofNat 1) := by
  intro argv read
  have hruns : ((Arguments.parse argv).toOption.any fun arguments =>
      (readSource read arguments.source).toOption.any fun job =>
        decide (1 < arguments.ticks) && job.scenario.statements[0]?.isSome &&
          job.scenario.lastLabelled? "x" job.scenario.size == some 0 &&
          (run .words argv read).toOption.any fun report => report.output ==
            "[0] x = 2\n[0] tick = 7\n[0] #3 = 21\n[1] x = 3\n[1] tick = 7\n[1] #3 = 21\n") = true := by
    decide +kernel
  cases hparse : Arguments.parse argv with
  | error error => simp [hparse, Except.toOption] at hruns
  | ok arguments =>
    cases hread : readSource read arguments.source with
    | error error => simp [hparse, hread, Except.toOption] at hruns
    | ok job =>
      cases hrun : run .words argv read with
      | error crash => simp [hparse, hrun, Except.toOption] at hruns
      | ok report =>
        simp only [hparse, hread, hrun, Except.toOption, Option.any_some, Bool.and_eq_true, decide_eq_true_eq,
          beq_iff_eq] at hruns
        obtain ⟨⟨⟨hticks, hfirst⟩, hlabel⟩, houtput⟩ := hruns
        obtain ⟨statement, hstatement⟩ := Option.isSome_iff_exists.1 hfirst
        obtain ⟨results, hpoints, -⟩ := run_lastWriter hparse hread hrun
        obtain ⟨point, hpoint, -, hglobal⟩ := hpoints 1 hticks 0 statement hstatement
        refine ⟨arguments, job, report, point, results, rfl, hread, rfl, houtput, hpoint, ?_, ?_⟩
        · rw [hglobal]
          simp [Scenario.globalBefore, Scenario.lastLabelled?, Host.tickName, hlabel]
        · rw [hglobal]
          simp [Scenario.globalBefore, Scenario.lastLabelled?, Host.tickName]

end

end Command

end ScenarioScript
