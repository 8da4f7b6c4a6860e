import ScenarioScript.Proofs.Command.Quiet

/-!
# The status of the command

The status tells wrong arguments from failures. A failure is a file that is no text, an error in the text or a call
that fails at some tick. No other problem of an evaluation makes one.
-/

namespace ScenarioScript

namespace Command

/-! ## What fails -/

/-- The source is a file that cannot be read as a text. -/
def Source.IsUnreadable (source : Source) (read : String → Except ReadFault ByteArray) : Prop :=
  ∃ path, source = .file path ∧ ∀ content text, read path = .ok content → String.fromUTF8? content ≠ some text

section
variable {read : String → Except ReadFault ByteArray} {source : Source} {arguments : Arguments} {job : Job}
  {final : Simulation} {results : Nat → Nat → Evaluation}

theorem readText_eq_ok_iff {path text : String} :
    readText read path = .ok text ↔ ∃ content, read path = .ok content ∧ String.fromUTF8? content = some text := by
  unfold readText
  cases read path with
  | error fault => simp
  | ok content => cases htext : String.fromUTF8? content <;> simp [htext]

theorem exists_readSource_error_iff :
    (∃ error, readSource read source = .error error) ↔ Source.IsUnreadable source read := by
  unfold Source.IsUnreadable
  cases source with
  | inline text => simp [readSource]
  | file path =>
    have hsource : readSource read (.file path) =
        (readText read path >>= fun text => .ok (.ofText text path (stem path))) := rfl
    rw [hsource]
    cases htext : readText read path with
    | ok text =>
      obtain ⟨content, hread, hcontent⟩ := readText_eq_ok_iff.1 htext
      simp [hread, hcontent, bind, Except.bind]
    | error error =>
      have hnone (content : ByteArray) (text : String) (hread : read path = .ok content) :
          String.fromUTF8? content ≠ some text := by
        intro hcontent
        rw [readText_eq_ok_iff.2 ⟨content, hread, hcontent⟩] at htext
        cases htext
      simpa [bind, Except.bind] using hnone

theorem hasFailed_iff : final.hasFailed ↔ ∃ record ∈ final.records.toList, record.evaluation.failures ≠ [] := by
  rw [Simulation.hasFailed, ← Array.any_toList, List.any_eq_true]
  simp [Evaluation.isOk]

end

/-- At some tick the evaluation of some statement has a failed call. -/
def Job.HasFailure (engine : PatternEngine) (job : Job) (arguments : Arguments) : Prop :=
  ∃ tick < arguments.ticks, ∃ index statement point evaluation,
    job.scenario.statements[index]? = some statement ∧
    (job.start engine arguments).Reaches job.scenario tick index point ∧
    point.Evaluates job.scenario statement evaluation ∧ evaluation.failures ≠ []

section
variable {engine : PatternEngine} {arguments : Arguments} {job : Job} {final : Simulation}
  {problems : Nat → Nat → List Problem}

theorem hasFailed_iff_hasFailure
    (hrun : Simulation.runTicks job.scenario 0 arguments.ticks (job.start engine arguments) = .ok () final) :
    final.hasFailed ↔ job.HasFailure engine arguments := by
  obtain ⟨results, hyields⟩ := (job.start engine arguments).exists_yields job.scenario
  obtain ⟨hevaluates, hrecords⟩ := Simulation.run_results hrun hyields
  rw [(start_fields engine job arguments).2.2] at hrecords
  have hmem (record : Record) : record ∈ final.records.toList ↔ ∃ tick < arguments.ticks, ∃ index statement,
      job.scenario.statements[index]? = some statement ∧
      record = ⟨tick, statement.name index, results tick index⟩ := by
    simp [hrecords, Simulation.mem_recordsOf]
  rw [hasFailed_iff]
  constructor
  · rintro ⟨record, hrecord, hfailures⟩
    obtain ⟨tick, htick, index, statement, hstatement, rfl⟩ := (hmem record).1 hrecord
    obtain ⟨point, hpoint, heval⟩ := hevaluates tick htick index statement hstatement
    exact ⟨tick, htick, index, statement, point, _, hstatement, hpoint, heval, hfailures⟩
  · rintro ⟨tick, htick, index, statement, point, evaluation, hstatement, hpoint, heval, hfailures⟩
    have hresult := hyields tick index point statement evaluation hpoint hstatement heval
    refine ⟨⟨tick, statement.name index, results tick index⟩, ?_, hresult ▸ hfailures⟩
    exact (hmem _).2 ⟨tick, htick, index, statement, hstatement, rfl⟩

theorem status_ofSimulation
    (hrun : Simulation.runTicks job.scenario 0 arguments.ticks (job.start engine arguments) = .ok () final) :
    ((Report.ofSimulation arguments job final).status = .failure ↔ job.errors ≠ [] ∨ job.HasFailure engine arguments) ∧
      (Report.ofSimulation arguments job final).status ≠ .misuse := by
  rw [← hasFailed_iff_hasFailure hrun]
  unfold Report.ofSimulation
  cases job.errors <;> cases final.hasFailed <;> simp

theorem hasFailure_iff
    (hmeets : ∀ tick < arguments.ticks, ∀ index statement, job.scenario.statements[index]? = some statement →
      ∃ point evaluation, (job.start engine arguments).Reaches job.scenario tick index point ∧
        point.Meets job.scenario statement evaluation (problems tick index)) :
    job.HasFailure engine arguments ↔ ∃ tick < arguments.ticks, ∃ index < job.scenario.size, ∃ failure,
      Problem.callFailure failure ∈ problems tick index := by
  have hlisted {evaluation : Evaluation} {problems : List Problem}
      (h : evaluation.failures = problems.filterMap Problem.failure?) :
      evaluation.failures ≠ [] ↔ ∃ failure, Problem.callFailure failure ∈ problems := by
    rw [h]
    constructor
    · intro hne
      obtain ⟨failure, hmem⟩ := List.exists_mem_of_ne_nil _ hne
      obtain ⟨problem, hproblem, hfailure⟩ := List.mem_filterMap.1 hmem
      cases problem with
      | callFailure _ => exact ⟨_, hproblem⟩
      | _ => cases hfailure
    · rintro ⟨failure, hproblem⟩
      exact List.ne_nil_of_mem (List.mem_filterMap.2 ⟨_, hproblem, rfl⟩)
  constructor
  · rintro ⟨tick, htick, index, statement, point, evaluation, hstatement, hpoint, heval, hfailures⟩
    obtain ⟨other, met, hother, hmet⟩ := hmeets tick htick index statement hstatement
    cases hpoint.unique hother
    cases heval.unique hmet.evaluates
    exact ⟨tick, htick, index, (List.getElem?_eq_some_iff.1 hstatement).1, (hlisted hmet.failures).1 hfailures⟩
  · rintro ⟨tick, htick, index, hindex, hfailure⟩
    have hstatement := List.getElem?_eq_getElem hindex
    obtain ⟨point, evaluation, hpoint, hmet⟩ := hmeets tick htick index _ hstatement
    exact ⟨tick, htick, index, _, point, evaluation, hstatement, hpoint, hmet.evaluates,
      (hlisted hmet.failures).2 hfailure⟩

end

section
variable {engine : PatternEngine} {argv : List String} {read : String → Except ReadFault ByteArray} {report : Report}

theorem status_cases (hrun : run engine argv read = .ok report) :
    (∃ error, Arguments.parse argv = .error error ∧ report.status = .misuse) ∨
    ∃ arguments, Arguments.parse argv = .ok arguments ∧ report.status ≠ .misuse ∧
      ((Source.IsUnreadable arguments.source read ∧ report.status = .failure) ∨
      ∃ job final, readSource read arguments.source = .ok job ∧
        Simulation.runTicks job.scenario 0 arguments.ticks (job.start engine arguments) = .ok () final ∧
        (report.status = .failure ↔ job.errors ≠ [] ∨ job.HasFailure engine arguments)) := by
  cases hparse : Arguments.parse argv with
  | error error =>
    unfold run at hrun
    rw [hparse] at hrun
    cases hrun
    exact .inl ⟨error, rfl, rfl⟩
  | ok arguments =>
    refine .inr ⟨arguments, rfl, ?_⟩
    cases hread : readSource read arguments.source with
    | error error =>
      unfold run at hrun
      rw [hparse] at hrun
      cases (execute_of_error hread).symm.trans hrun
      exact ⟨by simp, .inl ⟨exists_readSource_error_iff.1 ⟨error, hread⟩, rfl⟩⟩
    | ok job =>
      obtain ⟨final, hticks, rfl⟩ := exists_of_run hparse hread hrun
      obtain ⟨hfailure, hmisuse⟩ := status_ofSimulation hticks
      exact ⟨hmisuse, .inr ⟨job, final, rfl, hticks, hfailure⟩⟩

theorem status_eq_misuse_iff (hrun : run engine argv read = .ok report) :
    report.status = .misuse ↔ ∃ error, Arguments.parse argv = .error error := by
  rcases status_cases hrun with ⟨error, hparse, hstatus⟩ | ⟨arguments, hparse, hstatus, -⟩
  · simp [hparse, hstatus]
  · simp [hparse, hstatus]

theorem status_eq_failure_iff (hrun : run engine argv read = .ok report) :
    report.status = .failure ↔ ∃ arguments, Arguments.parse argv = .ok arguments ∧
      (Source.IsUnreadable arguments.source read ∨ ∃ job, readSource read arguments.source = .ok job ∧
        (job.errors ≠ [] ∨ job.HasFailure engine arguments)) := by
  rcases status_cases hrun with
    ⟨error, hparse, hstatus⟩ | ⟨arguments, hparse, -, ⟨hsource, hstatus⟩ | ⟨job, final, hread, -, hstatus⟩⟩
  · simp [hparse, hstatus]
  · simp [hparse, hstatus, hsource]
  · have hsource : ¬ Source.IsUnreadable arguments.source read := by
      rw [← exists_readSource_error_iff, hread]
      simp
    simp [hparse, hstatus, hsource, hread]

theorem exists_problems (hrun : run engine argv read = .ok report) {arguments : Arguments} {job : Job}
    (hparse : Arguments.parse argv = .ok arguments) (hread : readSource read arguments.source = .ok job) :
    ∃ problems : Nat → Nat → List Problem,
      (∀ tick < arguments.ticks, ∀ index statement, job.scenario.statements[index]? = some statement →
        ∃ point evaluation, (job.start engine arguments).Reaches job.scenario tick index point ∧
          point.Meets job.scenario statement evaluation (problems tick index)) ∧
      (report.status = .failure ↔ job.errors ≠ [] ∨ ∃ tick < arguments.ticks, ∃ index < job.scenario.size,
        ∃ failure, Problem.callFailure failure ∈ problems tick index) := by
  obtain ⟨final, hticks, rfl⟩ := exists_of_run hparse hread hrun
  obtain ⟨problems, -, hmeets⟩ := Simulation.run_problems hticks
  exact ⟨problems, hmeets, (status_ofSimulation hticks).1.trans (or_congr_right (hasFailure_iff hmeets))⟩

/-- The status of a run that does not crash is 2 if the arguments are wrong, and else 1 if the file cannot be read,
if there is an error in the text or if a call fails at some tick, and else 0. Of all that evaluations report
nothing but failed calls has a part in it. -/
theorem run_status (hrun : run engine argv read = .ok report) :
    (report.status.toNat = 2 ↔ ∃ error, Arguments.parse argv = .error error) ∧
    (report.status.toNat = 1 ↔ ∃ arguments, Arguments.parse argv = .ok arguments ∧
      (Source.IsUnreadable arguments.source read ∨ ∃ job, readSource read arguments.source = .ok job ∧
        (job.errors ≠ [] ∨ job.HasFailure engine arguments))) ∧
    (report.status.toNat ≠ 2 → report.status.toNat ≠ 1 → report.status.toNat = 0) ∧
    ∀ arguments job, Arguments.parse argv = .ok arguments → readSource read arguments.source = .ok job →
      ∃ problems : Nat → Nat → List Problem,
        (∀ tick < arguments.ticks, ∀ index statement, job.scenario.statements[index]? = some statement →
          ∃ point evaluation, (job.start engine arguments).Reaches job.scenario tick index point ∧
            point.Meets job.scenario statement evaluation (problems tick index)) ∧
        (report.status.toNat = 1 ↔ job.errors ≠ [] ∨ ∃ tick < arguments.ticks, ∃ index < job.scenario.size,
          ∃ failure, Problem.callFailure failure ∈ problems tick index) := by
  have hmisuse : report.status.toNat = 2 ↔ report.status = .misuse := by
    cases report.status <;> simp [ExitStatus.toNat]
  have hfailure : report.status.toNat = 1 ↔ report.status = .failure := by
    cases report.status <;> simp [ExitStatus.toNat]
  have hsuccess : report.status.toNat ≠ 2 → report.status.toNat ≠ 1 → report.status.toNat = 0 := by
    cases report.status <;> simp [ExitStatus.toNat]
  simp only [hmisuse, hfailure] at hsuccess ⊢
  exact ⟨status_eq_misuse_iff hrun, status_eq_failure_iff hrun, hsuccess, fun _ _ => exists_problems hrun⟩

/-- Each kind of problem that is no failed call, and a call that is not made. -/
theorem run_status_harmless :
    let argv := ["-t2", "-e", "nope / 0; 'a' =/ '('; -'inf'; 0 && f(1)"]
    let read (_ : String) : Except ReadFault ByteArray := .error .notFound
    let errors := "simexpr: <command line>:1: expr: unknown variable 'nope'\n" ++
      "simexpr: <command line>:1: expr: division by zero\n" ++
      "simexpr: <command line>:1: expr: invalid regex '(': regex parse error:\n    (\n    ^\n" ++
      "error: unclosed group\n" ++
      "simexpr: <command line>:1: expr: non-finite result from '-'\n" ++
      "simexpr: <command line>:1: expr: unknown variable 'nope'\n" ++
      "simexpr: <command line>:1: expr: division by zero\n" ++
      "simexpr: <command line>:1: expr: non-finite result from '-'\n"
    ∃ arguments job report, ∃ problems : Nat → Nat → List Problem,
      Arguments.parse argv = .ok arguments ∧ readSource read arguments.source = .ok job ∧
        run .words argv read = .ok report ∧ report.status.toNat = 0 ∧
        report.errors = errors ∧
        (∀ tick < arguments.ticks, ∀ index statement, job.scenario.statements[index]? = some statement →
          ∃ point evaluation, (job.start .words arguments).Reaches job.scenario tick index point ∧
            point.Meets job.scenario statement evaluation (problems tick index)) ∧
        ∀ tick < arguments.ticks, ∀ index < job.scenario.size, ∀ failure,
          Problem.callFailure failure ∉ problems tick index := by
  intro argv read errors
  have hruns : ((Arguments.parse argv).toOption.any fun arguments =>
      (readSource read arguments.source).toOption.isSome &&
        (run .words argv read).toOption.any fun report =>
          report.status == .success && report.errors == errors) = true := by
    decide +kernel
  cases hparse : Arguments.parse argv with
  | error error => simp [hparse, Except.toOption] at hruns
  | ok arguments =>
    cases hread : readSource read arguments.source with
    | error error => simp [hparse, hread, Except.toOption] at hruns
    | ok job =>
      cases hrun : run .words argv read with
      | error crash => simp [hparse, hrun, Except.toOption] at hruns
      | ok report =>
        simp only [hparse, hread, hrun, Except.toOption, Option.any_some, Option.isSome_some, Bool.true_and,
          Bool.and_eq_true, beq_iff_eq] at hruns
        obtain ⟨hstatus, herrors⟩ := hruns
        obtain ⟨-, -, -, hproblems⟩ := run_status hrun
        obtain ⟨problems, hmeets, hfailed⟩ := hproblems arguments job hparse hread
        have hnone : ¬ (job.errors ≠ [] ∨ _) := mt hfailed.2 (by simp [hstatus, ExitStatus.toNat])
        refine ⟨arguments, job, report, problems, rfl, hread, rfl, by simp [hstatus, ExitStatus.toNat], herrors, hmeets,
          ?_⟩
        intro tick htick index hindex failure hfailure
        exact hnone (.inr ⟨tick, htick, index, hindex, failure, hfailure⟩)

end

end Command

end ScenarioScript
