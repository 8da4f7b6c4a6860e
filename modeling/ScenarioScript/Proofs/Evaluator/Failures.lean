import ScenarioScript.Proofs.Evaluator.Attempts
import ScenarioScript.Proofs.Evaluator.Finite
import ScenarioScript.Proofs.Evaluator.Listing

/-!
# What a failed call does

A call that fails is reported and listed, and then goes on as if it had answered zero. So with functions that
answer zero instead of failing an evaluation takes the same course, and reports everything but the failed calls.
-/

namespace ScenarioScript

variable {State : Type}

/-! ## Functions that never fail -/

/-- Answers zero where the operation fails. -/
def Operation.forgiving (operation : Operation State) : Operation State := fun args => do
  match ← operation args with
  | .ok value => return .ok value
  | .error _ => return .ok .zero

theorem Operation.forgiving_eq (operation : Operation State) (args : List Value) (host : Host State) :
    operation.forgiving args host = match operation args host with
      | .ok (.ok value) after => .ok (.ok value) after
      | .ok (.error _) after => .ok (.ok .zero) after
      | .error crash after => .error crash after := by
  unfold forgiving
  rw [bind_eq]
  cases operation args host with
  | ok answer after => cases answer <;> rfl
  | error crash after => rfl

namespace FunctionTable

/-- A function for each of the names. It answers zero where there is none or where the one there is fails. -/
def forgivingOperation (functions : FunctionTable State) (name : String) : Operation State :=
  match functions.get? name with
  | some operation => operation.forgiving
  | none => Operation.constant .zero

def forgiving (functions : FunctionTable State) (names : List String) : FunctionTable State :=
  .ofList (names.map fun name => (name, functions.forgivingOperation name))

theorem get?_forgiving {functions : FunctionTable State} {names : List String} {name : String} (h : name ∈ names) :
    NameTable.get? (functions.forgiving names) name = some (functions.forgivingOperation name) := by
  have hlookup (names : List String) (h : name ∈ names) :
      (names.map fun name => (name, functions.forgivingOperation name)).lookup name =
        some (functions.forgivingOperation name) := by
    induction names with
    | nil => cases h
    | cons first rest ih =>
      rw [List.map_cons, NameTable.lookup_entry]
      by_cases hname : name = first
      · rw [if_pos hname, hname]
      · rw [if_neg hname]
        exact ih (List.mem_of_ne_of_mem hname h)
  unfold forgiving
  rw [NameTable.get?_ofList, ← List.map_reverse]
  exact hlookup names.reverse (List.mem_reverse.2 h)

end FunctionTable

/-! ## Courses without failures -/

/-- The course without the failed calls. -/
def Course.forgiven {α : Type} (course : Course State α) (failures : Array CallFailure) : Course State α :=
  { course with failures, problems := course.problems.filter (·.failure?.isNone) }

namespace Eval

/-- The computations take the same course, but for the failed calls that the first one lists and reports. -/
def Forgives (evaluator other : Evaluator State) {α : Type} (r r' : Eval State α) : Prop :=
  ∀ host patterns failures, ∃ course : Course State α, course.Lists failures ∧
    (∀ log, r ⟨⟨host, log⟩, patterns, failures⟩ = course.result evaluator log) ∧
    ∀ log unlisted, r' ⟨⟨host, log⟩, patterns, unlisted⟩ = (course.forgiven unlisted).result other log

section
variable {evaluator other : Evaluator State} {α β : Type} {r r' : Eval State α}

theorem forgives_pure (a : α) : Forgives evaluator other (pure a) (pure a) :=
  fun host patterns failures =>
    ⟨⟨.ok a, host, patterns, failures, []⟩, by simp [Course.Lists], fun _ => rfl, fun _ _ => rfl⟩

theorem Forgives.bind {f f' : α → Eval State β} (h : Forgives evaluator other r r')
    (hf : ∀ a, Forgives evaluator other (f a) (f' a)) : Forgives evaluator other (r >>= f) (r' >>= f') := by
  intro host patterns failures
  obtain ⟨⟨outcome, middle, found, listed, problems⟩, hlists, hfirst, hfirst'⟩ := h host patterns failures
  cases outcome with
  | error crash =>
    refine ⟨⟨.error crash, middle, found, listed, problems⟩, hlists, fun log => bind_crash (hfirst log), ?_⟩
    exact fun log unlisted => bind_crash (hfirst' log unlisted)
  | ok a =>
    obtain ⟨second, hsecond, hrest, hrest'⟩ := hf a middle found listed
    refine ⟨{ second with problems := problems ++ second.problems }, hlists.append hsecond,
      fun log => bind_result (hfirst log) hrest, fun log unlisted => ?_⟩
    have hforgiven := bind_result (hfirst' log unlisted) fun log => hrest' log unlisted
    unfold Course.forgiven at hforgiven ⊢
    rw [hforgiven, List.filter_append]

theorem forgives_relation (evaluator other : Evaluator State) : EvalRelation (@Forgives State evaluator other) where
  pure := forgives_pure
  bind := Forgives.bind

end

end Eval

namespace Evaluator

open Eval

section
variable (evaluator other : Evaluator State)

theorem forgives_missing (problem : Problem) (hkind : problem.kind = .arithmetic) :
    Forgives evaluator other (evaluator.missing problem) (other.missing problem) := by
  intro host patterns failures
  refine ⟨⟨.ok .zero, host, patterns, failures, [problem]⟩, ?_, fun _ => rfl, fun log unlisted => ?_⟩
  · simp [Course.Lists, Problem.failure?_eq_none hkind]
  · simp [Course.forgiven, Problem.failure?_eq_none hkind]
    rfl

theorem forgives_patternMatch (hengine : other.engine = evaluator.engine) (pattern text : String) :
    Forgives evaluator other (evaluator.patternMatch pattern text) (other.patternMatch pattern text) := by
  refine fun _ patterns _ => ⟨_, ?_, fun _ => evaluator.patternMatch_result _ _ _ _ _ _, fun log unlisted => ?_⟩
  · cases (patterns.find evaluator.engine pattern).error <;> simp [Course.Lists, Problem.failure?]
  · rw [other.patternMatch_result, hengine]
    cases (patterns.find evaluator.engine pattern).error <;> simp [Course.forgiven, Problem.failure?]

theorem forgives_combine (hengine : other.engine = evaluator.engine) (op : BinaryOp) (a b : Value) :
    Forgives evaluator other (evaluator.combine op a b) (other.combine op a b) :=
  (forgives_relation evaluator other).combine (forgives_missing evaluator other)
    (forgives_patternMatch evaluator other hengine) op a b

theorem forgives_resolve (hlookup : ∀ host name, other.lookup? host name = evaluator.lookup? host name)
    (name : String) : Forgives evaluator other (evaluator.steps.resolve name) (other.steps.resolve name) := by
  refine fun host _ _ => ⟨_, ?_, fun _ => evaluator.resolve_result _ _ _ _ _, fun log unlisted => ?_⟩
  · cases evaluator.lookup? host name <;> simp [Course.Lists, Problem.failure?]
  · rw [other.resolve_result, hlookup]
    cases evaluator.lookup? host name <;> simp [Course.forgiven, Problem.failure?]

end

/-- The evaluator with functions that answer zero where those of the expression are missing or fail. -/
def forgiving (evaluator : Evaluator State) (e : Expr) : Evaluator State :=
  evaluator.withFunctions (evaluator.functions.forgiving e.functionNames)

section
variable {evaluator other : Evaluator State} {name : String}

theorem finite_of_isFinite {value : Value} (h : value.IsFinite) : evaluator.finite name value = pure value := by
  cases value with
  | number x => exact if_pos h
  | text s => rfl

theorem forgives_callNoting (h : other.functions.get? name = some (evaluator.functions.forgivingOperation name))
    (args : List Value) : Forgives evaluator other (evaluator.callNoting name args) (other.callNoting name args) := by
  intro host patterns failures
  have hzero (log : Array Diagnostic) (unlisted : Array CallFailure) (after : Host State) :
      other.finite name .zero ⟨⟨after, log⟩, patterns, unlisted⟩ = .ok .zero ⟨⟨after, log⟩, patterns, unlisted⟩ := by
    rw [finite_of_isFinite Value.isFinite_zero]
    rfl
  have hfailed (failure : CallFailure) (after : Host State) :
      Course.Lists (⟨.ok .zero, after, patterns, failures.push failure, [.callFailure failure]⟩ : Course State Value)
        failures := by
    simp [Course.Lists]
  simp only [callNoting_eq, call_of_some h]
  unfold FunctionTable.forgivingOperation
  cases hfound : evaluator.functions.get? name with
  | none =>
    simp only [call_of_none hfound]
    exact ⟨_, hfailed (.unknownFunction name) host, fun _ => rfl, fun log unlisted => hzero log unlisted host⟩
  | some operation =>
    simp only [call_of_some hfound, Operation.forgiving_eq]
    cases operation args host with
    | ok answer after =>
      cases answer with
      | ok value =>
        exact (forgives_relation evaluator other).finite (forgives_missing evaluator other) name value after patterns
          failures
      | error reason =>
        refine ⟨_, hfailed (.failed name reason) after, fun _ => rfl, fun log unlisted => ?_⟩
        exact hzero log unlisted after
    | error crash after =>
      exact ⟨⟨.error crash, after, patterns, failures, []⟩, by simp [Course.Lists], fun _ => rfl, fun _ _ => rfl⟩

theorem eval_forgives (evaluator : Evaluator State) (e : Expr) :
    Forgives evaluator (evaluator.forgiving e) (evaluator.eval e) ((evaluator.forgiving e).eval e) := by
  have hsteps : Steps.RelatedOn (@Forgives State evaluator (evaluator.forgiving e)) e.variableNames e.functionNames
      evaluator.steps (evaluator.forgiving e).steps :=
    ⟨fun name _ => forgives_resolve _ _ (fun _ _ => rfl) name,
      fun name hname => forgives_callNoting (FunctionTable.get?_forgiving hname),
      (forgives_relation _ _).apply (forgives_missing _ _), forgives_combine _ _ rfl⟩
  rw [eval_eq_steps, eval_eq_steps]
  exact Steps.eval_relatedOn (forgives_relation _ _) hsteps e (List.Subset.refl _) (List.Subset.refl _)

end

end Evaluator

/-! ## Reports -/

def CallFailure.kind : CallFailure → DiagnosticKind
  | unknownFunction _ => .unknownFunction
  | failed _ _ => .callFailed

/-- Whether a failed call is reported. -/
def Diagnostic.isOfCall (report : Diagnostic) : Bool :=
  report.kind == .unknownFunction || report.kind == .callFailed

/-- The reports tell of the listed failures one by one, and of no other failed call. -/
structure Evaluation.IsTold (evaluation : Evaluation) (component : String) (reports : List Diagnostic) : Prop where
  told : (reports.filter Diagnostic.isOfCall).map (fun report => (report.kind, report.message)) =
    evaluation.failures.map fun failure => (failure.kind, component ++ ": " ++ failure.message)
  isOk_iff : evaluation.isOk = true ↔ ∀ report ∈ reports, report.isOfCall = false

theorem Evaluation.IsTold.of_told {evaluation : Evaluation} {component : String} {reports : List Diagnostic}
    (h : (reports.filter Diagnostic.isOfCall).map (fun report => (report.kind, report.message)) =
      evaluation.failures.map fun failure => (failure.kind, component ++ ": " ++ failure.message)) :
    evaluation.IsTold component reports := by
  refine ⟨h, ?_⟩
  unfold Evaluation.isOk
  rw [List.isEmpty_iff, ← List.map_eq_nil_iff, ← h, List.map_eq_nil_iff, List.filter_eq_nil_iff]
  simp

section
variable {writer : Evaluator State}

theorem isOfCall_about (component : String) (problem : Problem) (origin : Option Origin) :
    ((Diagnostic.about component problem).orAt origin).isOfCall = problem.failure?.isSome := by
  cases problem with
  | callFailure failure => cases failure <;> rfl
  | _ => rfl

theorem flatMap_written (hsink : writer.sink = .log) (problems : List Problem) : problems.flatMap writer.written =
    problems.map fun problem => (Diagnostic.about writer.component problem).orAt writer.origin := by
  unfold Evaluator.written
  rw [hsink]
  exact List.map_eq_flatMap.symm

theorem untold_flatMap_written (hsink : writer.sink = .log) (problems : List Problem) :
    (problems.flatMap writer.written).filter (fun report => !report.isOfCall) =
      (problems.filter (·.failure?.isNone)).flatMap writer.written := by
  rw [flatMap_written hsink, flatMap_written hsink, List.filter_map]
  congr 1
  apply List.filter_congr
  intro problem _
  simp [isOfCall_about]

theorem told_flatMap_written (hsink : writer.sink = .log) (problems : List Problem) :
    ((problems.flatMap writer.written).filter Diagnostic.isOfCall).map (fun report => (report.kind, report.message)) =
      (problems.filterMap Problem.failure?).map fun failure =>
        (failure.kind, writer.component ++ ": " ++ failure.message) := by
  have hkind (failure : CallFailure) : (Problem.callFailure failure).kind = failure.kind := by cases failure <;> rfl
  rw [flatMap_written hsink]
  induction problems with
  | nil => rfl
  | cons problem rest ih =>
    rw [List.map_cons, List.filter_cons, isOfCall_about]
    cases hfailure : problem.failure? with
    | none =>
      rw [List.filterMap_cons_none hfailure, ← ih]
      rfl
    | some failure =>
      obtain rfl : problem = .callFailure failure := by
        cases problem with
        | callFailure other => exact congrArg Problem.callFailure (Option.some.inj hfailure)
        | _ => cases hfailure
      rw [List.filterMap_cons_some hfailure, List.map_cons, ← ih, ← hkind]
      rfl

end

namespace Evaluator

section
variable {evaluator : Evaluator State}

theorem evaluate_of_course {e : Expr} {world : World State} {course : Course State Value}
    (h : evaluator.eval e ⟨world, evaluator.patterns, #[]⟩ = course.result evaluator world.log) :
    evaluator.evaluate e world = resultOf
      (course.outcome.map fun value =>
        (⟨value, course.failures.toList⟩, { evaluator with patterns := course.patterns }))
      (World.add ⟨course.host, world.log⟩ (course.problems.flatMap evaluator.written)) := by
  unfold evaluate
  rw [h]
  unfold Course.result
  rw [tell_eq]
  cases course.outcome <;> rfl

/-- An evaluation reports its failed calls one by one as it lists them, in the order in which it attempts them.
With functions that answer zero instead of failing it has the same value or the same crash, does the same to the
host, and reports the same but for failed calls. -/
theorem evaluate_failures (hsink : evaluator.sink = .log) (e : Expr) (world : World State) :
    ∃ (outcome : Except Crash Evaluation) (host : Host State) (patterns : PatternCache) (reports : List Diagnostic),
      evaluator.evaluate e world =
        resultOf (outcome.map fun evaluation => (evaluation, { evaluator with patterns }))
          (World.add ⟨host, world.log⟩ reports) ∧
      (evaluator.forgiving e).evaluate e world =
        resultOf (outcome.map fun evaluation => (⟨evaluation.value, []⟩, { evaluator.forgiving e with patterns }))
          (World.add ⟨host, world.log⟩ (reports.filter fun report => !report.isOfCall)) ∧
      ∀ evaluation, outcome = .ok evaluation → evaluation.IsTold evaluator.component reports ∧
        evaluation.failures = (evaluator.attempts e ⟨world, evaluator.patterns, #[]⟩).filterMap evaluator.failure? := by
  obtain ⟨⟨outcome, host, patterns, failures, problems⟩, hlists, heval, hforgiving⟩ :=
    evaluator.eval_forgives e world.host evaluator.patterns #[]
  have hlisted : failures.toList = problems.filterMap Problem.failure? := by simpa [Course.Lists] using hlists
  refine ⟨outcome.map fun value => ⟨value, failures.toList⟩, host, patterns, problems.flatMap evaluator.written,
    ?_, ?_, ?_⟩
  · rw [evaluate_of_course (heval world.log)]
    cases outcome <;> rfl
  · rw [evaluate_of_course (hforgiving world.log #[]), untold_flatMap_written hsink]
    cases outcome <;> rfl
  · intro evaluation hevaluation
    cases outcome with
    | error crash => cases hevaluation
    | ok value =>
      cases hevaluation
      refine ⟨.of_told ?_, ?_⟩
      · exact (told_flatMap_written hsink problems).trans (by rw [← hlisted])
      · have hattempts := eval_listsAt evaluator e _ value _ (heval world.log)
        simpa using hattempts

end

/-- Failed calls of both kinds, one within the other, among other problems and beside a call that is not made. -/
theorem evaluate_failures_nested :
    let evaluator : Evaluator Unit := { (simulation .words "c" : Evaluator Unit) with
      functions := NameTable.empty.set "fail" (Operation.failing "no") }
    ∃ e evaluation after found, ∃ reports : List Diagnostic,
      Expr.parse "fail(g(x)) / 0 + (0 && g()) + (h() ? 1 : 2)" "c" = .ok e ∧
        evaluator.evaluate e ⟨⟨.empty, ()⟩, #[]⟩ = .ok (evaluation, after) found ∧
        evaluation = ⟨.number (Number.ofNat 2), [.unknownFunction "g", .failed "fail" "no", .unknownFunction "h"]⟩ ∧
        found.log = reports.toArray ∧ evaluation.IsTold "c" reports ∧
        reports.map Diagnostic.kind =
          [.unknownVariable, .unknownFunction, .callFailed, .arithmetic, .unknownFunction] := by
  intro evaluator
  have hruns : ((Expr.parse "fail(g(x)) / 0 + (0 && g()) + (h() ? 1 : 2)" "c").toOption.any fun e =>
      runPasses (evaluator.evaluate e ⟨⟨.empty, ()⟩, #[]⟩) fun result found =>
        result.1 == ⟨.number (Number.ofNat 2), [.unknownFunction "g", .failed "fail" "no", .unknownFunction "h"]⟩ &&
          found.log.toList.map Diagnostic.kind ==
            [.unknownVariable, .unknownFunction, .callFailed, .arithmetic, .unknownFunction]) = true := by
    decide +kernel
  obtain ⟨e, hparse, hruns⟩ := exists_ok_of_any hruns
  obtain ⟨result, found, heval, hpasses⟩ := exists_of_runPasses hruns
  obtain ⟨hvalue, hkinds⟩ := Bool.and_eq_true_iff.1 hpasses
  have hsink : evaluator.sink = .log := rfl
  obtain ⟨outcome, host, patterns, reports, hresult, -, htold⟩ := evaluate_failures hsink e ⟨⟨.empty, ()⟩, #[]⟩
  rw [heval] at hresult
  cases outcome with
  | error crash => cases hresult
  | ok evaluation =>
    cases hresult
    have hlog : (World.add ⟨host, #[]⟩ reports).log = reports.toArray := by simp
    rw [hlog] at hkinds
    exact ⟨e, evaluation, _, _, reports, hparse, heval, eq_of_beq hvalue, hlog, (htold evaluation rfl).1,
      eq_of_beq hkinds⟩

end Evaluator

end ScenarioScript
