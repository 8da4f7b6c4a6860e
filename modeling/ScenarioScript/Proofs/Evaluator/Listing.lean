import ScenarioScript.Proofs.Evaluator.Course

/-!
# Failed calls among the problems

An evaluation reports all problems that it meets. Those that are failed calls it lists beside its value too, each
once and in the order of the reports, and it lists nothing else.
-/

namespace ScenarioScript

variable {State : Type}

namespace Problem

/-- The call that has failed, if this is the problem. -/
def failure? : Problem → Option CallFailure
  | callFailure failure => some failure
  | _ => none

@[simp] theorem failure?_callFailure (failure : CallFailure) : (callFailure failure).failure? = some failure := rfl

theorem failure?_eq_none {problem : Problem} (h : problem.kind = .arithmetic) : problem.failure? = none := by
  cases problem with
  | callFailure failure => cases failure <;> cases h
  | _ => rfl

end Problem

/-- Behind the failures that were there before, the course lists the failed calls among its problems. -/
def Course.Lists {α : Type} (course : Course State α) (failures : Array CallFailure) : Prop :=
  course.failures.toList = failures.toList ++ course.problems.filterMap Problem.failure?

namespace Course

theorem Lists.append {α β : Type} {first : Course State α} {second : Course State β} {failures : Array CallFailure}
    (h : first.Lists failures) (hsecond : second.Lists first.failures) :
    Lists { second with problems := first.problems ++ second.problems } failures := by
  unfold Lists at h hsecond ⊢
  rw [hsecond, h, List.filterMap_append, List.append_assoc]

section
variable {α : Type} {course other : Course State α} {writer : Evaluator State} {log : Array Diagnostic}

theorem fields_of_result (h : course.result writer log = other.result writer log) :
    course.outcome = other.outcome ∧ course.host = other.host ∧ course.patterns = other.patterns ∧
      course.failures = other.failures := by
  unfold result resultOf at h
  rw [Evaluator.tell_eq, Evaluator.tell_eq] at h
  cases hcourse : course.outcome <;> cases hother : other.outcome <;> rw [hcourse, hother] at h <;>
    simp_all [World.add]

theorem result_discard (course : Course State α) (hsink : writer.sink = .discard) : course.result writer log =
    resultOf course.outcome ⟨⟨course.host, log⟩, course.patterns, course.failures⟩ := by
  have hwritten (problem : Problem) : writer.written problem = [] := by
    unfold Evaluator.written
    rw [hsink]
  unfold result
  rw [Evaluator.tell_eq, List.flatMap_eq_nil_iff.2 fun problem _ => hwritten problem, World.add_nil]

end

end Course

namespace Eval

/-- The computation lists the failed calls among the problems that it reports. -/
def ListsCalls (evaluator : Evaluator State) {α : Type} (r : Eval State α) : Prop :=
  ∀ host patterns failures, ∃ course : Course State α, course.Lists failures ∧
    ∀ log, r ⟨⟨host, log⟩, patterns, failures⟩ = course.result evaluator log

section
variable {evaluator : Evaluator State} {α β : Type} {r : Eval State α}

theorem listsCalls_pure (a : α) : ListsCalls evaluator (pure a) :=
  fun host patterns failures => ⟨⟨.ok a, host, patterns, failures, []⟩, by simp [Course.Lists], fun _ => rfl⟩

theorem ListsCalls.bind {f : α → Eval State β} (h : ListsCalls evaluator r) (hf : ∀ a, ListsCalls evaluator (f a)) :
    ListsCalls evaluator (r >>= f) := by
  intro host patterns failures
  obtain ⟨⟨outcome, middle, found, listed, problems⟩, hlisted, hfirst⟩ := h host patterns failures
  cases outcome with
  | error crash =>
    exact ⟨⟨.error crash, middle, found, listed, problems⟩, hlisted, fun log => bind_crash (hfirst log)⟩
  | ok a =>
    obtain ⟨second, hsecond, hrest⟩ := hf a middle found listed
    refine ⟨{ second with problems := problems ++ second.problems }, ?_, fun log => bind_result (hfirst log) hrest⟩
    exact hlisted.append hsecond

theorem listsCalls_property (evaluator : Evaluator State) : EvalProperty (@ListsCalls State evaluator) where
  pure := listsCalls_pure
  bind := ListsCalls.bind

end

end Eval

namespace Evaluator

open Eval

section
variable (evaluator : Evaluator State)

/-! ## Steps -/

theorem listsCalls_missing (problem : Problem) (hkind : problem.kind = .arithmetic) :
    ListsCalls evaluator (evaluator.missing problem) := by
  intro host patterns failures
  refine ⟨⟨.ok .zero, host, patterns, failures, [problem]⟩, ?_, fun _ => rfl⟩
  simp [Course.Lists, Problem.failure?_eq_none hkind]

theorem listsCalls_resolve (name : String) : ListsCalls evaluator (evaluator.steps.resolve name) := by
  refine fun host _ _ => ⟨_, ?_, fun _ => evaluator.resolve_result _ _ _ _ _⟩
  cases evaluator.lookup? host name <;> simp [Course.Lists, Problem.failure?]

theorem listsCalls_patternMatch (pattern text : String) :
    ListsCalls evaluator (evaluator.patternMatch pattern text) := by
  refine fun _ patterns _ => ⟨_, ?_, fun _ => evaluator.patternMatch_result _ _ _ _ _ _⟩
  cases (patterns.find evaluator.engine pattern).error <;> simp [Course.Lists, Problem.failure?]

theorem listsCalls_combine (op : BinaryOp) (a b : Value) : ListsCalls evaluator (evaluator.combine op a b) :=
  (listsCalls_property evaluator).combine (listsCalls_missing evaluator) (listsCalls_patternMatch evaluator) op a b

theorem listsCalls_callNoting (name : String) (args : List Value) :
    ListsCalls evaluator (evaluator.callNoting name args) := by
  intro host patterns failures
  have hfailed (failure : CallFailure) (after : Host State) :
      Course.Lists (⟨.ok .zero, after, patterns, failures.push failure, [.callFailure failure]⟩ : Course State Value)
        failures := by
    simp [Course.Lists]
  simp only [callNoting_eq]
  cases hfound : evaluator.functions.get? name with
  | none =>
    refine ⟨_, hfailed (.unknownFunction name) host, fun log => ?_⟩
    rw [call_of_none hfound]
    rfl
  | some operation =>
    simp only [call_of_some hfound]
    cases operation args host with
    | ok answer after =>
      cases answer with
      | ok value =>
        exact (listsCalls_property evaluator).finite (listsCalls_missing evaluator) name value after patterns failures
      | error reason => exact ⟨_, hfailed (.failed name reason) after, fun _ => rfl⟩
    | error crash after =>
      exact ⟨⟨.error crash, after, patterns, failures, []⟩, by simp [Course.Lists], fun _ => rfl⟩

/-! ## Evaluations -/

theorem eval_listsCalls (e : Expr) : ListsCalls evaluator (evaluator.eval e) := by
  have hproperty := (listsCalls_property evaluator).relation
  have hsteps : Steps.Related (fun r _ => ListsCalls evaluator r) evaluator.steps evaluator.steps :=
    ⟨listsCalls_resolve evaluator, listsCalls_callNoting evaluator,
      (listsCalls_property evaluator).apply (listsCalls_missing evaluator),
      listsCalls_combine evaluator⟩
  rw [eval_eq_steps]
  exact Steps.eval_related hproperty hsteps e

theorem eval_discard {e : Expr} {host : Host State} {patterns : PatternCache} {failures : Array CallFailure}
    {course : Course State Value}
    (h : ∀ log, { evaluator with sink := .log }.eval e ⟨⟨host, log⟩, patterns, failures⟩ =
      course.result { evaluator with sink := .log } log) (log : Array Diagnostic) :
    { evaluator with sink := .discard }.eval e ⟨⟨host, log⟩, patterns, failures⟩ =
      course.result { evaluator with sink := .discard } log := by
  have hlookup (host : Host State) (name : String) :
      { evaluator with sink := .discard }.lookup? host name = { evaluator with sink := .log }.lookup? host name := rfl
  obtain ⟨other, hparallel⟩ := eval_parallel hlookup rfl rfl e host patterns failures
  obtain ⟨houtcome, hhost, hpatterns, hfailures⟩ := Course.fields_of_result ((hparallel log).1.symm.trans (h log))
  -- the problems may differ, but nothing is written of them
  rw [(hparallel log).2, Course.result_discard _ rfl, Course.result_discard _ rfl, houtcome, hhost, hpatterns,
    hfailures]

/-- What an evaluation comes to, and the problems that it meets, are the same whether it is logged or not. The
failed calls among the problems are listed in its result. -/
theorem evaluateAt_told (e : Expr) (origin : Origin) (host : Host State) :
    ∃ (outcome : Except Crash Evaluation) (patterns : PatternCache) (after : Host State) (problems : List Problem),
      (∀ evaluation, outcome = .ok evaluation → evaluation.failures = problems.filterMap Problem.failure?) ∧
      ∀ sink log, { evaluator with sink }.evaluateAt e origin ⟨host, log⟩ =
        resultOf (outcome.map fun evaluation => (evaluation, { evaluator with sink, patterns }))
          (World.add ⟨after, log⟩ (problems.flatMap { evaluator with sink, origin := some origin }.written)) := by
  obtain ⟨⟨outcome, after, patterns, failures, problems⟩, hlists, hlogged⟩ :=
    { evaluator with sink := .log, origin := some origin }.eval_listsCalls e host evaluator.patterns #[]
  have hlists : failures.toList = problems.filterMap Problem.failure? := by simpa [Course.Lists] using hlists
  refine ⟨outcome.map fun value => ⟨value, failures.toList⟩, patterns, after, problems, ?_, fun sink log => ?_⟩
  · intro evaluation hevaluation
    cases outcome with
    | ok value =>
      cases hevaluation
      exact hlists
    | error crash => cases hevaluation
  · have heval : { evaluator with sink, origin := some origin }.eval e ⟨⟨host, log⟩, evaluator.patterns, #[]⟩ =
        Course.result ⟨outcome, after, patterns, failures, problems⟩
          { evaluator with sink, origin := some origin } log := by
      cases sink with
      | log => exact hlogged log
      | discard => exact eval_discard { evaluator with origin := some origin } hlogged log
    rw [evaluateAt_eq, heval]
    unfold Course.result
    rw [tell_eq]
    cases outcome <;> rfl

end

end Evaluator

end ScenarioScript
