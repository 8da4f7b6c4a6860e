import ScenarioScript.Host.Operations
import ScenarioScript.Proofs.Evaluator.Cache
import ScenarioScript.Proofs.Evaluator.Crash

/-!
# The course of an evaluation

How an evaluation goes is settled by the evaluator, the host and the cache. It never looks into the log. The
place of the statement makes no difference but to where its reports say that they come from.
-/

namespace ScenarioScript

variable {State : Type}

/-! ## Reports -/

/-- The world with more in its log. -/
def World.add (world : World State) (reports : List Diagnostic) : World State :=
  { world with log := world.log ++ reports.toArray }

def Diagnostic.placedAt (origin : Origin) (diagnostic : Diagnostic) : Diagnostic :=
  { diagnostic with origin := some origin }

section
variable (world : World State) (reports more : List Diagnostic)

@[simp] theorem World.add_host : (world.add reports).host = world.host := rfl

@[simp] theorem World.add_log : (world.add reports).log = world.log ++ reports.toArray := rfl

@[simp] theorem World.add_nil : world.add [] = world := by
  unfold World.add
  simp

theorem World.add_add : (world.add reports).add more = world.add (reports ++ more) := by
  unfold World.add
  simp

end

namespace Evaluator

section
variable (evaluator : Evaluator State) (problem : Problem)

theorem report_eq (diagnostic : Diagnostic) (world : World State) : evaluator.report diagnostic world =
    world.add (if evaluator.sink = .log then [diagnostic.orAt evaluator.origin] else []) := by
  unfold report World.add
  cases evaluator.sink <;> simp

theorem complain_eq (world : World State) :
    evaluator.complain problem world = world.add (evaluator.written problem) := by
  unfold complain report written World.add
  cases evaluator.sink <;> simp

theorem tell_eq (problems : List Problem) (world : World State) :
    evaluator.tell problems world = world.add (problems.flatMap evaluator.written) := by
  induction problems generalizing world with
  | nil => exact (World.add_nil world).symm
  | cons problem problems ih =>
    have hcons : evaluator.tell (problem :: problems) world =
        evaluator.tell problems (evaluator.complain problem world) := rfl
    rw [hcons, ih, complain_eq, World.add_add, List.flatMap_cons]

theorem written_origin : ∀ report ∈ evaluator.written problem, report.origin = evaluator.origin := by
  unfold written
  cases evaluator.sink <;> simp [Diagnostic.orAt, Diagnostic.about]

theorem written_placed (origin : Origin) : { evaluator with origin := some origin }.written problem =
    (evaluator.written problem).map (Diagnostic.placedAt origin) := by
  unfold written
  cases evaluator.sink <;> rfl

/-- What is reported of a variable that is nowhere. -/
def unknownReport (name : String) : Diagnostic :=
  ⟨.unknownVariable, evaluator.component ++ ": " ++ ("unknown variable '" ++ name ++ "'"), evaluator.origin⟩

/-- What comes into the log of a variable that has been looked up: that there is none, if it has no value. -/
def unresolved (name : String) (value : Option Float) : List Diagnostic :=
  if value = none ∧ evaluator.sink = .log then [evaluator.unknownReport name] else []

theorem resolve_eq (name : String) (world : World State) : evaluator.resolve name world =
    (((evaluator.lookup? world.host name).getD (Number.ofNat 0), (evaluator.lookup? world.host name).isSome),
      world.add (evaluator.unresolved name (evaluator.lookup? world.host name))) := by
  unfold resolve unresolved
  cases evaluator.lookup? world.host name with
  | some value => simp
  | none =>
    have hcomplain : evaluator.complain (.unknownVariable name) world = _ := evaluator.report_eq _ world
    rw [hcomplain]
    cases evaluator.sink <;> rfl

theorem function_eq (name : String) (world : World State) : evaluator.function name world =
    (evaluator.functions.get? name, world.add (if (evaluator.functions.get? name).isSome then []
      else evaluator.written (.callFailure (.unknownFunction name)))) := by
  unfold function
  cases evaluator.functions.get? name with
  | some operation => simp
  | none => simp [complain_eq]

end

end Evaluator

/-! ## Properties of evaluations -/

/-- A property of computations that holds of whole evaluations if it holds of their steps. -/
structure EvalProperty (P : ∀ {α : Type}, Eval State α → Prop) : Prop where
  pure : ∀ {α : Type} (a : α), P (pure a)
  bind : ∀ {α β : Type} {r : Eval State α} {f : α → Eval State β}, P r → (∀ a, P (f a)) → P (r >>= f)

namespace EvalProperty

section
variable {P : ∀ {α : Type}, Eval State α → Prop} {evaluator : Evaluator State} (hP : EvalProperty P)

include hP in
theorem relation : EvalRelation fun r _ => P r := ⟨hP.pure, hP.bind⟩

variable (hmissing : ∀ problem, problem.kind = .arithmetic → P (evaluator.missing problem))
include hP hmissing

theorem finite (maker : String) (value : Value) : P (evaluator.finite maker value) :=
  @EvalRelation.finite State _ evaluator evaluator hP.relation hmissing maker value

theorem apply (op : UnaryOp) (value : Value) : P (evaluator.apply op value) :=
  @EvalRelation.apply State _ evaluator evaluator hP.relation hmissing op value

theorem combine (hmatch : ∀ pattern text, P (evaluator.patternMatch pattern text)) (op : BinaryOp) (a b : Value) :
    P (evaluator.combine op a b) :=
  @EvalRelation.combine State _ evaluator evaluator hP.relation hmissing hmatch op a b

end

end EvalProperty

/-! ## Courses -/

/-- The end of a computation that has come to a state. -/
def resultOf {ε σ α : Type} (outcome : Except ε α) (state : σ) : EStateM.Result ε σ α :=
  match outcome with
  | .ok a => .ok a state
  | .error e => .error e state

/-- What a computation comes to, and the problems that it meets on the way. -/
structure Course (State α : Type) where
  outcome : Except Crash α
  host : Host State
  patterns : PatternCache
  failures : Array CallFailure
  problems : List Problem

namespace Course

variable {α : Type}

/-- Where the computation ends if an evaluator reports into a log. -/
def result (course : Course State α) (writer : Evaluator State) (log : Array Diagnostic) :
    EStateM.Result Crash (Pass State) α :=
  resultOf course.outcome ⟨writer.tell course.problems ⟨course.host, log⟩, course.patterns, course.failures⟩

end Course

namespace Eval

section
variable {α β : Type} {r : Eval State α} {f : α → Eval State β} {writer : Evaluator State} {host : Host State}
  {patterns : PatternCache} {failures : Array CallFailure} {problems : List Problem} {log : Array Diagnostic}
  {pass : Pass State}

theorem bind_result {a : α} {second : Course State β}
    (hr : r pass = Course.result ⟨.ok a, host, patterns, failures, problems⟩ writer log)
    (hf : ∀ log, f a ⟨⟨host, log⟩, patterns, failures⟩ = second.result writer log) :
    (r >>= f) pass = Course.result { second with problems := problems ++ second.problems } writer log := by
  have hworld : writer.tell problems ⟨host, log⟩ = ⟨host, log ++ (problems.flatMap writer.written).toArray⟩ :=
    writer.tell_eq problems _
  rw [bind_of_ok hr, hworld, hf]
  unfold Course.result
  simp [Evaluator.tell_eq, World.add]

theorem bind_crash {crash : Crash}
    (hr : r pass = Course.result ⟨.error crash, host, patterns, failures, problems⟩ writer log) :
    (r >>= f) pass = Course.result ⟨.error crash, host, patterns, failures, problems⟩ writer log :=
  bind_of_error hr

end

/-- The two computations take the same course, whatever is in the log. The first reports as one evaluator does,
and the second as the other does. -/
def Parallel (evaluator other : Evaluator State) {α : Type} (r r' : Eval State α) : Prop :=
  ∀ host patterns failures, ∃ course : Course State α, ∀ log,
    r ⟨⟨host, log⟩, patterns, failures⟩ = course.result evaluator log ∧
      r' ⟨⟨host, log⟩, patterns, failures⟩ = course.result other log

section
variable {evaluator other : Evaluator State} {α β : Type} {r r' : Eval State α}

theorem parallel_pure (a : α) : Parallel evaluator other (pure a) (pure a) :=
  fun host patterns failures => ⟨⟨.ok a, host, patterns, failures, []⟩, fun _ => ⟨rfl, rfl⟩⟩

theorem Parallel.bind {f f' : α → Eval State β} (h : Parallel evaluator other r r')
    (hf : ∀ a, Parallel evaluator other (f a) (f' a)) : Parallel evaluator other (r >>= f) (r' >>= f') := by
  intro host patterns failures
  obtain ⟨⟨outcome, middle, found, listed, problems⟩, hfirst⟩ := h host patterns failures
  cases outcome with
  | error crash =>
    refine ⟨⟨.error crash, middle, found, listed, problems⟩, fun log => ?_⟩
    exact ⟨bind_crash (hfirst log).1, bind_crash (hfirst log).2⟩
  | ok a =>
    -- the second part finds other logs in the two runs, so its course must not hang on the log
    obtain ⟨second, hsecond⟩ := hf a middle found listed
    refine ⟨{ second with problems := problems ++ second.problems }, fun log => ?_⟩
    exact ⟨bind_result (hfirst log).1 fun log => (hsecond log).1, bind_result (hfirst log).2 fun log => (hsecond log).2⟩

theorem parallel_relation (evaluator other : Evaluator State) : EvalRelation (@Parallel State evaluator other) where
  pure := parallel_pure
  bind := Parallel.bind

end

/-- The computation does not crash. -/
def Returns {α : Type} (r : Eval State α) : Prop := ∀ pass, ∃ a after, r pass = .ok a after

section
variable {α β : Type} {r : Eval State α}

theorem Quiet.returns (h : Quiet r) : Returns r := fun pass =>
  let ⟨a, after, hr, _⟩ := h pass
  ⟨a, after, hr⟩

theorem Returns.bind {f : α → Eval State β} (h : Returns r) (hf : ∀ a, Returns (f a)) : Returns (r >>= f) := by
  intro pass
  obtain ⟨a, middle, hr⟩ := h pass
  obtain ⟨b, after, hf⟩ := hf a middle
  exact ⟨b, after, (bind_of_ok hr).trans hf⟩

theorem returns_property : EvalProperty (@Returns State) where
  pure a := (quiet_pure a).returns
  bind h hf := h.bind hf

end

end Eval

/-- No function crashes, whatever it is given. -/
def FunctionTable.Answers (functions : FunctionTable State) : Prop :=
  ∀ name operation, functions.get? name = some operation → ∀ args host,
    ∃ answer after, operation args host = .ok answer after

/-! ## Evaluations -/

namespace Evaluator

open Eval

section
variable (evaluator : Evaluator State) (host : Host State) (patterns : PatternCache) (failures : Array CallFailure)
  (log : Array Diagnostic)

theorem resolve_result (name : String) : evaluator.steps.resolve name ⟨⟨host, log⟩, patterns, failures⟩ =
    Course.result ⟨.ok (.number ((evaluator.lookup? host name).getD (Number.ofNat 0))), host, patterns, failures,
      if (evaluator.lookup? host name).isNone then [.unknownVariable name] else []⟩ evaluator log := by
  have hsteps : evaluator.steps.resolve name =
      Eval.ofWorld (modifyGet (evaluator.resolve name)) >>= fun result => return .number result.1 := rfl
  rw [hsteps, bind_of_ok (ofWorld_modifyGet _ _)]
  unfold resolve
  cases evaluator.lookup? host name <;> rfl

theorem patternMatch_result (pattern text : String) :
    evaluator.patternMatch pattern text ⟨⟨host, log⟩, patterns, failures⟩ =
      Course.result ⟨.ok ((patterns.find evaluator.engine pattern).matcher.map (· text)), host,
        (patterns.find evaluator.engine pattern).cache, failures,
        (patterns.find evaluator.engine pattern).error.toList.map (.badPattern pattern)⟩ evaluator log :=
  evaluator.patternMatch_find pattern text _

end

section
variable (evaluator other : Evaluator State)

theorem parallel_missing (problem : Problem) (_ : problem.kind = .arithmetic) :
    Parallel evaluator other (evaluator.missing problem) (other.missing problem) :=
  fun host patterns failures => ⟨⟨.ok .zero, host, patterns, failures, [problem]⟩, fun _ => ⟨rfl, rfl⟩⟩

end

section
variable {evaluator other : Evaluator State}

theorem parallel_patternMatch (hengine : other.engine = evaluator.engine) (pattern text : String) :
    Parallel evaluator other (evaluator.patternMatch pattern text) (other.patternMatch pattern text) := by
  refine fun _ _ _ => ⟨_, fun _ => ⟨evaluator.patternMatch_result _ _ _ _ _ _, ?_⟩⟩
  rw [← hengine]
  exact other.patternMatch_result _ _ _ _ _ _

theorem parallel_combine (hengine : other.engine = evaluator.engine) (op : BinaryOp) (a b : Value) :
    Parallel evaluator other (evaluator.combine op a b) (other.combine op a b) :=
  (parallel_relation evaluator other).combine (parallel_missing evaluator other) (parallel_patternMatch hengine) op a b

theorem parallel_resolve (hlookup : ∀ host name, other.lookup? host name = evaluator.lookup? host name)
    (name : String) : Parallel evaluator other (evaluator.steps.resolve name) (other.steps.resolve name) := by
  refine fun host _ _ => ⟨_, fun _ => ⟨evaluator.resolve_result _ _ _ _ _, ?_⟩⟩
  rw [← hlookup host name]
  exact other.resolve_result _ _ _ _ _

theorem parallel_call (hfunctions : other.functions = evaluator.functions) (name : String) (args : List Value) :
    Parallel evaluator other (Eval.ofWorld (evaluator.call name args)) (Eval.ofWorld (other.call name args)) := by
  intro host patterns failures
  unfold Eval.ofWorld
  cases hfound : evaluator.functions.get? name with
  | none =>
    refine ⟨⟨.ok (.error (.unknownFunction name)), host, patterns, failures, [.callFailure (.unknownFunction name)]⟩,
      fun log => ?_⟩
    rw [call_of_none hfound, call_of_none (hfunctions ▸ hfound)]
    exact ⟨rfl, rfl⟩
  | some operation =>
    simp only [call_of_some hfound, call_of_some (hfunctions ▸ hfound : other.functions.get? name = some operation)]
    cases operation args host with
    | ok answer after =>
      cases answer with
      | ok value => exact ⟨⟨.ok (.ok value), after, patterns, failures, []⟩, fun _ => ⟨rfl, rfl⟩⟩
      | error reason =>
        exact ⟨⟨.ok (.error (.failed name reason)), after, patterns, failures, [.callFailure (.failed name reason)]⟩,
          fun _ => ⟨rfl, rfl⟩⟩
    | error crash after => exact ⟨⟨.error crash, after, patterns, failures, []⟩, fun _ => ⟨rfl, rfl⟩⟩

theorem parallel_callNoting (hfunctions : other.functions = evaluator.functions) (name : String) (args : List Value) :
    Parallel evaluator other (evaluator.callNoting name args) (other.callNoting name args) := by
  refine (parallel_call hfunctions name args).bind fun answer => ?_
  cases answer with
  | ok value =>
    exact (parallel_relation evaluator other).finite (parallel_missing evaluator other) name value
  | error failure =>
    exact fun host patterns failures => ⟨⟨.ok .zero, host, patterns, failures.push failure, []⟩, fun _ => ⟨rfl, rfl⟩⟩

/-- Evaluators with the same variables, functions and engine take the same course. -/
theorem eval_parallel (hlookup : ∀ host name, other.lookup? host name = evaluator.lookup? host name)
    (hfunctions : other.functions = evaluator.functions) (hengine : other.engine = evaluator.engine) (e : Expr) :
    Parallel evaluator other (evaluator.eval e) (other.eval e) := by
  have hsteps : Steps.Related (@Parallel State evaluator other) evaluator.steps other.steps :=
    ⟨parallel_resolve hlookup, parallel_callNoting hfunctions,
      (parallel_relation evaluator other).apply (parallel_missing evaluator other),
      parallel_combine hengine⟩
  rw [eval_eq_steps, eval_eq_steps]
  exact Steps.eval_related (parallel_relation evaluator other) hsteps e

end

/-! ### Without a crash -/

theorem returns_missing (evaluator : Evaluator State) (problem : Problem) (hkind : problem.kind = .arithmetic) :
    Returns (evaluator.missing problem) :=
  (quiet_missing evaluator problem hkind).returns

section
variable {evaluator : Evaluator State}

theorem returns_callNoting (h : evaluator.functions.Answers) (name : String) (args : List Value) :
    Returns (evaluator.callNoting name args) := by
  refine Returns.bind (fun pass => ?_) fun answer => ?_
  · unfold Eval.ofWorld
    cases hfound : evaluator.functions.get? name with
    | none =>
      rw [call_of_none hfound]
      exact ⟨_, _, rfl⟩
    | some operation =>
      obtain ⟨answer, host, hanswer⟩ := h name operation hfound args pass.world.host
      rw [call_of_some hfound, hanswer]
      cases answer <;> exact ⟨_, _, rfl⟩
  · cases answer with
    | ok value => exact returns_property.finite (returns_missing evaluator) name value
    | error failure => exact fun pass => ⟨_, _, rfl⟩

theorem eval_returns (h : evaluator.functions.Answers) (e : Expr) : Returns (evaluator.eval e) := by
  have hmatch (pattern text : String) := (quiet_patternMatch evaluator pattern text).returns
  have hresolve (name : String) : Returns (evaluator.steps.resolve name) :=
    ((quiet_modifyGet _).bind fun _ => quiet_pure _).returns
  have hsteps : Steps.Related (fun r _ => Returns r) evaluator.steps evaluator.steps :=
    ⟨hresolve, returns_callNoting h, returns_property.apply (returns_missing evaluator),
      returns_property.combine (returns_missing evaluator) hmatch⟩
  rw [eval_eq_steps]
  exact Steps.eval_related returns_property.relation hsteps e

end

/-! ### At another place -/

/-- A place given for one evaluation only relocates its reports. It comes to the same, or to the same crash of
some function, leaves the same host and the same evaluator, whose own place is as before, and reports the same
from the given place. -/
theorem evaluateAt_relocates (evaluator : Evaluator State) (e : Expr) (origin : Origin) (world : World State) :
    ∃ patterns host reports, (∀ report ∈ reports, report.origin = evaluator.origin) ∧
      ((∃ evaluation,
          evaluator.evaluate e world = .ok (evaluation, { evaluator with patterns })
            (World.add ⟨host, world.log⟩ reports) ∧
          evaluator.evaluateAt e origin world = .ok (evaluation, { evaluator with patterns })
            (World.add ⟨host, world.log⟩ (reports.map (Diagnostic.placedAt origin)))) ∨
        ∃ crash, ¬ evaluator.functions.Answers ∧
          evaluator.evaluate e world = .error crash (World.add ⟨host, world.log⟩ reports) ∧
          evaluator.evaluateAt e origin world =
            .error crash (World.add ⟨host, world.log⟩ (reports.map (Diagnostic.placedAt origin)))) := by
  have hlookup (host : Host State) (name : String) :
      { evaluator with origin := some origin }.lookup? host name = evaluator.lookup? host name := rfl
  obtain ⟨⟨outcome, host, patterns, failures, problems⟩, hcourse⟩ :=
    eval_parallel hlookup rfl rfl e world.host evaluator.patterns #[]
  obtain ⟨heval, hplaced⟩ := hcourse world.log
  have hreports : problems.flatMap { evaluator with origin := some origin }.written =
      (problems.flatMap evaluator.written).map (Diagnostic.placedAt origin) := by
    rw [List.map_flatMap]
    exact congrArg (problems.flatMap ·) (funext fun problem => evaluator.written_placed problem origin)
  refine ⟨patterns, host, problems.flatMap evaluator.written, ?_, ?_⟩
  · intro report hreport
    obtain ⟨problem, -, hwritten⟩ := List.mem_flatMap.1 hreport
    exact evaluator.written_origin problem report hwritten
  · unfold Course.result at heval hplaced
    rw [tell_eq] at heval hplaced
    rw [evaluateAt_eq, ← hreports]
    cases outcome with
    | ok value =>
      refine .inl ⟨⟨value, failures.toList⟩, evaluate_of_ok heval, ?_⟩
      rw [hplaced]
      rfl
    | error crash =>
      refine .inr ⟨crash, fun hanswers => ?_, evaluate_of_error heval, ?_⟩
      · obtain ⟨value, after, hvalue⟩ := eval_returns hanswers e ⟨world, evaluator.patterns, #[]⟩
        cases hvalue.symm.trans heval
      · rw [hplaced]
        rfl

/-- Each kind of report of an evaluation, and an evaluator that has a place of its own. -/
theorem evaluateAt_relocates_everyKind :
    let evaluator : Evaluator Unit := { (simulation .words "c" : Evaluator Unit) with
      origin := some ⟨"old.scn", 1⟩, functions := NameTable.empty.set "fail" (Operation.failing "no") }
    ∃ e evaluation after host, ∃ reports : List Diagnostic,
      Expr.parse "fail(x) / 0 + ('a' =/ '(') + g(1)" "c" = .ok e ∧
        evaluator.evaluateAt e ⟨"new.scn", 7⟩ ⟨⟨.empty, ()⟩, #[]⟩ =
          .ok (evaluation, after) (World.add ⟨host, #[]⟩ (reports.map (Diagnostic.placedAt ⟨"new.scn", 7⟩))) ∧
        after.origin = some ⟨"old.scn", 1⟩ ∧ (∀ report ∈ reports, report.origin = some ⟨"old.scn", 1⟩) ∧
        reports.map Diagnostic.kind =
          [.unknownVariable, .callFailed, .arithmetic, .pattern, .unknownFunction] := by
  intro evaluator
  have hruns : ((Expr.parse "fail(x) / 0 + ('a' =/ '(') + g(1)" "c").toOption.any fun e =>
      runPasses (evaluator.evaluate e ⟨⟨.empty, ()⟩, #[]⟩) fun _ found => found.log.toList.map Diagnostic.kind ==
        [.unknownVariable, .callFailed, .arithmetic, .pattern, .unknownFunction]) = true := by decide +kernel
  cases hparse : Expr.parse "fail(x) / 0 + ('a' =/ '(') + g(1)" "c" with
  | error error => simp [hparse, Except.toOption] at hruns
  | ok e =>
    obtain ⟨patterns, host, reports, horigin, hresult⟩ :=
      evaluator.evaluateAt_relocates e ⟨"new.scn", 7⟩ ⟨⟨.empty, ()⟩, #[]⟩
    simp only [hparse, Except.toOption, Option.any_some] at hruns
    rcases hresult with ⟨evaluation, heval, hplaced⟩ | ⟨crash, -, heval, -⟩
    · simp only [heval, runPasses, beq_iff_eq] at hruns
      exact ⟨e, evaluation, _, host, reports, rfl, hplaced, rfl, horigin, by simpa using hruns⟩
    · simp [heval, runPasses] at hruns

end Evaluator

end ScenarioScript
