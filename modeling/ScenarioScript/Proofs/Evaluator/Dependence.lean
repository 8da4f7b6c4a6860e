import ScenarioScript.Proofs.Evaluator.Failures

/-!
# The variables that an evaluation depends on

An evaluation looks up no variables but those that its expression lists. So two evaluators take the same course
if they find the same under these names, whatever else there is in their tables.
-/

namespace ScenarioScript

variable {State : Type}

/-! ## Operations -/

/-- The operation neither reads nor writes globals. It may read and write the state of the host. -/
def Operation.IgnoresGlobals (operation : Operation State) : Prop :=
  ∀ args state, ∃ (outcome : Except Crash (Except String Value)) (after : State), ∀ globals,
    operation args ⟨globals, state⟩ = resultOf outcome ⟨globals, after⟩

theorem Operation.counting_ignoresGlobals : counting.IgnoresGlobals :=
  fun _ state => ⟨.ok (.ok (.number (Number.ofNat state))), state + 1, fun _ => rfl⟩

theorem FunctionTable.simulation_ignoresGlobals {name : String} {operation : Operation State}
    (h : simulation.get? name = some operation) (hname : name ≠ "distanceTo") : operation.IgnoresGlobals := by
  intro args state
  rw [simulation, NameTable.get?_set, if_neg hname] at h
  obtain ⟨⟨_, f⟩, -, hpair⟩ := List.mem_map.1 (NameTable.mem_of_get?_ofList h)
  cases hpair
  refine ⟨(f args).toAnswer, state, fun globals => ?_⟩
  rw [Standard.toOperation_eq]
  cases (f args).toAnswer <;> rfl

/-! ## Courses with two tables of globals -/

/-- The course with other globals, if nothing on the way reads or writes globals. -/
def Course.on {α : Type} (course : Course State α) (globals : VarTable) : Course State α :=
  { course with host := { course.host with globals } }

namespace Eval

/-- From one state of the host the computations take the same course, each with its globals, which it leaves as they
are. -/
def Abreast (globals otherGlobals : VarTable) (evaluator other : Evaluator State) {α : Type} (r r' : Eval State α) :
    Prop :=
  ∀ state patterns failures, ∃ course : Course State α, ∀ log,
    r ⟨⟨⟨globals, state⟩, log⟩, patterns, failures⟩ = (course.on globals).result evaluator log ∧
      r' ⟨⟨⟨otherGlobals, state⟩, log⟩, patterns, failures⟩ = (course.on otherGlobals).result other log

section
variable {globals otherGlobals : VarTable} {evaluator other : Evaluator State} {α β : Type} {r r' : Eval State α}

theorem abreast_pure (a : α) : Abreast globals otherGlobals evaluator other (pure a) (pure a) :=
  fun state patterns failures => ⟨⟨.ok a, ⟨globals, state⟩, patterns, failures, []⟩, fun _ => ⟨rfl, rfl⟩⟩

theorem Abreast.bind {f f' : α → Eval State β} (h : Abreast globals otherGlobals evaluator other r r')
    (hf : ∀ a, Abreast globals otherGlobals evaluator other (f a) (f' a)) :
    Abreast globals otherGlobals evaluator other (r >>= f) (r' >>= f') := by
  intro state patterns failures
  obtain ⟨⟨outcome, middle, found, listed, problems⟩, hfirst⟩ := h state patterns failures
  cases outcome with
  | error crash =>
    refine ⟨⟨.error crash, middle, found, listed, problems⟩, fun log => ?_⟩
    exact ⟨bind_crash (hfirst log).1, bind_crash (hfirst log).2⟩
  | ok a =>
    -- the state of the host may be another one by now, but it is still the same for both
    obtain ⟨second, hsecond⟩ := hf a middle.state found listed
    refine ⟨{ second with problems := problems ++ second.problems }, fun log => ?_⟩
    exact ⟨bind_result (hfirst log).1 fun log => (hsecond log).1, bind_result (hfirst log).2 fun log => (hsecond log).2⟩

theorem abreast_relation (globals otherGlobals : VarTable) (evaluator other : Evaluator State) :
    EvalRelation (@Abreast State globals otherGlobals evaluator other) where
  pure := abreast_pure
  bind := Abreast.bind

end

end Eval

namespace Evaluator

open Eval

/-- The two evaluators have one engine, find the same under some names, and call some functions that neither read nor
write globals. -/
structure AbreastOn (globals otherGlobals : VarTable) (names calls : List String)
    (evaluator other : Evaluator State) : Prop where
  engine : other.engine = evaluator.engine
  lookup : ∀ name ∈ names, ∀ state,
    other.lookup? ⟨otherGlobals, state⟩ name = evaluator.lookup? ⟨globals, state⟩ name
  function : ∀ name ∈ calls, other.functions.get? name = evaluator.functions.get? name
  ignoresGlobals : ∀ name ∈ calls, ∀ operation, evaluator.functions.get? name = some operation →
    operation.IgnoresGlobals

/-! ## Steps -/

section
variable {globals otherGlobals : VarTable} {evaluator other : Evaluator State} {names calls : List String}
  {name : String}

variable (evaluator other) in
theorem abreast_missing (problem : Problem) (_ : problem.kind = .arithmetic) :
    Abreast globals otherGlobals evaluator other (evaluator.missing problem) (other.missing problem) :=
  fun state patterns failures =>
    ⟨⟨.ok .zero, ⟨globals, state⟩, patterns, failures, [problem]⟩, fun _ => ⟨rfl, rfl⟩⟩

theorem abreast_patternMatch (hengine : other.engine = evaluator.engine) (pattern text : String) :
    Abreast globals otherGlobals evaluator other (evaluator.patternMatch pattern text)
      (other.patternMatch pattern text) := by
  refine fun state _ _ => ⟨⟨_, ⟨globals, state⟩, _, _, _⟩,
    fun _ => ⟨evaluator.patternMatch_result _ _ _ _ _ _, ?_⟩⟩
  rw [← hengine]
  exact other.patternMatch_result _ _ _ _ _ _

theorem abreast_combine (hengine : other.engine = evaluator.engine) (op : BinaryOp) (a b : Value) :
    Abreast globals otherGlobals evaluator other (evaluator.combine op a b) (other.combine op a b) :=
  (abreast_relation globals otherGlobals evaluator other).combine (abreast_missing evaluator other)
    (abreast_patternMatch hengine) op a b

theorem AbreastOn.resolve (h : AbreastOn globals otherGlobals names calls evaluator other) (hname : name ∈ names) :
    Abreast globals otherGlobals evaluator other (evaluator.steps.resolve name) (other.steps.resolve name) := by
  refine fun state _ _ => ⟨⟨_, ⟨globals, state⟩, _, _, _⟩, fun _ => ⟨evaluator.resolve_result _ _ _ _ _, ?_⟩⟩
  rw [← h.lookup name hname state]
  exact other.resolve_result _ _ _ _ _

theorem AbreastOn.call (h : AbreastOn globals otherGlobals names calls evaluator other) (hname : name ∈ calls)
    (args : List Value) : Abreast globals otherGlobals evaluator other (Eval.ofWorld (evaluator.call name args))
      (Eval.ofWorld (other.call name args)) := by
  intro state patterns failures
  have hfunction := h.function name hname
  unfold Eval.ofWorld
  cases hfound : evaluator.functions.get? name with
  | none =>
    refine ⟨⟨.ok (.error (.unknownFunction name)), ⟨globals, state⟩, patterns, failures,
      [.callFailure (.unknownFunction name)]⟩, fun log => ?_⟩
    rw [call_of_none hfound, call_of_none (hfunction.trans hfound)]
    exact ⟨rfl, rfl⟩
  | some operation =>
    simp only [call_of_some hfound, call_of_some (hfunction.trans hfound)]
    obtain ⟨outcome, after, hoperation⟩ := h.ignoresGlobals name hname operation hfound args state
    rw [hoperation, hoperation]
    match outcome with
    | .ok (.ok value) => exact ⟨⟨.ok (.ok value), ⟨globals, after⟩, patterns, failures, []⟩, fun _ => ⟨rfl, rfl⟩⟩
    | .ok (.error reason) =>
      exact ⟨⟨.ok (.error (.failed name reason)), ⟨globals, after⟩, patterns, failures,
        [.callFailure (.failed name reason)]⟩, fun _ => ⟨rfl, rfl⟩⟩
    | .error crash => exact ⟨⟨.error crash, ⟨globals, after⟩, patterns, failures, []⟩, fun _ => ⟨rfl, rfl⟩⟩

theorem AbreastOn.callNoting (h : AbreastOn globals otherGlobals names calls evaluator other) (hname : name ∈ calls)
    (args : List Value) :
    Abreast globals otherGlobals evaluator other (evaluator.callNoting name args) (other.callNoting name args) := by
  refine (h.call hname args).bind fun answer => ?_
  cases answer with
  | ok value =>
    exact (abreast_relation globals otherGlobals evaluator other).finite (abreast_missing evaluator other) name value
  | error failure =>
    exact fun state patterns failures =>
      ⟨⟨.ok .zero, ⟨globals, state⟩, patterns, failures.push failure, []⟩, fun _ => ⟨rfl, rfl⟩⟩

/-- The two evaluators take the same course through an expression if they find the same under its names. -/
theorem AbreastOn.eval {e : Expr}
    (h : AbreastOn globals otherGlobals e.variableNames e.functionNames evaluator other) :
    Abreast globals otherGlobals evaluator other (evaluator.eval e) (other.eval e) := by
  have hrelation := abreast_relation globals otherGlobals evaluator other
  have hsteps : Steps.RelatedOn (@Abreast State globals otherGlobals evaluator other) e.variableNames
      e.functionNames evaluator.steps other.steps :=
    ⟨fun _ => h.resolve, fun _ => h.callNoting, hrelation.apply (abreast_missing evaluator other),
      abreast_combine h.engine⟩
  rw [eval_eq_steps, eval_eq_steps]
  exact Steps.eval_relatedOn hrelation hsteps e (List.Subset.refl _) (List.Subset.refl _)

end

/-! ## Evaluations -/

/-- What of some reports comes into the log. -/
def heard (evaluator : Evaluator State) (reports : List Diagnostic) : List Diagnostic :=
  if evaluator.sink = .log then reports else []

theorem flatMap_written_eq_heard (evaluator : Evaluator State) (problems : List Problem) :
    problems.flatMap evaluator.written = evaluator.heard (problems.map fun problem =>
      (Diagnostic.about evaluator.component problem).orAt evaluator.origin) := by
  unfold heard
  split
  · rename_i hsink
    exact flatMap_written hsink problems
  · rename_i hsink
    refine List.flatMap_eq_nil_iff.2 fun problem _ => ?_
    unfold written
    split
    · rename_i hlog
      exact absurd hlog hsink
    · rfl

theorem lookup?_eq_of_resolve {evaluator other : Evaluator State} {name : String} {world otherWorld : World State}
    (h : (other.resolve name otherWorld).1 = (evaluator.resolve name world).1) :
    other.lookup? otherWorld.host name = evaluator.lookup? world.host name := by
  rw [resolve_eq, resolve_eq] at h
  obtain ⟨hvalue, hfound⟩ := Prod.mk.inj h
  cases hother : other.lookup? otherWorld.host name <;> cases hone : evaluator.lookup? world.host name <;>
    simp_all

/-- An evaluation depends on no variables but those that its expression lists. With the same for these, and with
functions that neither read nor write globals, two evaluators with the same component, place, engine and cache come to
the same value and failures, or to the same crash, leave the same cache and make the same reports. Neither changes its
globals. Beside the globals the functions may use the state of the host, which is the same for both before and after. -/
theorem evaluate_abreast {evaluator other : Evaluator State} {e : Expr} {world otherWorld : World State}
    (hcomponent : other.component = evaluator.component) (horigin : other.origin = evaluator.origin)
    (hengine : other.engine = evaluator.engine) (hpatterns : other.patterns = evaluator.patterns)
    (hstate : otherWorld.host.state = world.host.state)
    (hfunctions : ∀ name ∈ e.functionNames, other.functions.get? name = evaluator.functions.get? name)
    (hblind : ∀ name ∈ e.functionNames, ∀ operation, evaluator.functions.get? name = some operation →
      operation.IgnoresGlobals)
    (hvariables : ∀ name ∈ e.variableNames, (other.resolve name otherWorld).1 = (evaluator.resolve name world).1) :
    ∃ (outcome : Except Crash Evaluation) (patterns : PatternCache) (state : State) (reports : List Diagnostic),
      evaluator.evaluate e world =
        resultOf (outcome.map fun evaluation => (evaluation, { evaluator with patterns }))
          (World.add ⟨⟨world.host.globals, state⟩, world.log⟩ (evaluator.heard reports)) ∧
      other.evaluate e otherWorld =
        resultOf (outcome.map fun evaluation => (evaluation, { other with patterns }))
          (World.add ⟨⟨otherWorld.host.globals, state⟩, otherWorld.log⟩ (other.heard reports)) := by
  have habreast : AbreastOn world.host.globals otherWorld.host.globals e.variableNames e.functionNames evaluator
      other := by
    refine ⟨hengine, fun name hname state => ?_, hfunctions, hblind⟩
    have hone : evaluator.lookup? ⟨world.host.globals, state⟩ name = evaluator.lookup? world.host name :=
      evaluator.lookup?_congr rfl
    have hother : other.lookup? ⟨otherWorld.host.globals, state⟩ name = other.lookup? otherWorld.host name :=
      other.lookup?_congr rfl
    rw [hone, hother]
    exact lookup?_eq_of_resolve (hvariables name hname)
  obtain ⟨⟨outcome, host, patterns, failures, problems⟩, hcourse⟩ :=
    habreast.eval world.host.state evaluator.patterns #[]
  refine ⟨outcome.map fun value => ⟨value, failures.toList⟩, patterns, host.state, problems.map fun problem =>
    (Diagnostic.about evaluator.component problem).orAt evaluator.origin, ?_, ?_⟩
  · rw [evaluate_of_course (hcourse world.log).1, ← flatMap_written_eq_heard]
    cases outcome <;> rfl
  · have hother := (hcourse otherWorld.log).2
    rw [← hpatterns, ← hstate] at hother
    rw [evaluate_of_course hother, ← hcomponent, ← horigin, ← flatMap_written_eq_heard]
    cases outcome <;> rfl

/-- One evaluator has the variable as a local, the other one among the globals. Each has more of its own, and to
both a variable and a function are unknown. A function counts its calls. -/
theorem evaluate_abreast_localAndGlobal :
    let functions : FunctionTable Nat := NameTable.set FunctionTable.simulation "count" Operation.counting
    let one : Evaluator Nat := { (simulation .words "c" : Evaluator Nat) with
      locals := NameTable.empty.set "x" (Number.ofNat 1), source := .nowhere, functions }
    let two : Evaluator Nat := { (simulation .words "c" : Evaluator Nat) with
      locals := NameTable.empty.set "y" (Number.ofNat 7), functions }
    let world : World Nat := ⟨⟨.empty, 4⟩, #[]⟩
    let otherWorld : World Nat := ⟨⟨(NameTable.empty.set "x" (Number.ofNat 1)).set "z" (Number.ofNat 5), 4⟩, #[]⟩
    ∃ e evaluation patterns, ∃ reports : List Diagnostic,
      Expr.parse "(x > 0 && max(x, u)) * count() + f(3) / 0" "c" = .ok e ∧
        (∀ name ∈ e.variableNames, (two.resolve name otherWorld).1 = (one.resolve name world).1) ∧
        one.evaluate e world =
          .ok (evaluation, { one with patterns }) (World.add ⟨⟨world.host.globals, 5⟩, #[]⟩ reports) ∧
        two.evaluate e otherWorld =
          .ok (evaluation, { two with patterns }) (World.add ⟨⟨otherWorld.host.globals, 5⟩, #[]⟩ reports) ∧
        evaluation = ⟨.number (Number.ofNat 4), [.unknownFunction "f"]⟩ ∧
        reports.map Diagnostic.kind = [.unknownVariable, .unknownFunction, .arithmetic] := by
  intro functions one two world otherWorld
  have hruns : ((Expr.parse "(x > 0 && max(x, u)) * count() + f(3) / 0" "c").toOption.any fun e =>
      e.functionNames == ["max", "count", "f"] &&
        e.variableNames.all (fun name => (two.resolve name otherWorld).1 = (one.resolve name world).1) &&
        runPasses (one.evaluate e world) fun result found =>
          result.1 == ⟨.number (Number.ofNat 4), [.unknownFunction "f"]⟩ && found.host.state == 5 &&
            found.log.toList.map Diagnostic.kind == [.unknownVariable, .unknownFunction, .arithmetic]) = true := by
    decide +kernel
  obtain ⟨e, hparse, hruns⟩ := exists_ok_of_any hruns
  simp only [Bool.and_eq_true, beq_iff_eq, List.all_eq_true, decide_eq_true_eq] at hruns
  obtain ⟨⟨hcalls, hvariables⟩, hruns⟩ := hruns
  have hblind (name : String) (hname : name ∈ e.functionNames) (operation : Operation Nat)
      (hfound : one.functions.get? name = some operation) : operation.IgnoresGlobals := by
    have hset : NameTable.get? (NameTable.set FunctionTable.simulation "count" Operation.counting) name =
        some operation := hfound
    rw [NameTable.get?_set] at hset
    split at hset
    · cases hset
      exact Operation.counting_ignoresGlobals
    · refine FunctionTable.simulation_ignoresGlobals hset fun hdistance => ?_
      rw [hcalls, hdistance] at hname
      simp at hname
  obtain ⟨outcome, patterns, state, reports, hone, htwo⟩ :=
    @evaluate_abreast _ one two e world otherWorld rfl rfl rfl rfl rfl (fun _ _ => rfl) hblind hvariables
  rw [hone] at hruns
  cases outcome with
  | error crash => cases hruns
  | ok evaluation =>
    obtain ⟨hresult, hkinds⟩ := Bool.and_eq_true_iff.1 hruns
    obtain ⟨hevaluation, hstate⟩ := Bool.and_eq_true_iff.1 hresult
    obtain rfl : state = 5 := eq_of_beq hstate
    have hlog : (World.add world (one.heard reports)).log.toList = reports := by
      have hheard : one.heard reports = reports := rfl
      simp [hheard, world]
    exact ⟨e, evaluation, patterns, reports, hparse, hvariables, hone, htwo, eq_of_beq hevaluation,
      hlog ▸ eq_of_beq hkinds⟩

end Evaluator

end ScenarioScript
