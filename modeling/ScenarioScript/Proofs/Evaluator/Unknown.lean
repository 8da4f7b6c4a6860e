import ScenarioScript.Proofs.Evaluator.Failures

/-!
# Unknown variables among the problems

An evaluation comes to the variables of its expression from left to right, and reports each time that there is no
such variable. It leaves variables out only where an operator or a conditional leaves out an operand.
-/

namespace ScenarioScript

variable {State : Type}

/-- The variable that is nowhere, if this is the problem. -/
def Problem.unknown? : Problem → Option String
  | unknownVariable name => some name
  | _ => none

theorem Problem.unknown?_eq_none {problem : Problem} (h : problem.kind ≠ .unknownVariable) :
    problem.unknown? = none := by
  cases problem with
  | unknownVariable name => exact absurd rfl h
  | _ => rfl

namespace Expr

mutual

/-- Nothing in the expression can leave out an operand. -/
def isStraight : Expr → Bool
  | literal _ | var _ => true
  | call _ args => areStraight args
  | unary _ operand => operand.isStraight
  | binary op left right => op != .and && op != .or && left.isStraight && right.isStraight
  | conditional _ _ _ => false

def areStraight : List Expr → Bool
  | [] => true
  | e :: es => e.isStraight && areStraight es

end

end Expr

/-! ## Courses -/

namespace Course

/-- The variables that are unknown on the way. -/
def unknown {α : Type} (course : Course State α) : List String := course.problems.filterMap Problem.unknown?

/-- The course misses some of the names in their order. If it is straight it misses them all, unless it crashes. -/
structure Misses {α : Type} (course : Course State α) (isStraight : Prop) (names : List String) : Prop where
  sublist : course.unknown.Sublist names
  isPrefix : isStraight → course.unknown <+: names
  eq : isStraight → ∀ a, course.outcome = .ok a → course.unknown = names

section
variable {α β : Type} {course : Course State α} {isStraight goesOn : Prop} {names more : List String}

theorem misses_of_eq (h : course.unknown = names) : course.Misses isStraight names where
  sublist := h ▸ List.Sublist.refl _
  isPrefix _ := h ▸ List.prefix_rfl
  eq _ _ _ := h

theorem Misses.crash {crash : Crash} (h : course.Misses isStraight names) :
    Misses { course with outcome := (.error crash : Except Crash β) } (isStraight ∧ goesOn) (names ++ more) where
  sublist := List.sublist_append_of_sublist_left h.sublist
  isPrefix hstraight := (h.isPrefix hstraight.1).trans (List.prefix_append names more)
  eq _ _ hok := by cases hok

theorem Misses.append {a : α} {second : Course State β} (h : course.Misses isStraight names)
    (hok : course.outcome = .ok a) (hsecond : second.Misses goesOn more) :
    Misses { second with problems := course.problems ++ second.problems } (isStraight ∧ goesOn) (names ++ more) := by
  have hunknown : unknown { second with problems := course.problems ++ second.problems } =
      course.unknown ++ second.unknown := List.filterMap_append
  constructor
  · rw [hunknown]
    exact h.sublist.append hsecond.sublist
  · rintro ⟨hstraight, hgoes⟩
    rw [hunknown, h.eq hstraight a hok]
    exact (List.prefix_append_right_inj names).2 (hsecond.isPrefix hgoes)
  · rintro ⟨hstraight, hgoes⟩ b hb
    rw [hunknown, h.eq hstraight a hok, hsecond.eq hgoes b hb]

theorem Misses.weaken (h : course.Misses isStraight names) (hnames : names.Sublist more) :
    course.Misses False more where
  sublist := h.sublist.trans hnames
  isPrefix hfalse := hfalse.elim
  eq hfalse := hfalse.elim

theorem Misses.imp (h : course.Misses isStraight names) (hstraight : goesOn → isStraight) :
    course.Misses goesOn names :=
  ⟨h.sublist, fun hgoes => h.isPrefix (hstraight hgoes), fun hgoes => h.eq (hstraight hgoes)⟩

end

end Course

namespace Eval

/-- On a host with these globals the computation misses some of the names in their order. It leaves the globals as they
are unless it crashes. -/
def Misses (evaluator : Evaluator State) (globals : VarTable) {α : Type} (r : Eval State α) (isStraight : Prop)
    (names : List String) : Prop :=
  ∀ host : Host State, host.globals = globals → ∀ patterns failures, ∃ course : Course State α,
    (∀ a, course.outcome = .ok a → course.host.globals = globals) ∧ course.Misses isStraight names ∧
    ∀ log, r ⟨⟨host, log⟩, patterns, failures⟩ = course.result evaluator log

section
variable {evaluator : Evaluator State} {globals : VarTable} {α β : Type} {r : Eval State α} {isStraight goesOn : Prop}
  {names more : List String}

theorem misses_pure (a : α) : Misses evaluator globals (pure a) isStraight [] := fun host hhost patterns failures =>
  ⟨⟨.ok a, host, patterns, failures, []⟩, fun _ _ => hhost, Course.misses_of_eq rfl, fun _ => rfl⟩

theorem Misses.bind {f : α → Eval State β} (h : Misses evaluator globals r isStraight names)
    (hf : ∀ a, Misses evaluator globals (f a) goesOn more) :
    Misses evaluator globals (r >>= f) (isStraight ∧ goesOn) (names ++ more) := by
  intro host hhost patterns failures
  obtain ⟨⟨outcome, middle, found, listed, problems⟩, hmiddle, hmisses, hfirst⟩ := h host hhost patterns failures
  cases outcome with
  | error crash =>
    refine ⟨⟨.error crash, middle, found, listed, problems⟩, ?_, hmisses.crash, fun log => bind_crash (hfirst log)⟩
    rintro _ ⟨⟩
  | ok a =>
    obtain ⟨second, hafter, hsecond, hrest⟩ := hf a middle (hmiddle a rfl) found listed
    exact ⟨{ second with problems := problems ++ second.problems }, hafter, hmisses.append rfl hsecond,
      fun log => bind_result (hfirst log) hrest⟩

theorem Misses.weaken (h : Misses evaluator globals r isStraight names) (hnames : names.Sublist more) :
    Misses evaluator globals r False more := fun host hhost patterns failures =>
  let ⟨course, hafter, hmisses, hcourse⟩ := h host hhost patterns failures
  ⟨course, hafter, hmisses.weaken hnames, hcourse⟩

theorem Misses.imp (h : Misses evaluator globals r isStraight names) (hstraight : goesOn → isStraight) :
    Misses evaluator globals r goesOn names := fun host hhost patterns failures =>
  let ⟨course, hafter, hmisses, hcourse⟩ := h host hhost patterns failures
  ⟨course, hafter, hmisses.imp hstraight, hcourse⟩

theorem missesNothing_property (evaluator : Evaluator State) (globals : VarTable) :
    EvalProperty fun r => Misses evaluator globals r True [] where
  pure := misses_pure
  bind h hf := (h.bind hf).imp fun _ => ⟨trivial, trivial⟩

theorem Misses.bindPart {f : α → Eval State β} (h : Misses evaluator globals r isStraight names)
    (hf : ∀ a, Misses evaluator globals (f a) False more) : Misses evaluator globals (r >>= f) False (names ++ more) :=
  (h.bind hf).imp fun hfalse => hfalse.elim

theorem Misses.bindNothing {f : α → Eval State β} (h : Misses evaluator globals r isStraight names)
    (hf : ∀ a, Misses evaluator globals (f a) True []) : Misses evaluator globals (r >>= f) isStraight names := by
  have hbind := h.bind hf
  rw [List.append_nil] at hbind
  exact hbind.imp fun hstraight => ⟨hstraight, trivial⟩

end

end Eval

namespace Evaluator

open Eval

/-- Those of the names that are neither local nor in the source. -/
def unknownOf (evaluator : Evaluator State) (host : Host State) (names : List String) : List String :=
  names.filter fun name => (evaluator.locals.get? name).isNone && (evaluator.source.get? host name).isNone

section
variable (evaluator : Evaluator State) (globals : VarTable) (host : Host State)

theorem isNone_lookup? (name : String) : (evaluator.lookup? host name).isNone =
    ((evaluator.locals.get? name).isNone && (evaluator.source.get? host name).isNone) := by
  unfold lookup?
  cases evaluator.locals.get? name <;> simp

theorem unknownOf_append (names more : List String) :
    evaluator.unknownOf host (names ++ more) = evaluator.unknownOf host names ++ evaluator.unknownOf host more :=
  List.filter_append names more

/-! ## Steps -/

theorem missesNothing_missing (problem : Problem) (hkind : problem.kind = .arithmetic) :
    Misses evaluator globals (evaluator.missing problem) True [] := by
  have hunknown : problem.unknown? = none := Problem.unknown?_eq_none (by simp [hkind])
  refine fun host hhost patterns failures =>
    ⟨⟨.ok .zero, host, patterns, failures, [problem]⟩, fun _ _ => hhost, ?_, fun _ => rfl⟩
  exact Course.misses_of_eq (List.filterMap_cons_none hunknown)

theorem missesNothing_patternMatch (pattern text : String) :
    Misses evaluator globals (evaluator.patternMatch pattern text) True [] := by
  refine fun host hhost patterns failures =>
    ⟨_, fun _ _ => hhost, ?_, fun _ => evaluator.patternMatch_result host _ _ _ _ _⟩
  apply Course.misses_of_eq
  unfold Course.unknown
  dsimp only
  cases (patterns.find evaluator.engine pattern).error <;> rfl

theorem missesNothing_combine (op : BinaryOp) (a b : Value) :
    Misses evaluator globals (evaluator.combine op a b) True [] :=
  (missesNothing_property evaluator globals).combine (evaluator.missesNothing_missing globals)
    (evaluator.missesNothing_patternMatch globals) op a b

theorem missesNothing_apply (op : UnaryOp) (value : Value) :
    Misses evaluator globals (evaluator.apply op value) True [] :=
  (missesNothing_property evaluator globals).apply (evaluator.missesNothing_missing globals) op value

theorem misses_resolve (name : String) (isStraight : Prop) : Misses evaluator host.globals
    (evaluator.steps.resolve name) isStraight (evaluator.unknownOf host [name]) := by
  refine fun other hother patterns failures =>
    ⟨_, fun _ _ => hother, ?_, fun _ => evaluator.resolve_result other _ _ _ _⟩
  apply Course.misses_of_eq
  unfold Course.unknown unknownOf
  have hlookup : evaluator.lookup? other name = evaluator.lookup? host name :=
    evaluator.lookup?_congr (congrArg (·.get? name) hother)
  rw [List.filter_cons, ← isNone_lookup?, hlookup]
  dsimp only
  split <;> rfl

end

section
variable {evaluator : Evaluator State} {globals : VarTable} {host : Host State}

theorem missesNothing_callNoting (hfunctions : evaluator.functions.Keeps Host.globals) (name : String)
    (args : List Value) : Misses evaluator globals (evaluator.callNoting name args) True [] := by
  intro host hhost patterns failures
  have hfailed (failure : CallFailure) (after : Host State) : Course.Misses
      (⟨.ok .zero, after, patterns, failures.push failure, [.callFailure failure]⟩ : Course State Value) True [] :=
    Course.misses_of_eq rfl
  simp only [callNoting_eq]
  cases hfound : evaluator.functions.get? name with
  | none =>
    refine ⟨_, fun _ _ => hhost, hfailed (.unknownFunction name) host, fun log => ?_⟩
    rw [call_of_none hfound]
    rfl
  | some operation =>
    simp only [call_of_some hfound]
    cases hr : operation args host with
    | ok answer after =>
      have hafter : after.globals = globals := (hfunctions name operation hfound args host answer after hr).trans hhost
      cases answer with
      | ok value =>
        exact (missesNothing_property evaluator globals).finite (evaluator.missesNothing_missing globals) name value
          after hafter patterns failures
      | error reason => exact ⟨_, fun _ _ => hafter, hfailed (.failed name reason) after, fun _ => rfl⟩
    | error crash after =>
      exact ⟨⟨.error crash, after, patterns, failures, []⟩, by simp, Course.misses_of_eq rfl, fun _ => rfl⟩

/-! ## Evaluations -/

mutual

/-- An evaluation misses the variables of the expression that are unknown, from left to right. -/
theorem eval_misses (hfunctions : evaluator.functions.Keeps Host.globals) : ∀ e : Expr,
    Misses evaluator host.globals (evaluator.eval e) e.isStraight (evaluator.unknownOf host e.variableNames)
  | .literal value => by
    rw [eval]
    exact misses_pure value
  | .var name => by
    rw [eval_eq_steps, Steps.eval]
    exact misses_resolve evaluator host name _
  | .call name args => by
    rw [eval]
    exact (evalAll_misses hfunctions args).bindNothing fun values => missesNothing_callNoting hfunctions name values
  | .unary op operand => by
    rw [eval]
    exact (eval_misses hfunctions operand).bindNothing fun value => evaluator.missesNothing_apply host.globals op value
  | .binary op left right => by
    have hleft := eval_misses hfunctions left
    have hright := eval_misses hfunctions right
    have hlast := (hright.bindNothing fun b => misses_pure (Value.ofBool b.isTrue)).weaken (List.Sublist.refl _)
    have hleftOut (b : Bool) : Misses evaluator host.globals (pure (Value.ofBool b)) False
        (evaluator.unknownOf host right.variableNames) := by
      have hpure : Misses evaluator host.globals (pure (Value.ofBool b)) True [] := misses_pure _
      exact hpure.weaken (List.nil_sublist _)
    rw [Expr.variableNames, unknownOf_append]
    cases op with
    | and =>
      rw [eval]
      refine (hleft.bindPart fun a => ?_).imp (by simp [Expr.isStraight])
      split
      · exact hlast
      · exact hleftOut false
    | or =>
      rw [eval]
      refine (hleft.bindPart fun a => ?_).imp (by simp [Expr.isStraight])
      split
      · exact hleftOut true
      · exact hlast
    | _ =>
      simp only [eval]
      refine (hleft.bind fun a => hright.bindNothing fun b => evaluator.missesNothing_combine host.globals _ a b).imp ?_
      simp [Expr.isStraight]
  | .conditional condition yes no => by
    rw [Expr.variableNames, List.append_assoc, unknownOf_append, unknownOf_append, eval]
    refine ((eval_misses hfunctions condition).bindPart fun value => ?_).imp (by simp [Expr.isStraight])
    split
    · exact (eval_misses hfunctions yes).weaken (List.sublist_append_left _ _)
    · exact (eval_misses hfunctions no).weaken (List.sublist_append_right _ _)

theorem evalAll_misses (hfunctions : evaluator.functions.Keeps Host.globals) : ∀ es : List Expr,
    Misses evaluator host.globals (evaluator.evalAll es) (Expr.areStraight es)
      (evaluator.unknownOf host (Expr.variableNamesOfAll es))
  | [] => by
    rw [evalAll]
    exact misses_pure []
  | e :: es => by
    rw [evalAll, Expr.variableNamesOfAll, unknownOf_append]
    have hrest (value : Value) : Misses evaluator host.globals (do return value :: (← evaluator.evalAll es))
        (Expr.areStraight es) (evaluator.unknownOf host (Expr.variableNamesOfAll es)) :=
      (evalAll_misses hfunctions es).bindNothing fun values => misses_pure _
    refine ((eval_misses hfunctions e).bind hrest).imp ?_
    simp [Expr.areStraight]

end

theorem filter_flatMap_written (hsink : evaluator.sink = .log) (problems : List Problem) :
    (problems.flatMap evaluator.written).filter (·.kind == .unknownVariable) =
      (problems.filterMap Problem.unknown?).map evaluator.unknownReport := by
  rw [flatMap_written hsink]
  induction problems with
  | nil => rfl
  | cons problem rest ih =>
    rw [List.map_cons, List.filter_cons, ih]
    cases problem with
    | unknownVariable name => rfl
    | callFailure failure => cases failure <;> rfl
    | _ => rfl

/-- The reports of unknown variables name some of the unknown variables of the expression, from left to right and
each as often as it is come to. They name all if nothing in the expression can leave out an operand. Only where a
function crashes they end with those before it. -/
theorem evaluate_unknown (hsink : evaluator.sink = .log) (hfunctions : evaluator.functions.Keeps Host.globals)
    (e : Expr) (world : World State) :
    ∃ (outcome : Except Crash Evaluation) (patterns : PatternCache) (host : Host State) (reports : List Diagnostic)
        (names : List String),
      evaluator.evaluate e world =
        resultOf (outcome.map fun evaluation => (evaluation, { evaluator with patterns }))
          (World.add ⟨host, world.log⟩ reports) ∧
      (∀ evaluation, outcome = .ok evaluation → host.globals = world.host.globals) ∧
      (∀ crash, outcome = .error crash → ¬ evaluator.functions.Answers) ∧
      reports.filter (·.kind == .unknownVariable) = names.map evaluator.unknownReport ∧
      names.Sublist (evaluator.unknownOf world.host e.variableNames) ∧
      (e.isStraight → names <+: evaluator.unknownOf world.host e.variableNames ∧
        ∀ evaluation, outcome = .ok evaluation → names = evaluator.unknownOf world.host e.variableNames) := by
  obtain ⟨⟨outcome, host, patterns, failures, problems⟩, hhost, hmisses, hcourse⟩ :=
    eval_misses hfunctions e world.host rfl evaluator.patterns #[]
  refine ⟨outcome.map fun value => ⟨value, failures.toList⟩, patterns, host, problems.flatMap evaluator.written,
    problems.filterMap Problem.unknown?, ?_, fun evaluation hevaluation => ?_, ?_,
    filter_flatMap_written hsink problems, hmisses.sublist, ?_⟩
  · rw [evaluate_of_course (hcourse world.log)]
    cases outcome <;> rfl
  · cases outcome with
    | ok value => exact hhost value rfl
    | error crash => cases hevaluation
  · intro crash hcrash hanswers
    obtain ⟨value, after, hvalue⟩ := eval_returns hanswers e ⟨world, evaluator.patterns, #[]⟩
    cases outcome with
    | ok value => cases hcrash
    | error crash => cases hvalue.symm.trans (hcourse world.log)
  · intro hstraight
    refine ⟨hmisses.isPrefix hstraight, fun evaluation hevaluation => ?_⟩
    cases outcome with
    | ok value => exact hmisses.eq hstraight value rfl
    | error crash => cases hevaluation

end

/-- An expression with operands that are left out, and one without, which calls a function that counts its calls. -/
theorem evaluate_unknown_leftOut :
    let evaluator : Evaluator Nat := { (simulation .words "c" : Evaluator Nat) with
      locals := NameTable.empty.set "x" (Number.ofNat 1),
      functions := NameTable.set FunctionTable.simulation "count" Operation.counting }
    let host : Host Nat := ⟨NameTable.empty.set "k" (Number.ofNat 1), 0⟩
    ∃ partly straight evaluation evaluation' patterns patterns', ∃ after after' : Host Nat, ∃ names : List String,
        ∃ reports reports' : List Diagnostic,
      Expr.parse "(u && v) + (k ? w : v) * max(u, x)" "c" = .ok partly ∧
        evaluator.evaluate partly ⟨host, #[]⟩ =
          .ok (evaluation, { evaluator with patterns }) (World.add ⟨after, #[]⟩ reports) ∧
        reports.map Diagnostic.message =
          ["c: unknown variable 'u'", "c: unknown variable 'w'", "c: unknown variable 'u'"] ∧
        reports.filter (·.kind == .unknownVariable) = names.map evaluator.unknownReport ∧
        names.Sublist ["u", "v", "w", "v", "u"] ∧
      Expr.parse "-count(u, k, max(v, u)) + v" "c" = .ok straight ∧ straight.isStraight ∧
        evaluator.evaluate straight ⟨host, #[]⟩ =
          .ok (evaluation', { evaluator with patterns := patterns' }) (World.add ⟨after', #[]⟩ reports') ∧
        after'.globals = host.globals ∧ after'.state = 1 ∧
        reports'.filter (·.kind == .unknownVariable) = ["u", "v", "u", "v"].map evaluator.unknownReport := by
  intro evaluator host
  have hpartly : ((Expr.parse "(u && v) + (k ? w : v) * max(u, x)" "c").toOption.any fun e =>
      evaluator.unknownOf host e.variableNames == ["u", "v", "w", "v", "u"] &&
        runPasses (evaluator.evaluate e ⟨host, #[]⟩) fun _ found => found.log.toList.map Diagnostic.message ==
          ["c: unknown variable 'u'", "c: unknown variable 'w'", "c: unknown variable 'u'"]) = true := by
    decide +kernel
  have hstraight : ((Expr.parse "-count(u, k, max(v, u)) + v" "c").toOption.any fun e =>
      e.isStraight && evaluator.unknownOf host e.variableNames == ["u", "v", "u", "v"] &&
        runPasses (evaluator.evaluate e ⟨host, #[]⟩) fun _ found => found.host.state == 1) = true := by
    decide +kernel
  obtain ⟨partly, hparse, hpartly⟩ := exists_ok_of_any hpartly
  obtain ⟨straight, hparse', hstraight⟩ := exists_ok_of_any hstraight
  simp only [Bool.and_eq_true, beq_iff_eq] at hpartly hstraight
  obtain ⟨hunknown, hruns⟩ := hpartly
  obtain ⟨⟨hstraight, hunknown'⟩, hruns'⟩ := hstraight
  have hsink : evaluator.sink = .log := rfl
  have hfunctions : evaluator.functions.Keeps Host.globals :=
    FunctionTable.simulation_keeps.set Operation.counting_keeps "count"
  obtain ⟨outcome, patterns, after, reports, names, heval, -, -, hreports, hsublist, -⟩ :=
    evaluate_unknown hsink hfunctions partly ⟨host, #[]⟩
  obtain ⟨outcome', patterns', after', reports', names', heval', hafter, -, hreports', -, hall⟩ :=
    evaluate_unknown hsink hfunctions straight ⟨host, #[]⟩
  rw [heval] at hruns
  rw [heval'] at hruns'
  cases outcome with
  | error crash => cases hruns
  | ok evaluation =>
    cases outcome' with
    | error crash => cases hruns'
    | ok evaluation' =>
      have hlog : (World.add ⟨after, #[]⟩ reports).log.toList = reports := by simp
      obtain rfl := (hall hstraight).2 evaluation' rfl
      refine ⟨partly, straight, evaluation, evaluation', patterns, patterns', after, after', names, reports, reports',
        hparse, heval, ?_, hreports, hunknown ▸ hsublist, hparse', hstraight, heval', hafter evaluation' rfl,
        eq_of_beq hruns', hunknown' ▸ hreports'⟩
      rw [← hlog]
      exact eq_of_beq hruns

end Evaluator

end ScenarioScript
