import ScenarioScript.Proofs.Session.Writers

/-!
# What a variable is in a session

A name stands for the last value that has been set, of the local variables of the evaluator first and then of
the globals. A clone takes over what has happened to the evaluator that it is a copy of. Histories are lists
of steps, the latest first.
-/

namespace ScenarioScript

variable {State : Type}

/-! ## Globals -/

/-- The value that a step writes to a global. -/
def SessionStep.written? (x : String) : SessionStep State → Option Float
  | .setGlobal name value => if x = name then some value else none
  | .beginTick tick => if x = Host.tickName then some (Number.ofNat tick) else none
  | _ => none

/-- The last value that has been written to a global, be it before the history. -/
def lastGlobal? (host : Host State) (history : List (SessionStep State)) (x : String) : Option Float :=
  (history.findSome? (·.written? x)).or (host.global? x)

theorem SessionStep.global?_hostAfter (step : SessionStep State) (host : Host State) (x : String) :
    (step.hostAfter host).global? x = (step.written? x).or (host.global? x) := by
  have hset (name : String) (value : Float) : (host.setGlobal name value).global? x =
      (if x = name then some value else none).or (host.global? x) := by
    refine (NameTable.get?_set host.globals name value x).trans ?_
    split <;> rfl
  cases step with
  | setGlobal name value => exact hset name value
  | beginTick tick => exact hset Host.tickName (Number.ofNat tick)
  | _ => rfl

/-- Whether an evaluator looks among the globals. -/
def VariableSource.isHost : VariableSource → Bool
  | .host => true
  | _ => false

theorem VariableSource.isHost_iff {source : VariableSource} : source.isHost ↔ source = .host := by
  cases source <;> simp [isHost]

/-! ## Local variables -/

/-- What a step makes of a local variable: a value, or none. -/
def EvaluatorStep.localValue? (x : String) : EvaluatorStep State → Option (Option Float)
  | .setLocal name value => if x = name then some (some value) else none
  | .unsetLocal name => if x = name then some none else none
  | _ => none

/-- What has happened to an evaluator, and to those that it is a copy of. -/
structure Past (State : Type) where
  initial : VarTable
  steps : List (EvaluatorStep State)

/-- The value of a local variable: from the latest step on it, else from the beginning. -/
def Past.local? (past : Past State) (x : String) : Option Float :=
  (past.steps.findSome? (·.localValue? x)).getD (past.initial.get? x)

def Past.push (past : Past State) (step : EvaluatorStep State) : Past State := { past with steps := step :: past.steps }

/-- What has happened to the evaluator of a name. -/
def Session.past (start : Session State) : List (SessionStep State) → String → Option (Past State)
  | [], name => (start.evaluators.get? name).map fun evaluator => ⟨evaluator.locals, []⟩
  | .create created evaluator :: earlier, name =>
    if name = created then some ⟨evaluator.locals, []⟩ else start.past earlier name
  | .clone source target :: earlier, name =>
    if name = target then (start.past earlier source).or (start.past earlier name) else start.past earlier name
  | .ask asked step :: earlier, name =>
    if name = asked then (start.past earlier name).map (·.push step) else start.past earlier name
  | _ :: earlier, name => start.past earlier name

theorem Past.local?_push (past : Past State) (step : EvaluatorStep State) (x : String) :
    (past.push step).local? x = (step.localValue? x).getD (past.local? x) := by
  unfold Past.local? Past.push
  cases hvalue : step.localValue? x <;> simp [hvalue]

theorem Evaluator.get?_changed (evaluator : Evaluator State) (step : EvaluatorStep State) (x : String) :
    (evaluator.changed step).locals.get? x =
      (step.localValue? x).getD (evaluator.locals.get? x) := by
  cases step with
  | setLocal name value =>
    refine (NameTable.get?_set evaluator.locals name value x).trans ?_
    unfold EvaluatorStep.localValue?
    dsimp only
    split <;> rfl
  | unsetLocal name =>
    refine (NameTable.get?_erase evaluator.locals name x).trans ?_
    unfold EvaluatorStep.localValue?
    dsimp only
    split <;> rfl
  | _ => rfl

namespace Session

/-! ## Histories -/

section
variable {start session : Session State} {world found : World State} {history : List (SessionStep State)}
  {step : SessionStep State} {answer : SessionAnswer State}

theorem exists_of_proceed_cons (h : start.proceed (step :: history).reverse world = .ok session found) :
    ∃ before middle answer, start.proceed history.reverse world = .ok before middle ∧
      before.step step middle = .ok (answer, session) found := by
  rw [List.reverse_cons, proceed_append] at h
  cases hbefore : start.proceed history.reverse world with
  | error crash middle =>
    rw [hbefore] at h
    cases h
  | ok before middle =>
    rw [hbefore] at h
    dsimp only at h
    rw [proceed_eq] at h
    cases hstep : before.step step middle with
    | error crash last =>
      rw [hstep] at h
      cases h
    | ok result last =>
      rw [hstep] at h
      cases h
      exact ⟨before, middle, result.1, rfl, hstep⟩

theorem proceed_global? (hrun : start.proceed history.reverse world = .ok session found)
    (hwriters : start.CallsNoWriters Host.globals world history.reverse fun _ => True) (x : String) :
    found.host.global? x = lastGlobal? world.host history x := by
  induction history generalizing session found with
  | nil =>
    cases hrun
    rfl
  | cons step history ih =>
    obtain ⟨before, middle, answer, hbefore, hstep⟩ := exists_of_proceed_cons hrun
    rw [List.reverse_cons] at hwriters
    have hwriter := hwriters history.reverse step [] before middle rfl hbefore trivial
    have hglobal : found.host.global? x = (step.hostAfter middle.host).global? x :=
      congrArg (·.get? x) (step_host hwriter hstep)
    rw [hglobal, step.global?_hostAfter, ih hbefore hwriters.of_append]
    unfold lastGlobal?
    rw [List.findSome?_cons]
    cases step.written? x <;> simp

/-- By induction on the history: what a step does to the tables it does to the pasts. -/
theorem proceed_locals (hrun : start.proceed history.reverse world = .ok session found) (name : String) :
    (session.evaluators.get? name).map (·.locals.get?) = (start.past history name).map Past.local? := by
  induction history generalizing session found name with
  | nil =>
    cases hrun
    unfold past
    rw [Option.map_map]
    rfl
  | cons step history ih =>
    obtain ⟨before, middle, answer, hbefore, hstep⟩ := exists_of_proceed_cons hrun
    have hlocals : (session.evaluators.get? name).map (·.locals.get?) =
        (before.evaluatorAfter name step).map (·.locals.get?) := by
      have hsame := congrArg (Option.map (·.locals.get?)) (before.step_evaluators hstep name)
      simpa [Option.map_map, Function.comp_def] using hsame
    rw [hlocals]
    unfold evaluatorAfter
    cases step with
    | create created evaluator =>
      unfold past
      dsimp only
      split
      · rfl
      · exact ih hbefore name
    | clone source target =>
      unfold past
      dsimp only
      split
      · rw [Option.map_or, Option.map_or, ih hbefore source, ih hbefore name]
      · exact ih hbefore name
    | ask asked step =>
      unfold past
      dsimp only
      split
      · have hbefores := ih hbefore name
        cases hpast : start.past history name with
        | none =>
          rw [hpast] at hbefores
          rw [Option.map_eq_none_iff.1 hbefores]
          rfl
        | some past =>
          rw [hpast] at hbefores
          obtain ⟨evaluator, hevaluator, hlocal⟩ := Option.map_eq_some_iff.1 hbefores
          rw [hevaluator]
          refine congrArg some (funext fun x => ?_)
          dsimp only
          rw [Evaluator.get?_changed, Past.local?_push, hlocal]
      · exact ih hbefore name
    | _ => exact ih hbefore name

end

end Session

/-- The evaluator resolves a variable that has a value to it, and reports nothing. One that has none it resolves to
zero, with one report in the log, if there is a log. -/
def Evaluator.Resolves (evaluator : Evaluator State) (x : String) (value : Option Float) (world : World State) : Prop :=
  match value with
  | some v => evaluator.step (.resolve x) world = .ok (.resolved v true, evaluator) world
  | none => evaluator.step (.resolve x) world = .ok (.resolved (Number.ofNat 0) false, evaluator)
      (world.add (if evaluator.sink = .log then [evaluator.unknownReport x] else []))

theorem Evaluator.resolves_lookup? (evaluator : Evaluator State) (x : String) (world : World State) :
    evaluator.Resolves x (evaluator.lookup? world.host x) world := by
  unfold Resolves
  rw [step_resolve]
  cases evaluator.lookup? world.host x <;> simp [unresolved]

namespace Session

/-- A name stands for the last value that has been set, of the local variables before the globals. If there is
none, that is reported once. To unset a local variable tells whether there has been one, and then the name stands
for the global. The functions of the session may have a state of their own, but they write no globals. -/
theorem resolve_history {start session : Session State} {history : List (SessionStep State)} {world found : World State}
    {name : String} {evaluator : Evaluator State} (hrun : start.proceed history.reverse world = .ok session found)
    (hwriters : start.CallsNoWriters Host.globals world history.reverse fun _ => True)
    (hevaluator : session.evaluators.get? name = some evaluator) (hsource : evaluator.source = .host) :
    ∃ past, start.past history name = some past ∧ ∀ x : String,
      let global := lastGlobal? world.host history x
      let uncovered := evaluator.unsetLocal x
      evaluator.Resolves x ((past.local? x).or global) found ∧
      evaluator.step (.unsetLocal x) found = .ok (.unset (past.local? x).isSome uncovered.locals, uncovered) found ∧
      uncovered.Resolves x global found := by
  have hlocals := proceed_locals hrun name
  rw [hevaluator] at hlocals
  obtain ⟨past, hpast, hlocal⟩ := Option.map_eq_some_iff.1 hlocals.symm
  refine ⟨past, hpast, fun x => ?_⟩
  have hglobal : found.host.global? x = lastGlobal? world.host history x := proceed_global? hrun hwriters x
  have hlookup : evaluator.lookup? found.host x = (past.local? x).or (lastGlobal? world.host history x) := by
    rw [← hglobal, hlocal]
    unfold Evaluator.lookup?
    rw [hsource]
    rfl
  have huncovered : (evaluator.unsetLocal x).lookup? found.host x = lastGlobal? world.host history x := by
    rw [← hglobal]
    unfold Evaluator.lookup? Evaluator.unsetLocal
    rw [hsource]
    simp [VariableSource.get?]
  refine ⟨?_, ?_, ?_⟩
  · rw [← hlookup]
    exact evaluator.resolves_lookup? x found
  · rw [hlocal]
    rfl
  · rw [← huncovered]
    exact (evaluator.unsetLocal x).resolves_lookup? x found

/-- The clone has a value of its own for `x`, which hides a global. It has never had one for `X`. A function has counted
its calls in between. -/
theorem resolve_history_clone :
    let history : List (SessionStep Nat) := [.ask "b" (.setLocal "x" (Number.ofNat 3)), .beginTick 4,
      .ask "a" (.evaluateText "x + count()"), .ask "a" (.unsetLocal "x"), .clone "a" "b",
      .ask "a" (.setLocal "x" (Number.ofNat 2)), .setGlobal "x" (Number.ofNat 1),
      .ask "a" (.bind "count" Operation.counting), .create "a" (.simulation .words "c")]
    let world : World Nat := ⟨⟨.empty, 0⟩, #[]⟩
    ∃ session found evaluator, empty.proceed history.reverse world = .ok session found ∧ found.host.state = 1 ∧
      empty.CallsNoWriters Host.globals world history.reverse (fun _ => True) ∧
      session.evaluators.get? "b" = some evaluator ∧ evaluator.source = .host ∧
      evaluator.step (.resolve "x") found = .ok (.resolved (Number.ofNat 3) true, evaluator) found ∧
      (∃ locals, evaluator.step (.unsetLocal "x") found = .ok (.unset true locals, evaluator.unsetLocal "x") found) ∧
      (evaluator.unsetLocal "x").step (.resolve "x") found =
        .ok (.resolved (Number.ofNat 1) true, evaluator.unsetLocal "x") found ∧
      evaluator.step (.resolve "X") found = .ok (.resolved (Number.ofNat 0) false, evaluator)
        (found.add [⟨.unknownVariable, "c: unknown variable 'X'", none⟩]) := by
  intro history world
  have hruns : runPasses (empty.proceed history.reverse world) fun session found => found.host.state == 1 &&
      (session.evaluators.get? "b").any fun evaluator =>
        evaluator.component == "c" && evaluator.source.isHost && decide (evaluator.sink = .log) &&
          evaluator.origin.isNone := by decide +kernel
  have hwriters : empty.CallsNoWriters Host.globals world history.reverse fun _ => True := by
    refine HasNoWriter.callsNoWriters (fun _ _ h => by cases h) (fun step hstep => ?_) _
    have hadds : ∀ step ∈ history, step.AddsNoWriter Host.globals := by
      simp [history, SessionStep.AddsNoWriter, Evaluator.simulation, FunctionTable.simulation_keeps,
        Operation.counting_keeps]
    exact hadds step (List.mem_reverse.1 hstep)
  obtain ⟨session, found, hrun, hb⟩ := exists_of_runPasses hruns
  obtain ⟨hcount, hb⟩ := Bool.and_eq_true_iff.1 hb
  obtain ⟨evaluator, hevaluator, hfields⟩ := (Option.any_eq_true _ _).1 hb
  simp only [Bool.and_eq_true, beq_iff_eq, decide_eq_true_eq, Option.isNone_iff_eq_none] at hfields
  obtain ⟨⟨⟨hcomponent, hhost⟩, hsink⟩, horigin⟩ := hfields
  have hsource : evaluator.source = .host := VariableSource.isHost_iff.1 hhost
  obtain ⟨past, hpast, hresolve⟩ := resolve_history hrun hwriters hevaluator hsource
  cases hpast
  obtain ⟨hx, hunset, huncovered⟩ := hresolve "x"
  obtain ⟨hX, -, -⟩ := hresolve "X"
  refine ⟨session, found, evaluator, hrun, eq_of_beq hcount, hwriters, hevaluator, hsource, hx, ⟨_, hunset⟩,
    huncovered, ?_⟩
  have hreport : (if evaluator.sink = .log then [evaluator.unknownReport "X"] else []) =
      [⟨.unknownVariable, "c: unknown variable 'X'", none⟩] := by
    simp [Evaluator.unknownReport, hcomponent, hsink, horigin]
  rw [← hreport]
  exact hX

end Session

end ScenarioScript
