import ScenarioScript.Proofs.Evaluator.Inputs
import ScenarioScript.Proofs.Simulation.Points

/-!
# The globals of a simulation

Only labels and the beginning of a tick write globals. So at every point of a run a global is what its
last writer has written, and the writers are known from the scenario alone.
-/

namespace ScenarioScript

/-! ## Labels -/

namespace Scenario

/-- The last statement before an index that has the label. -/
def lastLabelled? (scenario : Scenario) (name : String) : (index : Nat) → Option Nat
  | 0 => none
  | index + 1 =>
    if scenario.statements[index]?.bind Statement.label = some name then some index
    else scenario.lastLabelled? name index

section
variable {scenario : Scenario} {name : String} {index writer : Nat}

theorem lastLabelled?_lt (h : scenario.lastLabelled? name index = some writer) : writer < index := by
  induction index with
  | zero => cases h
  | succ index ih =>
    unfold lastLabelled? at h
    split at h
    · cases h
      exact Nat.lt_succ_self _
    · exact Nat.lt_succ_of_lt (ih h)

theorem lastLabelled?_eq_none_iff : scenario.lastLabelled? name index = none ↔
    ∀ earlier < index, scenario.statements[earlier]?.bind Statement.label ≠ some name := by
  induction index with
  | zero => simp [lastLabelled?]
  | succ index ih =>
    unfold lastLabelled?
    split
    · rename_i hlabel
      simp only [reduceCtorEq, false_iff]
      exact fun h => h index (Nat.lt_succ_self _) hlabel
    · rename_i hlabel
      rw [ih]
      constructor
      · intro h earlier hlt
        rcases Nat.lt_succ_iff_lt_or_eq.1 hlt with hlt | rfl
        · exact h earlier hlt
        · exact hlabel
      · exact fun h earlier hlt => h earlier (Nat.lt_succ_of_lt hlt)

end

/-- What a global is before a statement of a tick is evaluated: what its last writer has written. -/
def globalBefore (scenario : Scenario) (initial : String → Option Float) (results : Nat → Nat → Evaluation)
    (tick index : Nat) (name : String) : Option Float :=
  match scenario.lastLabelled? name index with
  | some writer => some (results tick writer).value.toNumber
  | none =>
    if name = Host.tickName then some (Number.ofNat tick)
    else match tick, scenario.lastLabelled? name scenario.size with
      | earlier + 1, some writer => some (results earlier writer).value.toNumber
      | _, _ => initial name

end Scenario

/-! ## Writers -/

/-- The evaluator has the functions of a simulation, and its cache is sound. -/
structure Evaluator.IsReady (evaluator : Evaluator Unit) : Prop where
  functions : evaluator.functions = .simulation
  isValid : evaluator.patterns.IsValid evaluator.engine

namespace Evaluator

section
variable {evaluator after : Evaluator Unit} {e : Expr} {origin : Origin} {world found : World Unit}
  {evaluation : Evaluation}

theorem IsReady.evaluateAt (h : evaluator.IsReady)
    (heval : evaluator.evaluateAt e origin world = .ok (evaluation, after) found) :
    found.host = world.host ∧ after.IsReady ∧ after = { evaluator with patterns := after.patterns } := by
  have hsees (name : String) (operation : Operation Unit)
      (hfound : evaluator.functions.get? name = some operation) : operation.SeesOnly Eq :=
    FunctionTable.simulation_seesOnly_eq (h.functions ▸ hfound)
  obtain ⟨patterns, _, kept, _, hvalid, -, hhost, -, ⟨result, hresult, -⟩ | ⟨crash, hcrash, -⟩⟩ :=
    (sameOn_self hsees _ _).evaluateAt h.isValid h.isValid (Eq.refl world.host) origin
  · rw [heval] at hresult
    cases hresult
    exact ⟨hhost, ⟨h.functions, hvalid⟩, rfl⟩
  · rw [heval] at hcrash
    cases hcrash

end

end Evaluator

theorem Host.global?_setGlobal (host : Host Unit) (written : String) (value : Float) (name : String) :
    (host.setGlobal written value).global? name = if name = written then some value else host.global? name :=
  NameTable.get?_set host.globals written value name

namespace Simulation

section
variable {start point : Simulation} {scenario : Scenario} {results : Nat → Nat → Evaluation} {tick index : Nat}

theorem global?_beginTick (tick : Nat) (simulation : Simulation) (name : String) :
    (simulation.beginTick tick).world.host.global? name =
      if name = Host.tickName then some (Number.ofNat tick) else simulation.world.host.global? name :=
  Host.global?_setGlobal _ _ _ _

theorem global?_publish (label : Option String) (number : Float) (world : World Unit) (name : String) :
    (RunMode.simulation.publish label number world).host.global? name =
      if label = some name then some number else world.host.global? name := by
  cases label with
  | none => rfl
  | some other =>
    refine (Host.global?_setGlobal _ _ _ _).trans ?_
    simp [eq_comm]

theorem Reaches.evaluator (hready : start.evaluator.IsReady) (h : start.Reaches scenario tick index point) :
    point.evaluator.IsReady ∧ point.evaluator = { start.evaluator with patterns := point.evaluator.patterns } := by
  induction h with
  | first => exact ⟨hready, rfl⟩
  | statement h hstatement hrun ih =>
    obtain ⟨evaluation, patterns, world, heval, rfl⟩ := exists_of_runStatement hrun
    obtain ⟨-, hafter, -⟩ := ih.1.evaluateAt heval
    refine ⟨hafter, ?_⟩
    unfold pointBehind
    rw [ih.2]
  | tick h ih => exact ih

/-- The last writer wins: a label of the tick, else the beginning of the tick, else a label of the tick
before, else what has been there from the start. -/
theorem Reaches.global? (hready : start.evaluator.IsReady) (hyields : start.Yields scenario results)
    (h : start.Reaches scenario tick index point) (name : String) :
    point.world.host.global? name = scenario.globalBefore start.world.host.global? results tick index name := by
  induction h with
  | first => simp [global?_beginTick, Scenario.globalBefore, Scenario.lastLabelled?]
  | @statement tick index statement point after h hstatement hrun ih =>
    obtain ⟨evaluation, patterns, world, heval, rfl⟩ := exists_of_runStatement hrun
    obtain ⟨hhost, -, -⟩ := (h.evaluator hready).1.evaluateAt heval
    have hresult : results tick index = evaluation :=
      hyields tick index point statement evaluation h hstatement ⟨_, _, heval⟩
    unfold pointBehind
    rw [global?_publish, hhost, ih]
    unfold Scenario.globalBefore
    rw [Scenario.lastLabelled?, hstatement]
    by_cases hlabel : statement.label = some name
    · simp [hlabel, hresult]
    · simp [hlabel]
  | @tick tick point h ih =>
    rw [global?_beginTick, ih]
    unfold Scenario.globalBefore
    by_cases hname : name = Host.tickName
    · simp [hname, Scenario.lastLabelled?]
    · -- the labels of the last tick are those of the whole scenario
      simp only [hname, if_false, Scenario.lastLabelled?]
      cases scenario.lastLabelled? name scenario.size with
      | some writer => rfl
      | none => cases tick <;> rfl

end

end Simulation

end ScenarioScript
