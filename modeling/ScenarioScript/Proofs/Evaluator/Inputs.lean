import ScenarioScript.Proofs.Evaluator.Cache
import ScenarioScript.Proofs.Evaluator.Crash
import ScenarioScript.Host.Operations

/-!
# What an evaluation depends on

An evaluation sees of the host the variables of its expression and what the called functions read. It
leaves the host as it is if these do. Neither the cache nor the log makes a difference to its results.
-/

namespace ScenarioScript

variable {State : Type}

/-! ## Operations -/

/-- Hosts that are the same to the operation get the same answer or the same crash from it, and stay as
they are. -/
def Operation.SeesOnly (Same : Host State → Host State → Prop) (operation : Operation State) : Prop :=
  ∀ args host other, Same host other →
    (∃ answer, operation args host = .ok answer host ∧ operation args other = .ok answer other) ∨
      ∃ crash, operation args host = .error crash host ∧ operation args other = .error crash other

/-- What is seen of the host is the same after an answer as before the call. -/
def Operation.Keeps {τ : Type} (view : Host State → τ) (operation : Operation State) : Prop :=
  ∀ args host answer after, operation args host = .ok answer after → view after = view host

theorem Operation.SeesOnly.keeps {τ : Type} {view : Host State → τ} {operation : Operation State}
    (h : operation.SeesOnly Eq) : operation.Keeps view := by
  intro args host answer after hresult
  rcases h args host host rfl with ⟨_, hanswer, -⟩ | ⟨_, hcrash, -⟩
  · rw [hresult] at hanswer
    cases hanswer
    rfl
  · rw [hresult] at hcrash
    cases hcrash

/-- How often it has been called before. -/
def Operation.counting : Operation Nat := fun _ => do
  modifyGet fun host => (.ok (.number (Number.ofNat host.state)), { host with state := host.state + 1 })

theorem Operation.counting_eq (args : List Value) (host : Host Nat) : counting args host =
    .ok (.ok (.number (Number.ofNat host.state))) { host with state := host.state + 1 } := rfl

theorem Operation.counting_keeps : counting.Keeps Host.globals := by
  intro args host answer after h
  rw [counting_eq] at h
  cases h
  rfl

section
variable {Same : Host State → Host State → Prop}

theorem Operation.constant_seesOnly (value : Value) : (Operation.constant value).SeesOnly Same :=
  fun _ _ _ _ => .inl ⟨.ok value, rfl, rfl⟩

theorem Operation.failing_seesOnly (reason : String) : (Operation.failing reason).SeesOnly Same :=
  fun _ _ _ _ => .inl ⟨.error reason, rfl, rfl⟩

theorem Standard.toOperation_eq (f : List Value → Standard.Result Value) (args : List Value) (host : Host State) :
    Standard.toOperation f args host = match (f args).toAnswer with
      | .ok answer => .ok answer host
      | .error crash => .error crash host := by
  unfold Standard.toOperation
  cases (f args).toAnswer <;> rfl

theorem Standard.toOperation_seesOnly (f : List Value → Standard.Result Value) :
    (Standard.toOperation f).SeesOnly Same := by
  intro args host other _
  rw [Standard.toOperation_eq, Standard.toOperation_eq]
  cases (f args).toAnswer with
  | ok answer => exact .inl ⟨answer, rfl, rfl⟩
  | error crash => exact .inr ⟨crash, rfl, rfl⟩

namespace FunctionTable

theorem distanceTo_eq (args : List Value) (host : Host State) : distanceTo args host =
    Standard.toOperation (Standard.map "distanceTo" fun position =>
      (position - (host.global? Host.egoPositionName).getD (Number.ofNat 0)).abs) args host := rfl

theorem distanceTo_seesOnly
    (h : ∀ host other, Same host other → host.global? Host.egoPositionName = other.global? Host.egoPositionName) :
    distanceTo.SeesOnly Same := by
  intro args host other hsame
  rw [distanceTo_eq, distanceTo_eq, ← h host other hsame]
  exact Standard.toOperation_seesOnly _ args host other hsame

theorem simulation_seesOnly {name : String} {operation : Operation State} (h : simulation.get? name = some operation)
    (hego : name = "distanceTo" →
      ∀ host other, Same host other → host.global? Host.egoPositionName = other.global? Host.egoPositionName) :
    operation.SeesOnly Same := by
  rw [simulation, NameTable.get?_set] at h
  split at h
  · rename_i hname
    cases h
    exact distanceTo_seesOnly (hego hname)
  · obtain ⟨⟨_, f⟩, -, hpair⟩ := List.mem_map.1 (NameTable.mem_of_get?_ofList h)
    cases hpair
    exact Standard.toOperation_seesOnly f

/-- Each function keeps what is seen of the host. -/
def Keeps {τ : Type} (functions : FunctionTable State) (view : Host State → τ) : Prop :=
  ∀ name operation, functions.get? name = some operation → operation.Keeps view

theorem simulation_seesOnly_eq {name : String} {operation : Operation State}
    (h : simulation.get? name = some operation) : operation.SeesOnly Eq := by
  apply simulation_seesOnly h
  rintro - host _ rfl
  rfl

section
variable {τ : Type} {view : Host State → τ}

theorem simulation_keeps : simulation.Keeps view := fun _ _ hfound => (simulation_seesOnly_eq hfound).keeps

theorem keeps_empty : Keeps .empty view := fun _ _ h => nomatch h

theorem Keeps.set {functions : FunctionTable State} {operation : Operation State} (h : functions.Keeps view)
    (hoperation : operation.Keeps view) (name : String) : Keeps (NameTable.set functions name operation) view := by
  intro other found hfound
  rw [NameTable.get?_set] at hfound
  split at hfound
  · cases hfound
    exact hoperation
  · exact h other found hfound

end

end FunctionTable

end

/-! ## Two evaluations -/

namespace Eval

/-- The hosts are as before, the failures are the same, and the caches are still valid. -/
structure AlikeAfter (engine : PatternEngine) (pass after other otherAfter : Pass State) : Prop where
  host : after.world.host = pass.world.host
  otherHost : otherAfter.world.host = other.world.host
  failures : after.failures = otherAfter.failures
  isValid : after.patterns.IsValid engine
  otherIsValid : otherAfter.patterns.IsValid engine

/-- On hosts that are the same to the computations they have the same result, or the same crash. -/
def Alike (engine : PatternEngine) (Same : Host State → Host State → Prop) {α : Type} (r r' : Eval State α) : Prop :=
  ∀ pass other, Same pass.world.host other.world.host → pass.failures = other.failures →
    pass.patterns.IsValid engine → other.patterns.IsValid engine →
    ∃ after otherAfter, AlikeAfter engine pass after other otherAfter ∧
      ((∃ a, r pass = .ok a after ∧ r' other = .ok a otherAfter) ∨
        ∃ crash, r pass = .error crash after ∧ r' other = .error crash otherAfter)

section
variable {engine : PatternEngine} {Same : Host State → Host State → Prop} {α β : Type}

theorem alike_pure (a : α) : Alike engine Same (pure a) (pure a) :=
  fun pass other _ hfailures hvalid hother =>
    ⟨pass, other, ⟨rfl, rfl, hfailures, hvalid, hother⟩, .inl ⟨a, rfl, rfl⟩⟩

theorem Alike.bind {r r' : Eval State α} {f f' : α → Eval State β} (h : Alike engine Same r r')
    (hf : ∀ a, Alike engine Same (f a) (f' a)) : Alike engine Same (r >>= f) (r' >>= f') := by
  intro pass other hsame hfailures hvalid hother
  obtain ⟨middle, otherMiddle, hmiddle, ⟨a, hr, hr'⟩ | ⟨crash, hr, hr'⟩⟩ :=
    h pass other hsame hfailures hvalid hother
  · have hsame' : Same middle.world.host otherMiddle.world.host := by
      rwa [hmiddle.host, hmiddle.otherHost]
    obtain ⟨after, otherAfter, hafter, hresult⟩ :=
      hf a middle otherMiddle hsame' hmiddle.failures hmiddle.isValid hmiddle.otherIsValid
    refine ⟨after, otherAfter, ?_, ?_⟩
    · exact ⟨hafter.host.trans hmiddle.host, hafter.otherHost.trans hmiddle.otherHost, hafter.failures,
        hafter.isValid, hafter.otherIsValid⟩
    · rw [bind_of_ok hr, bind_of_ok hr']
      exact hresult
  · exact ⟨middle, otherMiddle, hmiddle, .inr ⟨crash, bind_of_error hr, bind_of_error hr'⟩⟩

theorem alike_relation (engine : PatternEngine) (Same : Host State → Host State → Prop) :
    EvalRelation (@Alike State engine Same) where
  pure := alike_pure
  bind := Alike.bind

end

end Eval

namespace Evaluator

open Eval

theorem lookup?_congr (evaluator : Evaluator State) {host other : Host State} {name : String}
    (h : host.global? name = other.global? name) : evaluator.lookup? host name = evaluator.lookup? other name := by
  unfold lookup? VariableSource.get?
  cases evaluator.source <;> simp [h]

/-- On hosts that are the same the two evaluators find the same under some names, and call some functions
that see no difference. They have one engine. -/
structure SameOn (Same : Host State → Host State → Prop) (names calls : List String)
    (evaluator other : Evaluator State) : Prop where
  engine : other.engine = evaluator.engine
  lookup : ∀ name ∈ names, ∀ host otherHost, Same host otherHost →
    evaluator.lookup? host name = other.lookup? otherHost name
  function : ∀ name ∈ calls, evaluator.functions.get? name = other.functions.get? name
  seesOnly : ∀ name ∈ calls, ∀ operation, evaluator.functions.get? name = some operation → operation.SeesOnly Same

theorem sameOn_self {evaluator : Evaluator State}
    (h : ∀ name operation, evaluator.functions.get? name = some operation → operation.SeesOnly Eq)
    (names calls : List String) : SameOn Eq names calls evaluator evaluator where
  engine := rfl
  lookup := by
    rintro name - host _ rfl
    rfl
  function _ _ := rfl
  seesOnly name _ := h name

section
variable {Same : Host State → Host State → Prop} {names calls : List String} {evaluator other : Evaluator State}

variable (evaluator other) in
theorem alike_missing (problem : Problem) (_ : problem.kind = .arithmetic) :
    Alike evaluator.engine Same (evaluator.missing problem) (other.missing problem) :=
  fun pass otherPass _ hfailures hvalid hother =>
    ⟨{ pass with world := evaluator.complain problem pass.world },
      { otherPass with world := other.complain problem otherPass.world },
      ⟨complain_host evaluator problem _, complain_host other problem _, hfailures, hvalid, hother⟩,
      .inl ⟨.zero, rfl, rfl⟩⟩

theorem alike_patternMatch (hengine : other.engine = evaluator.engine) (pattern text : String) :
    Alike evaluator.engine Same (evaluator.patternMatch pattern text) (other.patternMatch pattern text) := by
  intro pass otherPass _ hfailures hvalid hother
  have hotherMatch := @patternMatch_eq _ other otherPass (hengine ▸ hother) pattern text
  rw [hengine] at hotherMatch
  refine ⟨_, _, ?_, .inl ⟨_, patternMatch_eq hvalid pattern text, hotherMatch⟩⟩
  exact ⟨tell_host evaluator _ _, tell_host other _ _, hfailures, hvalid.find pattern, hother.find pattern⟩

theorem alike_combine (hengine : other.engine = evaluator.engine) (op : BinaryOp) (a b : Value) :
    Alike evaluator.engine Same (evaluator.combine op a b) (other.combine op a b) :=
  (alike_relation evaluator.engine Same).combine (alike_missing evaluator other) (alike_patternMatch hengine) op a b

theorem SameOn.resolve (h : SameOn Same names calls evaluator other) {name : String} (hname : name ∈ names) :
    Alike evaluator.engine Same (evaluator.steps.resolve name) (other.steps.resolve name) := by
  refine Alike.bind ?_ fun _ => alike_pure _
  intro pass otherPass hsame hfailures hvalid hother
  rw [ofWorld_modifyGet, ofWorld_modifyGet]
  unfold Evaluator.resolve
  rw [h.lookup name hname _ _ hsame]
  cases other.lookup? otherPass.world.host name with
  | some value => exact ⟨pass, otherPass, ⟨rfl, rfl, hfailures, hvalid, hother⟩, .inl ⟨(value, true), rfl, rfl⟩⟩
  | none =>
    refine ⟨_, _, ?_, .inl ⟨(_, false), rfl, rfl⟩⟩
    exact ⟨complain_host evaluator _ _, complain_host other _ _, hfailures, hvalid, hother⟩

theorem SameOn.call (h : SameOn Same names calls evaluator other) {name : String} (hname : name ∈ calls)
    (args : List Value) :
    Alike evaluator.engine Same (Eval.ofWorld (evaluator.call name args)) (Eval.ofWorld (other.call name args)) := by
  intro pass otherPass hsame hfailures hvalid hother
  have hfunction := h.function name hname
  unfold Eval.ofWorld
  cases hfound : evaluator.functions.get? name with
  | none =>
    rw [call_of_none hfound, call_of_none (hfunction.symm.trans hfound)]
    refine ⟨_, _, ?_, .inl ⟨_, rfl, rfl⟩⟩
    exact ⟨complain_host evaluator _ _, complain_host other _ _, hfailures, hvalid, hother⟩
  | some operation =>
    rw [call_of_some hfound, call_of_some (hfunction.symm.trans hfound)]
    rcases h.seesOnly name hname operation hfound args _ _ hsame with ⟨answer, hr, hr'⟩ | ⟨crash, hr, hr'⟩
    · rw [hr, hr']
      cases answer with
      | ok value =>
        refine ⟨_, _, ?_, .inl ⟨_, rfl, rfl⟩⟩
        exact ⟨rfl, rfl, hfailures, hvalid, hother⟩
      | error reason =>
        refine ⟨_, _, ?_, .inl ⟨_, rfl, rfl⟩⟩
        exact ⟨complain_host evaluator _ _, complain_host other _ _, hfailures, hvalid, hother⟩
    · rw [hr, hr']
      refine ⟨_, _, ?_, .inr ⟨crash, rfl, rfl⟩⟩
      exact ⟨rfl, rfl, hfailures, hvalid, hother⟩

theorem SameOn.callNoting (h : SameOn Same names calls evaluator other) {name : String} (hname : name ∈ calls)
    (args : List Value) :
    Alike evaluator.engine Same (evaluator.callNoting name args) (other.callNoting name args) := by
  refine (h.call hname args).bind fun answer => ?_
  cases answer with
  | ok value => exact (alike_relation evaluator.engine Same).finite (alike_missing evaluator other) name value
  | error failure =>
    intro pass otherPass hsame hfailures hvalid hother
    refine ⟨{ pass with failures := pass.failures.push failure },
      { otherPass with failures := otherPass.failures.push failure }, ?_, .inl ⟨.zero, rfl, rfl⟩⟩
    exact ⟨rfl, rfl, by rw [hfailures], hvalid, hother⟩

theorem SameOn.steps (h : SameOn Same names calls evaluator other) :
    Steps.RelatedOn (@Alike State evaluator.engine Same) names calls evaluator.steps other.steps where
  resolve _ := h.resolve
  call _ := h.callNoting
  unary := (alike_relation evaluator.engine Same).apply (alike_missing evaluator other)
  binary := alike_combine h.engine

/-- The results depend on nothing but the variables in the expression and what its functions see. -/
theorem SameOn.eval {e : Expr} (h : SameOn Same e.variableNames e.functionNames evaluator other) :
    Alike evaluator.engine Same (evaluator.eval e) (other.eval e) := by
  rw [eval_eq_steps, eval_eq_steps]
  exact Steps.eval_relatedOn (alike_relation evaluator.engine Same) h.steps e (List.Subset.refl _) (List.Subset.refl _)

theorem SameOn.evaluateAt {e : Expr} (h : SameOn Same e.variableNames e.functionNames evaluator other)
    (hvalid : evaluator.patterns.IsValid evaluator.engine) (hother : other.patterns.IsValid other.engine)
    {world otherWorld : World State}
    (hsame : Same world.host otherWorld.host) (origin : Origin) :
    ∃ patterns otherPatterns found otherFound,
      patterns.IsValid evaluator.engine ∧ otherPatterns.IsValid evaluator.engine ∧
      found.host = world.host ∧ otherFound.host = otherWorld.host ∧
      ((∃ evaluation,
          evaluator.evaluateAt e origin world = .ok (evaluation, { evaluator with patterns }) found ∧
          other.evaluateAt e origin otherWorld =
            .ok (evaluation, { other with patterns := otherPatterns }) otherFound) ∨
        ∃ crash, evaluator.evaluateAt e origin world = .error crash found ∧
          other.evaluateAt e origin otherWorld = .error crash otherFound) := by
  have hplaced : SameOn Same e.variableNames e.functionNames { evaluator with origin := some origin }
      { other with origin := some origin } := ⟨h.engine, h.lookup, h.function, h.seesOnly⟩
  rw [h.engine] at hother
  obtain ⟨after, otherAfter, hafter, hresult⟩ :=
    hplaced.eval ⟨world, evaluator.patterns, #[]⟩ ⟨otherWorld, other.patterns, #[]⟩ hsame rfl hvalid hother
  refine ⟨after.patterns, otherAfter.patterns, after.world, otherAfter.world, hafter.isValid,
    hafter.otherIsValid, hafter.host, hafter.otherHost, ?_⟩
  rw [evaluateAt_eq, evaluateAt_eq]
  rcases hresult with ⟨value, hr, hr'⟩ | ⟨crash, hr, hr'⟩
  · refine .inl ⟨⟨value, after.failures.toList⟩, by rw [hr], ?_⟩
    rw [hr', hafter.failures]
  · exact .inr ⟨crash, by rw [hr], by rw [hr']⟩

end

end Evaluator

end ScenarioScript
