import ScenarioScript.Evaluator.Step
import ScenarioScript.Proofs.Evaluator.Steps
import ScenarioScript.Proofs.PatternCache

/-!
# Evaluation without the cache

An evaluator that reads a pattern anew at every match has the same results. It only reports an invalid
pattern at every match, and not just at those where the cache does not know it.
-/

namespace ScenarioScript

variable {State : Type}

namespace Evaluator

/-! ## An evaluator without a cache -/

/-- Whether a text matches a pattern that is read for this match. -/
def freshMatch (evaluator : Evaluator State) (pattern text : String) : Eval State (Option Bool) := do
  match evaluator.engine.compile pattern with
  | .ok matcher => return some (matcher text)
  | .error error =>
    Eval.ofWorld (modify (evaluator.complain (.badPattern pattern error)))
    return none

def freshCombine (evaluator : Evaluator State) (op : BinaryOp) (a b : Value) : Eval State Value :=
  match op with
  | .patternMatch => return ((← evaluator.freshMatch b.toText a.toText).map .ofBool).getD .zero
  | .notPatternMatch =>
    return ((← evaluator.freshMatch b.toText a.toText).map fun m => .ofBool !m).getD .zero
  | op => evaluator.combine op a b

def freshSteps (evaluator : Evaluator State) : Steps State := { evaluator.steps with binary := evaluator.freshCombine }

def evaluateFresh (evaluator : Evaluator State) (e : Expr) : WorldAction State Evaluation := fun world =>
  match evaluator.freshSteps.eval e ⟨world, .empty, #[]⟩ with
  | .ok value pass => .ok ⟨value, pass.failures.toList⟩ pass.world
  | .error crash pass => .error crash pass.world

/-! ## What is written -/

/-- What a problem of the component adds to the log. -/
def written (evaluator : Evaluator State) (problem : Problem) : List Diagnostic :=
  match evaluator.sink with
  | .log => [(Diagnostic.about evaluator.component problem).orAt evaluator.origin]
  | .discard => []

def tell (evaluator : Evaluator State) (problems : List Problem) (world : World State) : World State :=
  problems.foldl (fun world problem => evaluator.complain problem world) world

section
variable (evaluator : Evaluator State) (problem : Problem) (problems : List Problem) (world : World State)

theorem complain_log :
    (evaluator.complain problem world).log.toList = world.log.toList ++ evaluator.written problem := by
  unfold complain report written
  cases evaluator.sink <;> simp

theorem complain_host : (evaluator.complain problem world).host = world.host := by
  unfold complain report
  cases evaluator.sink <;> rfl

theorem tell_log :
    (evaluator.tell problems world).log.toList = world.log.toList ++ problems.flatMap evaluator.written := by
  induction problems generalizing world with
  | nil => simp [tell]
  | cons problem problems ih => simpa [tell, complain_log] using ih (evaluator.complain problem world)

theorem tell_host : (evaluator.tell problems world).host = world.host := by
  induction problems generalizing world with
  | nil => rfl
  | cons problem problems ih => exact (ih _).trans (complain_host evaluator problem world)

theorem written_kind : ∀ diagnostic ∈ evaluator.written problem, diagnostic.kind = problem.kind := by
  unfold written
  cases evaluator.sink <;> simp [Diagnostic.about, Diagnostic.orAt]

end

end Evaluator

/-! ## Events -/

/-- What happens in an evaluation as far as reports and the cache are concerned. -/
inductive Event where
  | matched (pattern : String)
  | told (problem : Problem)

namespace Event

/-- What is reported if every pattern is read anew. -/
def freshProblems (engine : PatternEngine) : Event → List Problem
  | matched pattern => (engine.error? pattern).toList.map (.badPattern pattern)
  | told problem => [problem]

/-- What is reported with a cache: of patterns, an unreadable one that is not in the cache. -/
def problems (engine : PatternEngine) (cache : PatternCache) : Event → List Problem
  | matched pattern =>
    if cache.patterns.contains pattern then [] else (matched pattern).freshProblems engine
  | told problem => [problem]

theorem freshProblems_matched (engine : PatternEngine) (pattern : String) :
    (matched pattern).freshProblems engine = (engine.error? pattern).toList.map (.badPattern pattern) := rfl

theorem problems_matched (engine : PatternEngine) (cache : PatternCache) (pattern : String) :
    (matched pattern).problems engine cache =
      if cache.patterns.contains pattern then [] else (matched pattern).freshProblems engine := rfl

def cacheAfter (engine : PatternEngine) (cache : PatternCache) : Event → PatternCache
  | matched pattern => (cache.find engine pattern).cache
  | told _ => cache

/-- Only matches report patterns. -/
def IsPlain : Event → Prop
  | matched _ => True
  | told problem => problem.kind ≠ .pattern

end Event

section
variable (engine : PatternEngine)

namespace PatternCache

/-- What is reported in a row of events, each with the cache as it is then. -/
def problems : PatternCache → List Event → List Problem
  | _, [] => []
  | cache, event :: rest => event.problems engine cache ++ problems (event.cacheAfter engine cache) rest

def after (cache : PatternCache) (events : List Event) : PatternCache := events.foldl (Event.cacheAfter engine) cache

theorem problems_append (cache : PatternCache) (events more : List Event) :
    cache.problems engine (events ++ more) =
      cache.problems engine events ++ (cache.after engine events).problems engine more := by
  induction events generalizing cache with
  | nil => rfl
  | cons event events ih => simp [problems, after, ih]

theorem after_append (cache : PatternCache) (events more : List Event) :
    cache.after engine (events ++ more) = (cache.after engine events).after engine more := by
  simp [after]

variable {engine} in
theorem IsValid.after {cache : PatternCache} (h : cache.IsValid engine) (events : List Event) :
    (cache.after engine events).IsValid engine := by
  induction events generalizing cache with
  | nil => exact h
  | cons event events ih =>
    cases event with
    | matched pattern => exact ih (h.find pattern)
    | told problem => exact ih h

end PatternCache

/-! ## Reports with and without the cache -/

theorem Event.problems_sublist (cache : PatternCache) (event : Event) :
    (event.problems engine cache).Sublist (event.freshProblems engine) := by
  cases event with
  | matched pattern =>
    rw [problems_matched]
    split
    · exact List.nil_sublist _
    · exact List.Sublist.refl _
  | told problem => exact List.Sublist.refl _

theorem Event.filter_problems (cache : PatternCache) (event : Event) :
    (event.problems engine cache).filter (·.kind != .pattern) =
      (event.freshProblems engine).filter (·.kind != .pattern) := by
  cases event with
  | matched pattern =>
    have hfresh : ((matched pattern).freshProblems engine).filter (·.kind != .pattern) = [] := by
      rw [freshProblems_matched]
      cases engine.error? pattern <;> rfl
    rw [problems_matched]
    split
    · exact hfresh.symm
    · rfl
  | told problem => rfl

namespace PatternCache

theorem problems_sublist (cache : PatternCache) (events : List Event) :
    (cache.problems engine events).Sublist (events.flatMap (Event.freshProblems engine)) := by
  induction events generalizing cache with
  | nil => exact List.Sublist.refl _
  | cons event events ih => exact (event.problems_sublist engine cache).append (ih _)

theorem filter_problems (cache : PatternCache) (events : List Event) :
    (cache.problems engine events).filter (·.kind != .pattern) =
      (events.flatMap (Event.freshProblems engine)).filter (·.kind != .pattern) := by
  induction events generalizing cache with
  | nil => rfl
  | cons event events ih => simp [problems, event.filter_problems, ih]

end PatternCache

end

theorem Evaluator.filter_written (evaluator : Evaluator State) (problems : List Problem) :
    (problems.flatMap evaluator.written).filter (·.kind != .pattern) =
      (problems.filter (·.kind != .pattern)).flatMap evaluator.written := by
  have hone (problem : Problem) : (evaluator.written problem).filter (·.kind != .pattern) =
      if problem.kind != .pattern then evaluator.written problem else [] := by
    have hkind := evaluator.written_kind problem
    split
    · simp_all
    · simp_all
  induction problems with
  | nil => rfl
  | cons problem problems ih =>
    rw [List.flatMap_cons, List.filter_append, hone, ih, List.filter_cons]
    split <;> simp

/-! ## Evaluation with and without the cache -/

namespace Eval

/-- The two runs meet the same events, of which the first reports only what its cache does not know. -/
structure FollowsAt (evaluator : Evaluator State) (events : List Event)
    (pass after fresh freshAfter : Pass State) : Prop where
  plain : ∀ event ∈ events, event.IsPlain
  host : after.world.host = freshAfter.world.host
  failures : after.failures = freshAfter.failures
  patterns : after.patterns = pass.patterns.after evaluator.engine events
  log : after.world.log.toList =
    pass.world.log.toList ++ (pass.patterns.problems evaluator.engine events).flatMap evaluator.written
  freshLog : freshAfter.world.log.toList =
    fresh.world.log.toList ++ (events.flatMap (Event.freshProblems evaluator.engine)).flatMap evaluator.written

/-- With the same host and a valid cache the two computations have the same result, or the same crash. -/
def Mirrors (evaluator : Evaluator State) {α : Type} (r freshR : Eval State α) : Prop :=
  ∀ pass fresh, pass.world.host = fresh.world.host → pass.failures = fresh.failures →
    pass.patterns.IsValid evaluator.engine →
    ∃ events after freshAfter, FollowsAt evaluator events pass after fresh freshAfter ∧
      ((∃ a, r pass = .ok a after ∧ freshR fresh = .ok a freshAfter) ∨
        ∃ crash, r pass = .error crash after ∧ freshR fresh = .error crash freshAfter)

section
variable {evaluator : Evaluator State} {α β : Type}

theorem FollowsAt.trans {events more : List Event} {pass middle after fresh freshMiddle freshAfter : Pass State}
    (h : FollowsAt evaluator events pass middle fresh freshMiddle)
    (h' : FollowsAt evaluator more middle after freshMiddle freshAfter) :
    FollowsAt evaluator (events ++ more) pass after fresh freshAfter where
  plain := List.forall_mem_append.2 ⟨h.plain, h'.plain⟩
  host := h'.host
  failures := h'.failures
  patterns := by rw [h'.patterns, h.patterns, PatternCache.after_append]
  log := by rw [h'.log, h.log, h.patterns, PatternCache.problems_append, List.flatMap_append, List.append_assoc]
  freshLog := by rw [h'.freshLog, h.freshLog, List.flatMap_append, List.flatMap_append, List.append_assoc]

section
variable {pass fresh : Pass State} {world freshWorld : World State} {failures freshFailures : Array CallFailure}
  (hhost : world.host = freshWorld.host) (hfailures : failures = freshFailures)
  (hlog : world.log = pass.world.log) (hfreshLog : freshWorld.log = fresh.world.log)
include hhost hfailures hlog hfreshLog

theorem followsAt_nil : FollowsAt evaluator [] pass ⟨world, pass.patterns, failures⟩ fresh
    ⟨freshWorld, fresh.patterns, freshFailures⟩ where
  plain := by simp
  host := hhost
  failures := hfailures
  patterns := rfl
  log := by simp [PatternCache.problems, hlog]
  freshLog := by simp [hfreshLog]

theorem followsAt_told {problem : Problem} (hkind : problem.kind ≠ .pattern) :
    FollowsAt evaluator [.told problem] pass ⟨evaluator.complain problem world, pass.patterns, failures⟩ fresh
      ⟨evaluator.complain problem freshWorld, fresh.patterns, freshFailures⟩ where
  plain := by simpa [Event.IsPlain] using hkind
  host := by simpa [Evaluator.complain_host] using hhost
  failures := hfailures
  patterns := rfl
  log := by simp [Evaluator.complain_log, PatternCache.problems, Event.problems, hlog]
  freshLog := by simp [Evaluator.complain_log, Event.freshProblems, hfreshLog]

end

theorem mirrors_pure (a : α) : Mirrors evaluator (pure a) (pure a) :=
  fun _ _ hhost hfailures _ =>
    ⟨[], _, _, followsAt_nil hhost hfailures rfl rfl, .inl ⟨a, rfl, rfl⟩⟩

theorem Mirrors.bind {r r' : Eval State α} {f f' : α → Eval State β} (h : Mirrors evaluator r r')
    (hf : ∀ a, Mirrors evaluator (f a) (f' a)) : Mirrors evaluator (r >>= f) (r' >>= f') := by
  intro pass fresh hhost hfailures hvalid
  obtain ⟨events, middle, freshMiddle, hfollows, ⟨a, hr, hr'⟩ | ⟨crash, hr, hr'⟩⟩ :=
    h pass fresh hhost hfailures hvalid
  · -- the second part starts with whatever cache the events of the first part have left
    have hmiddle : middle.patterns.IsValid evaluator.engine := hfollows.patterns ▸ hvalid.after events
    obtain ⟨more, after, freshAfter, hmore, hresult⟩ :=
      hf a middle freshMiddle hfollows.host hfollows.failures hmiddle
    refine ⟨events ++ more, after, freshAfter, hfollows.trans hmore, ?_⟩
    rw [bind_of_ok hr, bind_of_ok hr']
    exact hresult
  · exact ⟨events, middle, freshMiddle, hfollows, .inr ⟨crash, bind_of_error hr, bind_of_error hr'⟩⟩

theorem mirrors_relation (evaluator : Evaluator State) : EvalRelation (@Mirrors State evaluator) where
  pure := mirrors_pure
  bind := Mirrors.bind

end

end Eval

namespace Evaluator

open Eval

section
variable (evaluator : Evaluator State)

/-! ### Reports -/

theorem mirrors_missing (problem : Problem) (hkind : problem.kind = .arithmetic) :
    Mirrors evaluator (evaluator.missing problem) (evaluator.missing problem) :=
  fun _ _ hhost hfailures _ => ⟨[.told problem], _, _,
    followsAt_told hhost hfailures rfl rfl (by simp [hkind]), .inl ⟨.zero, rfl, rfl⟩⟩

/-! ### Patterns -/

theorem patternMatch_find (pattern text : String) (pass : Pass State) :
    evaluator.patternMatch pattern text pass =
      .ok ((pass.patterns.find evaluator.engine pattern).matcher.map (· text))
        ⟨evaluator.tell ((pass.patterns.find evaluator.engine pattern).error.toList.map (.badPattern pattern))
          pass.world, (pass.patterns.find evaluator.engine pattern).cache, pass.failures⟩ := by
  unfold patternMatch
  rw [bind_of_ok (get_eq pass)]
  dsimp only
  cases (pass.patterns.find evaluator.engine pattern).error <;> rfl

variable {evaluator} in
theorem patternMatch_eq {pass : Pass State} (hvalid : pass.patterns.IsValid evaluator.engine) (pattern text : String) :
    evaluator.patternMatch pattern text pass = .ok ((evaluator.engine.matcher? pattern).map (· text))
      ⟨evaluator.tell ((Event.matched pattern).problems evaluator.engine pass.patterns) pass.world,
        (pass.patterns.find evaluator.engine pattern).cache, pass.failures⟩ := by
  have hproblems : (Event.matched pattern).problems evaluator.engine pass.patterns =
      (pass.patterns.find evaluator.engine pattern).error.toList.map (.badPattern pattern) := by
    rw [PatternCache.find_error hvalid pattern, Event.problems_matched]
    split <;> rfl
  rw [patternMatch_find, hproblems, PatternCache.find_matcher hvalid pattern]

theorem freshMatch_eq (pattern text : String) (fresh : Pass State) :
    evaluator.freshMatch pattern text fresh = .ok ((evaluator.engine.matcher? pattern).map (· text))
      { fresh with
        world := evaluator.tell ((Event.matched pattern).freshProblems evaluator.engine) fresh.world } := by
  rw [Event.freshProblems_matched]
  unfold freshMatch PatternEngine.matcher? PatternEngine.error?
  cases evaluator.engine.compile pattern <;> rfl

theorem mirrors_patternMatch (pattern text : String) :
    Mirrors evaluator (evaluator.patternMatch pattern text) (evaluator.freshMatch pattern text) := by
  intro pass fresh hhost hfailures hvalid
  refine ⟨[.matched pattern], _, _, ?_, .inl ⟨_, patternMatch_eq hvalid pattern text,
    freshMatch_eq evaluator pattern text fresh⟩⟩
  constructor
  · simp [Event.IsPlain]
  · simpa [tell_host] using hhost
  · exact hfailures
  · rfl
  · simp [tell_log, PatternCache.problems]
  · simp [tell_log]

/-! ### Steps -/

theorem mirrors_combine (op : BinaryOp) (a b : Value) :
    Mirrors evaluator (evaluator.combine op a b) (evaluator.freshCombine op a b) := by
  have hcombine := (mirrors_relation evaluator).combine_of_ne (mirrors_missing evaluator) op
  cases op with
  | patternMatch | notPatternMatch =>
    exact (mirrors_patternMatch evaluator b.toText a.toText).bind fun _ => mirrors_pure _
  | _ => exact hcombine (by simp) (by simp) a b

theorem mirrors_resolve (name : String) :
    Mirrors evaluator (evaluator.steps.resolve name) (evaluator.steps.resolve name) := by
  refine Mirrors.bind ?_ fun _ => mirrors_pure _
  intro pass fresh hhost hfailures hvalid
  rw [ofWorld_modifyGet, ofWorld_modifyGet]
  unfold resolve
  rw [← hhost]
  cases evaluator.lookup? pass.world.host name with
  | some value => exact ⟨[], _, _, followsAt_nil hhost hfailures rfl rfl, .inl ⟨(value, true), rfl, rfl⟩⟩
  | none =>
    exact ⟨[.told (.unknownVariable name)], _, _,
      followsAt_told hhost hfailures rfl rfl (by simp [Problem.kind]), .inl ⟨(_, false), rfl, rfl⟩⟩

theorem kind_callFailure (failure : CallFailure) : (Problem.callFailure failure).kind ≠ .pattern := by
  cases failure <;> simp [Problem.kind]

theorem mirrors_call (name : String) (args : List Value) :
    Mirrors evaluator (Eval.ofWorld (evaluator.call name args)) (Eval.ofWorld (evaluator.call name args)) := by
  intro pass fresh hhost hfailures hvalid
  unfold Eval.ofWorld
  cases hfunction : evaluator.functions.get? name with
  | none =>
    rw [call_of_none hfunction, call_of_none hfunction]
    exact ⟨[.told _], _, _, followsAt_told hhost hfailures rfl rfl (kind_callFailure _), .inl ⟨_, rfl, rfl⟩⟩
  | some operation =>
    rw [call_of_some hfunction, call_of_some hfunction, ← hhost]
    cases operation args pass.world.host with
    | ok answer host =>
      cases answer with
      | ok value =>
        refine ⟨[], _, _, ?_, .inl ⟨_, rfl, rfl⟩⟩
        exact followsAt_nil rfl hfailures rfl rfl
      | error reason =>
        refine ⟨[.told (.callFailure (.failed name reason))], _, _, ?_, .inl ⟨_, rfl, rfl⟩⟩
        refine followsAt_told ?_ hfailures ?_ ?_ (kind_callFailure _) <;> rfl
    | error crash host =>
      refine ⟨[], _, _, ?_, .inr ⟨crash, rfl, rfl⟩⟩
      exact followsAt_nil rfl hfailures rfl rfl

theorem mirrors_callNoting (name : String) (args : List Value) :
    Mirrors evaluator (evaluator.callNoting name args) (evaluator.callNoting name args) := by
  refine (mirrors_call evaluator name args).bind fun answer => ?_
  cases answer with
  | ok value => exact (mirrors_relation evaluator).finite (mirrors_missing evaluator) name value
  | error failure =>
    intro pass fresh hhost hfailures hvalid
    refine ⟨[], ⟨pass.world, pass.patterns, pass.failures.push failure⟩,
      ⟨fresh.world, fresh.patterns, fresh.failures.push failure⟩, ?_, .inl ⟨.zero, rfl, rfl⟩⟩
    exact followsAt_nil hhost (by rw [hfailures]) rfl rfl

theorem steps_mirror : Steps.Related (@Mirrors State evaluator) evaluator.steps evaluator.freshSteps where
  resolve := mirrors_resolve evaluator
  call := mirrors_callNoting evaluator
  unary := (mirrors_relation evaluator).apply (mirrors_missing evaluator)
  binary := mirrors_combine evaluator

theorem eval_mirrors (e : Expr) : Mirrors evaluator (evaluator.eval e) (evaluator.freshSteps.eval e) := by
  rw [eval_eq_steps]
  exact Steps.eval_related (mirrors_relation evaluator) (steps_mirror evaluator) e

end

end Evaluator

end ScenarioScript
