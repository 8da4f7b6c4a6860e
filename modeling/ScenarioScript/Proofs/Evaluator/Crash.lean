import ScenarioScript.Evaluator.Step
import ScenarioScript.Proofs.Evaluator.Steps
import ScenarioScript.Proofs.PatternCache

/-!
# Where evaluation can crash

The functions of a simulation answer whatever they are given, with one exception: `clamp` crashes on a
bound that is a NaN. So an evaluation crashes just if it comes to such a call.
-/

namespace ScenarioScript

variable {State : Type}

/-! ## Standard functions -/

namespace Standard

/-- The function answers, be it with a fault. -/
def Answers {α : Type} (result : Result α) : Prop := ∃ answer, result.run = .ok answer

section
variable {α β : Type} {result : Result α}

theorem answers_pure (a : α) : Answers (pure a : Result α) := ⟨.ok a, rfl⟩

theorem answers_throw (fault : ArgumentFault) : Answers (throw fault : Result α) := ⟨.error fault, rfl⟩

theorem Answers.bind {f : α → Result β} (h : Answers result) (hf : ∀ a, Answers (f a)) :
    Answers (result >>= f) := by
  obtain ⟨answer, hanswer⟩ := h
  cases answer with
  | ok a =>
    obtain ⟨answer, hf⟩ := hf a
    exact ⟨answer, by rw [ExceptT.run_bind, hanswer]; exact hf⟩
  | error fault => exact ⟨.error fault, by rw [ExceptT.run_bind, hanswer]; rfl⟩

theorem answers_argument (function : String) (args : List Value) (index : Nat) :
    Answers (argument function args index) := by
  unfold argument
  split
  · exact answers_pure _
  · exact answers_throw _

theorem Answers.map (h : Answers result) (f : α → β) : Answers (f <$> result) := by
  rw [map_eq_pure_bind]
  exact h.bind fun a => answers_pure (f a)

theorem answers_number (function : String) (args : List Value) (index : Nat) :
    Answers (number function args index) :=
  (answers_argument function args index).map Value.toNumber

end

theorem answers_map (function : String) (f : Float → Float) (args : List Value) :
    Answers (Standard.map function f args) :=
  (answers_number function args 0).map _

theorem answers_foldNumbers (function : String) (combine : Float → Float → Float) (args : List Value) :
    Answers (foldNumbers function combine args) :=
  (answers_number function args 0).bind fun _ => answers_pure _

theorem answers_sqrt (args : List Value) : Answers (sqrt args) := by
  refine (answers_number "sqrt" args 0).bind fun x => ?_
  split
  · exact (answers_throw _).bind fun _ => answers_pure _
  · exact answers_pure _

theorem answers_pow (args : List Value) : Answers (pow args) :=
  (answers_number "pow" args 0).bind fun _ => (answers_number "pow" args 1).bind fun _ => answers_pure _

theorem answers_strlen (args : List Value) : Answers (strlen args) :=
  (answers_argument "strlen" args 0).bind fun _ => answers_pure _

/-- Whether `clamp` gets bounds that are not crossed and of which one is a NaN. -/
def hasUnorderedBounds : List Value → Bool
  | _ :: low :: high :: _ =>
    !(high.toNumber < low.toNumber) && (low.toNumber.isNaN || high.toNumber.isNaN)
  | _ => false

theorem clamp_cons (x low high : Value) (rest : List Value) : clamp (x :: low :: high :: rest) = (do
    if high.toNumber < low.toNumber then throw (.crossedBounds low.toNumber high.toNumber)
    if low.toNumber.isNaN || high.toNumber.isNaN then ExceptT.lift (throw .unorderedBounds)
    return .number (Number.clamp x.toNumber low.toNumber high.toNumber) : Result Value) := rfl

theorem clamp_of_unordered {args : List Value} (h : hasUnorderedBounds args) :
    (clamp args).run = .error .unorderedBounds := by
  match args with
  | x :: low :: high :: rest =>
    simp only [hasUnorderedBounds, Bool.and_eq_true, Bool.not_eq_true', decide_eq_false_iff_not] at h
    rw [clamp_cons, if_neg h.1, if_pos h.2]
    rfl
  | [] | [_] | [_, _] => simp [hasUnorderedBounds] at h

theorem answers_clamp {args : List Value} (h : hasUnorderedBounds args = false) : Answers (clamp args) := by
  match args with
  | x :: low :: high :: rest =>
    rw [clamp_cons]
    by_cases hcrossed : high.toNumber < low.toNumber
    · rw [if_pos hcrossed]
      exact ⟨.error _, rfl⟩
    · have hordered : (low.toNumber.isNaN || high.toNumber.isNaN) = false := by
        simpa [hasUnorderedBounds, hcrossed] using h
      rw [if_neg hcrossed, if_neg (by rw [hordered]; exact Bool.false_ne_true)]
      exact ⟨.ok _, rfl⟩
  | [] | [_] | [_, _] => exact ⟨.error _, rfl⟩

/-- Of all functions, only `clamp` can crash, and only on bounds without an order. -/
theorem answers_of_mem {name : String} {f : List Value → Result Value} (h : (name, f) ∈ functions)
    (args : List Value) : Answers (f args) ∨ name = "clamp" ∧ f = clamp := by
  simp only [functions, List.mem_cons, Prod.mk.injEq, List.not_mem_nil, or_false] at h
  rcases h with ⟨rfl, rfl⟩ | ⟨rfl, rfl⟩ | ⟨rfl, rfl⟩ | ⟨rfl, rfl⟩ | ⟨rfl, rfl⟩ | ⟨rfl, rfl⟩ | ⟨rfl, rfl⟩ |
    ⟨rfl, rfl⟩ | ⟨rfl, rfl⟩ | ⟨rfl, rfl⟩ | ⟨rfl, rfl⟩
  · exact .inl (answers_map _ _ args)
  · exact .inl (answers_sqrt args)
  · exact .inl (answers_map _ _ args)
  · exact .inl (answers_map _ _ args)
  · exact .inl (answers_map _ _ args)
  · exact .inl (answers_pow args)
  · exact .inl (answers_foldNumbers _ _ args)
  · exact .inl (answers_foldNumbers _ _ args)
  · exact .inr ⟨rfl, rfl⟩
  · exact .inl (answers_strlen args)
  · exact .inl (answers_pure _)

theorem eq_clamp_of_mem {f : List Value → Result Value} (h : ("clamp", f) ∈ functions) : f = clamp := by
  simpa [functions] using h

theorem Answers.toAnswer {result : Result Value} (h : Answers result) : ∃ answer, result.toAnswer = .ok answer := by
  obtain ⟨answer, hanswer⟩ := h
  unfold Result.toAnswer
  rw [hanswer]
  cases answer with
  | ok value => exact ⟨.ok value, rfl⟩
  | error fault => exact ⟨.error fault.message, rfl⟩

theorem Answers.toOperation {f : List Value → Result Value} {args : List Value} (h : Answers (f args))
    (host : Host State) : ∃ answer, toOperation f args host = .ok answer host := by
  obtain ⟨answer, hanswer⟩ := h.toAnswer
  refine ⟨answer, ?_⟩
  unfold Standard.toOperation
  rw [hanswer]
  rfl

end Standard

/-! ## The functions of a simulation -/

theorem NameTable.get?_ofList {α : Type} (pairs : List (String × α)) (name : String) :
    (ofList pairs).get? name = pairs.reverse.lookup name := by
  have hfold (table : NameTable α) : (pairs.foldl (fun table pair => table.set pair.1 pair.2) table).get? name =
      (pairs.reverse.lookup name).or (table.get? name) := by
    induction pairs generalizing table with
    | nil => rfl
    | cons pair rest ih =>
      rw [List.foldl_cons, ih, get?_set, List.reverse_cons, List.lookup_append, lookup_entry, Option.or_assoc]
      split <;> rfl
  exact (hfold empty).trans (Option.or_none)

theorem NameTable.mem_of_get?_ofList {α : Type} {pairs : List (String × α)} {name : String} {value : α}
    (h : (ofList pairs).get? name = some value) : (name, value) ∈ pairs := by
  rw [get?_ofList, List.lookup_eq_some_iff] at h
  obtain ⟨front, back, hpairs, -⟩ := h
  have hmem : (name, value) ∈ pairs.reverse := by simp [hpairs]
  exact List.mem_reverse.1 hmem

namespace FunctionTable

/-- Why a `clamp` that is guarded has no value, where the other one crashes. -/
def refusal : String := "NaN bound"

/-- Refuses bounds without an order, and is `clamp` otherwise. -/
def guardedClamp : Operation State := fun args =>
  if Standard.hasUnorderedBounds args then return .error refusal else Standard.toOperation Standard.clamp args

def guarded : FunctionTable State := simulation.set "clamp" guardedClamp

theorem get?_clamp : (simulation : FunctionTable State).get? "clamp" = some (Standard.toOperation Standard.clamp) := by
  simp [simulation, standard, Standard.functions, NameTable.ofList]

theorem get?_guarded (name : String) :
    (guarded : FunctionTable State).get? name = if name = "clamp" then some guardedClamp else simulation.get? name :=
  NameTable.get?_set simulation "clamp" guardedClamp name

theorem answers_distanceTo (args : List Value) (host : Host State) :
    ∃ answer, distanceTo args host = .ok answer host :=
  (Standard.answers_map "distanceTo" _ args).toOperation host

theorem answers_of_get? {name : String} {operation : Operation State} (h : simulation.get? name = some operation)
    (hname : name ≠ "clamp") (args : List Value) (host : Host State) :
    ∃ answer, operation args host = .ok answer host := by
  rw [simulation, NameTable.get?_set] at h
  split at h
  · cases h
    exact answers_distanceTo args host
  · have hmem := NameTable.mem_of_get?_ofList h
    obtain ⟨⟨_, f⟩, hf, hpair⟩ := List.mem_map.1 hmem
    cases hpair
    rcases Standard.answers_of_mem hf args with hanswers | ⟨rfl, -⟩
    · exact hanswers.toOperation host
    · exact absurd rfl hname

end FunctionTable

theorem ArgumentFault.message_ne_refusal (fault : ArgumentFault) : fault.message ≠ FunctionTable.refusal := by
  have hcolon : ':' ∈ fault.message.toList := by
    cases fault with
    | missing function index =>
      unfold message
      generalize toString index = text
      simp
    | negativeRoot x =>
      unfold message
      generalize Number.render x = text
      simp
    | crossedBounds low high =>
      unfold message
      generalize Number.render low = text
      simp
  intro h
  simp [h, FunctionTable.refusal] at hcolon

namespace Standard

theorem toOperation_error {f : List Value → Result Value} {args : List Value} {host after : Host State}
    {reason : String} (h : toOperation f args host = .ok (.error reason) after) :
    ∃ fault : ArgumentFault, reason = fault.message := by
  unfold toOperation Result.toAnswer at h
  cases hrun : (f args).run with
  | error crash =>
    rw [hrun] at h
    cases h
  | ok answer =>
    rw [hrun] at h
    cases answer with
    | ok value => cases h
    | error fault =>
      cases h
      exact ⟨fault, rfl⟩

theorem toAnswer_crash {result : Result Value} {crash : Crash} (h : result.run = .error crash) :
    result.toAnswer = .error crash := by
  unfold Result.toAnswer
  rw [h]
  rfl

theorem toOperation_crash {f : List Value → Result Value} {args : List Value} {crash : Crash}
    (h : (f args).run = .error crash) (host : Host State) : toOperation f args host = .error crash host := by
  unfold toOperation
  rw [toAnswer_crash h]
  rfl

end Standard

/-- Which failure marks a call that would have crashed. -/
def CallFailure.refused : CallFailure := .failed "clamp" FunctionTable.refusal

namespace FunctionTable

/-- The second table has the same functions, and they answer. They give the answers of the first table, but
refuse where those crash. -/
def GuardedBy (functions guarded : FunctionTable State) : Prop :=
  ∀ name, (functions.get? name = none ∧ guarded.get? name = none) ∨
    ∃ operation other, functions.get? name = some operation ∧ guarded.get? name = some other ∧
      ∀ args host,
        (∃ answer, operation args host = .ok answer host ∧ other args host = .ok answer host ∧
          ∀ reason, answer = .error reason → CallFailure.failed name reason ≠ .refused) ∨
        (name = "clamp" ∧ operation args host = .error .unorderedBounds host ∧
          other args host = .ok (.error refusal) host)

theorem guardedBy_clamp (args : List Value) (host : Host State) :
    (∃ answer, Standard.toOperation Standard.clamp args host = .ok answer host ∧
      guardedClamp args host = .ok answer host ∧
      ∀ reason, answer = .error reason → CallFailure.failed "clamp" reason ≠ .refused) ∨
    (Standard.toOperation Standard.clamp args host = .error .unorderedBounds host ∧
      guardedClamp args host = .ok (.error refusal) host) := by
  by_cases hbounds : Standard.hasUnorderedBounds args
  · refine .inr ⟨Standard.toOperation_crash (Standard.clamp_of_unordered hbounds) host, ?_⟩
    rw [guardedClamp, if_pos hbounds]
    rfl
  · obtain ⟨answer, hanswer⟩ := (Standard.answers_clamp (by simpa using hbounds)).toOperation host
    refine .inl ⟨answer, hanswer, ?_, ?_⟩
    · rwa [guardedClamp, if_neg hbounds]
    · rintro reason rfl
      obtain ⟨fault, rfl⟩ := Standard.toOperation_error hanswer
      simp [CallFailure.refused, fault.message_ne_refusal]

theorem simulation_guardedBy : (simulation : FunctionTable State).GuardedBy guarded := by
  intro name
  rw [get?_guarded]
  by_cases hname : name = "clamp"
  · subst hname
    rw [if_pos rfl, get?_clamp]
    refine .inr ⟨_, _, rfl, rfl, fun args host => ?_⟩
    exact (guardedBy_clamp args host).imp id fun h => ⟨rfl, h⟩
  rw [if_neg hname]
  cases hfound : simulation.get? name with
  | none => exact .inl ⟨rfl, rfl⟩
  | some operation =>
    refine .inr ⟨operation, operation, rfl, rfl, fun args host => .inl ?_⟩
    obtain ⟨answer, hanswer⟩ := answers_of_get? hfound hname args host
    exact ⟨answer, hanswer, hanswer, fun reason _ => by simp [CallFailure.refused, hname]⟩

end FunctionTable

/-! ## Evaluations -/

namespace Eval

/-- The second computation returns. If no call in it was refused, the first one does the same, and
otherwise it crashes. -/
def GuardsAt {α : Type} (r guarded : Eval State α) (pass : Pass State) : Prop :=
  ∃ a after more, guarded pass = .ok a after ∧ after.failures.toList = pass.failures.toList ++ more ∧
    if CallFailure.refused ∈ more then ∃ crashed, r pass = .error .unorderedBounds crashed
    else r pass = .ok a after

def Guards {α : Type} (r guarded : Eval State α) : Prop := ∀ pass, GuardsAt r guarded pass

section
variable {α β : Type} {r guarded : Eval State α}

theorem guards_pure (a : α) : Guards (pure a : Eval State α) (pure a) :=
  fun pass => ⟨a, pass, [], rfl, by simp, by simp; rfl⟩

theorem Guards.bind {f f' : α → Eval State β} (h : Guards r guarded) (hf : ∀ a, Guards (f a) (f' a)) :
    Guards (r >>= f) (guarded >>= f') := by
  intro pass
  obtain ⟨a, middle, first, hguarded, hfirst, hr⟩ := h pass
  obtain ⟨b, after, second, hguarded', hsecond, hr'⟩ := hf a middle
  refine ⟨b, after, first ++ second, (bind_of_ok hguarded).trans hguarded', by simp [hsecond, hfirst], ?_⟩
  by_cases hrefused : CallFailure.refused ∈ first
  · -- the first computation crashes and never comes to the second one
    rw [if_pos hrefused] at hr
    obtain ⟨crashed, hcrashed⟩ := hr
    rw [if_pos (List.mem_append_left _ hrefused)]
    exact ⟨crashed, bind_of_error hcrashed⟩
  · rw [if_neg hrefused] at hr
    simp only [List.mem_append, hrefused, false_or]
    rw [bind_of_ok hr]
    exact hr'

theorem guards_relation : EvalRelation (@Guards State) where
  pure := guards_pure
  bind := Guards.bind

/-- The computation returns and adds no failure. -/
def Quiet (r : Eval State α) : Prop := ∀ pass, ∃ a after, r pass = .ok a after ∧ after.failures = pass.failures

theorem quiet_pure (a : α) : Quiet (pure a : Eval State α) := fun pass => ⟨a, pass, rfl, rfl⟩

theorem Quiet.bind {f : α → Eval State β} (h : Quiet r) (hf : ∀ a, Quiet (f a)) : Quiet (r >>= f) := by
  intro pass
  obtain ⟨a, middle, hr, hmiddle⟩ := h pass
  obtain ⟨b, after, hf, hafter⟩ := hf a middle
  exact ⟨b, after, (bind_of_ok hr).trans hf, hafter.trans hmiddle⟩

theorem Quiet.guards (h : Quiet r) : Guards r r := by
  intro pass
  obtain ⟨a, after, hr, hafter⟩ := h pass
  exact ⟨a, after, [], hr, by simp [hafter], by simpa using hr⟩

theorem quiet_modifyGet (f : World State → α × World State) : Quiet (Eval.ofWorld (modifyGet f)) :=
  fun pass => ⟨(f pass.world).1, { pass with world := (f pass.world).2 }, rfl, rfl⟩

end

end Eval

namespace Evaluator

open Eval

section
variable (evaluator : Evaluator State)

theorem quiet_missing (problem : Problem) (_ : problem.kind = .arithmetic) : Quiet (evaluator.missing problem) :=
  (quiet_modifyGet _).bind fun _ => quiet_pure _

theorem quiet_patternMatch (pattern text : String) : Quiet (evaluator.patternMatch pattern text) := by
  have hget : Quiet (get : Eval State (Pass State)) := fun pass => ⟨pass, pass, rfl, rfl⟩
  refine hget.bind fun found => ?_
  have hmodify : Quiet (modify fun pass =>
      { pass with patterns := (found.patterns.find evaluator.engine pattern).cache } : Eval State Unit) :=
    fun pass => ⟨(), _, rfl, rfl⟩
  refine hmodify.bind fun _ => ?_
  split
  · exact (quiet_modifyGet _).bind fun _ => quiet_pure _
  · exact quiet_pure _

end

/-! ## Calls -/

def withFunctions (evaluator : Evaluator State) (functions : FunctionTable State) : Evaluator State :=
  { evaluator with functions }

section
variable {functions guarded : FunctionTable State} {evaluator : Evaluator State} {name : String} {args : List Value}
  {pass : Pass State} {world : World State}

theorem guards_missing (evaluator : Evaluator State) (functions guarded : FunctionTable State) (problem : Problem)
    (hkind : problem.kind = .arithmetic) :
    Guards ((evaluator.withFunctions functions).missing problem) ((evaluator.withFunctions guarded).missing problem) :=
  (quiet_missing evaluator problem hkind).guards

theorem guardsAt_of_same {result : Except CallFailure Value} (hresult : result ≠ .error .refused)
    (h : (evaluator.withFunctions functions).call name args pass.world = .ok result world)
    (hguarded : (evaluator.withFunctions guarded).call name args pass.world = .ok result world) :
    GuardsAt ((evaluator.withFunctions functions).callNoting name args)
      ((evaluator.withFunctions guarded).callNoting name args) pass := by
  cases result with
  | ok value =>
    have hfinite : GuardsAt ((evaluator.withFunctions functions).finite name value)
        ((evaluator.withFunctions guarded).finite name value) { pass with world } :=
      guards_relation.finite (guards_missing evaluator functions guarded) name value _
    unfold GuardsAt at hfinite ⊢
    rwa [callNoting_eq, callNoting_eq, h, hguarded]
  | error failure =>
    refine ⟨.zero, { pass with world, failures := pass.failures.push failure }, [failure], ?_, by simp, ?_⟩
    · rw [callNoting_eq, hguarded]
    · have hne : CallFailure.refused ∉ [failure] := by
        intro hmem
        exact hresult (List.mem_singleton.1 hmem ▸ rfl)
      rw [if_neg hne, callNoting_eq, h]

theorem guardsAt_of_refused {guardedWorld : World State}
    (h : (evaluator.withFunctions functions).call name args pass.world = .error .unorderedBounds world)
    (hguarded : (evaluator.withFunctions guarded).call name args pass.world =
      .ok (.error .refused) guardedWorld) :
    GuardsAt ((evaluator.withFunctions functions).callNoting name args)
      ((evaluator.withFunctions guarded).callNoting name args) pass := by
  refine ⟨.zero, { pass with world := guardedWorld, failures := pass.failures.push .refused }, [.refused], ?_,
    by simp, ?_⟩
  · rw [callNoting_eq, hguarded]
  · rw [if_pos List.mem_cons_self, callNoting_eq, h]
    exact ⟨_, rfl⟩

theorem guards_call (h : functions.GuardedBy guarded) (evaluator : Evaluator State) (name : String)
    (args : List Value) :
    Guards ((evaluator.withFunctions functions).callNoting name args)
      ((evaluator.withFunctions guarded).callNoting name args) := by
  intro pass
  rcases h name with ⟨hnone, hnoneGuarded⟩ | ⟨operation, other, hfound, hfoundGuarded, hoperation⟩
  · have hcall : (evaluator.withFunctions functions).call name args pass.world = _ := call_of_none hnone pass.world
    have hguarded : (evaluator.withFunctions guarded).call name args pass.world = _ :=
      call_of_none hnoneGuarded pass.world
    exact guardsAt_of_same (by simp [CallFailure.refused]) hcall hguarded
  · have hcall : (evaluator.withFunctions functions).call name args pass.world = _ := call_of_some hfound pass.world
    have hguarded : (evaluator.withFunctions guarded).call name args pass.world = _ :=
      call_of_some hfoundGuarded pass.world
    rcases hoperation args pass.world.host with ⟨answer, hanswer, hother, hne⟩ | ⟨rfl, hcrash, hrefused⟩
    · rw [hanswer] at hcall
      rw [hother] at hguarded
      cases answer with
      | ok value => exact guardsAt_of_same (by simp) hcall hguarded
      | error reason => exact guardsAt_of_same (by simpa using hne reason rfl) hcall hguarded
    · rw [hcrash] at hcall
      rw [hrefused] at hguarded
      exact guardsAt_of_refused hcall hguarded

theorem steps_guarded (h : functions.GuardedBy guarded) (evaluator : Evaluator State) :
    Steps.Related (@Guards State) (evaluator.withFunctions functions).steps
      (evaluator.withFunctions guarded).steps where
  resolve _ := ((quiet_modifyGet _).bind fun _ => quiet_pure _).guards
  call := guards_call h evaluator
  unary := guards_relation.apply (guards_missing evaluator functions guarded)
  binary := guards_relation.combine (guards_missing evaluator functions guarded) fun pattern text =>
    (quiet_patternMatch evaluator pattern text).guards

theorem eval_guarded (h : functions.GuardedBy guarded) (evaluator : Evaluator State) (e : Expr) :
    Guards ((evaluator.withFunctions functions).eval e) ((evaluator.withFunctions guarded).eval e) := by
  rw [eval_eq_steps, eval_eq_steps]
  exact Steps.eval_related guards_relation (steps_guarded h evaluator) e

end

/-- A standard function crashes just if it is `clamp` with bounds that are not crossed and of which one is
a NaN. With a `clamp` that refuses them, every evaluation returns. The evaluation itself does the same if
none was refused, and crashes otherwise. -/
theorem evaluate_guarded (evaluator : Evaluator State) (e : Expr) (world : World State) :
    (∀ name f, (name, f) ∈ Standard.functions → ∀ args,
      (name = "clamp" ∧ Standard.hasUnorderedBounds args →
        Standard.Result.toAnswer (f args) = .error .unorderedBounds) ∧
      (¬ (name = "clamp" ∧ Standard.hasUnorderedBounds args) →
        ∃ answer, Standard.Result.toAnswer (f args) = .ok answer)) ∧
    ∃ evaluation after found,
      (evaluator.withFunctions .guarded).evaluate e world = .ok (evaluation, after) found ∧
        (CallFailure.refused ∈ evaluation.failures → ∃ crashed,
          (evaluator.withFunctions .simulation).evaluate e world = .error .unorderedBounds crashed) ∧
        (CallFailure.refused ∉ evaluation.failures →
          (evaluator.withFunctions .simulation).evaluate e world =
            .ok (evaluation, after.withFunctions .simulation) found) := by
  constructor
  · intro name f hmem args
    constructor
    · rintro ⟨rfl, hbounds⟩
      rw [Standard.eq_clamp_of_mem hmem]
      exact Standard.toAnswer_crash (Standard.clamp_of_unordered hbounds)
    · intro hcalm
      rcases Standard.answers_of_mem hmem args with hanswers | ⟨rfl, rfl⟩
      · exact hanswers.toAnswer
      · have hbounds : ¬ Standard.hasUnorderedBounds args := fun hbounds => hcalm ⟨rfl, hbounds⟩
        exact (Standard.answers_clamp (by simpa using hbounds)).toAnswer
  · obtain ⟨value, pass, more, hguarded, hmore, hreal⟩ :=
      eval_guarded FunctionTable.simulation_guardedBy evaluator e ⟨world, evaluator.patterns, #[]⟩
    have hfailures : more = pass.failures.toList := by simpa using hmore.symm
    subst hfailures
    refine ⟨_, _, pass.world, evaluate_of_ok hguarded, fun hrefused => ?_, fun hrefused => ?_⟩
    · rw [if_pos hrefused] at hreal
      obtain ⟨crashed, hreal⟩ := hreal
      exact ⟨crashed.world, evaluate_of_error hreal⟩
    · rw [if_neg hrefused] at hreal
      exact evaluate_of_ok hreal

/-- With a number the bounds are in order, and with the text `nan` they are not. -/
theorem evaluate_guarded_clamp :
    let clampTo (low : Value) : List Value := [.number (Number.ofNat 9), low, .number (Number.ofNat 5)]
    let e : Expr := .call "clamp" ((clampTo (.text "nan")).map .literal)
    ("clamp", Standard.clamp) ∈ Standard.functions ∧
      (∃ answer, Standard.Result.toAnswer (Standard.clamp (clampTo (.number (Number.ofNat 1)))) = .ok answer) ∧
      Standard.Result.toAnswer (Standard.clamp (clampTo (.text "nan"))) = .error .unorderedBounds ∧
      ∃ crashed, (simulation .words "sim").evaluate e ⟨⟨.empty, ()⟩, #[]⟩ = .error .unorderedBounds crashed := by
  intro clampTo e
  have hmem : ("clamp", Standard.clamp) ∈ Standard.functions := by simp [Standard.functions]
  have hordered : Standard.hasUnorderedBounds (clampTo (.number (Number.ofNat 1))) = false := by decide +kernel
  have hunordered : Standard.hasUnorderedBounds (clampTo (.text "nan")) = true := by decide +kernel
  obtain ⟨hfunctions, evaluation, after, found, hguarded, hcrash, -⟩ :=
    evaluate_guarded (simulation .words "sim") e ⟨⟨.empty, ()⟩, #[]⟩
  have hnumber := (hfunctions "clamp" Standard.clamp hmem (clampTo (.number (Number.ofNat 1)))).2
  have htext := (hfunctions "clamp" Standard.clamp hmem (clampTo (.text "nan"))).1
  have hrefused : (match ((simulation .words "sim").withFunctions .guarded).evaluate e ⟨⟨.empty, ()⟩, #[]⟩ with
      | .ok (evaluation, _) _ => decide (CallFailure.refused ∈ evaluation.failures)
      | .error _ _ => false) = true := by decide +kernel
  rw [hguarded] at hrefused
  exact ⟨hmem, hnumber (by simp [hordered]), htext ⟨rfl, hunordered⟩, hcrash (of_decide_eq_true hrefused)⟩

theorem evaluate_clamp_crashes :
    ∃ e, Expr.parse "clamp(1, 'nan', 2)" "sim" = .ok e ∧ ∃ crash crashed,
      (simulation .words "sim").evaluate e ⟨⟨.empty, ()⟩, #[]⟩ = .error crash crashed := by
  have hcrash : ((Expr.parse "clamp(1, 'nan', 2)" "sim").toOption.any fun e =>
      !runPasses ((simulation .words "sim").evaluate e ⟨⟨.empty, ()⟩, #[]⟩) fun _ _ => true) = true := by decide +kernel
  cases hparse : Expr.parse "clamp(1, 'nan', 2)" "sim" with
  | error error => simp [hparse, Except.toOption] at hcrash
  | ok e =>
    refine ⟨e, rfl, ?_⟩
    cases heval : (simulation .words "sim").evaluate e ⟨⟨.empty, ()⟩, #[]⟩ with
    | ok answer after => simp [hparse, heval, Except.toOption, runPasses] at hcrash
    | error crash crashed => exact ⟨crash, crashed, rfl⟩

end Evaluator

end ScenarioScript
