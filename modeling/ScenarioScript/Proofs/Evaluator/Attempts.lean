import ScenarioScript.Proofs.Evaluator.Calls

/-!
# The attempts at calls

An evaluation lists the failed ones among the calls that it attempts, in the order in which it comes to them: the
arguments of a call before the call, and the left operand before the right one.
-/

namespace ScenarioScript

variable {State : Type}

/-- A call of a name, with or without a function of that name. -/
structure Attempt (State : Type) where
  name : String
  args : List Value
  host : Host State

namespace Evaluator

/-- Why an attempt fails, if it does. -/
def failure? (evaluator : Evaluator State) (attempt : Attempt State) : Option CallFailure :=
  match evaluator.functions.get? attempt.name with
  | none => some (.unknownFunction attempt.name)
  | some operation =>
    match operation attempt.args attempt.host with
    | .ok (.error reason) _ => some (.failed attempt.name reason)
    | _ => none

mutual

/-- The calls that an evaluation attempts, in their order. -/
def attempts (evaluator : Evaluator State) : Expr → Pass State → List (Attempt State)
  | .literal _, _ | .var _, _ => []
  | .call name args, pass =>
    evaluator.attemptsOfAll args pass ++ (evaluator.evalAll args).behind pass fun values after =>
      [⟨name, values, after.world.host⟩]
  | .unary _ operand, pass => evaluator.attempts operand pass
  | .binary op left right, pass =>
    evaluator.attempts left pass ++ (evaluator.eval left).behind pass fun a after =>
      if op.isDecided a then [] else evaluator.attempts right after
  | .conditional condition yes no, pass =>
    evaluator.attempts condition pass ++ (evaluator.eval condition).behind pass fun value after =>
      if value.isTrue then evaluator.attempts yes after else evaluator.attempts no after

def attemptsOfAll (evaluator : Evaluator State) : List Expr → Pass State → List (Attempt State)
  | [], _ => []
  | e :: es, pass =>
    evaluator.attempts e pass ++ (evaluator.eval e).behind pass fun _ after => evaluator.attemptsOfAll es after

end

end Evaluator

namespace Eval

/-- If the computation starts here and does not crash, it lists the failed ones of some attempts. -/
def ListsAt {α : Type} (evaluator : Evaluator State) (r : Eval State α) (pass : Pass State)
    (attempts : List (Attempt State)) : Prop :=
  ∀ a after, r pass = .ok a after →
    after.failures.toList = pass.failures.toList ++ attempts.filterMap evaluator.failure?

section
variable {evaluator : Evaluator State} {α β : Type} {r : Eval State α} {pass : Pass State}

theorem Quiet.listsAt (h : Quiet r) (pass : Pass State) : ListsAt evaluator r pass [] := by
  intro a after hresult
  obtain ⟨b, last, hr, hfailures⟩ := h pass
  rw [hr] at hresult
  cases hresult
  simp [hfailures]

theorem ListsAt.bind {attempts : List (Attempt State)} {f : α → Eval State β}
    {next : α → Pass State → List (Attempt State)} (h : ListsAt evaluator r pass attempts)
    (hf : ∀ a middle, r pass = .ok a middle → ListsAt evaluator (f a) middle (next a middle)) :
    ListsAt evaluator (r >>= f) pass (attempts ++ r.behind pass next) := by
  intro b after hresult
  obtain ⟨a, middle, hr, hrest⟩ := exists_of_bind hresult
  have hbehind : r.behind pass next = next a middle := by
    unfold behind
    rw [hr]
  rw [hf a middle hr b after hrest, h a middle hr, hbehind, List.filterMap_append, List.append_assoc]

theorem ListsAt.bindQuiet {attempts : List (Attempt State)} {f : α → Eval State β}
    (h : ListsAt evaluator r pass attempts) (hf : ∀ a, Quiet (f a)) : ListsAt evaluator (r >>= f) pass attempts := by
  intro b after hresult
  obtain ⟨a, middle, hr, hrest⟩ := exists_of_bind hresult
  have hlast : ListsAt evaluator (f a) middle [] := (hf a).listsAt middle
  rw [hlast b after hrest, h a middle hr]
  simp

theorem quiet_property : EvalProperty (@Quiet State) := ⟨quiet_pure, Quiet.bind⟩

end

end Eval

namespace Evaluator

open Eval

section
variable (evaluator : Evaluator State)

theorem listsAt_callNoting (name : String) (args : List Value) (pass : Pass State) :
    ListsAt evaluator (evaluator.callNoting name args) pass [⟨name, args, pass.world.host⟩] := by
  intro value after h
  have hfinite (value : Value) (pass : Pass State) : ListsAt evaluator (evaluator.finite name value) pass [] :=
    (quiet_property.finite (quiet_missing evaluator) name value).listsAt pass
  rw [callNoting_eq] at h
  cases hfound : evaluator.functions.get? name with
  | none =>
    rw [call_of_none hfound] at h
    cases h
    simp [failure?, hfound]
  | some operation =>
    rw [call_of_some hfound] at h
    cases hresult : operation args pass.world.host with
    | ok answer host =>
      rw [hresult] at h
      cases answer with
      | ok result =>
        rw [hfinite result _ value after h]
        simp [failure?, hfound, hresult]
      | error reason =>
        cases h
        simp [failure?, hfound, hresult]
    | error crash host =>
      rw [hresult] at h
      cases h

theorem quiet_combine (op : BinaryOp) (a b : Value) : Quiet (evaluator.combine op a b) :=
  quiet_property.combine (quiet_missing evaluator) (quiet_patternMatch evaluator) op a b

mutual

theorem eval_listsAt : ∀ (e : Expr) (pass : Pass State),
    ListsAt evaluator (evaluator.eval e) pass (evaluator.attempts e pass)
  | .literal value, pass => by
    rw [eval, attempts]
    exact (quiet_pure value).listsAt pass
  | .var name, pass => by
    rw [eval, attempts]
    exact ((quiet_modifyGet _).bind fun _ => quiet_pure _).listsAt pass
  | .call name args, pass => by
    rw [eval, attempts]
    exact (evalAll_listsAt args pass).bind fun values middle _ => evaluator.listsAt_callNoting name values middle
  | .unary op operand, pass => by
    rw [eval, attempts]
    exact (eval_listsAt operand pass).bindQuiet fun value => quiet_property.apply (quiet_missing evaluator) op value
  | .binary op left right, pass => by
    have hleft := eval_listsAt left pass
    have hlast (middle : Pass State) : ListsAt evaluator (do let b ← evaluator.eval right; return Value.ofBool b.isTrue)
        middle (evaluator.attempts right middle) :=
      (eval_listsAt right middle).bindQuiet fun b => quiet_pure _
    rw [attempts]
    cases op with
    | and =>
      rw [eval]
      refine hleft.bind fun a middle _ => ?_
      cases ha : a.isTrue with
      | true => simpa [BinaryOp.isDecided, ha] using hlast middle
      | false => simpa [BinaryOp.isDecided, ha] using (quiet_pure _).listsAt middle
    | or =>
      rw [eval]
      refine hleft.bind fun a middle _ => ?_
      cases ha : a.isTrue with
      | true => simpa [BinaryOp.isDecided, ha] using (quiet_pure _).listsAt middle
      | false => simpa [BinaryOp.isDecided, ha] using hlast middle
    | _ =>
      simp only [eval, BinaryOp.isDecided, Bool.false_eq_true, if_false]
      exact hleft.bind fun a middle _ => (eval_listsAt right middle).bindQuiet fun b => evaluator.quiet_combine _ a b
  | .conditional condition yes no, pass => by
    rw [eval, attempts]
    refine (eval_listsAt condition pass).bind fun value middle _ => ?_
    split
    · exact eval_listsAt yes middle
    · exact eval_listsAt no middle

theorem evalAll_listsAt : ∀ (es : List Expr) (pass : Pass State),
    ListsAt evaluator (evaluator.evalAll es) pass (evaluator.attemptsOfAll es pass)
  | [], pass => by
    rw [evalAll, attemptsOfAll]
    exact (quiet_pure []).listsAt pass
  | e :: es, pass => by
    rw [evalAll, attemptsOfAll]
    refine (eval_listsAt e pass).bind fun value middle _ => ?_
    exact (evalAll_listsAt es middle).bindQuiet fun values => quiet_pure _

end

end

end Evaluator

end ScenarioScript
