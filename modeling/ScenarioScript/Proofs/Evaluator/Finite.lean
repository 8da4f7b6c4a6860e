import ScenarioScript.Proofs.Evaluator.Calls
import ScenarioScript.Proofs.Number.Bits
import ScenarioScript.Proofs.Number.Rounding

/-!
# Evaluation gives finite numbers

Operators and calls let no other number pass. So a number that is not finite can only come out of an
expression as one of its literals or variables.
-/

namespace ScenarioScript

variable {State : Type}

theorem Number.isFinite_ofNat {n : Nat} (h : n < 2 ^ 64) : (Number.ofNat n).isFinite :=
  isFinite_ofRank (nearestRank_whole_lt h)

namespace Value

def IsFinite : Value → Prop
  | number x => x.isFinite
  | text _ => True

theorem isFinite_zero : zero.IsFinite := Number.isFinite_ofNat (by decide)

theorem isFinite_ofBool (b : Bool) : (ofBool b).IsFinite := by
  cases b <;> exact Number.isFinite_ofNat (by decide)

end Value

namespace Expr

mutual

/-- The literals of an expression from left to right. -/
def literals : Expr → List Value
  | literal value => [value]
  | var _ => []
  | call _ args => literalsOfAll args
  | unary _ operand => operand.literals
  | binary _ left right => left.literals ++ right.literals
  | conditional condition yes no => condition.literals ++ yes.literals ++ no.literals

def literalsOfAll : List Expr → List Value
  | [] => []
  | e :: es => e.literals ++ literalsOfAll es

end

end Expr

namespace Eval

/-- From some passes the computation gives no number that is not finite. -/
def GivesFinite (P : Pass State → Prop) (r : Eval State Value) : Prop :=
  ∀ pass value after, P pass → r pass = .ok value after → value.IsFinite

section
variable {P Q : Pass State → Prop} {α : Type} {r : Eval State α} {f : α → Eval State Value}

theorem givesFinite_pure {value : Value} (h : value.IsFinite) : GivesFinite P (pure value) := by
  rintro pass _ _ - ⟨⟩
  exact h

theorem GivesFinite.bind (hr : ∀ pass a after, P pass → r pass = .ok a after → Q after)
    (hf : ∀ a, GivesFinite Q (f a)) : GivesFinite P (r >>= f) := by
  intro pass value after hpass h
  cases hfirst : r pass with
  | ok a middle =>
    rw [bind_of_ok hfirst] at h
    exact hf a middle value after (hr pass a middle hpass hfirst) h
  | error crash middle =>
    rw [bind_of_error hfirst] at h
    cases h

theorem GivesFinite.after (hf : ∀ a, GivesFinite (fun _ => True) (f a)) : GivesFinite P (r >>= f) :=
  bind (fun _ _ _ _ _ => trivial) hf

end

end Eval

namespace Evaluator

open Eval

section
variable {P : Pass State → Prop}

theorem givesFinite_missing (evaluator : Evaluator State) (problem : Problem) :
    GivesFinite P (evaluator.missing problem) := .after fun _ => givesFinite_pure Value.isFinite_zero

theorem givesFinite_finite (evaluator : Evaluator State) (maker : String) (value : Value) :
    GivesFinite P (evaluator.finite maker value) := by
  unfold finite
  split
  · split
    · rename_i hfinite
      exact givesFinite_pure hfinite
    · exact givesFinite_missing evaluator _
  · exact givesFinite_pure trivial

theorem givesFinite_apply (evaluator : Evaluator State) (op : UnaryOp) (value : Value) :
    GivesFinite P (evaluator.apply op value) := by
  cases op with
  | neg => exact givesFinite_finite evaluator UnaryOp.neg.symbol.text value.neg
  | not => exact givesFinite_pure (Value.isFinite_ofBool _)

theorem givesFinite_combine (evaluator : Evaluator State) (op : BinaryOp) (a b : Value) :
    GivesFinite P (evaluator.combine op a b) := by
  have hmatch (answer : Option Bool) (f : Bool → Bool) :
      ((answer.map fun m => Value.ofBool (f m)).getD .zero).IsFinite := by
    cases answer with
    | none => exact Value.isFinite_zero
    | some m => exact Value.isFinite_ofBool _
  have hfinite := givesFinite_finite (P := P) evaluator op.symbol.text
  cases op with
  | add => exact hfinite (a.add b)
  | sub => exact hfinite (a.sub b)
  | mul => exact hfinite (a.mul b)
  | div | rem =>
    unfold combine
    dsimp only
    split
    · exact hfinite _
    · exact givesFinite_missing evaluator _
  | patternMatch => exact .after fun answer => givesFinite_pure (hmatch answer id)
  | notPatternMatch => exact .after fun answer => givesFinite_pure (hmatch answer not)
  | _ => exact givesFinite_pure (Value.isFinite_ofBool _)

theorem givesFinite_callNoting (evaluator : Evaluator State) (name : String) (args : List Value) :
    GivesFinite P (evaluator.callNoting name args) := by
  refine .after fun answer => ?_
  cases answer with
  | ok value => exact givesFinite_finite evaluator name value
  | error failure => exact .after fun _ => givesFinite_pure Value.isFinite_zero

end

/-- The passes over some globals. -/
def OnGlobals (globals : VarTable) (pass : Pass State) : Prop := pass.world.host.globals = globals

section
variable {evaluator : Evaluator State} {host : Host State}

theorem givesFinite_resolve (hlookup : ∀ name x, evaluator.lookup? host name = some x → x.isFinite) (name : String) :
    GivesFinite (OnGlobals host.globals) (evaluator.eval (.var name)) := by
  rw [eval]
  intro pass value after hpass h
  rw [bind_of_ok (ofWorld_modifyGet _ _)] at h
  cases h
  have hsame : evaluator.lookup? pass.world.host name = evaluator.lookup? host name :=
    evaluator.lookup?_congr (congrArg (·.get? name) hpass)
  unfold resolve
  rw [hsame]
  cases hfound : evaluator.lookup? host name with
  | some x => exact hlookup name x hfound
  | none => exact Value.isFinite_zero

/-- Literals and variables that are finite make the value finite, whatever the functions answer. -/
theorem eval_givesFinite (hlookup : ∀ name x, evaluator.lookup? host name = some x → x.isFinite)
    (hfunctions : evaluator.functions.Keeps Host.globals) :
    ∀ e : Expr, (∀ value ∈ e.literals, value.IsFinite) → GivesFinite (OnGlobals host.globals) (evaluator.eval e)
  | .literal value, hliterals => by
    rw [eval]
    exact givesFinite_pure (hliterals value List.mem_cons_self)
  | .var name, _ => givesFinite_resolve hlookup name
  | .call name args, _ => by
    rw [eval]
    exact .after fun values => givesFinite_callNoting evaluator name values
  | .unary op operand, _ => by
    rw [eval]
    exact .after fun value => givesFinite_apply evaluator op value
  | .binary op left right, _ => by
    have hlast {P : Pass State → Prop} :
        GivesFinite P (do let b ← evaluator.eval right; return Value.ofBool b.isTrue) :=
      .after fun _ => givesFinite_pure (Value.isFinite_ofBool _)
    cases op with
    | and =>
      rw [eval]
      refine .after fun a => ?_
      split
      · exact hlast
      · exact givesFinite_pure (Value.isFinite_ofBool _)
    | or =>
      rw [eval]
      refine .after fun a => ?_
      split
      · exact givesFinite_pure (Value.isFinite_ofBool _)
      · exact hlast
    | _ =>
      simp only [eval]
      exact .after fun a => .after fun b => givesFinite_combine evaluator _ a b
  | .conditional condition yes no, hliterals => by
    simp only [Expr.literals, List.forall_mem_append] at hliterals
    obtain ⟨⟨-, hyes⟩, hno⟩ := hliterals
    rw [eval]
    have hcondition (pass : Pass State) (value : Value) (middle : Pass State) (hpass : OnGlobals host.globals pass)
        (hvalue : evaluator.eval condition pass = .ok value middle) : OnGlobals host.globals middle :=
      (eval_keepsHost hfunctions condition pass value middle hvalue).trans hpass
    refine .bind hcondition fun value => ?_
    split
    · exact eval_givesFinite hlookup hfunctions yes hyes
    · exact eval_givesFinite hlookup hfunctions no hno

theorem evaluateAt_isFinite {e : Expr} {origin : Origin} {world found : World State} {evaluation : Evaluation}
    {after : Evaluator State} (hliterals : ∀ value ∈ e.literals, value.IsFinite)
    (hlookup : ∀ name x, evaluator.lookup? world.host name = some x → x.isFinite)
    (hfunctions : evaluator.functions.Keeps Host.globals)
    (h : evaluator.evaluateAt e origin world = .ok (evaluation, after) found) : evaluation.value.IsFinite := by
  rw [evaluateAt_eq] at h
  have hplaced (name : String) (x : Float) :
      { evaluator with origin := some origin }.lookup? world.host name = some x → x.isFinite := hlookup name x
  have hfinite := eval_givesFinite hplaced hfunctions e hliterals
  cases heval : { evaluator with origin := some origin }.eval e ⟨world, evaluator.patterns, #[]⟩ with
  | ok value pass =>
    rw [heval] at h
    cases h
    have hworld : OnGlobals world.host.globals ⟨world, evaluator.patterns, #[]⟩ := rfl
    exact hfinite _ _ _ hworld heval
  | error crash pass =>
    rw [heval] at h
    cases h

end

end Evaluator

end ScenarioScript
