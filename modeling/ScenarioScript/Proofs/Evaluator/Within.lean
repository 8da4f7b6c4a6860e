import ScenarioScript.Proofs.Scenario.Literals
import Mathlib.Logic.Relation

/-!
# Finite numbers within an evaluation

Not only the value of an expression is finite, but also the value of each part that is evaluated on the
way to it. Functions may answer what they like, since what is not finite is stopped where it comes out.
-/

namespace ScenarioScript

variable {State : Type}

/-- An expression and what there is before it is evaluated. -/
structure Task (State : Type) where
  expr : Expr
  pass : Pass State

namespace Evaluator

/-- To evaluate the first expression is to evaluate the second on the way. -/
inductive Enters (evaluator : Evaluator State) : Task State → Task State → Prop
  | argument {name : String} {front rest : List Expr} {arg : Expr} {pass middle : Pass State} {values : List Value}
      (h : evaluator.evalAll front pass = .ok values middle) :
      evaluator.Enters ⟨.call name (front ++ arg :: rest), pass⟩ ⟨arg, middle⟩
  | operand {op : UnaryOp} {operand : Expr} {pass : Pass State} :
      evaluator.Enters ⟨.unary op operand, pass⟩ ⟨operand, pass⟩
  | left {op : BinaryOp} {left right : Expr} {pass : Pass State} :
      evaluator.Enters ⟨.binary op left right, pass⟩ ⟨left, pass⟩
  | right {op : BinaryOp} {left right : Expr} {pass middle : Pass State} {a : Value}
      (h : evaluator.eval left pass = .ok a middle) (hop : op.isDecided a = false) :
      evaluator.Enters ⟨.binary op left right, pass⟩ ⟨right, middle⟩
  | condition {condition yes no : Expr} {pass : Pass State} :
      evaluator.Enters ⟨.conditional condition yes no, pass⟩ ⟨condition, pass⟩
  | branch {condition yes no : Expr} {pass middle : Pass State} {value : Value}
      (h : evaluator.eval condition pass = .ok value middle) :
      evaluator.Enters ⟨.conditional condition yes no, pass⟩ ⟨if value.isTrue then yes else no, middle⟩

/-- The second is evaluated in the course of the first, at any depth. -/
def ComesTo (evaluator : Evaluator State) : Task State → Task State → Prop := Relation.ReflTransGen evaluator.Enters

/-- The value of an expression is finite, and so are the values of all its parts that are evaluated. -/
structure IsFiniteThroughout (evaluator : Evaluator State) (e : Expr) (world : World State) : Prop where
  value : ∀ evaluation after found, evaluator.evaluate e world = .ok (evaluation, after) found →
    evaluation.value.IsFinite
  part : ∀ part value after, evaluator.ComesTo ⟨e, ⟨world, evaluator.patterns, #[]⟩⟩ part →
    evaluator.eval part.expr part.pass = .ok value after → value.IsFinite

end Evaluator

theorem Expr.literals_subset_literalsOfAll {e : Expr} {es : List Expr} (h : e ∈ es) :
    e.literals ⊆ literalsOfAll es := by
  induction es with
  | nil => cases h
  | cons first rest ih =>
    rw [literalsOfAll]
    rcases List.mem_cons.1 h with rfl | h
    · exact List.subset_append_left _ _
    · exact List.subset_append_of_subset_right _ (ih h)

namespace Evaluator

section
variable {evaluator : Evaluator State} {task part : Task State}

theorem Enters.literals_subset (h : evaluator.Enters task part) : part.expr.literals ⊆ task.expr.literals := by
  cases h with
  | argument => exact Expr.literals_subset_literalsOfAll (by simp)
  | branch =>
    dsimp only
    split <;> simp [Expr.literals]
  | _ => simp [Expr.literals]

variable (hfunctions : evaluator.functions.Keeps Host.globals)
include hfunctions

theorem Enters.globals_eq (h : evaluator.Enters task part) :
    part.pass.world.host.globals = task.pass.world.host.globals := by
  cases h with
  | argument h => exact evalAll_keepsHost hfunctions _ _ _ _ h
  | right h => exact eval_keepsHost hfunctions _ _ _ _ h
  | branch h => exact eval_keepsHost hfunctions _ _ _ _ h
  | _ => rfl

theorem ComesTo.inherits (h : evaluator.ComesTo task part) :
    part.expr.literals ⊆ task.expr.literals ∧ part.pass.world.host.globals = task.pass.world.host.globals := by
  unfold ComesTo at h
  induction h with
  | refl => exact ⟨List.Subset.refl _, rfl⟩
  | tail _ hstep ih => exact ⟨List.Subset.trans hstep.literals_subset ih.1, (hstep.globals_eq hfunctions).trans ih.2⟩

end

section
variable {evaluator : Evaluator State} {world : World State}

theorem isFiniteThroughout_of_literals {e : Expr}
    (hlookup : ∀ name x, evaluator.lookup? world.host name = some x → x.isFinite)
    (hfunctions : evaluator.functions.Keeps Host.globals) (hliterals : ∀ value ∈ e.literals, value.IsFinite) :
    evaluator.IsFiniteThroughout e world := by
  have hpart (part : Task State) (value : Value) (after : Pass State)
      (hcomes : evaluator.ComesTo ⟨e, ⟨world, evaluator.patterns, #[]⟩⟩ part)
      (heval : evaluator.eval part.expr part.pass = .ok value after) : value.IsFinite := by
    obtain ⟨hsubset, hhost⟩ := hcomes.inherits hfunctions
    refine eval_givesFinite hlookup hfunctions part.expr ?_ part.pass value after hhost heval
    intro literal hliteral
    exact hliterals literal (hsubset hliteral)
  refine ⟨fun evaluation after found h => ?_, hpart⟩
  unfold evaluate at h
  split at h
  · rename_i value pass heval
    cases h
    exact hpart _ value pass .refl heval
  · cases h

/-- Variables and literals that are finite make every value of an evaluation finite, whatever the functions
answer. The literals of what a text spells are finite. -/
theorem isFiniteThroughout (hlocals : ∀ name x, evaluator.locals.get? name = some x → x.isFinite)
    (hsource : ∀ name x, evaluator.source.get? world.host name = some x → x.isFinite)
    (hfunctions : evaluator.functions.Keeps Host.globals) :
    (∀ e : Expr, (∀ value ∈ e.literals, value.IsFinite) → evaluator.IsFiniteThroughout e world) ∧
      ∀ text file e, Expr.parse text file = .ok e → evaluator.IsFiniteThroughout e world := by
  have hlookup (name : String) (x : Float) (h : evaluator.lookup? world.host name = some x) : x.isFinite := by
    unfold lookup? at h
    rcases Option.or_eq_some_iff.1 h with h | ⟨-, h⟩
    · exact hlocals name x h
    · exact hsource name x h
  refine ⟨fun e => isFiniteThroughout_of_literals hlookup hfunctions, fun text file e hparse => ?_⟩
  apply isFiniteThroughout_of_literals hlookup hfunctions
  exact e.isFinite_of_mem_literals (Expr.printable_of_parse hparse)

/-- An infinity, a text that spells one, a failing call and a function that counts its calls, between numbers so large
that they overflow. -/
theorem isFiniteThroughout_infinities :
    let infinity : Float := Number.ofNat 1 / Number.ofNat 0
    let evaluator : Evaluator Nat := { (bare .words "c" : Evaluator Nat) with
      locals := NameTable.empty.set "x" (Number.ofNat (10 ^ 200)), source := .host,
      functions := (((NameTable.empty.set "inf" (Operation.constant (.number infinity))).set "word"
        (Operation.constant (.text "inf"))).set "fail" (Operation.failing "no")).set "count" Operation.counting }
    let world : World Nat := ⟨⟨.empty, 0⟩, #[]⟩
    ∃ e evaluation after found,
      Expr.parse "(word() > x ? x * x + x : y) - inf() - fail(word() * 2) + count()" "c" = .ok e ∧
      evaluator.evaluate e world = .ok (evaluation, after) found ∧ found.host.state = 1 ∧
      evaluation.value = .number (Number.ofNat (10 ^ 200)) ∧ evaluation.failures = [.failed "fail" "no"] ∧
      evaluator.IsFiniteThroughout e world := by
  intro infinity evaluator world
  have hruns : ((Expr.parse "(word() > x ? x * x + x : y) - inf() - fail(word() * 2) + count()" "c").toOption.any
      fun e => runPasses (evaluator.evaluate e world) fun result found => found.host.state == 1 &&
        result.1 == ⟨.number (Number.ofNat (10 ^ 200)), [.failed "fail" "no"]⟩) = true := by decide +kernel
  have hlocals (name : String) (x : Float) (h : evaluator.locals.get? name = some x) : x.isFinite := by
    have hset : NameTable.get? (NameTable.empty.set "x" (Number.ofNat (10 ^ 200))) name = some x := h
    rw [NameTable.get?_set] at hset
    split at hset
    · rw [← Option.some.inj hset]
      decide +kernel
    · cases hset
  have hfunctions : evaluator.functions.Keeps Host.globals :=
    (((FunctionTable.keeps_empty.set (Operation.constant_seesOnly _).keeps "inf").set
      (Operation.constant_seesOnly _).keeps "word").set (Operation.failing_seesOnly "no").keeps "fail").set
      Operation.counting_keeps "count"
  obtain ⟨e, hparse, hruns⟩ := exists_ok_of_any hruns
  obtain ⟨result, found, heval, hresult⟩ := exists_of_runPasses hruns
  obtain ⟨hstate, hvalue⟩ := Bool.and_eq_true_iff.1 hresult
  have hevaluation := eq_of_beq hvalue
  refine ⟨e, result.1, result.2, found, hparse, heval, eq_of_beq hstate, ?_, ?_, ?_⟩
  · rw [hevaluation]
  · rw [hevaluation]
  · refine (isFiniteThroughout hlocals ?_ hfunctions).2 _ _ e hparse
    intro name x h
    cases h

end

end Evaluator

end ScenarioScript
