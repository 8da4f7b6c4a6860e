import ScenarioScript.Host.Functions
import ScenarioScript.Proofs.Number.Extremum

/-!
# The extremum functions

The standard functions `min` and `max` answer with an extremum of all their arguments. So neither the order of the
arguments matters nor how calls are nested.
-/

namespace ScenarioScript

variable {State : Type}

/-! ## Nested calls -/

/-- An argument, or a call with at least one part. -/
inductive Nest where
  | argument (value : Value)
  | call (first : Nest) (others : List Nest)

namespace Nest

mutual

/-- The arguments from left to right. -/
def leaves : Nest → List Value
  | argument value => [value]
  | call first others => first.leaves ++ leavesOfAll others

def leavesOfAll : List Nest → List Value
  | [] => []
  | nest :: nests => nest.leaves ++ leavesOfAll nests

end

mutual

/-- Calls the host's own operation from the inside out. An answer goes into the call around it as it is: the check of an
expression that a number is finite does not stand between the two. Without an answer to one call the others are not
made. -/
def run (operation : Operation State) : Nest → ExceptT String (HostAction State) Value
  | argument value => return value
  | call first others => do
    let value ← first.run operation
    let values ← runAll operation others
    operation (value :: values)

def runAll (operation : Operation State) : List Nest → ExceptT String (HostAction State) (List Value)
  | [] => return []
  | nest :: nests => do
    let value ← nest.run operation
    let values ← runAll operation nests
    return value :: values

end

end Nest

/-! ## The functions -/

namespace Extremum

def name : Extremum → String
  | least => "min"
  | greatest => "max"

/-- The function puts its arguments together by the way of two numbers. -/
def operation (extremum : Extremum) : Operation State :=
  Standard.toOperation (Standard.foldNumbers extremum.name extremum.combine)

theorem get?_standard (extremum : Extremum) :
    (FunctionTable.standard : FunctionTable State).get? extremum.name = some extremum.operation := by
  cases extremum <;> simp [name, FunctionTable.standard, Standard.functions, NameTable.ofList] <;> rfl

theorem operation_nil (extremum : Extremum) (host : Host State) :
    extremum.operation [] host = .ok (.error (extremum.name ++ ": argument 0 missing")) host := by
  cases extremum <;> rfl

theorem operation_cons (extremum : Extremum) (first : Value) (others : List Value) (host : Host State) :
    extremum.operation (first :: others) host =
      .ok (.ok (.number ((others.map Value.toNumber).foldl extremum.combine first.toNumber))) host := rfl

end Extremum

namespace Nest

theorem bind_of_answer {α β : Type} {action : ExceptT String (HostAction State) α}
    {f : α → ExceptT String (HostAction State) β} {a : α} {host after : Host State}
    (h : action host = .ok (.ok a) after) : (action >>= f) host = f a after := by
  change EStateM.bind action _ host = _
  unfold EStateM.bind
  rw [h]
  rfl

variable (extremum : Extremum)

mutual

theorem run_isOf (nest : Nest) :
    ∃ value, (∀ host : Host State, nest.run extremum.operation host = .ok (.ok value) host) ∧
      extremum.IsOf value.toNumber (nest.leaves.map Value.toNumber) := by
  match nest with
  | argument value => exact ⟨value, fun _ => rfl, Extremum.isOf_singleton _⟩
  | call first others =>
    obtain ⟨value, hvalue, hfirst⟩ := run_isOf first
    obtain ⟨values, hvalues, hothers⟩ := runAll_isOf others
    have hrun (host : Host State) : (call first others).run extremum.operation host =
        extremum.operation (value :: values) host :=
      (bind_of_answer (hvalue host)).trans (bind_of_answer (hvalues host))
    refine ⟨_, fun host => (hrun host).trans (extremum.operation_cons value values host), ?_⟩
    rw [leaves, List.map_append]
    exact hothers hfirst

theorem runAll_isOf (nests : List Nest) :
    ∃ values, (∀ host : Host State, runAll extremum.operation nests host = .ok (.ok values) host) ∧
      ∀ {x numbers}, extremum.IsOf x numbers →
        extremum.IsOf ((values.map Value.toNumber).foldl extremum.combine x)
          (numbers ++ (leavesOfAll nests).map Value.toNumber) := by
  match nests with
  | [] => exact ⟨[], fun _ => rfl, fun hx => by simpa [leavesOfAll] using hx⟩
  | nest :: nests =>
    obtain ⟨value, hvalue, hnest⟩ := run_isOf nest
    obtain ⟨values, hvalues, hnests⟩ := runAll_isOf nests
    refine ⟨value :: values, fun host => ?_, fun hx => ?_⟩
    · exact (bind_of_answer (hvalue host)).trans (bind_of_answer (hvalues host))
    · rw [leavesOfAll, List.map_append, ← List.append_assoc]
      exact hnests (hx.combine hnest)

end

end Nest

namespace Extremum

theorem operation_isOf (extremum : Extremum) {args : List Value} (hargs : args ≠ []) :
    ∃ x, (∀ host : Host State, extremum.operation args host = .ok (.ok (.number x)) host) ∧
      extremum.IsOf x (args.map Value.toNumber) := by
  obtain ⟨first, others, rfl⟩ := List.exists_cons_of_ne_nil hargs
  exact ⟨_, extremum.operation_cons first others, (isOf_singleton first.toNumber).foldl _⟩

/-- The answer of a standard extremum function is an extremum of all its arguments, if there are any. So calls of the
function nested in one another, with the same arguments in any order and in any groups, have answers that cannot be told
apart. -/
theorem standard_extremum (extremum : Extremum) :
    ∃ operation, (FunctionTable.standard : FunctionTable State).get? extremum.name = some operation ∧
      (∀ host, operation [] host = .ok (.error (extremum.name ++ ": argument 0 missing")) host) ∧
      (∀ args, args ≠ [] → ∃ x, (∀ host, operation args host = .ok (.ok (.number x)) host) ∧
        extremum.IsOf x (args.map Value.toNumber)) ∧
      ∀ nest other : Nest, nest.leaves.Perm other.leaves →
        ∃ value found, (∀ host, nest.run operation host = .ok (.ok value) host) ∧
          (∀ host, other.run operation host = .ok (.ok found) host) ∧
          Number.Alike value.toNumber found.toNumber := by
  refine ⟨extremum.operation, extremum.get?_standard, extremum.operation_nil, fun args => extremum.operation_isOf, ?_⟩
  intro nest other hperm
  obtain ⟨value, hvalue, hisOf⟩ := nest.run_isOf extremum
  obtain ⟨found, hfound, hother⟩ := other.run_isOf extremum
  have hsame : extremum.IsOf found.toNumber (nest.leaves.map Value.toNumber) :=
    hother.congr fun _ => (hperm.map Value.toNumber).symm.mem_iff
  exact ⟨value, found, hvalue, hfound, hisOf.alike hsame⟩

/-- The host's `min`, called with 3 and its own answer to "nan" and "-inf", which is no finite number, and called with
the three arguments at once -/
theorem standard_extremum_nan :
    let three := Number.ofNat 3
    let word (text : String) := Nest.argument (.text text)
    let nested := Nest.call (.argument (.number three)) [.call (word "nan") [word "-inf"]]
    let flat := Nest.call (word "-inf") [.argument (.number three), word "nan"]
    nested.leaves.Perm flat.leaves ∧ flat.leaves ≠ [] ∧
      ∃ operation, (FunctionTable.standard : FunctionTable Unit).get? "min" = some operation ∧
        (∃ x, (∀ host, operation flat.leaves host = .ok (.ok (.number x)) host) ∧ x.isNaN = false ∧ x ≤ three) ∧
        ∃ value found, (∀ host, nested.run operation host = .ok (.ok value) host) ∧
          (∀ host, flat.run operation host = .ok (.ok found) host) ∧ Number.Alike value.toNumber found.toNumber := by
  intro three word nested flat
  have hrotate (a b c : Value) : ([a, b] ++ [c]).Perm ([c] ++ [a, b]) := List.perm_append_comm
  have hperm : nested.leaves.Perm flat.leaves := hrotate _ _ _
  have hne : flat.leaves ≠ [] := List.cons_ne_nil _ _
  have hnan : three.isNaN = false := by decide +kernel
  have hmem : three ∈ flat.leaves.map Value.toNumber := List.mem_cons_of_mem _ List.mem_cons_self
  obtain ⟨operation, hoperation, -, hflat, hnested⟩ := standard_extremum least
  obtain ⟨x, hx, hisOf⟩ := hflat flat.leaves hne
  have hxnan : x.isNaN = false := by
    rw [Bool.eq_false_iff, ne_eq, hisOf.isNaN_iff]
    intro hall
    cases (hall three hmem).symm.trans hnan
  exact ⟨hperm, hne, operation, hoperation, ⟨x, hx, hxnan, hisOf.reaches three hmem hnan⟩, hnested nested flat hperm⟩

end Extremum

end ScenarioScript
