/-!
# Tables by name

A table holds one value for each of its names, and lists them in the order of the names. Setting a
name that is there replaces its value.
-/

namespace ScenarioScript

structure NameTable (α : Type) where
  entries : List (String × α)
  sorted : entries.Pairwise (fun a b => a.1 < b.1)

namespace NameTable

variable {α : Type}

/-! ## Lists in the order of their names -/

def insertSorted (name : String) (value : α) : List (String × α) → List (String × α)
  | [] => [(name, value)]
  | (n, v) :: rest =>
    if name < n then (name, value) :: (n, v) :: rest
    else if n < name then (n, v) :: insertSorted name value rest
    else (name, value) :: rest

theorem eq_of_not_lt {a b : String} (h₁ : ¬ a < b) (h₂ : ¬ b < a) : a = b :=
  String.le_antisymm (String.not_lt.1 h₂) (String.not_lt.1 h₁)

theorem mem_insertSorted {name : String} {value : α} {l : List (String × α)} {x : String × α}
    (h : x ∈ insertSorted name value l) : x = (name, value) ∨ x ∈ l := by
  induction l with
  | nil => simpa [insertSorted] using h
  | cons head rest ih =>
    simp only [insertSorted] at h
    split at h
    · simpa using h
    · split at h
      · rcases List.mem_cons.1 h with h | h
        · exact .inr (by simp [h])
        · exact (ih h).imp id (List.mem_cons_of_mem _)
      · rcases List.mem_cons.1 h with h | h
        · exact .inl h
        · exact .inr (List.mem_cons_of_mem _ h)

theorem sorted_insertSorted {name : String} {value : α} {l : List (String × α)}
    (h : l.Pairwise (fun a b => a.1 < b.1)) :
    (insertSorted name value l).Pairwise (fun a b => a.1 < b.1) := by
  induction l with
  | nil => simp [insertSorted]
  | cons head rest ih =>
    obtain ⟨hhead, hrest⟩ := List.pairwise_cons.1 h
    simp only [insertSorted]
    split
    next hlt =>
      refine List.pairwise_cons.2 ⟨fun x hx => ?_, h⟩
      rcases List.mem_cons.1 hx with rfl | hx
      · exact hlt
      · exact String.lt_trans hlt (hhead x hx)
    next hnlt =>
      split
      next hgt =>
        refine List.pairwise_cons.2 ⟨fun x hx => ?_, ih hrest⟩
        rcases mem_insertSorted hx with rfl | hx
        · exact hgt
        · exact hhead x hx
      next hngt =>
        refine List.pairwise_cons.2 ⟨fun x hx => ?_, hrest⟩
        have hname : name = head.1 := eq_of_not_lt hnlt hngt
        exact hname ▸ hhead x hx

theorem lookup_entry (entry : String × α) (l : List (String × α)) (name : String) :
    (entry :: l).lookup name = if name = entry.1 then some entry.2 else l.lookup name := by
  obtain ⟨n, value⟩ := entry
  by_cases h : name = n
  · simp [h]
  · simp [List.lookup_cons, h, beq_eq_false_iff_ne.2 h]

theorem lookup_insertSorted (name : String) (value : α) (l : List (String × α)) (other : String) :
    (insertSorted name value l).lookup other =
      if other = name then some value else l.lookup other := by
  induction l with
  | nil => simp [insertSorted, lookup_entry]
  | cons head rest ih =>
    simp only [insertSorted]
    split
    · simp only [lookup_entry]
    next hnlt =>
      split
      next hgt =>
        have hne : head.1 ≠ name := fun h => String.lt_irrefl _ (h ▸ hgt)
        simp only [lookup_entry, ih]
        grind
      next hngt =>
        have hname : name = head.1 := eq_of_not_lt hnlt hngt
        simp only [lookup_entry]
        grind

theorem lookup_filter_ne (name : String) (l : List (String × α)) (other : String) :
    (l.filter (fun entry => entry.1 ≠ name)).lookup other =
      if other = name then none else l.lookup other := by
  induction l with
  | nil => simp
  | cons head rest ih => grind [lookup_entry]

/-! ## Tables -/

def empty : NameTable α := ⟨[], .nil⟩

instance : Inhabited (NameTable α) := ⟨empty⟩

def get? (table : NameTable α) (name : String) : Option α := table.entries.lookup name

def contains (table : NameTable α) (name : String) : Bool := (table.get? name).isSome

def set (table : NameTable α) (name : String) (value : α) : NameTable α :=
  ⟨insertSorted name value table.entries, sorted_insertSorted table.sorted⟩

def erase (table : NameTable α) (name : String) : NameTable α :=
  ⟨table.entries.filter (fun entry => entry.1 ≠ name), table.sorted.filter _⟩

def size (table : NameTable α) : Nat := table.entries.length

def isEmpty (table : NameTable α) : Bool := table.entries.isEmpty

def names (table : NameTable α) : List String := table.entries.map Prod.fst

/-- The table of a list of pairs. Of two pairs with one name the later counts. -/
def ofList (pairs : List (String × α)) : NameTable α :=
  pairs.foldl (fun table (name, value) => table.set name value) empty

@[simp] theorem get?_empty (name : String) : (empty : NameTable α).get? name = none := rfl

@[simp] theorem get?_set (table : NameTable α) (name : String) (value : α) (other : String) :
    (table.set name value).get? other = if other = name then some value else table.get? other :=
  lookup_insertSorted name value table.entries other

@[simp] theorem get?_erase (table : NameTable α) (name other : String) :
    (table.erase name).get? other = if other = name then none else table.get? other :=
  lookup_filter_ne name table.entries other

end NameTable

end ScenarioScript
