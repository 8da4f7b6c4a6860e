import ScenarioScript.PatternCache

/-!
# What the cache of patterns holds

The cache never gives another answer than the engine, and it never grows beyond its limit.
-/

namespace ScenarioScript

theorem NameTable.size_set_le {α : Type} (table : NameTable α) (name : String) (value : α) :
    (table.set name value).size ≤ table.size + 1 := by
  have hinsert (l : List (String × α)) : (insertSorted name value l).length ≤ l.length + 1 := by
    induction l with
    | nil => simp [insertSorted]
    | cons head rest ih =>
      unfold insertSorted
      split
      · simp
      · split
        · simpa using ih
        · simp
  exact hinsert table.entries

/-- An engine that looks for rows of letters and digits, and takes every other pattern for a group that is not
closed. -/
def PatternEngine.words : PatternEngine where
  compile pattern :=
    if pattern.toList.all Char.isAlphanum then
      .ok fun text => (List.range (text.length + 1)).any fun start => pattern.toList.isPrefixOf (text.toList.drop start)
    else .error ("regex parse error:\n    " ++ pattern ++ "\n    ^\nerror: unclosed group")

namespace PatternCache

/-- The cache holds of every pattern what the engine says of it, and there is room for all. -/
structure IsValid (engine : PatternEngine) (cache : PatternCache) : Prop where
  sound : ∀ pattern matcher, cache.patterns.get? pattern = some matcher → matcher = engine.matcher? pattern
  bounded : cache.size ≤ limit

section
variable {engine : PatternEngine} {cache : PatternCache} {pattern : String}

theorem isValid_empty : empty.IsValid engine where
  sound _ _ h := by cases h
  bounded := by simp [empty, size, NameTable.size, NameTable.empty]

theorem makeRoom_of_contains (h : cache.patterns.contains pattern) : cache.makeRoom pattern = cache := by
  simp [makeRoom, h]

theorem makeRoom_of_new (h : cache.patterns.contains pattern = false) (hvalid : cache.IsValid engine) :
    (cache.makeRoom pattern).IsValid engine ∧ (cache.makeRoom pattern).size < limit ∧
      (cache.makeRoom pattern).patterns.get? pattern = none := by
  unfold makeRoom
  split
  · exact ⟨isValid_empty, by decide, rfl⟩
  · refine ⟨hvalid, ?_, by simpa [NameTable.contains] using h⟩
    simp_all

theorem find_of_contains (hvalid : cache.IsValid engine) (h : cache.patterns.contains pattern) :
    cache.find engine pattern = ⟨engine.matcher? pattern, none, cache⟩ := by
  obtain ⟨matcher, hmatcher⟩ := Option.isSome_iff_exists.1 h
  unfold find
  dsimp only
  rw [makeRoom_of_contains h, hmatcher, hvalid.sound pattern matcher hmatcher]

theorem find_of_new (hvalid : cache.IsValid engine) (h : cache.patterns.contains pattern = false) :
    cache.find engine pattern = ⟨engine.matcher? pattern, engine.error? pattern,
      ⟨(cache.makeRoom pattern).patterns.set pattern (engine.matcher? pattern)⟩⟩ := by
  unfold find PatternEngine.matcher? PatternEngine.error?
  dsimp only
  rw [(makeRoom_of_new h hvalid).2.2]
  cases engine.compile pattern <;> rfl

theorem find_matcher (hvalid : cache.IsValid engine) (pattern : String) :
    (cache.find engine pattern).matcher = engine.matcher? pattern := by
  cases h : cache.patterns.contains pattern with
  | true => rw [find_of_contains hvalid h]
  | false => rw [find_of_new hvalid h]

theorem find_error (hvalid : cache.IsValid engine) (pattern : String) :
    (cache.find engine pattern).error =
      if cache.patterns.contains pattern then none else engine.error? pattern := by
  cases h : cache.patterns.contains pattern with
  | true => simp [find_of_contains hvalid h]
  | false => simp [find_of_new hvalid h]

theorem IsValid.find (hvalid : cache.IsValid engine) (pattern : String) :
    (cache.find engine pattern).cache.IsValid engine := by
  cases h : cache.patterns.contains pattern with
  | true => rwa [find_of_contains hvalid h]
  | false =>
    obtain ⟨hroom, hsize, -⟩ := makeRoom_of_new h hvalid
    rw [find_of_new hvalid h]
    constructor
    · intro other matcher hmatcher
      rw [NameTable.get?_set] at hmatcher
      split at hmatcher
      · rename_i hother
        cases hmatcher
        rw [hother]
      · exact hroom.sound other matcher hmatcher
    · exact Nat.le_trans (NameTable.size_set_le _ _ _) hsize

end

end PatternCache

end ScenarioScript
