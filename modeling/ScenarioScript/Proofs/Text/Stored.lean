import ScenarioScript.Text.Stored

/-!
# Stored text is the text

Where a text is stored makes no difference to what it reads as, how long it is and what it is equal to.
-/

namespace ScenarioScript.StoredText

/-- `Stores stored text`: the bytes of the text are there, inside the token or outside. -/
inductive Stores : StoredText → String → Prop
  | inside {size : UInt8} {buffer : Vector UInt8 capacity} {text : String} (hsize : size.toNat ≤ capacity)
      (hbytes : (buffer.take size.toNat).toArray = text.toByteArray.data) : Stores (short size buffer) text
  | outside (text : String) : Stores (long text) text

/-! ## Bytes -/

theorem fromUTF8?_toByteArray (text : String) : String.fromUTF8? text.toByteArray = some text := by
  unfold String.fromUTF8?
  rw [dif_pos text.isValidUTF8]
  rfl

theorem take_buffer {text : String} (h : text.utf8ByteSize ≤ capacity) :
    ((Vector.ofFn fun (i : Fin capacity) => text.toUTF8.data.getD i 0).take text.utf8ByteSize).toArray =
      text.toByteArray.data := by
  have hsize : text.toByteArray.data.size = text.utf8ByteSize := rfl
  apply Array.ext
  · simp [hsize, Nat.min_eq_left h]
  · intro i hi hi'
    simp [Array.getElem?_eq_getElem hi']

theorem toNat_ofNat_utf8ByteSize {text : String} (h : text.utf8ByteSize ≤ capacity) :
    (UInt8.ofNat text.utf8ByteSize).toNat = text.utf8ByteSize := by
  have hcapacity : text.utf8ByteSize ≤ 22 := h
  rw [UInt8.toNat_ofNat']
  omega

/-! ## Storing and reading -/

theorem stores_ofString (text : String) : (ofString text).Stores text := by
  unfold ofString
  split
  · rename_i h
    have hsize := toNat_ofNat_utf8ByteSize h
    refine .inside ?_ ?_
    · rwa [hsize]
    · rw [hsize, take_buffer h]
  · exact .outside text

section
variable {stored other : StoredText} {text : String}

theorem Stores.fromUTF8? {size : UInt8} {buffer : Vector UInt8 capacity} (h : (short size buffer).Stores text) :
    String.fromUTF8? ⟨(buffer.take size.toNat).toArray⟩ = some text := by
  cases h with
  | inside hsize hbytes =>
    rw [hbytes]
    exact fromUTF8?_toByteArray text

theorem Stores.toString_eq (h : stored.Stores text) : stored.toString = text := by
  cases stored with
  | short size buffer =>
    unfold toString
    dsimp only
    rw [h.fromUTF8?]
    rfl
  | long =>
    cases h
    rfl

@[simp]
theorem toString_ofString (text : String) : (ofString text).toString = text := (stores_ofString text).toString_eq

theorem Stores.size_eq (h : stored.Stores text) : stored.size = text.utf8ByteSize := by
  unfold size
  rw [h.toString_eq]

theorem isLong_ofString (text : String) : (ofString text).isLong ↔ capacity < text.utf8ByteSize := by
  unfold ofString
  split
  · exact iff_of_false Bool.false_ne_true (Nat.not_lt.2 ‹_›)
  · exact iff_of_true rfl (Nat.lt_of_not_le ‹_›)

theorem toNat_of_ofString_eq_short {size : UInt8} {buffer : Vector UInt8 capacity}
    (h : ofString text = short size buffer) : size.toNat = text.utf8ByteSize := by
  unfold ofString at h
  split at h
  · cases h
    exact toNat_ofNat_utf8ByteSize ‹_›
  · cases h

theorem Stores.beq_iff {a b : String} (ha : stored.Stores a) (hb : other.Stores b) : (stored == other) ↔ a = b := by
  change (stored.toString == other.toString) = true ↔ a = b
  rw [ha.toString_eq, hb.toString_eq, beq_iff_eq]

end

/-- A text that is stored reads as itself and has its own length. It is kept outside the token if it has more bytes than
fit inside, and otherwise the bytes inside spell it. Wherever they are kept, two stored texts are equal if the texts
are. -/
theorem stored_invisibly :
    (∀ text : String, (ofString text).Stores text ∧ (ofString text).toString = text ∧
      (ofString text).size = text.utf8ByteSize ∧ ((ofString text).isLong ↔ capacity < text.utf8ByteSize) ∧
      ∀ size buffer, ofString text = short size buffer → size.toNat = text.utf8ByteSize ∧ size.toNat ≤ capacity ∧
        String.fromUTF8? ⟨(buffer.take size.toNat).toArray⟩ = some text) ∧
    ∀ stored other a b, Stores stored a → Stores other b → ((stored == other) ↔ a = b) := by
  refine ⟨fun text => ?_, fun stored other a b ha hb => ha.beq_iff hb⟩
  have hstores := stores_ofString text
  refine ⟨hstores, hstores.toString_eq, hstores.size_eq, isLong_ofString text, fun size buffer hshort => ?_⟩
  rw [hshort] at hstores
  refine ⟨toNat_of_ofString_eq_short hshort, ?_, hstores.fromUTF8?⟩
  cases hstores with
  | inside hsize hbytes => exact hsize

/-- Eleven letters of two bytes each fit inside a token to the last byte. They are the same text outside. -/
theorem stored_invisibly_accents :
    let text := "ééééééééééé"
    (∃ size buffer, ofString text = short size buffer ∧ size.toNat = capacity) ∧ (ofString text == long text) = true ∧
      (ofString (text ++ "a")).isLong = true ∧ (ofString text == long (text ++ "a")) = false := by
  intro text
  obtain ⟨hofString, heq⟩ := stored_invisibly
  have hstores : (ofString text).Stores text := (hofString text).1
  have hlength : text.utf8ByteSize = capacity := by decide
  have hshort : ∃ size buffer, ofString text = short size buffer := ⟨_, _, if_pos (Nat.le_of_eq hlength)⟩
  obtain ⟨size, buffer, hshort⟩ := hshort
  refine ⟨⟨size, buffer, hshort, ?_⟩, ?_, ?_, ?_⟩
  · rw [((hofString text).2.2.2.2 size buffer hshort).1, hlength]
  · exact (heq _ _ text text hstores (.outside text)).2 rfl
  · exact (hofString (text ++ "a")).2.2.2.1.2 (by decide)
  · rw [Bool.eq_false_iff, ne_eq, heq _ _ text (text ++ "a") hstores (.outside _)]
    decide

end ScenarioScript.StoredText
