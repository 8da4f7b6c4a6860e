import ScenarioScript.Token.Lexer

/-!
# One lexeme

What a reader takes and what it leaves are the text it was given. It never takes nothing, and a
string without an end stops right before a line break or the end of the text.
-/

namespace ScenarioScript

/-! ## Nothing is lost -/

theorem spanGap_append (inComment : Bool) (text : List Char) :
    (spanGap inComment text).1 ++ (spanGap inComment text).2 = text := by
  induction text generalizing inComment with
  | nil => rfl
  | cons c text ih =>
    unfold spanGap
    split
    · exact congrArg (c :: ·) (ih _)
    · rfl

theorem spanFraction_append (text : List Char) :
    (spanFraction text).1 ++ (spanFraction text).2 = text := by
  unfold spanFraction
  split
  · split
    · exact congrArg ('.' :: ·) List.takeWhile_append_dropWhile
    · rfl
  · rfl

theorem spanExponent_append (text : List Char) :
    (spanExponent text).1 ++ (spanExponent text).2 = text := by
  unfold spanExponent
  split
  · split
    · split <;> simp
    · rfl
  · rfl

theorem spanNumber_append (text : List Char) : (spanNumber text).1 ++ (spanNumber text).2 = text := by
  unfold spanNumber
  split
  · simp
  · simp
  · have hfraction := spanFraction_append (text.dropWhile Char.isDigit)
    have hexponent := spanExponent_append (spanFraction (text.dropWhile Char.isDigit)).2
    simp only [List.append_assoc, hexponent, hfraction, List.takeWhile_append_dropWhile]

theorem spanString_append (quote : Char) (text : List Char) :
    (spanString quote text).taken ++ (spanString quote text).rest = text := by
  fun_induction spanString with
  | case1 => rfl
  | case2 => rfl
  | case3 => rfl
  | case4 => rfl
  | case5 _ _ _ _ _ ih => exact congrArg (_ :: _ :: ·) ih
  | case6 _ _ _ _ _ _ ih => exact congrArg (_ :: ·) ih

theorem symbol?_append {text : List Char} {symbol : Symbol} (h : symbol? text = some symbol) :
    symbol.text.toList ++ text.drop symbol.text.toList.length = text := by
  unfold symbol? at h
  split at h
  all_goals cases h
  all_goals rfl

theorem readLexeme_append (c : Char) (text : List Char) :
    (readLexeme c text).taken ++ (readLexeme c text).rest = c :: text := by
  unfold readLexeme
  split
  · exact spanNumber_append (c :: text)
  split
  · have hstring := spanString_append c text
    dsimp only
    split <;> exact congrArg (c :: ·) hstring
  split
  · exact congrArg (c :: ·) List.takeWhile_append_dropWhile
  split
  · exact symbol?_append ‹_›
  · rfl

/-! ## Something is taken -/

theorem Symbol.text_ne_nil (symbol : Symbol) : symbol.text.toList ≠ [] := by
  cases symbol <;> decide

theorem exists_spanNumber_cons {c : Char} (h : c.isDigit) (text : List Char) :
    ∃ more, (spanNumber (c :: text)).1 = c :: more := by
  unfold spanNumber
  split
  · rename_i heq
    cases heq
    exact ⟨_, rfl⟩
  · rename_i heq
    cases heq
    exact ⟨_, rfl⟩
  · simp [h]

theorem readLexeme_taken_ne_nil (c : Char) (text : List Char) : (readLexeme c text).taken ≠ [] := by
  unfold readLexeme
  split
  · rename_i hdigit
    obtain ⟨more, hmore⟩ := exists_spanNumber_cons hdigit text
    simp [hmore]
  split
  · dsimp only
    split <;> simp
  split
  · simp
  split
  · exact Symbol.text_ne_nil _
  · simp

/-! ## Kinds -/

theorem numberKind_cases (word : List Char) :
    (∃ x, numberKind word = .number x ∧ numberValue? word = some x) ∨
      numberKind word = .fault .malformedNumber := by
  unfold numberKind
  cases numberValue? word with
  | none => exact .inr rfl
  | some x => exact .inl ⟨x, rfl, rfl⟩

theorem readLexeme_kind_ne_done (c : Char) (text : List Char) : (readLexeme c text).kind ≠ .done := by
  unfold readLexeme
  split
  · rcases numberKind_cases (spanNumber (c :: text)).1 with ⟨x, hkind, -⟩ | hkind <;> simp [hkind]
  split
  · dsimp only
    split <;> simp
  split
  · simp
  split <;> simp

theorem spanString_rest_of_not_closed {quote : Char} {text : List Char}
    (h : (spanString quote text).closed = false) :
    ∀ c ∈ (spanString quote text).rest.head?, c = '\n' := by
  fun_induction spanString with
  | case1 => simp
  | case2 => cases h
  | case3 => simp
  | case4 => simp
  | case5 _ _ _ _ _ ih => exact ih h
  | case6 _ _ _ _ _ _ ih => exact ih h

theorem readLexeme_rest_of_openString {c : Char} {text : List Char}
    (h : (readLexeme c text).kind = .fault .openString) :
    ∀ d ∈ (readLexeme c text).rest.head?, d = '\n' := by
  unfold readLexeme at h ⊢
  split at h
  · rcases numberKind_cases (spanNumber (c :: text)).1 with ⟨x, hkind, -⟩ | hkind <;> simp [hkind] at h
  rename_i hdigit
  rw [if_neg hdigit]
  split at h
  · rename_i hquote
    rw [if_pos hquote]
    dsimp only at h ⊢
    split at h
    · cases h
    · rename_i hclosed
      rw [if_neg hclosed]
      exact spanString_rest_of_not_closed (by simpa using hclosed)
  split at h
  · cases h
  split at h <;> cases h

end ScenarioScript
