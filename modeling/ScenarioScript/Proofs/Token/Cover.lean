import ScenarioScript.Proofs.Token.Seam

/-!
# Tokens cover their text

A cursor stands between two characters of its text. A step passes a gap and the characters of one token, and counts
their bytes and their lines. From the start on, the gaps and the characters of the tokens in a row are the text.
-/

namespace ScenarioScript

/-! ## Gaps -/

/-- Blanks and comments before some text. A comment ends where its line or the text does. -/
inductive IsGap (behind : List Char) : List Char → Prop
  | nil : IsGap behind []
  | blank {c : Char} {gap : List Char} (hc : isBlank c) (hgap : IsGap behind gap) : IsGap behind (c :: gap)
  | comment {body gap : List Char} (hbody : '\n' ∉ body) (hend : ∀ c ∈ (gap ++ behind).head?, c = '\n')
      (hgap : IsGap behind gap) : IsGap behind ('#' :: (body ++ gap))

section
variable {c : Char} {text : List Char}

theorem spanGap_blank (hc : isBlank c) :
    spanGap false (c :: text) = (c :: (spanGap false text).1, (spanGap false text).2) := by
  have hsharp : c ≠ '#' := by
    rintro rfl
    cases hc
  simp [spanGap, hc, hsharp]

theorem spanGap_sharp : spanGap false ('#' :: text) = ('#' :: (spanGap true text).1, (spanGap true text).2) := by
  simp [spanGap]

theorem spanGap_visible (hc : IsVisible c) : spanGap false (c :: text) = ([], c :: text) := by
  simp [spanGap, hc.1, hc.2]

theorem spanGap_newline : spanGap true ('\n' :: text) = spanGap false ('\n' :: text) := by
  simp [spanGap]

theorem spanGap_comment (hc : c ≠ '\n') :
    spanGap true (c :: text) = (c :: (spanGap true text).1, (spanGap true text).2) := by
  simp [spanGap, hc]

theorem spanGap_body {body : List Char} (hbody : '\n' ∉ body) (hend : ∀ c ∈ text.head?, c = '\n') :
    spanGap true (body ++ text) = (body ++ (spanGap false text).1, (spanGap false text).2) := by
  induction body with
  | nil =>
    cases text with
    | nil => rfl
    | cons c text =>
      obtain rfl : c = '\n' := hend c rfl
      exact spanGap_newline
  | cons c body ih =>
    rw [List.mem_cons, not_or] at hbody
    rw [List.cons_append, spanGap_comment (Ne.symm hbody.1), ih hbody.2]
    rfl

end

theorem isGap_spanGap (text : List Char) :
    IsGap (spanGap false text).2 (spanGap false text).1 ∧
      ∃ body gap, (spanGap true text).1 = body ++ gap ∧ '\n' ∉ body ∧
        (∀ c ∈ (gap ++ (spanGap true text).2).head?, c = '\n') ∧ IsGap (spanGap true text).2 gap := by
  -- both at once, since a comment is entered from a gap and left into one
  induction text with
  | nil => exact ⟨.nil, [], [], rfl, by simp, by simp [spanGap], .nil⟩
  | cons c text ih =>
    obtain ⟨hopen, body, gap, hspan, hbody, hend, hgap⟩ := ih
    constructor
    · by_cases hblank : isBlank c
      · rw [spanGap_blank hblank]
        exact .blank hblank hopen
      by_cases hsharp : c = '#'
      · subst hsharp
        rw [spanGap_sharp, hspan]
        exact .comment hbody hend hgap
      · rw [spanGap_visible ⟨by simpa using hblank, hsharp⟩]
        exact .nil
    · by_cases hc : c = '\n'
      · subst hc
        have hblank : isBlank '\n' := by decide
        rw [spanGap_newline, spanGap_blank hblank]
        exact ⟨[], _, rfl, by simp, by simp, .blank hblank hopen⟩
      · rw [spanGap_comment hc, hspan]
        exact ⟨c :: body, gap, rfl, by simp [hbody, Ne.symm hc], hend, hgap⟩

theorem spanGap_of_isGap {text : List Char} (h : IsGap [] text) : (spanGap false text).2 = [] := by
  induction h with
  | nil => rfl
  | blank hc hgap ih => rw [spanGap_blank hc, ih]
  | comment hbody hend hgap ih =>
    rw [List.append_nil] at hend
    rw [spanGap_sharp, spanGap_body hbody hend, ih]

theorem spanGap_eq_nil_iff {text : List Char} : (spanGap false text).2 = [] ↔ IsGap [] text := by
  refine ⟨fun h => ?_, spanGap_of_isGap⟩
  have hgap := (isGap_spanGap text).1
  have happend := spanGap_append false text
  rw [h] at hgap happend
  rw [List.append_nil] at happend
  rwa [happend] at hgap

/-! ## Places in a text -/

theorem readLexeme_content {c : Char} {text : List Char} (h : (readLexeme c text).kind ≠ .string) :
    (readLexeme c text).content = (readLexeme c text).taken := by
  unfold readLexeme at h ⊢
  split
  · rfl
  split
  · rename_i hdigit hquote
    rw [if_neg hdigit, if_pos hquote] at h
    dsimp only at h ⊢
    split
    · rename_i hclosed
      rw [if_pos hclosed] at h
      exact absurd rfl h
    · rfl
  split
  · rfl
  split <;> rfl

namespace Cursor

theorem utf8ByteSize_ofList (text : List Char) : (String.ofList text).utf8ByteSize = byteCount text := by
  induction text with
  | nil => rfl
  | cons c text ih => rw [String.ofList_cons, String.utf8ByteSize_append, String.utf8ByteSize_singleton, ih, byteCount]

theorem dropBytes?_byteCount (before rest : List Char) :
    dropBytes? (byteCount before) (before ++ rest) = some rest := by
  induction before with
  | nil => rw [byteCount, List.nil_append, dropBytes?]
  | cons c before ih =>
    have hsize := c.utf8Size_pos
    obtain ⟨n, hn⟩ : ∃ n, byteCount (c :: before) = n + 1 := ⟨byteCount (c :: before) - 1, by rw [byteCount]; omega⟩
    have hle : c.utf8Size ≤ n + 1 := by
      rw [← hn, byteCount]
      omega
    have hrest : n + 1 - c.utf8Size = byteCount before := by
      rw [← hn, byteCount]
      omega
    rw [hn, List.cons_append, dropBytes?, if_pos hle, hrest, ih]

/-- The cursor stands between two characters of the text, before those that it has left. -/
def IsIn (cursor : Cursor) (text : String) : Prop :=
  ∃ before, text.toList = before ++ cursor.rest ∧ cursor.position = byteCount before

section
variable {cursor : Cursor} {text file : String} {position : Nat} {line : UInt32} {taken rest : List Char}

theorem isIn_start : (start text file).IsIn text := ⟨[], rfl, rfl⟩

theorem IsIn.resume? (h : cursor.IsIn text) : resume? text cursor.file cursor.position cursor.line = some cursor := by
  obtain ⟨before, htext, hposition⟩ := h
  rw [Cursor.resume?, htext, hposition, dropBytes?_byteCount, ← hposition]
  rfl

theorem IsIn.isValid (h : cursor.IsIn text) : String.Pos.Raw.IsValid text ⟨cursor.position⟩ := by
  obtain ⟨before, htext, hposition⟩ := h
  refine String.Pos.Raw.isValid_iff_exists_append.2 ⟨String.ofList before, String.ofList cursor.rest, ?_, ?_⟩
  · rw [← String.ofList_append, ← htext, String.ofList_toList]
  · rw [hposition, ← utf8ByteSize_ofList]
    rfl

theorem IsIn.advance (h : cursor.IsIn text) (happend : taken ++ rest = cursor.rest) :
    (cursor.advance taken rest).IsIn text := by
  obtain ⟨before, htext, hposition⟩ := h
  refine ⟨before ++ taken, ?_, ?_⟩
  · rw [htext, ← happend, List.append_assoc]
    rfl
  · rw [byteCount_append, ← hposition]
    rfl

theorem exists_resume?_of_isValid (file : String) (line : UInt32) (h : String.Pos.Raw.IsValid text ⟨position⟩) :
    ∃ cursor, resume? text file position line = some cursor ∧ cursor.IsIn text := by
  obtain ⟨before, rest, rfl, hposition⟩ := String.Pos.Raw.isValid_iff_exists_append.1 h
  have hcount : position = byteCount before.toList := by
    rw [← utf8ByteSize_ofList, String.ofList_toList]
    exact congrArg String.Pos.Raw.byteIdx hposition
  have hin : (⟨file, position, line, rest.toList⟩ : Cursor).IsIn (before ++ rest) :=
    ⟨before.toList, String.toList_append, hcount⟩
  exact ⟨_, hin.resume?, hin⟩

end

/-! ## One step -/

/-- The blanks and comments before the next token. -/
def gap (cursor : Cursor) : List Char := (spanGap false cursor.rest).1

/-- The characters of the next token. There are none at the end of the text. -/
def lexeme (cursor : Cursor) : List Char :=
  match cursor.skipGap.rest with
  | [] => []
  | c :: text => (readLexeme c text).taken

section
variable {cursor : Cursor}

theorem lexeme_of_nil (h : cursor.skipGap.rest = []) : cursor.lexeme = [] := by
  rw [lexeme, h]

theorem lexeme_of_cons {c : Char} {text : List Char} (h : cursor.skipGap.rest = c :: text) :
    cursor.lexeme = (readLexeme c text).taken := by
  rw [lexeme, h]

theorem lexeme_append (cursor : Cursor) : cursor.lexeme ++ cursor.next.2.rest = cursor.skipGap.rest := by
  cases h : cursor.skipGap.rest with
  | nil =>
    rw [lexeme_of_nil h, next_of_nil h]
    exact h
  | cons c text =>
    rw [lexeme_of_cons h, next_of_cons h]
    exact readLexeme_append c text

theorem gap_append (cursor : Cursor) : cursor.gap ++ (cursor.lexeme ++ cursor.next.2.rest) = cursor.rest := by
  rw [lexeme_append]
  exact cursor.skipGap_append

theorem lexeme_eq_nil_iff : cursor.lexeme = [] ↔ cursor.next.1.isDone := by
  rw [isDone_next_iff]
  cases h : cursor.skipGap.rest with
  | nil => simp [lexeme_of_nil h]
  | cons c text => simp [lexeme_of_cons h, readLexeme_taken_ne_nil]

theorem next_snd (cursor : Cursor) : cursor.next.2 = cursor.skipGap.advance cursor.lexeme cursor.next.2.rest := by
  cases h : cursor.skipGap.rest with
  | nil =>
    rw [lexeme_of_nil h, next_of_nil h]
    exact cursor.skipGap.advance_nil.symm
  | cons c text =>
    rw [lexeme_of_cons h, next_of_cons h]
    rfl

theorem next_position (cursor : Cursor) :
    cursor.next.2.position = cursor.position + byteCount cursor.gap + byteCount cursor.lexeme := by
  rw [next_snd]
  rfl

theorem next_line_toNat (h : cursor.LinesFit) :
    cursor.next.1.line.toNat = cursor.line.toNat + cursor.gap.count '\n' := by
  rw [next_line]
  exact advance_line_toNat h cursor.skipGap_append

theorem lineBehind_toNat (h : cursor.LinesFit) :
    cursor.next.2.line.toNat = cursor.next.1.line.toNat + cursor.lexeme.count '\n' := by
  rw [next_snd, next_line]
  exact advance_line_toNat h.skipGap cursor.lexeme_append

theorem byteCount_pos {text : List Char} (h : text ≠ []) : 0 < byteCount text := by
  obtain ⟨c, text, rfl⟩ := List.exists_cons_of_ne_nil h
  have hsize := c.utf8Size_pos
  rw [byteCount]
  omega

theorem next_text (h : cursor.next.1.kind ≠ .string) :
    cursor.next.1.text.toString = String.ofList cursor.lexeme := by
  cases hrest : cursor.skipGap.rest with
  | nil =>
    rw [next_of_nil hrest, lexeme_of_nil hrest]
    exact StoredText.toString_ofString (String.ofList [])
  | cons c text =>
    rw [next_of_cons hrest] at h ⊢
    rw [lexeme_of_cons hrest, ← readLexeme_content h]
    exact StoredText.toString_ofString _

theorem IsIn.next {text : String} (h : cursor.IsIn text) : cursor.next.2.IsIn text := by
  rw [next_snd]
  exact (h.advance cursor.skipGap_append).advance cursor.lexeme_append

/-- A step from the cursor covers a gap and the characters of one token. -/
structure Covers (cursor : Cursor) (text : String) : Prop where
  rest : cursor.rest = cursor.gap ++ (cursor.lexeme ++ cursor.next.2.rest)
  gap : IsGap (cursor.lexeme ++ cursor.next.2.rest) cursor.gap
  /-- Whatever part of the characters has been passed, the place behind it is between two characters. -/
  boundary : ∀ front back, cursor.gap ++ cursor.lexeme = front ++ back →
    String.Pos.Raw.IsValid text ⟨cursor.position + byteCount front⟩
  position : cursor.next.2.position = cursor.position + byteCount (cursor.gap ++ cursor.lexeme)
  resume : resume? text cursor.file cursor.next.2.position cursor.next.2.line = some cursor.next.2
  line : cursor.next.1.line.toNat = cursor.line.toNat + cursor.gap.count '\n'
  lineBehind : cursor.next.2.line.toNat = cursor.line.toNat + (cursor.gap ++ cursor.lexeme).count '\n'
  done : cursor.next.1.isDone ↔ IsGap [] cursor.rest
  past : ¬ cursor.next.1.isDone → cursor.position + byteCount cursor.gap < cursor.next.2.position
  content : cursor.next.1.kind ≠ .string → cursor.next.1.text.toString = String.ofList cursor.lexeme

theorem covers {text : String} (h : cursor.IsIn text) (hlines : cursor.LinesFit) : cursor.Covers text where
  rest := cursor.gap_append.symm
  gap := by
    rw [lexeme_append]
    exact (isGap_spanGap cursor.rest).1
  boundary front back happend := by
    have hfront : front ++ (back ++ cursor.next.2.rest) = cursor.rest := by
      rw [← cursor.gap_append, ← List.append_assoc, ← happend, List.append_assoc]
    exact (h.advance hfront).isValid
  position := by rw [next_position, byteCount_append, Nat.add_assoc]
  resume := by
    rw [← next_file]
    exact h.next.resume?
  line := next_line_toNat hlines
  lineBehind := by rw [lineBehind_toNat hlines, next_line_toNat hlines, List.count_append, Nat.add_assoc]
  done := by
    rw [isDone_next_iff]
    exact spanGap_eq_nil_iff
  past hdone := by
    have hpos := byteCount_pos (mt lexeme_eq_nil_iff.1 hdone)
    rw [next_position]
    omega
  content := next_text

end

/-! ## From the start to the end -/

/-- The places that the tokens up to the end of the text are read from. -/
def places (cursor : Cursor) : List Cursor :=
  cursor :: ((cursor.scan (cursor.rest.length + 1)).map Prod.snd).dropLast

section
variable {cursor : Cursor}

theorem places_of_isDone (h : cursor.next.1.isDone) : cursor.places = [cursor] := by
  rw [places, scan_of_isDone h]
  rfl

theorem places_of_word (h : ¬ cursor.next.1.isDone) : cursor.places = cursor :: cursor.next.2.places := by
  have hne : (cursor.next.2.scan (cursor.next.2.rest.length + 1)).map Prod.snd ≠ [] := by simp [scan]
  rw [places, scan_of_word h, List.map_cons, List.dropLast_cons_of_ne_nil hne, places]

theorem tokens_eq_map_places (cursor : Cursor) : cursor.tokens = cursor.places.map fun place => place.next.1 := by
  induction cursor using tokens_induction with
  | done cursor hdone =>
    rw [places_of_isDone hdone]
    rfl
  | more cursor hdone ih => rw [places_of_word hdone, List.map_cons, ih]

theorem places_flatMap (cursor : Cursor) :
    (cursor.places.flatMap fun place => place.gap ++ place.lexeme) = cursor.rest := by
  induction cursor using tokens_induction with
  | done cursor hdone =>
    have hlexeme : cursor.lexeme = [] := lexeme_eq_nil_iff.2 hdone
    have hrest : cursor.next.2.rest = [] := by
      have happend := cursor.lexeme_append
      rwa [hlexeme, isDone_next_iff.1 hdone] at happend
    have happend := cursor.gap_append
    rw [hrest, List.append_nil] at happend
    rw [places_of_isDone hdone, List.flatMap_singleton, happend]
  | more cursor hdone ih => rw [places_of_word hdone, List.flatMap_cons, ih, List.append_assoc, gap_append]

theorem forall_places {p : Cursor → Prop} (hnext : ∀ cursor, p cursor → p cursor.next.2) (h : p cursor) :
    ∀ place ∈ cursor.places, p place := by
  induction cursor using tokens_induction with
  | done cursor hdone =>
    rw [places_of_isDone hdone]
    exact List.forall_mem_singleton.2 h
  | more cursor hdone ih =>
    rw [places_of_word hdone]
    exact List.forall_mem_cons.2 ⟨h, ih (hnext cursor h)⟩

end

/-- From every character boundary of a text a step covers a gap and a token. Reading the whole text comes to its end
once, and the gaps and the tokens in a row are the text. -/
theorem covers_text (text : String) :
    (∀ file position line, String.Pos.Raw.IsValid text ⟨position⟩ →
      ∃ cursor, resume? text file position line = some cursor ∧ (cursor.LinesFit → cursor.Covers text)) ∧
    ∀ file,
      (∃ words final, Token.ofText text file = words ++ [final] ∧ final.isDone ∧ ∀ word ∈ words, ¬ word.isDone) ∧
      (Token.ofText text file = (start text file).places.map fun place => place.next.1) ∧
      ((start text file).places.flatMap fun place => place.gap ++ place.lexeme) = text.toList ∧
      (text.toList.count '\n' < 2 ^ 32 - 1 → ∀ place ∈ (start text file).places, place.Covers text) := by
  refine ⟨fun file position line hvalid => ?_, fun file => ?_⟩
  · obtain ⟨cursor, hresume, hin⟩ := exists_resume?_of_isValid file line hvalid
    exact ⟨cursor, hresume, covers hin⟩
  · refine ⟨(start text file).exists_tokens_concat, (start text file).tokens_eq_map_places,
      (start text file).places_flatMap, fun hcount place hplace => ?_⟩
    have hin := forall_places (p := (IsIn · text)) (fun _ => IsIn.next) isIn_start place hplace
    have hlines := forall_places (p := LinesFit) (fun _ => LinesFit.next) (linesFit_start hcount) place hplace
    exact covers hin hlines

/-- The line break in the string and the two bytes of `é` are counted. -/
theorem covers_text_escapedBreak :
    let text := "é'a\\\nb' # ü\n+"
    let here : Cursor := ⟨"s.scn", 2, 1, "'a\\\nb' # ü\n+".toList⟩
    String.Pos.Raw.IsValid text ⟨2⟩ ∧ resume? text "s.scn" 2 1 = some here ∧ here.LinesFit ∧
      here.next.2.position = 8 ∧ here.next.2.line.toNat = 2 ∧
      resume? text "s.scn" here.next.2.position here.next.2.line = some here.next.2 := by
  intro text here
  have hvalid : String.Pos.Raw.IsValid text ⟨2⟩ := by decide
  have hin : here.IsIn text := ⟨['é'], by decide +kernel, by decide +kernel⟩
  have hlines : here.LinesFit := by
    unfold LinesFit
    decide +kernel
  obtain ⟨cursor, hresume, hcovers⟩ := (covers_text text).1 "s.scn" 2 1 hvalid
  obtain rfl : here = cursor := Option.some.inj (hin.resume?.symm.trans hresume)
  have hstep := hcovers hlines
  have htaken : here.gap ++ here.lexeme = "'a\\\nb'".toList := by decide +kernel
  have hposition := hstep.position
  have hline := hstep.lineBehind
  rw [htaken] at hposition hline
  exact ⟨hvalid, hresume, hlines, hposition.trans (by decide +kernel), hline.trans (by decide +kernel), hstep.resume⟩

end Cursor

end ScenarioScript
