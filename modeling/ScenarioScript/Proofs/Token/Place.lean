import ScenarioScript.Proofs.Token.Seam

/-!
# Words at other places

The words of a text do not depend on where the text stands. Only their lines and their file do.
-/

namespace ScenarioScript

namespace Token

/-- What a token says, wherever it stands. -/
def spelling (token : Token) : TokenKind × StoredText := (token.kind, token.text)

theorem kind_eq_of_spelling {a b : Token} (h : a.spelling = b.spelling) : a.kind = b.kind := congrArg Prod.fst h

theorem text_eq_of_spelling {a b : Token} (h : a.spelling = b.spelling) : a.text = b.text := congrArg Prod.snd h

/-- The same word in another file and some lines further down. -/
def move (file : String) (lines : UInt32) (token : Token) : Token :=
  { token with line := token.line + lines, file }

@[simp] theorem move_kind (file : String) (lines : UInt32) (token : Token) :
    (token.move file lines).kind = token.kind := rfl

@[simp] theorem move_text (file : String) (lines : UInt32) (token : Token) :
    (token.move file lines).text = token.text := rfl

@[simp] theorem move_isDone (file : String) (lines : UInt32) (token : Token) :
    (token.move file lines).isDone = token.isDone := rfl

theorem move_own {file : String} {token : Token} (h : token.file = file) : token.move file 0 = token := by
  subst h
  simp [move]

end Token

namespace Cursor

section
variable {a b : Cursor} {lines : UInt32}

theorem skipGap_move (hline : a.line = b.line + lines) (hrest : a.rest = b.rest) :
    a.skipGap.line = b.skipGap.line + lines ∧ a.skipGap.rest = b.skipGap.rest := by
  simp [skipGap, advance, hline, hrest, UInt32.add_assoc, UInt32.add_comm lines]

theorem next_move (hline : a.line = b.line + lines) (hrest : a.rest = b.rest) :
    a.next.1 = b.next.1.move a.file lines ∧ a.next.2.line = b.next.2.line + lines ∧
      a.next.2.rest = b.next.2.rest := by
  have hgap := skipGap_move hline hrest
  have hfile : a.skipGap.file = a.file := rfl
  cases h : b.skipGap.rest with
  | nil =>
    rw [next_of_nil h, next_of_nil (hgap.2.trans h)]
    exact ⟨by simp [token, Token.move, hgap.1, hfile], hgap⟩
  | cons c text =>
    rw [next_of_cons h, next_of_cons (hgap.2.trans h)]
    refine ⟨by simp [token, Token.move, hgap.1, hfile], ?_, rfl⟩
    change a.skipGap.line + _ = b.skipGap.line + _ + lines
    rw [hgap.1, UInt32.add_assoc, UInt32.add_comm lines, ← UInt32.add_assoc]

theorem tokens_move (hline : a.line = b.line + lines) (hrest : a.rest = b.rest) :
    a.tokens = b.tokens.map (Token.move a.file lines) := by
  induction b using tokens_induction generalizing a with
  | done b hdone =>
    obtain ⟨hnext, -, -⟩ := next_move hline hrest
    rw [tokens_of_isDone (by rw [hnext]; exact hdone), hnext]
    rfl
  | more b hword ih =>
    obtain ⟨hnext, hline', hrest'⟩ := next_move hline hrest
    rw [tokens_of_word (by rw [hnext]; exact hword), ih hline' hrest', hnext, next_file]
    rfl

theorem endsInComment_move (hline : a.line = b.line + lines) (hrest : a.rest = b.rest) :
    a.endsInComment = b.endsInComment := by
  have hgap : a.lastGap = b.lastGap := by
    induction hlength : b.rest.length using Nat.strong_induction_on generalizing a b with
    | _ length ih =>
      obtain ⟨hnext, hline', hrest'⟩ := next_move hline hrest
      by_cases hdone : b.next.1.isDone
      · rw [lastGap_of_isDone hdone, lastGap_of_isDone (by rw [hnext]; exact hdone), hrest]
      · rw [lastGap_of_word hdone, lastGap_of_word (by rw [hnext]; exact hdone)]
        exact ih _ (hlength ▸ next_rest_length_lt hdone) hline' hrest' rfl
  rw [endsInComment, endsInComment, hgap]

theorem endsAtNewline_move (hline : a.line = b.line + lines) (hrest : a.rest = b.rest)
    (h : b.EndsAtNewline) : a.EndsAtNewline := by
  unfold EndsAtNewline at *
  rw [tokens_move hline hrest, List.forall_mem_map, hrest]
  exact h

theorem words_move (hline : a.line = b.line + lines) (hrest : a.rest = b.rest) :
    a.words = b.words.map (Token.move a.file lines) := by
  rw [words, tokens_move hline hrest, words, List.map_dropLast]

end

section
variable {cursor : Cursor}

theorem file_of_mem_tokens : ∀ token ∈ cursor.tokens, token.file = cursor.file := by
  have next_file' (cursor : Cursor) : cursor.next.1.file = cursor.file := by
    cases h : cursor.skipGap.rest with
    | nil => rw [next_of_nil h]; rfl
    | cons c text => rw [next_of_cons h]; rfl
  induction cursor using tokens_induction with
  | done cursor hdone => simpa using next_file' cursor
  | more cursor hword ih =>
    rw [next_file] at ih
    exact List.forall_mem_cons.2 ⟨next_file' cursor, ih⟩

theorem lexes_words (line : UInt32) (file : String) (text : List Char) (position : Nat) :
    Lexes line file text (⟨file, position, line, text⟩ : Cursor).tokens := by
  intro other
  have hmove : (⟨file, other, line, text⟩ : Cursor).tokens =
      (⟨file, position, line, text⟩ : Cursor).tokens.map (Token.move file 0) :=
    tokens_move (UInt32.add_zero line).symm rfl
  rw [hmove]
  exact (List.map_congr_left fun token htoken =>
    Token.move_own (file_of_mem_tokens token htoken)).trans (List.map_id _)

theorem line_of_mem_tokens (h : '\n' ∉ cursor.rest) : ∀ token ∈ cursor.tokens, token.line = cursor.line := by
  have advance_line {cursor : Cursor} {taken rest : List Char} (happend : taken ++ rest = cursor.rest)
      (h : '\n' ∉ cursor.rest) : (cursor.advance taken rest).line = cursor.line := by
    rw [← happend, List.mem_append, not_or] at h
    simp [advance, List.count_eq_zero.2 h.1]
  induction cursor using tokens_induction with
  | done cursor hdone =>
    simp only [List.forall_mem_singleton, next_line]
    exact advance_line cursor.skipGap_append h
  | more cursor hword ih =>
    obtain ⟨c, text, hrest⟩ := List.exists_cons_of_ne_nil (mt isDone_next_iff.2 hword)
    have happend := skipGap_next_append hrest
    have hgap : cursor.skipGap.line = cursor.line := advance_line cursor.skipGap_append h
    have hnext : cursor.next.2.line = cursor.line := by
      have hbehind : '\n' ∉ cursor.skipGap.rest := by
        have := cursor.skipGap_append
        grind
      rw [next_of_cons hrest, ← hgap]
      exact advance_line (hrest ▸ readLexeme_append c text) hbehind
    have hline : '\n' ∉ cursor.next.2.rest := by
      rw [← happend] at h
      grind
    refine List.forall_mem_cons.2 ⟨next_line.trans hgap, ?_⟩
    rw [← hnext]
    exact ih hline

theorem LinesFit.lastLine_toNat (h : cursor.LinesFit) :
    cursor.lastLine.toNat = cursor.line.toNat + cursor.rest.count '\n' := by
  rw [LinesFit] at h
  simp only [lastLine, UInt32.toNat_add, UInt32.toNat_ofNat']
  omega

theorem line_le_of_mem_tokens (h : cursor.LinesFit) : ∀ token ∈ cursor.tokens, token.line ≤ cursor.lastLine := by
  have next_le {cursor : Cursor} (h : cursor.LinesFit) : cursor.next.1.line ≤ cursor.lastLine := by
    rw [next_line, UInt32.le_iff_toNat_le, ← skipGap_lastLine, h.skipGap.lastLine_toNat]
    omega
  induction cursor using tokens_induction with
  | done cursor hdone => simpa using next_le h
  | more cursor hword ih =>
    rw [next_lastLine] at ih
    exact List.forall_mem_cons.2 ⟨next_le h, ih h.next⟩

end

end Cursor

/-! ## Texts some lines down -/

/-- The words of a text, some lines further down. -/
def wordsBelow (text file : String) (n : Nat) : List Token :=
  (Cursor.start text file).words.map (Token.move file (UInt32.ofNat n))

section
variable {text file : String} {n : Nat} {more : List Char} {tokens : List Token}

theorem not_isDone_of_mem_wordsBelow : ∀ token ∈ wordsBelow text file n, ¬ token.isDone := by
  unfold wordsBelow
  rw [List.forall_mem_map]
  exact Cursor.not_isDone_of_mem_words

theorem line_of_mem_wordsBelow (h : '\n' ∉ text.toList) :
    ∀ token ∈ wordsBelow text file n, token.line = 1 + UInt32.ofNat n := by
  unfold wordsBelow
  rw [List.forall_mem_map]
  intro token htoken
  have hline : token.line = 1 := Cursor.line_of_mem_tokens h token (List.dropLast_subset _ htoken)
  simp [Token.move, hline]

theorem words_below (position : Nat) :
    (⟨file, position, 1 + UInt32.ofNat n, text.toList⟩ : Cursor).words = wordsBelow text file n :=
  Cursor.words_move rfl rfl

theorem lexes_below (text file : String) (n : Nat) :
    Lexes (1 + UInt32.ofNat n) file text.toList
      (wordsBelow text file n ++ [word (1 + UInt32.ofNat (n + text.toList.count '\n')) file .done []]) := by
  have hlexes := Cursor.lexes_words (1 + UInt32.ofNat n) file text.toList 0
  rw [Cursor.tokens_eq_words, words_below] at hlexes
  rwa [UInt32.ofNat_add, ← UInt32.add_assoc]

theorem lexes_below_newline (h : (Cursor.start text file).EndsAtNewline)
    (hmore : Lexes (1 + UInt32.ofNat (n + (text.toList.count '\n' + 1))) file more tokens) :
    Lexes (1 + UInt32.ofNat n) file (text.toList ++ '\n' :: more) (wordsBelow text file n ++ tokens) := by
  intro position
  let here : Cursor := ⟨file, position, 1 + UInt32.ofNat n, text.toList⟩
  have hends : here.EndsAtNewline := by
    have hline : here.line = (Cursor.start text file).line + UInt32.ofNat n := rfl
    exact Cursor.endsAtNewline_move hline rfl h
  have hline : 1 + UInt32.ofNat (n + (text.toList.count '\n' + 1)) = here.lastLine + 1 := by
    simp only [here, Cursor.lastLine, UInt32.ofNat_add, UInt32.add_assoc]
    rfl
  rw [← words_below position]
  exact Cursor.tokens_before_newline hends (hline ▸ hmore)

theorem lexes_below_semicolon (hopen : ∀ token ∈ Token.ofText text file, token.kind ≠ .fault .openString)
    (hcomment : (Cursor.start text file).endsInComment = false)
    (hmore : Lexes (1 + UInt32.ofNat (n + (text.toList.count '\n' + 1))) file more tokens) :
    Lexes (1 + UInt32.ofNat n) file (text.toList ++ ';' :: '\n' :: more)
      (wordsBelow text file n ++
        sign (1 + UInt32.ofNat (n + text.toList.count '\n')) file .semicolon :: tokens) := by
  intro position
  let here : Cursor := ⟨file, position, 1 + UInt32.ofNat n, text.toList⟩
  have hline : here.line = (Cursor.start text file).line + UInt32.ofNat n := rfl
  have hlast : here.lastLine = 1 + UInt32.ofNat (n + text.toList.count '\n') := by
    simp only [here, Cursor.lastLine, UInt32.ofNat_add, UInt32.add_assoc]
  have hopen : ∀ token ∈ here.tokens, token.kind ≠ .fault .openString := by
    rw [Cursor.tokens_move hline rfl, List.forall_mem_map]
    exact hopen
  have hcomment : here.endsInComment = false := (Cursor.endsInComment_move hline rfl).trans hcomment
  have hbehind : Lexes here.lastLine file ('\n' :: more) tokens := by
    apply Lexes.newline
    rwa [hlast, UInt32.add_assoc, ← UInt32.ofNat_one, ← UInt32.ofNat_add, Nat.add_assoc]
  rw [← words_below position, ← hlast]
  exact Cursor.tokens_before_semicolon hopen hcomment hbehind

end

end ScenarioScript
