import ScenarioScript.Proofs.Token.Separator

/-!
# Where two texts meet

The words of a text stay what they are if a semicolon or a line break and more text come behind it,
and what comes behind is read as if it stood alone on a later line.
-/

namespace ScenarioScript

/-! ## Gaps before a stop -/

/-- Whether a `#` comes behind the last line break. -/
def opensComment : List Char → Bool
  | [] => false
  | c :: text => (c = '#' && !text.contains '\n') || opensComment text

section
variable {inComment : Bool} {text : List Char}

theorem spanGap_append_of_ne_nil (h : (spanGap inComment text).2 ≠ []) (more : List Char) :
    spanGap inComment (text ++ more) = ((spanGap inComment text).1, (spanGap inComment text).2 ++ more) := by
  induction text generalizing inComment with
  | nil => exact absurd rfl h
  | cons c text ih =>
    rw [spanGap] at h
    rw [List.cons_append, spanGap, spanGap]
    split at h
    · rename_i hc
      rw [if_pos hc, if_pos hc, ih h]
    · rename_i hc
      rw [if_neg hc, if_neg hc]
      rfl

theorem spanGap_append_newline (h : (spanGap inComment text).2 = []) (more : List Char) :
    spanGap inComment (text ++ '\n' :: more) =
      (text ++ '\n' :: (spanGap false more).1, (spanGap false more).2) := by
  induction text generalizing inComment with
  | nil => cases inComment <;> simp [spanGap, isBlank, isInRanges, blankRanges]
  | cons c text ih =>
    rw [spanGap] at h
    rw [List.cons_append, spanGap]
    split at h
    · rename_i hc
      rw [if_pos hc, ih h]
      rfl
    · cases h

theorem spanGap_append_semicolon (h : (spanGap inComment text).2 = []) (hclosed : inComment → '\n' ∈ text)
    (hopens : opensComment text = false) (more : List Char) :
    spanGap inComment (text ++ ';' :: more) = (text, ';' :: more) := by
  induction text generalizing inComment with
  | nil =>
    obtain rfl : inComment = false := by simpa using hclosed
    simp [spanGap, isBlank, isInRanges, blankRanges]
  | cons c text ih =>
    rw [spanGap] at h
    rw [List.cons_append, spanGap]
    simp only [opensComment, Bool.or_eq_false_iff] at hopens
    split at h
    · rename_i hc
      rw [if_pos hc, ih h ?_ hopens.2]
      -- a comment that goes on behind `c` is one that ends in the rest of the gap
      intro hcomment
      by_cases hsharp : c = '#'
      · simpa [hsharp] using hopens.1
      · simp only [hsharp, decide_false, Bool.or_false, Bool.and_eq_true, decide_eq_true_eq] at hcomment
        simpa [Ne.symm hcomment.1] using hclosed hcomment.2
    · cases h

end

/-! ## Places -/

namespace Cursor

theorem byteCount_append (a b : List Char) : byteCount (a ++ b) = byteCount a + byteCount b := by
  induction a with
  | nil => simp [byteCount]
  | cons c a ih => simp [byteCount, ih, Nat.add_assoc]

def words (cursor : Cursor) : List Token := cursor.tokens.dropLast

def lastLine (cursor : Cursor) : UInt32 := cursor.line + UInt32.ofNat (cursor.rest.count '\n')

/-- The text behind the last word. -/
def lastGap (cursor : Cursor) : List Char :=
  ((cursor.scan (cursor.rest.length + 1)).dropLast.getLast?.map fun found => found.2.rest).getD cursor.rest

def endsInComment (cursor : Cursor) : Bool := opensComment cursor.lastGap

section
variable {cursor : Cursor}

theorem tokens_of_isDone (h : cursor.next.1.isDone) : cursor.tokens = [cursor.next.1] := by
  rw [tokens_eq, if_pos h]

theorem tokens_of_word (h : ¬ cursor.next.1.isDone) :
    cursor.tokens = cursor.next.1 :: cursor.next.2.tokens := by
  rw [tokens_eq, if_neg h]

theorem tokens_ne_nil : cursor.tokens ≠ [] := by
  rw [tokens_eq]
  simp

theorem words_of_isDone (h : cursor.next.1.isDone) : cursor.words = [] := by
  rw [words, tokens_of_isDone h]
  rfl

theorem words_of_word (h : ¬ cursor.next.1.isDone) : cursor.words = cursor.next.1 :: cursor.next.2.words := by
  rw [words, tokens_of_word h, List.dropLast_cons_of_ne_nil tokens_ne_nil]
  rfl

theorem scan_of_isDone (h : cursor.next.1.isDone) (count : Nat) : cursor.scan (count + 1) = [cursor.next] := by
  simp [scan, h]

theorem scan_of_word (h : ¬ cursor.next.1.isDone) :
    cursor.scan (cursor.rest.length + 1) =
      cursor.next :: cursor.next.2.scan (cursor.next.2.rest.length + 1) := by
  rw [scan, ← scan_eq_of_lt (next_rest_length_lt h)]
  simp [h]

theorem lastGap_of_isDone (h : cursor.next.1.isDone) : cursor.lastGap = cursor.rest := by
  rw [lastGap, scan_of_isDone h]
  rfl

theorem lastGap_of_word (h : ¬ cursor.next.1.isDone) : cursor.lastGap = cursor.next.2.lastGap := by
  have hne : cursor.next.2.scan (cursor.next.2.rest.length + 1) ≠ [] := by simp [scan]
  rw [lastGap, lastGap, scan_of_word h, List.dropLast_cons_of_ne_nil hne]
  generalize (cursor.next.2.scan (cursor.next.2.rest.length + 1)).dropLast = found
  rw [List.getLast?_cons]
  cases found.getLast? <;> rfl

theorem advance_lastLine {taken rest : List Char} (h : taken ++ rest = cursor.rest) :
    (cursor.advance taken rest).lastLine = cursor.lastLine := by
  simp only [lastLine, advance, ← h, List.count_append, UInt32.ofNat_add, UInt32.add_assoc]

theorem skipGap_lastLine : cursor.skipGap.lastLine = cursor.lastLine := advance_lastLine cursor.skipGap_append

theorem next_lastLine : cursor.next.2.lastLine = cursor.lastLine := by
  cases h : cursor.skipGap.rest with
  | nil => rw [next_of_nil h, skipGap_lastLine]
  | cons c text => rw [next_of_cons h, advance_lastLine (h ▸ readLexeme_append c text), skipGap_lastLine]

theorem next_of_isDone (h : cursor.next.1.isDone) : cursor.next.1 = word cursor.lastLine cursor.file .done [] := by
  have hrest := isDone_next_iff.1 h
  have hline : cursor.skipGap.line = cursor.lastLine := by
    rw [← skipGap_lastLine, lastLine, hrest]
    simp
  rw [next_of_nil hrest, ← hline]
  rfl

theorem next_file : cursor.next.2.file = cursor.file := by
  cases h : cursor.skipGap.rest with
  | nil => rw [next_of_nil h]; rfl
  | cons c text => rw [next_of_cons h]; rfl

theorem tokens_eq_words (cursor : Cursor) :
    cursor.tokens = cursor.words ++ [word cursor.lastLine cursor.file .done []] := by
  induction cursor using tokens_induction with
  | done cursor h =>
    rw [words_of_isDone h, ← next_of_isDone h]
    rfl
  | more cursor h ih => rw [words_of_word h, List.cons_append, ih, next_lastLine, next_file]

theorem not_isDone_of_mem_words : ∀ token ∈ cursor.words, ¬ token.isDone := by
  unfold words
  induction cursor using tokens_induction with
  | done cursor h => simp
  | more cursor h ih =>
    rw [List.dropLast_cons_of_ne_nil tokens_ne_nil]
    exact List.forall_mem_cons.2 ⟨h, ih⟩

/-! ## More text behind -/

/-- The same place with more text behind. -/
def before (cursor : Cursor) (more : List Char) : Cursor := { cursor with rest := cursor.rest ++ more }

/-- Whether the next word is the same with a stop behind the text. -/
def NextEnds (stop : Char) (cursor : Cursor) : Prop :=
  ∀ c text, cursor.skipGap.rest = c :: text → ∀ more, readLexeme c (text ++ stop :: more) =
    { readLexeme c text with rest := (readLexeme c text).rest ++ stop :: more }

theorem nextEnds_of_not_openString {stop : Char} (hstop : IsSeparator stop)
    (h : cursor.next.1.kind ≠ .fault .openString) : cursor.NextEnds stop := by
  intro c text hrest
  rw [next_of_cons hrest] at h
  exact readLexeme_append_stop hstop h

theorem skipGap_before (h : cursor.skipGap.rest ≠ []) (more : List Char) :
    (cursor.before more).skipGap = cursor.skipGap.before more := by
  have hgap : spanGap false (cursor.rest ++ more) = _ := spanGap_append_of_ne_nil h more
  rw [skipGap, before, hgap]
  rfl

theorem next_before {stop : Char} (hword : ¬ cursor.next.1.isDone) (hends : cursor.NextEnds stop)
    (more : List Char) :
    (cursor.before (stop :: more)).next = (cursor.next.1, cursor.next.2.before (stop :: more)) := by
  obtain ⟨c, text, hrest⟩ := List.exists_cons_of_ne_nil (mt isDone_next_iff.2 hword)
  have hskip := skipGap_before (mt isDone_next_iff.2 hword) (stop :: more)
  have hrest' : (cursor.before (stop :: more)).skipGap.rest = c :: (text ++ stop :: more) := by
    rw [hskip, before, hrest]
    rfl
  rw [next_of_cons hrest', next_of_cons hrest, hends c text hrest, hskip]
  rfl

theorem skipGap_before_newline (h : cursor.next.1.isDone) (more : List Char) :
    ∃ position, (cursor.before ('\n' :: more)).skipGap =
      (⟨cursor.file, position, cursor.lastLine + 1, more⟩ : Cursor).skipGap := by
  have hgap : spanGap false (cursor.rest ++ '\n' :: more) = _ :=
    spanGap_append_newline (isDone_next_iff.1 h) more
  refine ⟨cursor.position + byteCount (cursor.rest ++ ['\n']), ?_⟩
  rw [skipGap, before, hgap, skipGap]
  simp only [advance, lastLine, List.count_append, List.count_cons_self, byteCount_append, UInt32.ofNat_add,
    UInt32.add_assoc, byteCount, Nat.add_assoc, Nat.zero_add]
  congr 3
  exact UInt32.add_comm _ _

theorem next_before_semicolon (h : cursor.next.1.isDone) (hcomment : cursor.endsInComment = false)
    (more : List Char) :
    ∃ position, (cursor.before (';' :: more)).next =
      (sign cursor.lastLine cursor.file .semicolon, ⟨cursor.file, position, cursor.lastLine, more⟩) := by
  rw [endsInComment, lastGap_of_isDone h] at hcomment
  have hgap : spanGap false (cursor.rest ++ ';' :: more) = _ :=
    spanGap_append_semicolon (isDone_next_iff.1 h) (by simp) hcomment more
  have hskip : (cursor.before (';' :: more)).skipGap = cursor.advance cursor.rest (';' :: more) := by
    rw [skipGap, before, hgap]
    rfl
  have hread : readLexeme ';' more = ⟨.symbol .semicolon, [';'], [';'], more⟩ := rfl
  refine ⟨cursor.position + byteCount cursor.rest + byteCount [';'], ?_⟩
  rw [next_of_cons (by rw [hskip]; rfl), hskip, hread]
  simp [advance, lastLine, sign, word, token, Symbol.chars, Symbol.text]

theorem tokens_congr {a b : Cursor} (h : a.skipGap = b.skipGap) : a.tokens = b.tokens := by
  have hnext : a.next = b.next := by
    unfold next
    rw [h]
  rw [tokens_eq, hnext, ← tokens_eq]

/-- Without an open string, the words stay what they are before a semicolon that is not in a comment. -/
theorem tokens_before_semicolon (hopen : ∀ token ∈ cursor.tokens, token.kind ≠ .fault .openString)
    (hcomment : cursor.endsInComment = false) {more : List Char} {tokens : List Token}
    (hmore : Lexes cursor.lastLine cursor.file more tokens) :
    (cursor.before (';' :: more)).tokens =
      cursor.words ++ sign cursor.lastLine cursor.file .semicolon :: tokens := by
  induction cursor using tokens_induction with
  | done cursor h =>
    obtain ⟨position, hnext⟩ := next_before_semicolon h hcomment more
    rw [words_of_isDone h, tokens_eq, hnext]
    simp [hmore position, sign, word, Token.isDone]
  | more cursor h ih =>
    simp only [List.forall_mem_cons] at hopen
    have hnext := next_before h (nextEnds_of_not_openString (.inl rfl) hopen.1) more
    rw [endsInComment, lastGap_of_word h] at hcomment
    rw [← next_lastLine, ← next_file] at hmore ⊢
    rw [words_of_word h, tokens_eq, hnext, if_neg h, ih hopen.2 hcomment hmore]
    rfl

end

end Cursor

/-! ## Lines -/

/-- A line whose last backslash, if it ends with one, belongs to the backslash before it. -/
def IsPlainLine (text : List Char) : Prop :=
  '\n' ∉ text ∧ ∀ front c rest, text = front ++ c :: rest → c ≠ '\\' → trailingBackslashes rest % 2 = 0

theorem isPlainLine_of_even {text : List Char} (hline : '\n' ∉ text) (heven : trailingBackslashes text % 2 = 0) :
    IsPlainLine text := by
  refine ⟨hline, ?_⟩
  rintro front c rest rfl hc
  rwa [trailingBackslashes_append_cons hc] at heven

theorem IsPlainLine.of_append {front text : List Char} (h : IsPlainLine (front ++ text)) : IsPlainLine text := by
  refine ⟨fun hmem => h.1 (List.mem_append_right _ hmem), ?_⟩
  rintro more c rest rfl hc
  exact h.2 (front ++ more) c rest (by simp) hc

namespace Cursor

section
variable {cursor : Cursor}

/-- Whether a line break behind the text ends its last word. -/
def EndsAtNewline (cursor : Cursor) : Prop :=
  (∀ token ∈ cursor.tokens, token.kind ≠ .fault .openString) ∨ IsPlainLine cursor.rest

theorem skipGap_next_append {c : Char} {text : List Char} (h : cursor.skipGap.rest = c :: text) :
    (spanGap false cursor.rest).1 ++ (readLexeme c text).taken ++ cursor.next.2.rest = cursor.rest := by
  rw [next_of_cons h, List.append_assoc]
  change _ ++ ((readLexeme c text).taken ++ (readLexeme c text).rest) = _
  rw [readLexeme_append, ← h, skipGap_append]

theorem EndsAtNewline.next (h : cursor.EndsAtNewline) (hword : ¬ cursor.next.1.isDone) :
    cursor.NextEnds '\n' ∧ cursor.next.2.EndsAtNewline := by
  rcases h with hopen | hplain
  · rw [tokens_of_word hword, List.forall_mem_cons] at hopen
    exact ⟨nextEnds_of_not_openString (.inr rfl) hopen.1, .inl hopen.2⟩
  · constructor
    · intro c text hrest
      by_cases hopen : (readLexeme c text).kind = .fault .openString
      · have happend := cursor.skipGap_append
        rw [hrest] at happend
        rw [← happend] at hplain
        have hc : c ≠ '\\' := by rcases isQuote_of_openString hopen with rfl | rfl <;> decide
        have hline : '\n' ∉ text := fun hmem => hplain.1 (by simp [hmem])
        exact readLexeme_append_newline hopen hline (hplain.2 _ c text rfl hc)
      · exact readLexeme_append_stop (.inr rfl) hopen
    · obtain ⟨c, text, hrest⟩ := List.exists_cons_of_ne_nil (mt isDone_next_iff.2 hword)
      rw [← skipGap_next_append hrest] at hplain
      exact .inr hplain.of_append

/-- A line break behind the text changes no word of it, and the text behind begins on a new line. -/
theorem tokens_before_newline (hends : cursor.EndsAtNewline) {more : List Char} {tokens : List Token}
    (hmore : Lexes (cursor.lastLine + 1) cursor.file more tokens) :
    (cursor.before ('\n' :: more)).tokens = cursor.words ++ tokens := by
  induction cursor using tokens_induction with
  | done cursor h =>
    obtain ⟨position, hskip⟩ := skipGap_before_newline h more
    rw [words_of_isDone h, tokens_congr hskip, hmore position]
    rfl
  | more cursor h ih =>
    obtain ⟨hnext, hends⟩ := hends.next h
    rw [← next_lastLine, ← next_file] at hmore
    rw [words_of_word h, tokens_eq, next_before h hnext, if_neg h, ih hends hmore]
    rfl

end

end Cursor

theorem Lexes.newline {line : UInt32} {file : String} {more : List Char} {tokens : List Token}
    (h : Lexes (line + 1) file more tokens) : Lexes line file ('\n' :: more) tokens := by
  intro position
  let here : Cursor := ⟨file, position, line, []⟩
  have hdone : here.next.1.isDone := Cursor.isDone_next_iff.2 rfl
  have hline : here.lastLine + 1 = line + 1 := by simp [Cursor.lastLine, here]
  have hends : here.EndsAtNewline := .inr ⟨by simp [here], by simp [here]⟩
  have htokens := Cursor.tokens_before_newline hends (hline ▸ h)
  rwa [Cursor.words_of_isDone hdone] at htokens

end ScenarioScript
