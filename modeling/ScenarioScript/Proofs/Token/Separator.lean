import ScenarioScript.Proofs.Token.Layout

/-!
# One word before a separator

A semicolon or a line break behind a text does not change the word that the text begins with. Only a
string can go on behind it: over a semicolon if it is open, and over a line break if a backslash
stands before it.
-/

namespace ScenarioScript

/-! ## Numbers before a separator -/

theorem takeWhile_append_stop {α : Type} {p : α → Bool} {stop : α} (h : p stop = false) (text more : List α) :
    (text ++ stop :: more).takeWhile p = text.takeWhile p := by
  induction text with
  | nil => simp [h]
  | cons c text ih => simp [List.takeWhile_cons, ih]

theorem dropWhile_append_stop {α : Type} {p : α → Bool} {stop : α} (h : p stop = false) (text more : List α) :
    (text ++ stop :: more).dropWhile p = text.dropWhile p ++ stop :: more := by
  induction text with
  | nil => simp [h]
  | cons c text ih =>
    simp only [List.cons_append, List.dropWhile_cons]
    split
    · exact ih
    · rfl

/-- A character that ends every word but an open string. -/
def IsSeparator (stop : Char) : Prop := stop = ';' ∨ stop = '\n'

theorem IsSeparator.not_isDigit {stop : Char} (h : IsSeparator stop) : stop.isDigit = false := by
  rcases h with rfl | rfl <;> rfl

theorem IsSeparator.not_continuesName {stop : Char} (h : IsSeparator stop) : continuesName stop = false := by
  rcases h with rfl | rfl <;> rfl

theorem IsSeparator.not_isHexDigit {stop : Char} (h : IsSeparator stop) : isHexDigit stop = false := by
  rcases h with rfl | rfl <;> rfl

section
variable {stop : Char} (hstop : IsSeparator stop) (text more : List Char)
include hstop

theorem spanFraction_append_stop :
    spanFraction (text ++ stop :: more) = ((spanFraction text).1, (spanFraction text).2 ++ stop :: more) := by
  have hdigit := hstop.not_isDigit
  have hpoint : stop ≠ '.' := by rcases hstop with rfl | rfl <;> decide
  match text with
  | [] => simp [spanFraction, hpoint]
  | [c] => by_cases hc : c = '.' <;> simp [spanFraction, hc, hdigit]
  | c :: digit :: text =>
    by_cases hc : c = '.'
    · subst hc
      simp only [List.cons_append, spanFraction]
      split
      · simp only [← List.cons_append, takeWhile_append_stop hdigit, dropWhile_append_stop hdigit]
      · rfl
    · simp [spanFraction, hc]

theorem spanExponent_append_stop :
    spanExponent (text ++ stop :: more) = ((spanExponent text).1, (spanExponent text).2 ++ stop :: more) := by
  have hdigit := hstop.not_isDigit
  have htake (text : List Char) := takeWhile_append_stop hdigit text more
  have hdrop (text : List Char) := dropWhile_append_stop hdigit text more
  have hmark : stop ≠ 'e' ∧ stop ≠ 'E' ∧ stop ≠ '+' ∧ stop ≠ '-' := by rcases hstop with rfl | rfl <;> decide
  match text with
  | [] => simp [spanExponent, hmark]
  | [mark] => by_cases h : mark = 'e' ∨ mark = 'E' <;> simp [spanExponent, h, hmark, hdigit]
  | mark :: sign :: text =>
    by_cases h : mark = 'e' ∨ mark = 'E'
    · by_cases hplus : sign = '+'
      · simp [spanExponent, h, hplus, htake, hdrop]
      · by_cases hminus : sign = '-'
        · simp [spanExponent, h, hminus, htake, hdrop]
        · have htake := htake (sign :: text)
          have hdrop := hdrop (sign :: text)
          rw [List.cons_append] at htake hdrop
          simp [spanExponent, h, hplus, hminus, htake, hdrop]
    · simp [spanExponent, h]

omit hstop in
theorem spanNumber_decimal {text : List Char}
    (h : ∀ digits, text ≠ '0' :: 'x' :: digits ∧ text ≠ '0' :: 'X' :: digits) :
    let fraction := spanFraction (text.dropWhile Char.isDigit)
    spanNumber text = (text.takeWhile Char.isDigit ++ fraction.1 ++ (spanExponent fraction.2).1,
      (spanExponent fraction.2).2) := by
  unfold spanNumber
  split
  · exact absurd rfl (h _).1
  · exact absurd rfl (h _).2
  · rfl

theorem spanNumber_append_stop :
    spanNumber (text ++ stop :: more) = ((spanNumber text).1, (spanNumber text).2 ++ stop :: more) := by
  have hhex := hstop.not_isHexDigit
  have hdigit := hstop.not_isDigit
  by_cases hx : ∃ digits, text = '0' :: 'x' :: digits ∨ text = '0' :: 'X' :: digits
  · obtain ⟨digits, rfl | rfl⟩ := hx
    · simp [spanNumber, takeWhile_append_stop hhex, dropWhile_append_stop hhex]
    · simp [spanNumber, takeWhile_append_stop hhex, dropWhile_append_stop hhex]
  · have htext : ∀ digits, text ≠ '0' :: 'x' :: digits ∧ text ≠ '0' :: 'X' :: digits := by simpa using hx
    have hmore : ∀ digits, text ++ stop :: more ≠ '0' :: 'x' :: digits ∧
        text ++ stop :: more ≠ '0' :: 'X' :: digits := by
      intro digits
      match text with
      | [] | [c] => rcases hstop with rfl | rfl <;> simp
      | c :: d :: text =>
        have htext := htext text
        simp only [ne_eq, List.cons.injEq, and_true, List.cons_append] at htext ⊢
        tauto
    rw [spanNumber_decimal htext, spanNumber_decimal hmore, takeWhile_append_stop hdigit,
      dropWhile_append_stop hdigit, spanFraction_append_stop hstop, spanExponent_append_stop hstop]

/-! ## Symbols before a separator -/

omit hstop in
theorem symbol?_bang (c : Char) (text : List Char) :
    symbol? ('!' :: c :: text) =
      some (if c = '=' then .notEqual else if c = '~' then .notGlobMatch
        else if c = '/' then .notPatternMatch else .bang) := by
  split_ifs with h₁ h₂ h₃
  · subst h₁; rfl
  · subst h₂; rfl
  · subst h₃; rfl
  · simp [symbol?, h₁, h₂, h₃]

omit hstop in
theorem symbol?_less (c : Char) (text : List Char) :
    symbol? ('<' :: c :: text) = some (if c = '=' then .lessEqual else .less) := by
  split_ifs with h
  · subst h; rfl
  · simp [symbol?, h]

omit hstop in
theorem symbol?_greater (c : Char) (text : List Char) :
    symbol? ('>' :: c :: text) = some (if c = '=' then .greaterEqual else .greater) := by
  split_ifs with h
  · subst h; rfl
  · simp [symbol?, h]

omit hstop in
theorem symbol?_chars_ne_none (symbol : Symbol) (text : List Char) : symbol? (symbol.chars ++ text) ≠ none := by
  cases symbol with
  | bang | less | greater =>
    cases text with
    | nil => simp [Symbol.chars, Symbol.text, symbol?]
    | cons c text => simp [Symbol.chars, Symbol.text, symbol?_bang, symbol?_less, symbol?_greater]
  | _ => exact Option.some_ne_none _

theorem symbol?_chars_append_stop {symbol : Symbol} (h : symbol? (symbol.chars ++ text) = some symbol) :
    symbol? (symbol.chars ++ (text ++ stop :: more)) = some symbol := by
  cases symbol with
  | bang | less | greater =>
    cases text with
    | nil => rcases hstop with rfl | rfl <;> rfl
    | cons c text =>
      simp only [Symbol.chars, Symbol.text, List.cons_append] at h ⊢
      simpa [symbol?_bang, symbol?_less, symbol?_greater] using h
  | _ => rfl

theorem symbol?_append_stop (c : Char) : symbol? (c :: (text ++ stop :: more)) = symbol? (c :: text) := by
  cases h : symbol? (c :: text) with
  | some symbol =>
    have htext := symbol?_append h
    generalize (c :: text).drop symbol.text.toList.length = rest at htext
    rw [← htext] at h
    rw [← List.cons_append, ← htext, List.append_assoc]
    exact symbol?_chars_append_stop hstop rest more h
  | none =>
    rw [Option.eq_none_iff_forall_ne_some]
    intro symbol hsymbol
    have htext := symbol?_append hsymbol
    have hchars : stop ∉ symbol.chars.tail := by
      rcases hstop with rfl | rfl <;> cases symbol <;> decide
    rw [← List.cons_append] at htext
    rcases List.append_eq_append_iff.1 htext with ⟨rest, hrest, -⟩ | ⟨front, hfront, hbehind⟩
    · rw [hrest] at h
      exact symbol?_chars_ne_none symbol rest h
    · cases front with
      | nil =>
        rw [List.append_nil] at hfront
        rw [← hfront, ← List.append_nil symbol.text.toList] at h
        exact symbol?_chars_ne_none symbol [] h
      | cons d front =>
        obtain rfl : stop = d := by simpa using (List.cons.inj hbehind).1
        exact hchars (by simp [Symbol.chars, hfront])
end

/-! ## Strings before a line break -/

/-- How many backslashes a text ends with. -/
def trailingBackslashes (text : List Char) : Nat := (text.reverse.takeWhile (· = '\\')).length

theorem trailingBackslashes_le (text : List Char) : trailingBackslashes text ≤ text.length := by
  have h := (List.takeWhile_prefix (· = '\\') (l := text.reverse)).length_le
  simpa [trailingBackslashes] using h

theorem trailingBackslashes_cons (c : Char) (text : List Char) :
    trailingBackslashes (c :: text) =
      if trailingBackslashes text = text.length ∧ c = '\\' then text.length + 1 else trailingBackslashes text := by
  unfold trailingBackslashes
  rw [List.reverse_cons, List.takeWhile_append, List.length_reverse]
  by_cases hc : c = '\\' <;> split_ifs <;> simp_all

theorem trailingBackslashes_append_cons {c : Char} (hc : c ≠ '\\') (front text : List Char) :
    trailingBackslashes (front ++ c :: text) = trailingBackslashes text := by
  induction front with
  | nil => simp [trailingBackslashes_cons, hc]
  | cons d front ih =>
    have hle := trailingBackslashes_le text
    rw [List.cons_append, trailingBackslashes_cons, ih, if_neg]
    simp only [List.length_append, List.length_cons]
    omega

theorem trailingBackslashes_escape (c : Char) (text : List Char) :
    trailingBackslashes ('\\' :: c :: text) % 2 = trailingBackslashes text % 2 := by
  have hle := trailingBackslashes_le text
  rw [trailingBackslashes_cons, trailingBackslashes_cons, List.length_cons]
  by_cases hall : trailingBackslashes text = text.length
  · by_cases hc : c = '\\'
    · simp only [hall, hc, and_self, if_true]
      omega
    · simp [hall, hc]
  · have hne : trailingBackslashes text ≠ text.length + 1 := by omega
    simp [hall, hne]

section
variable {quote : Char} {text : List Char}

theorem spanString_close (text : List Char) : spanString quote (quote :: text) = ⟨[quote], [], true, text⟩ := by
  rw [spanString.eq_def]
  simp

theorem spanString_newline (hquote : quote ≠ '\n') (text : List Char) :
    spanString quote ('\n' :: text) = ⟨[], [], false, '\n' :: text⟩ := by
  rw [spanString.eq_def]
  simp [Ne.symm hquote]

theorem spanString_escape (hquote : '\\' ≠ quote) (c : Char) (text : List Char) :
    spanString quote ('\\' :: c :: text) =
      { spanString quote text with
        taken := '\\' :: c :: (spanString quote text).taken
        content := unescape c :: (spanString quote text).content } := by
  rw [spanString.eq_def]
  simp [hquote]

theorem spanString_plain {c : Char} (hquote : c ≠ quote) (hline : c ≠ '\n') (hescape : c ≠ '\\')
    (text : List Char) :
    spanString quote (c :: text) =
      { spanString quote text with
        taken := c :: (spanString quote text).taken
        content := c :: (spanString quote text).content } := by
  rw [spanString.eq_def]
  simp [hquote, hline, hescape]

theorem spanString_append_of_closed (h : (spanString quote text).closed) (more : List Char) :
    spanString quote (text ++ more) =
      { spanString quote text with rest := (spanString quote text).rest ++ more } := by
  fun_induction spanString quote text with
  | case1 | case3 | case4 => cases h
  | case2 text => exact spanString_close (text ++ more)
  | case5 c text scan hquote hline ih =>
    rw [List.cons_append, List.cons_append, spanString_escape hquote, ih h]
  | case6 c text hquote hline hescape scan ih =>
    rw [List.cons_append, spanString_plain hquote hline hescape, ih h]

/-- A line break ends an open string, unless a backslash stands before it that is not itself behind
such a backslash. -/
theorem spanString_append_newline (hquote : quote ≠ '\n') (h : (spanString quote text).closed = false)
    (hline : '\n' ∉ text) (heven : trailingBackslashes text % 2 = 0) (more : List Char) :
    spanString quote (text ++ '\n' :: more) =
      { spanString quote text with rest := (spanString quote text).rest ++ '\n' :: more } := by
  fun_induction spanString quote text with
  | case1 => exact spanString_newline hquote more
  | case2 => cases h
  | case3 => simp at hline
  | case4 => simp [trailingBackslashes] at heven
  | case5 c text scan hne hbreak ih =>
    rw [trailingBackslashes_escape] at heven
    simp only [List.mem_cons, not_or] at hline
    rw [List.cons_append, List.cons_append, spanString_escape hne, ih h hline.2.2 heven]
  | case6 c text hne hbreak hescape scan ih =>
    rw [← List.nil_append (c :: text), trailingBackslashes_append_cons hescape] at heven
    simp only [List.mem_cons, not_or] at hline
    rw [List.cons_append, spanString_plain hne hbreak hescape, ih h hline.2 heven]

end

/-! ## One word before a separator -/

section
variable {c stop : Char} {text : List Char}

theorem readLexeme_append_stop (hstop : IsSeparator stop) (h : (readLexeme c text).kind ≠ .fault .openString)
    (more : List Char) :
    readLexeme c (text ++ stop :: more) =
      { readLexeme c text with rest := (readLexeme c text).rest ++ stop :: more } := by
  unfold readLexeme at h ⊢
  by_cases hdigit : c.isDigit
  · have hspan := spanNumber_append_stop hstop (c :: text) more
    rw [List.cons_append] at hspan
    simp only [hdigit, if_true, hspan]
  by_cases hquote : c = '"' ∨ c = '\''
  · simp only [hdigit, hquote, if_true, if_false, Bool.false_eq_true] at h ⊢
    have hclosed : (spanString c text).closed := by
      by_contra hopen
      simp [hopen] at h
    simp only [spanString_append_of_closed hclosed, hclosed, if_true]
  by_cases hname : startsName c
  · simp only [hdigit, hquote, hname, if_true, if_false, Bool.false_eq_true]
    rw [takeWhile_append_stop hstop.not_continuesName, dropWhile_append_stop hstop.not_continuesName]
  · simp only [hdigit, hquote, hname, if_false, Bool.false_eq_true, symbol?_append_stop hstop]
    cases hsymbol : symbol? (c :: text) with
    | none => rfl
    | some symbol =>
      have hlength : symbol.text.toList.length ≤ (c :: text).length := by
        have htext := congrArg List.length (symbol?_append hsymbol)
        simp only [List.length_append, List.length_drop] at htext
        omega
      simp only [← List.cons_append, List.drop_append_of_le_length hlength]

theorem readLexeme_quote (hquote : c = '"' ∨ c = '\'') (text : List Char) :
    readLexeme c text =
      if (spanString c text).closed then
        ⟨.string, (spanString c text).content, c :: (spanString c text).taken, (spanString c text).rest⟩
      else
        ⟨.fault .openString, c :: (spanString c text).taken, c :: (spanString c text).taken,
          (spanString c text).rest⟩ := by
  have hdigit : c.isDigit = false := by rcases hquote with rfl | rfl <;> rfl
  unfold readLexeme
  rw [hdigit, if_neg Bool.false_ne_true, if_pos hquote]

theorem isQuote_of_openString (h : (readLexeme c text).kind = .fault .openString) : c = '"' ∨ c = '\'' := by
  by_contra hquote
  unfold readLexeme at h
  split at h
  · rcases numberKind_cases (spanNumber (c :: text)).1 with ⟨x, hkind, -⟩ | hkind <;> cases hkind.symm.trans h
  split at h
  · cases h
  · split at h <;> cases h

theorem readLexeme_append_newline (h : (readLexeme c text).kind = .fault .openString) (hline : '\n' ∉ text)
    (heven : trailingBackslashes text % 2 = 0) (more : List Char) :
    readLexeme c (text ++ '\n' :: more) =
      { readLexeme c text with rest := (readLexeme c text).rest ++ '\n' :: more } := by
  have hquote := isQuote_of_openString h
  have hnewline : c ≠ '\n' := by rcases hquote with rfl | rfl <;> decide
  rw [readLexeme_quote hquote] at h ⊢
  rw [readLexeme_quote hquote]
  cases hclosed : (spanString c text).closed with
  | true => simp [hclosed] at h
  | false => simp [spanString_append_newline hnewline hclosed hline heven, hclosed]

end

end ScenarioScript
