import ScenarioScript.Expr.Printer
import ScenarioScript.Proofs.Number.Text
import ScenarioScript.Proofs.Text.Stored
import ScenarioScript.Proofs.Token.Scan

/-!
# Laying out words

What the text of each kind of word is read as, and how the tokens of a text grow if a word or a
space is put in front of it.
-/

namespace ScenarioScript

/-! ## Tokens of one line -/

def word (line : UInt32) (file : String) (kind : TokenKind) (content : List Char) : Token :=
  ⟨kind, .ofString (String.ofList content), line, file⟩

def sign (line : UInt32) (file : String) (symbol : Symbol) : Token :=
  word line file (.symbol symbol) symbol.chars

/-- The tokens of a text that begins somewhere in a line. -/
def Lexes (line : UInt32) (file : String) (text : List Char) (tokens : List Token) : Prop :=
  ∀ position, (⟨file, position, line, text⟩ : Cursor).tokens = tokens

/-- Whether a character begins a word. -/
def IsVisible (c : Char) : Prop := isBlank c = false ∧ c ≠ '#'

/-- A text that is read as one word of one line, whatever else it could be a part of. -/
structure IsLexeme (kind : TokenKind) (content taken more : List Char) : Prop where
  reads : ∃ c text, taken ++ more = c :: text ∧ IsVisible c ∧ readLexeme c text = ⟨kind, content, taken, more⟩
  oneLine : '\n' ∉ taken

namespace Cursor

theorem advance_nil (cursor : Cursor) : cursor.advance [] cursor.rest = cursor := by
  simp [advance, byteCount]

theorem skipGap_of_visible {cursor : Cursor} {c : Char} {text : List Char} (h : cursor.rest = c :: text)
    (hc : IsVisible c) : cursor.skipGap = cursor := by
  have hgap : spanGap false cursor.rest = ([], cursor.rest) := by
    rw [h, spanGap, if_neg (by simp [hc.1, hc.2])]
  rw [skipGap, hgap, advance_nil]

theorem skipGap_space (file : String) (position : Nat) (line : UInt32) (text : List Char) :
    (⟨file, position, line, ' ' :: text⟩ : Cursor).skipGap =
      (⟨file, position + 1, line, text⟩ : Cursor).skipGap := by
  have hgap : spanGap false (' ' :: text) = (' ' :: (spanGap false text).1, (spanGap false text).2) := by
    rw [spanGap, if_pos (by decide)]
    rfl
  have hsize : (' ' : Char).utf8Size = 1 := by decide
  have hline : (' ' :: (spanGap false text).1).count '\n' = (spanGap false text).1.count '\n' := by simp
  unfold skipGap advance
  dsimp only
  rw [hgap, byteCount, hsize, hline, Nat.add_assoc]

end Cursor

namespace Lexes

variable {line : UInt32} {file : String} {text more : List Char} {tokens : List Token}

theorem nil : Lexes line file [] [word line file .done []] := by
  intro position
  have hgap : (⟨file, position, line, []⟩ : Cursor).skipGap = ⟨file, position, line, []⟩ :=
    Cursor.advance_nil ⟨file, position, line, []⟩
  rw [Cursor.tokens_eq, Cursor.next_of_nil rfl, hgap]
  rfl

theorem space (h : Lexes line file text tokens) : Lexes line file (' ' :: text) tokens := by
  intro position
  have hnext : (⟨file, position, line, ' ' :: text⟩ : Cursor).next =
      (⟨file, position + 1, line, text⟩ : Cursor).next := by
    unfold Cursor.next
    rw [Cursor.skipGap_space]
  rw [← h (position + 1), Cursor.tokens_eq, hnext, ← Cursor.tokens_eq]

theorem lexeme (h : Lexes line file more tokens) {kind : TokenKind} {content taken : List Char}
    (hlexeme : IsLexeme kind content taken more) :
    Lexes line file (taken ++ more) (word line file kind content :: tokens) := by
  intro position
  obtain ⟨c, text, htext, hvisible, hread⟩ := hlexeme.reads
  have hgap : (⟨file, position, line, c :: text⟩ : Cursor).skipGap = ⟨file, position, line, c :: text⟩ :=
    Cursor.skipGap_of_visible rfl hvisible
  have hkind : kind ≠ .done := by
    have hdone := readLexeme_kind_ne_done c text
    rwa [hread] at hdone
  have hcount : taken.count '\n' = 0 := List.count_eq_zero.2 hlexeme.oneLine
  rw [htext, Cursor.tokens_eq, Cursor.next_of_cons (by rw [hgap]), hgap, hread]
  have hdone : (Cursor.token ⟨file, position, line, c :: text⟩ kind content).isDone = false := by
    simp [Cursor.token, Token.isDone, hkind]
  dsimp only
  rw [hdone, ← h (position + Cursor.byteCount taken)]
  simp [Cursor.advance, hcount, Cursor.token, word]

end Lexes

/-! ## Visible characters -/

theorem isVisible_of_range {c : Char} (hfirst : 0x23 < c.toNat) (hlast : c.toNat < 0x7F) : IsVisible c := by
  constructor
  · simp only [isBlank, isInRanges, blankRanges, List.any_eq_false, Bool.and_eq_true, decide_eq_true_eq]
    simp
    omega
  · rintro rfl
    exact absurd hfirst (by decide)

theorem isAlpha_iff (c : Char) :
    c.isAlpha ↔ (65 ≤ c.toNat ∧ c.toNat ≤ 90) ∨ 97 ≤ c.toNat ∧ c.toNat ≤ 122 := by
  change (decide ('A'.val ≤ c.val ∧ c.val ≤ 'Z'.val) ||
    (decide ('a'.val ≤ c.val) && decide (c.val ≤ 'z'.val))) = true ↔ _
  simp only [Bool.or_eq_true, Bool.and_eq_true, decide_eq_true_eq, UInt32.le_iff_toNat_le]
  rfl

theorem isDigit_iff (c : Char) : c.isDigit ↔ 48 ≤ c.toNat ∧ c.toNat ≤ 57 := by
  change (decide ('0'.val ≤ c.val) && decide (c.val ≤ '9'.val)) = true ↔ _
  simp only [Bool.and_eq_true, decide_eq_true_eq, UInt32.le_iff_toNat_le]
  rfl

theorem startsName_iff (c : Char) : startsName c ↔ c.isAlpha ∨ c = '_' := by
  simp only [startsName, Bool.or_eq_true, decide_eq_true_eq]

theorem continuesName_iff (c : Char) : continuesName c ↔ startsName c ∨ c.isDigit ∨ c = '.' := by
  change ((c.isAlpha || c.isDigit) || decide (c = '_') || decide (c = '.')) = true ↔ _
  simp only [startsName_iff, Bool.or_eq_true, decide_eq_true_eq]
  tauto

theorem isVisible_of_continuesName {c : Char} (h : continuesName c) : IsVisible c := by
  rw [continuesName_iff, startsName_iff, isAlpha_iff, isDigit_iff] at h
  rcases h with (hletter | rfl) | hdigit | rfl
  · exact isVisible_of_range (by omega) (by omega)
  · exact isVisible_of_range (by decide) (by decide)
  · exact isVisible_of_range (by omega) (by omega)
  · exact isVisible_of_range (by decide) (by decide)

theorem continuesName_of_startsName {c : Char} (h : startsName c) : continuesName c :=
  (continuesName_iff c).2 (.inl h)

theorem not_mem_of_continuesName {text : List Char} (h : ∀ c ∈ text, continuesName c) : '\n' ∉ text := by
  intro hmem
  exact absurd (h _ hmem) (by decide)

theorem isDigit_of_startsName {c : Char} (h : startsName c) : c.isDigit = false := by
  rw [startsName_iff, isAlpha_iff] at h
  rw [← Bool.not_eq_true, isDigit_iff]
  rcases h with hletter | rfl
  · omega
  · decide

/-! ## Rows of the lexer -/

section
variable {c : Char} {text taken rest : List Char}

theorem readLexeme_number (hc : c.isDigit) (h : spanNumber (c :: text) = (taken, rest)) :
    readLexeme c text = ⟨numberKind taken, taken, taken, rest⟩ := by
  unfold readLexeme
  rw [if_pos hc, h]

theorem readLexeme_string {content : List Char} (h : spanString '"' text = ⟨taken, content, true, rest⟩) :
    readLexeme '"' text = ⟨.string, content, '"' :: taken, rest⟩ := by
  unfold readLexeme
  rw [if_neg (by decide), if_pos (.inl rfl), h]
  rfl

theorem readLexeme_name (hc : startsName c) :
    let name := c :: text.takeWhile continuesName
    readLexeme c text = ⟨.name, name, name, text.dropWhile continuesName⟩ := by
  intro name
  have hquote : ¬ (c = '"' ∨ c = '\'') := by
    rintro (rfl | rfl) <;> exact absurd hc (by decide)
  unfold readLexeme
  rw [if_neg (by simp [isDigit_of_startsName hc]), if_neg hquote, if_pos hc]

theorem readLexeme_symbol {symbol : Symbol} (htext : symbol.chars ++ rest = c :: text)
    (h : symbol? (symbol.chars ++ rest) = some symbol) :
    readLexeme c text = ⟨.symbol symbol, symbol.chars, symbol.chars, rest⟩ := by
  have hc : c.isDigit = false ∧ ¬ (c = '"' ∨ c = '\'') ∧ startsName c = false := by
    cases symbol <;> (cases htext; decide)
  unfold readLexeme
  rw [if_neg (by simp [hc.1]), if_neg hc.2.1, if_neg (by simp [hc.2.2]), ← htext, h]
  change (⟨_, _, _, (symbol.chars ++ rest).drop symbol.chars.length⟩ : Lexeme) = _
  rw [List.drop_left]
  rfl

end

/-! ## Numbers and names -/

def IsName (name : List Char) : Prop :=
  ∃ c text, name = c :: text ∧ startsName c ∧ text.all continuesName

section
variable {more : List Char}

theorem continuesName_of_isPointed {whole fraction : List Char} (h : Number.IsPointed whole fraction) :
    ∀ c ∈ Number.pointed whole fraction, continuesName c := by
  intro c hc
  rcases Number.isDigit_or_point_of_mem h c hc with hdigit | rfl
  · exact (continuesName_iff c).2 (.inr (.inl hdigit))
  · decide

theorem isLexeme_number {x : Float} (hfinite : x.isFinite) (hsign : Number.isNegative x = false)
    (hmore : EndsWord more) :
    IsLexeme (.number x) (Number.unsigned (Number.rank x)) (Number.unsigned (Number.rank x)) more := by
  have hkind := Number.numberKind_unsigned hfinite hsign
  obtain ⟨whole, fraction, htext, hpointed, -⟩ := Number.exists_unsigned ((Number.isFinite_iff x).1 hfinite)
  rw [htext] at hkind ⊢
  have hchars := continuesName_of_isPointed hpointed
  have hspan := spanNumber_pointed hpointed hmore
  refine ⟨?_, not_mem_of_continuesName hchars⟩
  obtain ⟨c, digits, rfl⟩ := List.exists_cons_of_ne_nil hpointed.whole_ne_nil
  have hdigit : c.isDigit := hpointed.whole_isDigit c List.mem_cons_self
  refine ⟨c, _, rfl, isVisible_of_continuesName (hchars c (by simp [Number.pointed])), ?_⟩
  exact (readLexeme_number hdigit hspan).trans (by rw [hkind])

theorem isLexeme_name {name : List Char} (h : IsName name) (hmore : EndsWord more) :
    IsLexeme .name name name more := by
  obtain ⟨c, text, rfl, hc, hall⟩ := h
  have htext := List.all_eq_true.1 hall
  have hchars : ∀ d ∈ c :: text, continuesName d :=
    List.forall_mem_cons.2 ⟨continuesName_of_startsName hc, htext⟩
  have htake : (text ++ more).takeWhile continuesName = text ∧
      (text ++ more).dropWhile continuesName = more := by
    rw [List.takeWhile_append_of_pos htext, List.dropWhile_append_of_pos htext]
    cases more with
    | nil => simp
    | cons d more => simp [hmore d rfl]
  refine ⟨⟨c, text ++ more, rfl, isVisible_of_continuesName (hchars c List.mem_cons_self), ?_⟩,
    not_mem_of_continuesName hchars⟩
  rw [readLexeme_name hc, htake.1, htake.2]

/-! ## Strings -/

theorem spanString_quote (text : List Char) : spanString '"' ('"' :: text) = ⟨['"'], [], true, text⟩ := by
  rw [spanString.eq_def]
  rfl

theorem spanString_escapeChar (c : Char) (text : List Char) :
    spanString '"' (escapeChar c ++ text) =
      { spanString '"' text with
        taken := escapeChar c ++ (spanString '"' text).taken
        content := c :: (spanString '"' text).content } := by
  unfold escapeChar
  split <;> rw [List.cons_append, spanString.eq_def]
  · rfl
  · rfl
  · rfl
  · rfl
  · rename_i hquote hslash hline _
    dsimp only
    rw [if_neg hquote, if_neg hline, if_neg hslash]
    rfl

theorem spanString_quoted (content more : List Char) :
    spanString '"' (content.flatMap escapeChar ++ '"' :: more) =
      ⟨content.flatMap escapeChar ++ ['"'], content, true, more⟩ := by
  induction content with
  | nil => exact spanString_quote more
  | cons c content ih =>
    rw [List.flatMap_cons, List.append_assoc, spanString_escapeChar, ih, List.append_assoc]

theorem not_mem_escapeChar (c : Char) : '\n' ∉ escapeChar c := by
  unfold escapeChar
  split
  · decide
  · decide
  · decide
  · decide
  · rename_i hline _
    exact fun hmem => hline (List.mem_singleton.1 hmem).symm

theorem isLexeme_string (content more : List Char) : IsLexeme .string content (quoted content) more := by
  have hspan := spanString_quoted content more
  constructor
  · have hvisible : IsVisible '"' := ⟨by decide, by decide⟩
    refine ⟨'"', content.flatMap escapeChar ++ '"' :: more, ?_, hvisible, readLexeme_string hspan⟩
    simp [quoted]
  · simp [quoted, not_mem_escapeChar]

/-! ## Symbols -/

/-- Whether a symbol ends before a text, even if it is one that could go on. -/
def EndsSymbol (text : List Char) : Prop := ∀ c ∈ text.head?, c ∉ ['=', '~', '/']

theorem isLexeme_symbol (symbol : Symbol) (h : symbol? (symbol.chars ++ more) = some symbol) :
    IsLexeme (.symbol symbol) symbol.chars symbol.chars more := by
  have hvisible : symbol.chars.all (fun c => !isBlank c && c != '#') := by
    cases symbol <;> decide
  have hline : '\n' ∉ symbol.chars := by
    cases symbol <;> decide
  obtain ⟨c, chars, hchars⟩ : ∃ c chars, symbol.chars = c :: chars :=
    List.exists_cons_of_ne_nil symbol.text_ne_nil
  have htext : symbol.chars ++ more = c :: (chars ++ more) := by
    rw [hchars, List.cons_append]
  have hc : IsVisible c := by
    rw [hchars, List.all_cons] at hvisible
    simpa [IsVisible] using (Bool.and_eq_true_iff.1 hvisible).1
  exact ⟨⟨c, chars ++ more, htext, hc, readLexeme_symbol htext h⟩, hline⟩

theorem symbol?_of_endsSymbol {symbol : Symbol} (hmore : EndsSymbol more) :
    symbol? (symbol.chars ++ more) = some symbol := by
  cases more with
  | nil => cases symbol <;> rfl
  | cons c more =>
    -- only `!`, `<` and `>` are a part of other symbols
    have hc := hmore c rfl
    cases symbol <;> first | rfl | simp_all [symbol?, Symbol.chars, Symbol.text]

theorem endsSymbol_cons {c : Char} (h : c ∉ ['=', '~', '/']) (text : List Char) : EndsSymbol (c :: text) := by
  rintro d hd
  obtain rfl := Option.some.inj hd
  exact h

theorem endsWord_cons {c : Char} (h : continuesName c = false) (text : List Char) : EndsWord (c :: text) := by
  rintro d hd
  obtain rfl := Option.some.inj hd
  exact h

theorem Lexes.sign {line : UInt32} {file : String} {tokens : List Token} (h : Lexes line file more tokens)
    (symbol : Symbol) (hsymbol : symbol? (symbol.chars ++ more) = some symbol) :
    Lexes line file (symbol.chars ++ more) (sign line file symbol :: tokens) :=
  h.lexeme (isLexeme_symbol symbol hsymbol)

end

/-! ## Words with spaces -/

/-- A name or a symbol as it stands in a line. -/
def Token.IsPlain (line : UInt32) (file : String) (token : Token) : Prop :=
  (∃ symbol, token = sign line file symbol) ∨ ∃ name, IsName name ∧ token = word line file .name name

/-- Words with a space before each of them. -/
def spaced (tokens : List Token) : List Char := tokens.flatMap fun token => ' ' :: token.text.toString.toList

theorem head_spaced (tokens : List Token) : ∀ c ∈ (spaced tokens).head?, c = ' ' := by
  cases tokens <;> simp [spaced]

theorem lexes_spaced {line : UInt32} {file : String} {tokens : List Token}
    (h : ∀ token ∈ tokens, token.IsPlain line file) :
    Lexes line file (spaced tokens) (tokens ++ [word line file .done []]) := by
  induction tokens with
  | nil => exact .nil
  | cons token tokens ih =>
    obtain ⟨htoken, htokens⟩ := List.forall_mem_cons.1 h
    have hword : EndsWord (spaced tokens) := fun c hc => by rw [head_spaced tokens c hc]; rfl
    have hsymbol : EndsSymbol (spaced tokens) := fun c hc => by rw [head_spaced tokens c hc]; decide
    have htext (kind : TokenKind) (content : List Char) :
        (word line file kind content).text.toString.toList = content := by
      rw [word, StoredText.toString_ofString, String.toList_ofList]
    rcases htoken with ⟨symbol, rfl⟩ | ⟨name, hname, rfl⟩
    · have hspaced := ((ih htokens).sign symbol (symbol?_of_endsSymbol hsymbol)).space
      simpa [spaced, sign, htext] using hspaced
    · have hspaced := ((ih htokens).lexeme (isLexeme_name hname hword)).space
      simpa [spaced, htext] using hspaced

end ScenarioScript
