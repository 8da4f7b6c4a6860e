import ScenarioScript.Proofs.Token.Cover
import ScenarioScript.Proofs.Token.Place

/-!
# Words in any layout

Words that are printed with blanks and comments between them are read back as they were. What stands between
them makes no difference but to the lines of their tokens.
-/

namespace ScenarioScript

/-! ## Spacing -/

/-- Blanks, and comments with the break at the end of their line. -/
inductive IsSpacing : List Char → Prop
  | nil : IsSpacing []
  | blank {c : Char} {gap : List Char} (hc : isBlank c) (hgap : IsSpacing gap) : IsSpacing (c :: gap)
  | comment {body gap : List Char} (hbody : '\n' ∉ body) (hgap : IsSpacing gap) :
      IsSpacing ('#' :: (body ++ '\n' :: gap))

section
variable {gap text : List Char}

theorem IsSpacing.spanGap_append (h : IsSpacing gap) (text : List Char) :
    spanGap false (gap ++ text) = (gap ++ (spanGap false text).1, (spanGap false text).2) := by
  induction h with
  | nil => rfl
  | blank hc hgap ih =>
    rw [List.cons_append, spanGap_blank hc, ih]
    rfl
  | @comment body gap hbody hgap ih =>
    have hbreak : isBlank '\n' := by decide
    have hend : ∀ c ∈ ('\n' :: (gap ++ text)).head?, c = '\n' := by simp
    rw [List.cons_append, List.append_assoc, List.cons_append, spanGap_sharp, spanGap_body hbody hend,
      spanGap_blank hbreak, ih]
    simp

theorem isSpacing_newlines (count : Nat) : IsSpacing (List.replicate count '\n') := by
  induction count with
  | zero => exact .nil
  | succ count ih => exact .blank (by decide) ih

theorem IsSpacing.not_isVisible (h : IsSpacing gap) : ∀ c ∈ gap.head?, ¬ IsVisible c := by
  cases h with
  | nil => simp
  | blank hc hgap => simp [IsVisible, hc]
  | comment hbody hgap => simp [IsVisible]

theorem endsWord_of_not_isVisible (h : ∀ c ∈ text.head?, ¬ IsVisible c) : EndsWord text := by
  intro c hc
  rw [← Bool.not_eq_true]
  exact fun hword => h c hc (isVisible_of_continuesName hword)

theorem endsSymbol_of_not_isVisible (h : ∀ c ∈ text.head?, ¬ IsVisible c) : EndsSymbol text := by
  intro c hc hsymbol
  have hvisible : (isBlank c = false) ∧ c ≠ '#' := by
    simp only [List.mem_cons, List.not_mem_nil, or_false] at hsymbol
    rcases hsymbol with rfl | rfl | rfl <;> decide
  exact h c hc hvisible

theorem Cursor.skipGap_spacing (h : IsSpacing gap) (file : String) (position : Nat) (line : UInt32)
    (text : List Char) : (⟨file, position, line, gap ++ text⟩ : Cursor).skipGap =
      (⟨file, position + byteCount gap, line + UInt32.ofNat (gap.count '\n'), text⟩ : Cursor).skipGap := by
  unfold skipGap advance
  dsimp only
  rw [h.spanGap_append, byteCount_append, List.count_append, UInt32.ofNat_add, Nat.add_assoc, UInt32.add_assoc]

theorem Lexes.spacing {line : UInt32} {file : String} {tokens : List Token} (hgap : IsSpacing gap)
    (h : Lexes (line + UInt32.ofNat (gap.count '\n')) file text tokens) : Lexes line file (gap ++ text) tokens := by
  intro position
  have hnext : (⟨file, position, line, gap ++ text⟩ : Cursor).next =
      (⟨file, position + Cursor.byteCount gap, line + UInt32.ofNat (gap.count '\n'), text⟩ : Cursor).next := by
    unfold Cursor.next
    rw [Cursor.skipGap_spacing hgap]
  rw [← h (position + Cursor.byteCount gap), Cursor.tokens_eq, hnext, ← Cursor.tokens_eq]

end

/-! ## Words -/

/-- A word as it can be printed. -/
inductive Word where
  | number (value : Float) (hfinite : value.isFinite) (hsign : Number.isNegative value = false)
  | string (content : String)
  | name (spelled : String) (hname : IsName spelled.toList)
  | symbol (sign : Symbol)

namespace Word

/-- The characters of a word in a text. -/
def chars : Word → List Char
  | number value _ _ => (Number.render value).toList
  | string content => quoted content.toList
  | name spelled _ => spelled.toList
  | symbol sign => sign.chars

def kind : Word → TokenKind
  | number value _ _ => .number value
  | string _ => .string
  | name _ _ => .name
  | symbol sign => .symbol sign

theorem kind_ne_fault (w : Word) {fault : LexicalFault} : w.kind ≠ .fault fault := by
  cases w <;> simp [kind]

/-- What the token of a word says. -/
def text : Word → String
  | number value _ _ => Number.render value
  | string content => content
  | name spelled _ => spelled
  | symbol sign => sign.text

theorem isLexeme (w : Word) {more : List Char} (hword : EndsWord more) (hsymbol : EndsSymbol more) :
    IsLexeme w.kind w.text.toList w.chars more := by
  cases w with
  | number value hfinite hsign =>
    change IsLexeme (.number value) (Number.render value).toList (Number.render value).toList more
    rw [Number.render_of_isFinite hfinite hsign, String.toList_ofList]
    exact isLexeme_number hfinite hsign hword
  | string content => exact isLexeme_string content.toList more
  | name spelled hname => exact isLexeme_name hname hword
  | symbol sign => exact isLexeme_symbol sign (symbol?_of_endsSymbol hsymbol)

def spelling (w : Word) : TokenKind × StoredText := (w.kind, .ofString w.text)

end Word

/-! ## Layouts -/

/-- The characters of words with something before each of them and at the end. -/
def laidOut (pieces : List (List Char × Word)) (last : List Char) : List Char :=
  pieces.flatMap (fun (gap, w) => gap ++ w.chars) ++ last

theorem laidOut_cons (gap : List Char) (w : Word) (pieces : List (List Char × Word)) (last : List Char) :
    laidOut ((gap, w) :: pieces) last = gap ++ (w.chars ++ laidOut pieces last) := by
  simp [laidOut]

/-- A text of words with spacing before each of them and at the end. Two words have some between them. -/
structure Layout where
  pieces : List (List Char × Word)
  last : List Char
  isSpacing : ∀ piece ∈ pieces, IsSpacing piece.1
  isSpacing_last : IsSpacing last
  separated : ∀ piece ∈ pieces.tail, piece.1 ≠ []

namespace Layout

def words (layout : Layout) : List Word := layout.pieces.map Prod.snd

def text (layout : Layout) : String := String.ofList (laidOut layout.pieces layout.last)

end Layout

theorem spelling_word (line : UInt32) (file : String) (kind : TokenKind) (text : String) :
    (word line file kind text.toList).spelling = (kind, .ofString text) := by
  unfold Token.spelling word
  rw [String.ofList_toList]

theorem not_isVisible_laidOut {pieces : List (List Char × Word)} {last : List Char}
    (hspacing : ∀ piece ∈ pieces, IsSpacing piece.1) (hlast : IsSpacing last)
    (hseparated : ∀ piece ∈ pieces, piece.1 ≠ []) : ∀ c ∈ (laidOut pieces last).head?, ¬ IsVisible c := by
  cases pieces with
  | nil => exact hlast.not_isVisible
  | cons piece rest =>
    obtain ⟨gap, w⟩ := piece
    have hvisible := (List.forall_mem_cons.1 hspacing).1.not_isVisible
    obtain ⟨c, gap, rfl⟩ := List.exists_cons_of_ne_nil (List.forall_mem_cons.1 hseparated).1
    rw [laidOut_cons]
    exact hvisible

theorem exists_lexes_laidOut (file : String) {pieces : List (List Char × Word)} {last : List Char}
    (hspacing : ∀ piece ∈ pieces, IsSpacing piece.1) (hlast : IsSpacing last)
    (hseparated : ∀ piece ∈ pieces.tail, piece.1 ≠ []) (line : UInt32) :
    ∃ tokens, Lexes line file (laidOut pieces last) tokens ∧
      tokens.map Token.spelling = pieces.map (fun piece => piece.2.spelling) ++ [(.done, .ofString "")] := by
  induction pieces generalizing line with
  | nil =>
    have hlexes : Lexes line file (last ++ []) _ := Lexes.spacing hlast .nil
    rw [List.append_nil] at hlexes
    exact ⟨_, hlexes, congrArg (fun spelling => [spelling]) (spelling_word _ file .done "")⟩
  | cons piece rest ih =>
    obtain ⟨gap, w⟩ := piece
    obtain ⟨hgap, hrest⟩ := List.forall_mem_cons.1 hspacing
    have htail : ∀ piece ∈ rest.tail, piece.1 ≠ [] := fun piece hpiece =>
      hseparated piece (List.mem_of_mem_tail hpiece)
    have hvisible := not_isVisible_laidOut hrest hlast hseparated
    have hlexeme := w.isLexeme (endsWord_of_not_isVisible hvisible) (endsSymbol_of_not_isVisible hvisible)
    obtain ⟨tokens, htokens, hspelling⟩ := ih hrest htail (line + UInt32.ofNat (gap.count '\n'))
    have hlexes := Lexes.spacing hgap (htokens.lexeme hlexeme)
    rw [← laidOut_cons] at hlexes
    refine ⟨_, hlexes, ?_⟩
    rw [List.map_cons, spelling_word, hspelling]
    rfl

namespace Layout

theorem ofText_spelling (layout : Layout) (file : String) :
    (Token.ofText layout.text file).map Token.spelling = layout.words.map Word.spelling ++ [(.done, .ofString "")] := by
  obtain ⟨tokens, htokens, hspelling⟩ :=
    exists_lexes_laidOut file layout.isSpacing layout.isSpacing_last layout.separated 1
  have htext : Token.ofText layout.text file = tokens := by
    have hstart := htokens 0
    unfold Token.ofText Cursor.start text
    rw [String.toList_ofList]
    exact hstart
  rw [htext, hspelling, words, List.map_map]
  rfl

theorem words_spelling (layout : Layout) (file : String) :
    (Cursor.start layout.text file).words.map Token.spelling = layout.words.map Word.spelling := by
  have hread := congrArg List.dropLast (layout.ofText_spelling file)
  rwa [List.dropLast_concat, ← List.map_dropLast] at hread

theorem kind_ne_openString (layout : Layout) (file : String) :
    ∀ token ∈ (Cursor.start layout.text file).words, token.kind ≠ .fault .openString := by
  intro token htoken
  have hmem : token.spelling ∈ layout.words.map Word.spelling := by
    rw [← layout.words_spelling file]
    exact List.mem_map_of_mem htoken
  obtain ⟨w, -, hw⟩ := List.mem_map.1 hmem
  have hkind : w.kind = token.kind := congrArg Prod.fst hw
  exact hkind ▸ w.kind_ne_fault

end Layout

end ScenarioScript
