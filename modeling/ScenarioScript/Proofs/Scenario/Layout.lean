import ScenarioScript.Proofs.Scenario.Join
import ScenarioScript.Proofs.Token.Spacing

/-!
# Scenarios in any layout

What a text is read as depends on what its words spell. So words that are printed in another layout, with other
blanks and comments between them, give the same expression and the same statements.
-/

namespace ScenarioScript

/-! ## The same words elsewhere -/

namespace Token

/-- A token without its place. -/
def unplaced (token : Token) : Token := { token with line := 0, file := "" }

theorem unplaced_spelling (token : Token) : token.unplaced.spelling = token.spelling := rfl

theorem unplaced_eq_of_spelling {a b : Token} (h : a.spelling = b.spelling) : a.unplaced = b.unplaced := by
  simp [unplaced, kind_eq_of_spelling h, text_eq_of_spelling h]

theorem map_unplaced {tokens others : List Token} (h : others.map spelling = tokens.map spelling) :
    others.map unplaced = tokens.map unplaced := by
  induction tokens generalizing others with
  | nil => simpa using h
  | cons token rest ih =>
    obtain ⟨other, more, rfl, hother, hmore⟩ := List.map_eq_cons_iff.1 h
    simp [unplaced_eq_of_spelling hother, ih hmore]

end Token

theorem Expr.ofTokens?_congr {tokens others : List Token} {final final' : Token} (hfinal : final.isDone)
    (hfinal' : final'.isDone) (htokens : ∀ token ∈ tokens, ¬ token.isDone) (hothers : ∀ token ∈ others, ¬ token.isDone)
    (hspelling : others.map Token.spelling = tokens.map Token.spelling) (e : Expr) :
    ofTokens? (others ++ [final']) = .ok e ↔ ofTokens? (tokens ++ [final]) = .ok e := by
  rw [ofTokens?_concat hfinal htokens, ofTokens?_concat hfinal' hothers]
  exact ⟨fun h => h.congr hspelling.symm, fun h => h.congr hspelling⟩

namespace Statement

section
variable {tokens others : List Token} {final final' : Token}

theorem statementPieces_map {place : Token → Token} (hplace : ∀ token, (place token).spelling = token.spelling)
    (pieces : List (List Token)) :
    statementPieces (pieces.map (List.map place)) = (statementPieces pieces).map (List.map place) := by
  have hkept : (fun piece => !piece.all isSemicolon) ∘ List.map place = fun piece => !piece.all isSemicolon := by
    funext piece
    simp only [Function.comp_apply, List.all_map, isSemicolon_comp hplace]
  unfold statementPieces
  rw [List.filter_map, hkept]

/-- What each statement of the words says, if it can be read. -/
def outlines (final : Token) (words : List Token) : List (Option (Option String × Expr)) :=
  (statementPieces (cutAfter isStop words)).map fun piece => (ofPiece? final piece).map outline

theorem outlines_map {place : Token → Token} (hplace : ∀ token, (place token).spelling = token.spelling)
    (hfinal : final.isDone) (hfinal' : final'.isDone) (htokens : ∀ token ∈ tokens, ¬ token.isDone) :
    outlines final' (tokens.map place) = outlines final tokens := by
  unfold outlines
  rw [cutAfter_map, isStop_comp hplace, statementPieces_map hplace, List.map_map]
  refine List.map_congr_left fun piece hpiece => ?_
  have hcut : piece ∈ cutAfter isStop tokens := List.mem_of_mem_filter hpiece
  have hkept : ∀ token ∈ piece, ¬ token.isDone := fun token htoken => htokens token (subset_of_mem_cutAfter hcut htoken)
  exact outline_ofPiece?_map hplace hfinal hfinal' hkept

theorem outlines_congr (hfinal : final.isDone) (hfinal' : final'.isDone) (htokens : ∀ token ∈ tokens, ¬ token.isDone)
    (hothers : ∀ token ∈ others, ¬ token.isDone) (hspelling : others.map Token.spelling = tokens.map Token.spelling) :
    outlines final' others = outlines final tokens := by
  rw [← outlines_map Token.unplaced_spelling hfinal' hfinal hothers, Token.map_unplaced hspelling,
    outlines_map Token.unplaced_spelling hfinal hfinal htokens]

theorem ofText_outlines {text file : String}
    (hopen : ∀ token ∈ (Cursor.start text file).words, token.kind ≠ .fault .openString) :
    (ofTokens (Token.ofText text file)).map (fun result => result.toOption.map outline) =
      outlines (word (Cursor.start text file).lastLine file .done []) (Cursor.start text file).words := by
  have hlines := openStringsEndLines_of_none hopen
  unfold outlines
  rw [← Function.comp_def, ← List.map_map, ofText_eq_words, ofTokens_spec List.getLast?_concat rfl,
    pieces_concat rfl Cursor.not_isDone_of_mem_words hlines, List.map_map]
  rfl

end

end Statement

/-! ## Texts -/

theorem Scenario.load_outlines (text file : String) :
    let results := (Statement.ofTokens (Token.ofText text file)).map fun result =>
      result.toOption.map Statement.outline
    (load text file).1.statements.map Statement.outline = results.filterMap id ∧
      (load text file).2.length = results.countP Option.isNone := by
  intro results
  constructor
  · rw [load_statements, List.map_filterMap, List.filterMap_map, List.filterMap_map]
    rfl
  · rw [load_errors_length, List.countP_map, List.countP_map]
    exact List.countP_congr fun result _ => by simp

namespace Layout

section
variable {layout other : Layout} (hwords : other.words = layout.words) (file otherFile : String)
include hwords

theorem spelling_eq : (Cursor.start other.text otherFile).words.map Token.spelling =
    (Cursor.start layout.text file).words.map Token.spelling := by
  rw [words_spelling, words_spelling, hwords]

theorem parse_iff (e : Expr) : Expr.parse other.text otherFile = .ok e ↔ Expr.parse layout.text file = .ok e := by
  unfold Expr.parse
  rw [Statement.ofText_eq_words, Statement.ofText_eq_words]
  exact Expr.ofTokens?_congr rfl rfl Cursor.not_isDone_of_mem_words Cursor.not_isDone_of_mem_words
    (spelling_eq hwords file otherFile) e

theorem results_eq :
    (Statement.ofTokens (Token.ofText other.text otherFile)).map (fun result => result.toOption.map Statement.outline) =
      (Statement.ofTokens (Token.ofText layout.text file)).map fun result =>
        result.toOption.map Statement.outline := by
  rw [Statement.ofText_outlines (layout.kind_ne_openString file),
    Statement.ofText_outlines (other.kind_ne_openString otherFile)]
  exact Statement.outlines_congr rfl rfl Cursor.not_isDone_of_mem_words Cursor.not_isDone_of_mem_words
    (spelling_eq hwords file otherFile)

end

/-- Printed words are read back from every layout. The layout does not change the expression or the statements. -/
theorem reads_words (layout : Layout) (file : String) :
    ((Token.ofText layout.text file).map fun token => (token.kind, token.text.toString)) =
        (layout.words.map fun w => (w.kind, w.text)) ++ [(.done, "")] ∧
      ∀ (other : Layout) (otherFile : String), other.words = layout.words →
        (∀ e, Expr.parse other.text otherFile = .ok e ↔ Expr.parse layout.text file = .ok e) ∧
          (Scenario.load other.text otherFile).1.statements.map Statement.outline =
            (Scenario.load layout.text file).1.statements.map Statement.outline ∧
          (Scenario.load other.text otherFile).2.length = (Scenario.load layout.text file).2.length := by
  constructor
  · have hread := congrArg (List.map (Prod.map id StoredText.toString)) (layout.ofText_spelling file)
    simpa [Function.comp_def, Token.spelling, Word.spelling] using hread
  · intro other otherFile hwords
    have hresults := results_eq hwords file otherFile
    obtain ⟨hstatements, herrors⟩ := Scenario.load_outlines layout.text file
    obtain ⟨hstatements', herrors'⟩ := Scenario.load_outlines other.text otherFile
    refine ⟨parse_iff hwords file otherFile, ?_, ?_⟩
    · rw [hstatements, hstatements', hresults]
    · rw [herrors, herrors', hresults]

/-- The same spacing before each word. -/
def evenly (gap : List Char) (hgap : IsSpacing gap) (hne : gap ≠ []) (words : List Word) : Layout where
  pieces := words.map (gap, ·)
  last := []
  isSpacing := List.forall_mem_map.2 fun _ _ => hgap
  isSpacing_last := .nil
  separated := by
    intro piece hpiece
    obtain ⟨w, -, rfl⟩ := List.mem_map.1 (List.mem_of_mem_tail hpiece)
    exact hne

theorem words_evenly {gap : List Char} (hgap : IsSpacing gap) (hne : gap ≠ []) (words : List Word) :
    (evenly gap hgap hne words).words = words := by
  simp [evenly, Layout.words]

/-- A quote and a semicolon in a comment belong to no word. -/
theorem reads_words_comments :
    let words : List Word := [.name "length_of_all_queues.total" ⟨_, _, rfl, by decide, by decide⟩, .symbol .colon,
      .string "\"a\\\n\té#;", .symbol .plus, .number 0.5 (by decide) (by decide), .symbol .semicolon]
    let spaced := evenly [' '] (.blank (by decide) .nil) (by decide) words
    let commented := evenly ('#' :: (['"', ';'] ++ '\n' :: [])) (.comment (by decide) .nil) (by decide) words
    commented.words = spaced.words ∧
      ((Token.ofText spaced.text "s.scn").map fun token => (token.kind, token.text.toString)) =
        [(.name, "length_of_all_queues.total"), (.symbol .colon, ":"), (.string, "\"a\\\n\té#;"),
          (.symbol .plus, "+"), (.number 0.5, "0.5"), (.symbol .semicolon, ";"), (.done, "")] ∧
      (∀ e, Expr.parse commented.text "c.scn" = .ok e ↔ Expr.parse spaced.text "s.scn" = .ok e) ∧
      (Scenario.load commented.text "c.scn").1.statements.map Statement.outline =
        (Scenario.load spaced.text "s.scn").1.statements.map Statement.outline ∧
      (Scenario.load commented.text "c.scn").2.length = (Scenario.load spaced.text "s.scn").2.length := by
  intro words spaced commented
  have hwords : commented.words = spaced.words := (words_evenly _ _ words).trans (words_evenly _ _ words).symm
  obtain ⟨htokens, hothers⟩ := reads_words spaced "s.scn"
  obtain ⟨hparse, hstatements, herrors⟩ := hothers commented "c.scn" hwords
  refine ⟨hwords, htokens.trans ?_, hparse, hstatements, herrors⟩
  decide +kernel

end Layout

end ScenarioScript
