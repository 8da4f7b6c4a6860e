import ScenarioScript.Proofs.Statement.Place
import ScenarioScript.Scenario

/-!
# Joined texts

Texts of one statement each, joined by semicolons and line breaks, are loaded as if each stood alone.
A text that cannot be read costs the others nothing.
-/

namespace ScenarioScript

theorem openStringsEndLines_of_none {tokens : List Token}
    (h : ∀ token ∈ tokens, token.kind ≠ .fault .openString) : OpenStringsEndLines tokens := by
  induction tokens with
  | nil => exact .nil
  | cons token rest ih =>
    rw [List.forall_mem_cons] at h
    exact List.isChain_cons.2 ⟨fun _ _ hopen => absurd hopen h.1, ih h.2⟩

namespace Statement

/-! ## The first piece -/

section
variable {final semicolon : Token} {piece rest : List Token}

theorem isStop_eq_false_iff {token : Token} :
    isStop token = false ↔ ¬ isSemicolon token ∧ token.kind ≠ .fault .openString := by
  simp [isStop]

theorem statementPieces_cons (h : ∃ token ∈ piece, ¬ isSemicolon token) (more : List (List Token)) :
    statementPieces (piece :: more) = piece :: statementPieces more := by
  have hkept : piece.all isSemicolon = false := by simpa using h
  simp [statementPieces, hkept]

theorem statementPieces_of_none (hpiece : ∀ token ∈ piece, isStop token = false) (hne : piece ≠ []) :
    statementPieces (cutAfter isStop piece) = [piece] := by
  have hkept : ∃ token ∈ piece, ¬ isSemicolon token := by
    obtain ⟨token, htoken⟩ := List.exists_mem_of_ne_nil piece hne
    exact ⟨token, htoken, (isStop_eq_false_iff.1 (hpiece token htoken)).1⟩
  rw [cutAfter_of_none hpiece hne, statementPieces_cons hkept]
  rfl

theorem statementPieces_append_semicolon (hpiece : ∀ token ∈ piece, isStop token = false) (hne : piece ≠ [])
    (hsemicolon : isSemicolon semicolon) (rest : List Token) :
    statementPieces (cutAfter isStop (piece ++ semicolon :: rest)) =
      (piece ++ [semicolon]) :: statementPieces (cutAfter isStop rest) := by
  have hkept : ∃ token ∈ piece ++ [semicolon], ¬ isSemicolon token := by
    obtain ⟨token, htoken⟩ := List.exists_mem_of_ne_nil piece hne
    exact ⟨token, by simp [htoken], (isStop_eq_false_iff.1 (hpiece token htoken)).1⟩
  have hstop : isStop semicolon := by simp [isStop, hsemicolon]
  rw [cutAfter_append_cons hpiece hstop, statementPieces_cons hkept]

theorem ofPiece?_append_semicolon (hpiece : ∀ token ∈ piece, ¬ isSemicolon token) (hne : piece ≠ [])
    (hsemicolon : isSemicolon semicolon) :
    ofPiece? final (piece ++ [semicolon]) = ofPiece? final piece := by
  have hbody : body piece = piece := by
    have hlast : piece.getLast?.any isSemicolon = false := by
      rw [Option.any_eq_false]
      exact fun token htoken => by simpa using hpiece token (List.mem_of_getLast? htoken)
    rw [body, hlast]
    rfl
  obtain ⟨token, rest, rfl⟩ := List.exists_cons_of_ne_nil hne
  unfold ofPiece?
  rw [body_concat_semicolon hsemicolon, hbody]
  rfl

end

/-! ## One part -/

/-- A text of one statement, right or wrong, that ends outside of strings and comments. -/
structure IsPart (text file : String) : Prop where
  notEmpty : ∃ token ∈ Token.ofText text file, ¬ token.isDone
  noSemicolon : ∀ token ∈ Token.ofText text file, ¬ isSemicolon token
  noOpenString : ∀ token ∈ Token.ofText text file, token.kind ≠ .fault .openString
  noOpenComment : (Cursor.start text file).endsInComment = false

instance (text file : String) : Decidable (IsPart text file) :=
  decidable_of_iff
    ((∃ token ∈ Token.ofText text file, ¬ token.isDone) ∧
      (∀ token ∈ Token.ofText text file, ¬ isSemicolon token) ∧
      (∀ token ∈ Token.ofText text file, token.kind ≠ .fault .openString) ∧
      (Cursor.start text file).endsInComment = false)
    ⟨fun h => ⟨h.1, h.2.1, h.2.2.1, h.2.2.2⟩,
      fun h => ⟨h.notEmpty, h.noSemicolon, h.noOpenString, h.noOpenComment⟩⟩

def ofPart? (text file : String) : Option Statement :=
  ofPiece? (word (Cursor.start text file).lastLine file .done []) (Cursor.start text file).words

/-- The line breaks before a part in the joined text. -/
def linesBefore (texts : List String) (i : Nat) : Nat :=
  (String.join ((texts.take i).map (· ++ ";\n"))).toList.count '\n'

section
variable {text file : String}

theorem ofText_eq_words (text file : String) :
    Token.ofText text file =
      (Cursor.start text file).words ++ [word (Cursor.start text file).lastLine file .done []] :=
  (Cursor.start text file).tokens_eq_words

theorem linesBefore_succ (text : String) (rest : List String) (i : Nat) :
    linesBefore (text :: rest) (i + 1) = text.toList.count '\n' + 1 + linesBefore rest i := by
  simp [linesBefore, String.toList_join]
  omega

theorem results_alone (hstop : ∀ token ∈ (Cursor.start text file).words, isStop token = false)
    (hne : (Cursor.start text file).words ≠ []) :
    (ofTokens (Token.ofText text file)).map Except.toOption = [ofPart? text file] := by
  have hopen : ∀ token ∈ (Cursor.start text file).words, token.kind ≠ .fault .openString :=
    fun token htoken => (isStop_eq_false_iff.1 (hstop token htoken)).2
  have hlines := openStringsEndLines_of_none hopen
  rw [ofText_eq_words, ofTokens_spec List.getLast?_concat rfl,
    pieces_concat rfl Cursor.not_isDone_of_mem_words hlines, statementPieces_of_none hstop hne]
  rfl

theorem line_of_ofPart? {statement : Statement} (h : ofPart? text file = some statement)
    (hlines : text.toList.count '\n' < 2 ^ 32 - 1) :
    statement.line.toNat ≤ 1 + text.toList.count '\n' := by
  have hfit : (Cursor.start text file).LinesFit := Cursor.linesFit_start hlines
  have hlast : (Cursor.start text file).lastLine.toNat = _ := hfit.lastLine_toNat
  have hline : statement.line ≤ (Cursor.start text file).lastLine := by
    rw [line_of_ofPiece? rfl Cursor.not_isDone_of_mem_words h]
    match hwords : (Cursor.start text file).words with
    | [] => exact UInt32.le_refl _
    | token :: rest =>
      apply Cursor.line_le_of_mem_tokens hfit
      rw [Cursor.tokens_eq_words, hwords]
      simp
  rw [UInt32.le_iff_toNat_le, hlast] at hline
  exact hline

namespace IsPart

theorem isStop_of_mem_words (h : IsPart text file) :
    ∀ token ∈ (Cursor.start text file).words, isStop token = false := by
  intro token htoken
  have htext : token ∈ Token.ofText text file := List.dropLast_subset _ htoken
  exact isStop_eq_false_iff.2 ⟨h.noSemicolon token htext, h.noOpenString token htext⟩

theorem words_ne_nil (h : IsPart text file) : (Cursor.start text file).words ≠ [] := by
  intro hnil
  obtain ⟨token, htoken, hword⟩ := h.notEmpty
  rw [ofText_eq_words, hnil, List.nil_append, List.mem_singleton] at htoken
  exact hword (htoken ▸ rfl)

end IsPart

/-! ## All parts -/

section
variable {n : Nat}

theorem isStop_of_mem_wordsBelow (h : IsPart text file) : ∀ token ∈ wordsBelow text file n, isStop token = false := by
  unfold wordsBelow
  rw [List.forall_mem_map]
  exact h.isStop_of_mem_words

theorem wordsBelow_ne_nil (h : IsPart text file) : wordsBelow text file n ≠ [] := by
  simpa [wordsBelow] using h.words_ne_nil

theorem ofPiece?_wordsBelow (h : IsPart text file) {final : Token} (hfinal : final.isDone) :
    ofPiece? final (wordsBelow text file n) = (ofPart? text file).map (move (UInt32.ofNat n)) :=
  ofPiece?_move rfl hfinal Cursor.not_isDone_of_mem_words h.words_ne_nil

end

/-- What each part gives in the joined text, if that begins so many lines further down. -/
def partResults (file : String) (n : Nat) (texts : List String) : List (Option Statement) :=
  texts.zipIdx.map fun (text, i) => (ofPart? text file).map (move (UInt32.ofNat (n + linesBefore texts i)))

theorem partResults_cons (file : String) (n : Nat) (text : String) (rest : List String) :
    partResults file n (text :: rest) = (ofPart? text file).map (move (UInt32.ofNat n)) ::
      partResults file (n + (text.toList.count '\n' + 1)) rest := by
  unfold partResults
  rw [List.zipIdx_cons, List.zipIdx_succ, List.map_cons, List.map_map]
  refine congrArg _ (List.map_congr_left fun part _ => ?_)
  simp only [Function.comp_apply, linesBefore_succ, Nat.add_assoc]

theorem partResults_isSome (file : String) (n : Nat) (texts : List String) :
    (partResults file n texts).map Option.isSome = texts.map fun text => (ofPart? text file).isSome := by
  induction texts generalizing n with
  | nil => rfl
  | cons text rest ih => simp [partResults_cons, ih]

theorem exists_words_intercalate {texts : List String} (h : ∀ text ∈ texts, IsPart text file) (n : Nat) :
    ∃ words last, Lexes (1 + UInt32.ofNat n) file (";\n".intercalate texts).toList
        (words ++ [word last file .done []]) ∧
      (∀ token ∈ words, token.kind ≠ .fault .openString ∧ ¬ token.isDone) ∧
      ∀ final, final.isDone →
        (statementPieces (cutAfter isStop words)).map (ofPiece? final) = partResults file n texts := by
  -- each text is read up to its semicolon, and the rest begins on the line behind it
  induction texts generalizing n with
  | nil => exact ⟨[], _, Lexes.nil, by simp, by simp [cutAfter, statementPieces, partResults]⟩
  | cons text rest ih =>
    rw [List.forall_mem_cons] at h
    have hstop := isStop_of_mem_wordsBelow h.1 (n := n)
    have hne := wordsBelow_ne_nil h.1 (n := n)
    have hwords : ∀ token ∈ wordsBelow text file n, token.kind ≠ .fault .openString ∧ ¬ token.isDone :=
      fun token htoken =>
        ⟨(isStop_eq_false_iff.1 (hstop token htoken)).2, not_isDone_of_mem_wordsBelow token htoken⟩
    cases rest with
    | nil =>
      refine ⟨_, _, lexes_below text file n, hwords, fun final hfinal => ?_⟩
      rw [statementPieces_of_none hstop hne, partResults_cons, List.map_singleton,
        ofPiece?_wordsBelow h.1 hfinal]
      rfl
    | cons next rest =>
      obtain ⟨words, last, hlexes, hmore, hresults⟩ := ih h.2 (n + (text.toList.count '\n' + 1))
      have hjoined := lexes_below_semicolon h.1.noOpenString h.1.noOpenComment hlexes
      rw [← List.cons_append, ← List.append_assoc] at hjoined
      have htext : (";\n".intercalate (text :: next :: rest)).toList =
          text.toList ++ ';' :: '\n' :: (";\n".intercalate (next :: rest)).toList := by
        simp [String.intercalate_cons_cons]
      refine ⟨_, last, htext ▸ hjoined, ?_, fun final hfinal => ?_⟩
      · rw [List.forall_mem_append, List.forall_mem_cons]
        exact ⟨hwords, by simp [sign, word, Token.isDone], hmore⟩
      · have hsemicolons : ∀ token ∈ wordsBelow text file n, ¬ isSemicolon token :=
          fun token htoken => (isStop_eq_false_iff.1 (hstop token htoken)).1
        rw [statementPieces_append_semicolon hstop hne rfl, List.map_cons, hresults final hfinal,
          ofPiece?_append_semicolon hsemicolons hne rfl, ofPiece?_wordsBelow h.1 hfinal,
          partResults_cons file n text (next :: rest)]

theorem results_intercalate {texts : List String} (h : ∀ text ∈ texts, IsPart text file) :
    (ofTokens (Token.ofText (";\n".intercalate texts) file)).map Except.toOption = partResults file 0 texts := by
  obtain ⟨words, last, hlexes, hwords, hresults⟩ := exists_words_intercalate h 0
  have hopen : OpenStringsEndLines words :=
    openStringsEndLines_of_none fun token htoken => (hwords token htoken).1
  have htext : Token.ofText (";\n".intercalate texts) file = words ++ [word last file .done []] := hlexes 0
  rw [htext, ofTokens_spec List.getLast?_concat rfl,
    pieces_concat rfl (fun token htoken => (hwords token htoken).2) hopen]
  exact hresults _ rfl

theorem linesBefore_add_le (texts : List String) :
    ∀ part ∈ texts.zipIdx, linesBefore texts part.2 + part.1.toList.count '\n' ≤
      (";\n".intercalate texts).toList.count '\n' := by
  induction texts with
  | nil => simp
  | cons text rest ih =>
    have hfirst : linesBefore (text :: rest) 0 = 0 := rfl
    rw [List.zipIdx_cons, List.zipIdx_succ, List.forall_mem_cons, List.forall_mem_map]
    cases rest with
    | nil => simp [hfirst]
    | cons next rest =>
      simp only [String.intercalate_cons_cons, String.toList_append, List.count_append, hfirst, linesBefore_succ]
      refine ⟨by omega, fun part hpart => ?_⟩
      have hle := ih part hpart
      have hline : (";\n" : String).toList.count '\n' = 1 := rfl
      omega

end

end Statement

/-! ## Loading -/

namespace Scenario

open Statement

/-- A statement, with its line so many lines further down. -/
def placed (lines : Nat) (statement : Statement) : Option String × Expr × Nat :=
  (statement.label, statement.expr, statement.line.toNat + lines)

section
variable {text file : String}

theorem load_statements (text file : String) :
    (load text file).1.statements =
      ((ofTokens (Token.ofText text file)).map Except.toOption).filterMap id := by
  simp [load, List.filterMap_map]

theorem load_errors_length (text file : String) :
    (load text file).2.length =
      ((ofTokens (Token.ofText text file)).map Except.toOption).countP Option.isNone := by
  unfold load
  rw [List.length_filterMap_eq_countP, List.countP_map]
  refine List.countP_congr fun result _ => ?_
  cases result <;> simp [Except.toOption]

theorem placed_move {n : Nat} {statement : Statement} (h : statement.line.toNat + n < 2 ^ 32) :
    placed 0 (statement.move (UInt32.ofNat n)) = placed n statement := by
  have hline : (statement.line + UInt32.ofNat n).toNat = statement.line.toNat + n := by
    simp only [UInt32.toNat_add, UInt32.toNat_ofNat']
    omega
  simp [placed, move, hline]

theorem load_of_parse {name : String} {e : Expr} (h : Expr.parse text name = .ok e) (file : String) :
    load text file = (⟨file, [⟨none, e, firstLine none (Token.ofText text file)⟩]⟩, []) := by
  have hwords : (Cursor.start text file).words = (Cursor.start text name).words.map (Token.move file 0) :=
    Cursor.words_move rfl rfl
  have he : Derives 0 (.expression e) (Cursor.start text file).words := by
    rw [Expr.parse, ofText_eq_words, Expr.ofTokens?_concat rfl Cursor.not_isDone_of_mem_words] at h
    rwa [hwords, Derives.move_iff]
  have hinner : ∀ token ∈ (Cursor.start text file).words, isInner token :=
    fun token htoken => isInner_of_isWord (he.isWord_of_mem token htoken)
  have hstop : ∀ token ∈ (Cursor.start text file).words, isStop token = false := by
    intro token htoken
    have hinner := hinner token htoken
    have hword := he.isWord_of_mem token htoken
    refine isStop_eq_false_iff.2 ⟨by simp_all [isInner], fun hopen => not_isWord_of_fault hopen hword⟩
  have hne : (Cursor.start text file).words ≠ [] := he.ne_nil (by simp)
  have hpart : ofPart? text file = some ⟨none, e, firstLine none (Token.ofText text file)⟩ := by
    refine (ofPiece?_eq_some_iff rfl Cursor.not_isDone_of_mem_words).2 ⟨e, ?_⟩
    rw [body_of_isInner hinner, splitLabel_of_not_hasLabel he.not_hasLabel]
    refine ⟨he, ?_⟩
    obtain ⟨token, rest, hcons⟩ := List.exists_cons_of_ne_nil hne
    simp [ofText_eq_words, hcons, firstLine]
  have hresults := results_alone hstop hne
  rw [hpart, List.map_eq_singleton_iff] at hresults
  obtain ⟨result, hresult, hok⟩ := hresults
  cases result with
  | error error => cases hok
  | ok statement =>
    cases hok
    rw [load, hresult]
    rfl

theorem load_part (h : IsPart text file) :
    (load text file).1.statements = (ofPart? text file).toList ∧
      (load text file).2.isEmpty = (ofPart? text file).isSome := by
  have hresults := results_alone h.isStop_of_mem_words h.words_ne_nil
  have hlength := load_errors_length text file
  rw [load_statements, hresults]
  rw [hresults] at hlength
  cases hpart : ofPart? text file with
  | none =>
    rw [hpart] at hlength
    exact ⟨rfl, by simpa using List.ne_nil_of_length_pos (by rw [hlength]; decide)⟩
  | some statement =>
    rw [hpart] at hlength
    exact ⟨rfl, by simpa using List.eq_nil_of_length_eq_zero hlength⟩

end

/-- Joined texts give the statements that each gives alone, on the lines they have now, and one error
for each text that is one. A text that is an expression gives that expression. -/
theorem load_intercalate (file : String) :
    (∀ texts : List String, (∀ text ∈ texts, IsPart text file) →
      (";\n".intercalate texts).toList.count '\n' < 2 ^ 32 - 1 →
        let joined := load (";\n".intercalate texts) file
        (joined.1.statements.map (placed 0) = texts.zipIdx.flatMap fun (text, i) =>
            (load text file).1.statements.map (placed (linesBefore texts i))) ∧
          (joined.2.length = texts.countP fun text => !(load text file).2.isEmpty) ∧
          (ofTokens (Token.ofText (";\n".intercalate texts) file)).map Except.isOk =
            texts.map fun text => (load text file).2.isEmpty) ∧
    ∀ text name e, Expr.parse text name = .ok e →
      load text file = (⟨file, [⟨none, e, firstLine none (Token.ofText text file)⟩]⟩, []) := by
  refine ⟨fun texts h hcount => ?_, fun text name e he => load_of_parse he file⟩
  intro joined
  have hresults := results_intercalate h
  have hread : (partResults file 0 texts).map Option.isSome = texts.map fun text => (load text file).2.isEmpty := by
    rw [partResults_isSome]
    exact List.map_congr_left fun text htext => (load_part (h text htext)).2.symm
  refine ⟨?_, ?_, ?_⟩
  · have hjoined : joined.1.statements = (partResults file 0 texts).filterMap id := by
      rw [load_statements, hresults]
    rw [hjoined, partResults, List.filterMap_map, List.map_filterMap, List.filterMap_eq_flatMap_toList]
    refine List.flatMap_congr fun (text, i) hpart => ?_
    have hlines : linesBefore texts i + text.toList.count '\n' ≤ _ := linesBefore_add_le texts (text, i) hpart
    have htext : text ∈ texts := List.fst_mem_of_mem_zipIdx hpart
    dsimp only [Function.comp_apply, id]
    rw [(load_part (h text htext)).1, Nat.zero_add]
    cases hstatement : ofPart? text file with
    | none => rfl
    | some statement =>
      have hline := line_of_ofPart? hstatement (by omega)
      have hplaced : placed 0 (statement.move (UInt32.ofNat (linesBefore texts i))) = _ := placed_move (by omega)
      simp [hplaced]
  · have hcount := congrArg (List.countP (!·)) hread
    rw [List.countP_map, List.countP_map] at hcount
    rw [load_errors_length, hresults]
    refine (List.countP_congr fun result _ => ?_).trans hcount
    cases result <;> simp
  · rw [← hread, ← hresults, List.map_map]
    refine List.map_congr_left fun result _ => ?_
    cases result <;> rfl

/-- The string goes on behind an escaped line break, and the comment ends with its line. -/
theorem load_intercalate_comment :
    let texts := ["a: \"x\\\ny\" + 1", "x +* 2 # no end; here\n", "\nf(1,\n2)"]
    let joined := load (";\n".intercalate texts) "s.scn"
    (∀ text ∈ texts, IsPart text "s.scn") ∧ (";\n".intercalate texts).toList.count '\n' < 2 ^ 32 - 1 ∧
      (joined.1.statements.map (placed 0) = texts.zipIdx.flatMap fun (text, i) =>
        (load text "s.scn").1.statements.map (placed (linesBefore texts i))) ∧
      joined.1.statements.map (fun statement => (placed 0 statement).2.2) = [1, 6] ∧
      joined.2.length = 1 ∧
      ∃ e, Expr.parse "\nf(1,\n2)" "s.scn" = .ok e ∧ load "\nf(1,\n2)" "s.scn" = (⟨"s.scn", [⟨none, e, 2⟩]⟩, []) := by
  intro texts joined
  have hparts : ∀ text ∈ texts, IsPart text "s.scn" := by decide +kernel
  have hcount : (";\n".intercalate texts).toList.count '\n' < 2 ^ 32 - 1 := by decide +kernel
  have hline : firstLine none (Token.ofText "\nf(1,\n2)" "s.scn") = 2 := by decide +kernel
  obtain ⟨e, he⟩ : ∃ e, Expr.parse "\nf(1,\n2)" "s.scn" = .ok e := by
    have hread : (Expr.parse "\nf(1,\n2)" "s.scn").isOk := by decide +kernel
    cases h : Expr.parse "\nf(1,\n2)" "s.scn" with
    | ok e => exact ⟨e, rfl⟩
    | error error => simp [h, Except.isOk, Except.toBool] at hread
  obtain ⟨hload, hparse⟩ := load_intercalate "s.scn"
  obtain ⟨hstatements, herrors, -⟩ := hload texts hparts hcount
  refine ⟨hparts, hcount, hstatements, ?_, ?_, ?_⟩
  · have hlines := congrArg (List.map (·.2.2)) hstatements
    rw [List.map_map] at hlines
    refine Eq.trans hlines ?_
    decide +kernel
  · rw [herrors]
    decide +kernel
  · exact ⟨e, he, hline ▸ hparse _ _ _ he⟩

end Scenario

end ScenarioScript
