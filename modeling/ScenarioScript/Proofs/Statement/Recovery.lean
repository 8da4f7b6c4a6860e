import ScenarioScript.Proofs.Statement.Pieces
import ScenarioScript.Proofs.Token.Spacing

/-!
# One error costs one statement

Reading statement after statement gives one result for each piece of the tokens that is more than a
semicolon: the statement that the piece spells on its own, or one error if it spells none.
-/

namespace ScenarioScript

namespace Statement

/-! ## The statement of a piece -/

/-- A piece without its semicolon. -/
def body (piece : List Token) : List Token :=
  if piece.getLast?.any isSemicolon then piece.dropLast else piece

/-- The statement that a piece spells on its own before the end of a text. -/
def ofPiece? (final : Token) (piece : List Token) : Option Statement :=
  match Expr.ofTokens? ((splitLabel (body piece)).2 ++ [final]) with
  | .ok e => some ⟨(splitLabel (body piece)).1, e, (piece.headD final).line⟩
  | .error _ => none

theorem body_concat_semicolon {inner : List Token} {semicolon : Token} (h : isSemicolon semicolon) :
    body (inner ++ [semicolon]) = inner := by
  simp [body, h]

theorem body_of_isInner {inner : List Token} (h : ∀ token ∈ inner, isInner token) :
    body inner = inner := by
  have hlast : inner.getLast?.any isSemicolon = false := by
    rw [Option.any_eq_false]
    intro token htoken
    have hinner := h token (List.mem_of_getLast? htoken)
    simp only [isInner, Bool.and_eq_true, Bool.not_eq_true'] at hinner
    simp [hinner.1]
  rw [body, hlast]
  rfl

theorem mem_of_mem_body {piece : List Token} {token : Token} (h : token ∈ body piece) :
    token ∈ piece := by
  unfold body at h
  split at h
  · exact List.dropLast_subset _ h
  · exact h

section
variable {final : Token} {piece : List Token} {statement : Statement}

theorem ofPiece?_eq_some_iff (hfinal : final.isDone) (hpiece : ∀ token ∈ piece, ¬ token.isDone) :
    ofPiece? final piece = some statement ↔
      ∃ e, Derives 0 (.expression e) (splitLabel (body piece)).2 ∧
        statement = ⟨(splitLabel (body piece)).1, e, (piece.headD final).line⟩ := by
  have hbody : ∀ token ∈ (splitLabel (body piece)).2, ¬ token.isDone := fun token htoken =>
    hpiece token (mem_of_mem_body (mem_of_mem_splitLabel htoken))
  have hread {e : Expr} := Expr.ofTokens?_concat hfinal hbody (e := e)
  unfold ofPiece?
  split
  · rename_i e heq
    constructor
    · intro h
      exact ⟨e, hread.1 heq, (Option.some.inj h).symm⟩
    · rintro ⟨e', he', rfl⟩
      rw [hread.2 he'] at heq
      cases heq
      rfl
  · rename_i heq
    constructor
    · intro h
      cases h
    · rintro ⟨e', he', -⟩
      rw [hread.2 he'] at heq
      cases heq

/-! ## Reading a piece where it stands -/

theorem Passed.isInner_or_isSemicolon {openLine : Option UInt32} {behind : List Token}
    (h : Passed openLine behind piece) : ∀ token ∈ piece, isInner token ∨ isSemicolon token := by
  cases h with
  | semicolon hinner hsemicolon =>
    intro token htoken
    rcases List.mem_append.1 htoken with htoken | htoken
    · exact .inl (hinner token htoken)
    · exact .inr (List.mem_singleton.1 htoken ▸ hsemicolon)
  | toEnd hinner | openString hinner => exact fun token htoken => .inl (hinner token htoken)

theorem Passed.not_isDone {openLine : Option UInt32} {behind : List Token}
    (h : Passed openLine behind piece) : ∀ token ∈ piece, ¬ token.isDone := by
  intro token htoken
  rcases h.isInner_or_isSemicolon token htoken with hinner | hsemicolon
  · simp_all [isInner]
  · simp [Token.isDone, isSemicolon_iff.1 hsemicolon]

theorem exists_words_of_reader {tokens rest : List Token} (hfinal : final.isDone)
    (h : reader (some final) tokens = .ok statement rest) :
    ∃ words middle, tokens = words ++ middle ∧ (∀ word ∈ words, word.isWord) ∧ Ends middle rest := by
  obtain ⟨e, middle, hread, hends, -⟩ := reader_eq_ok_iff.1 h
  obtain ⟨taken, htaken, he⟩ := Expr.reader_spells _ (inSight_of_isDone (by simpa using hfinal) _) hread
  by_cases hlabel : HasLabel tokens
  · obtain ⟨name, colon, more, rfl, hname, hcolon⟩ := hlabel
    rw [splitLabel_cons hname hcolon] at htaken
    have hmore : more = taken ++ middle := htaken
    refine ⟨name :: colon :: taken, middle, by simp [hmore], ?_, hends⟩
    simpa [Token.isWord, hname, hcolon] using he.isWord_of_mem
  · rw [splitLabel_of_not_hasLabel hlabel] at htaken
    exact ⟨taken, middle, htaken, he.isWord_of_mem, hends⟩

theorem not_isWord_of_fault {token : Token} {fault : LexicalFault} (h : token.kind = .fault fault) :
    ¬ token.isWord := by
  simp [Token.isWord, h]

theorem reader_ne_ok_of_fault {inner behind rest : List Token} {token : Token} {fault : LexicalFault}
    (hfinal : final.isDone) (hinner : ∀ token ∈ inner, isInner token) (htoken : token ∈ inner)
    (hfault : token.kind = .fault fault) :
    reader (some final) (inner ++ behind) ≠ .ok statement rest := by
  intro h
  obtain ⟨words, middle, happend, hwords, hends⟩ := exists_words_of_reader hfinal h
  rcases List.append_eq_append_iff.1 happend with ⟨more, rfl, -⟩ | ⟨more, rfl, rfl⟩
  · exact not_isWord_of_fault hfault (hwords token (List.mem_append_left _ htoken))
  · cases more with
    | nil =>
      have hword : token ∈ words := by simpa using htoken
      exact not_isWord_of_fault hfault (hwords token hword)
    | cons stop more =>
      have hstop : isInner stop := hinner stop (by simp)
      simp [hends.not_isInner stop (by simp)] at hstop

theorem ofPiece?_eq_none_of_fault {token : Token} {fault : LexicalFault} (hfinal : final.isDone)
    (hinner : ∀ token ∈ piece, isInner token) (htoken : token ∈ piece)
    (hfault : token.kind = .fault fault) : ofPiece? final piece = none := by
  have hpiece : ∀ token ∈ piece, ¬ token.isDone := fun token htoken => by
    have := hinner token htoken
    simp_all [isInner]
  rw [Option.eq_none_iff_forall_ne_some]
  intro statement h
  obtain ⟨e, he, -⟩ := (ofPiece?_eq_some_iff hfinal hpiece).1 h
  have hread : reader (some final) (piece ++ [final]) = .ok _ [final] :=
    (reader_append_eq_ok_iff (by simpa using hfinal) hinner (by simp [isInner, hfinal])).2
      ⟨e, body_of_isInner hinner ▸ he, .inr ⟨hfinal, rfl⟩, rfl⟩
  exact reader_ne_ok_of_fault hfinal hinner htoken hfault hread

theorem reader_piece_eq_ok_iff {behind rest : List Token} (hfinal : final.isDone)
    (hpassed : Passed none behind piece) (hne : piece ≠ []) :
    reader (some final) (piece ++ behind) = .ok statement rest ↔
      ofPiece? final piece = some statement ∧ rest = behind := by
  have hline : firstLine (some final) (piece ++ behind) = (piece.headD final).line := by
    obtain ⟨token, more, rfl⟩ := List.exists_cons_of_ne_nil hne
    rfl
  have hlast : ∀ token ∈ some final, token.isDone := by simpa using hfinal
  have hdone := hpassed.not_isDone
  rw [ofPiece?_eq_some_iff hfinal hdone]
  cases hpassed with
  | @semicolon inner semicolon hinner hsemicolon =>
    have hends : Ends (semicolon :: behind) behind := .inl ⟨semicolon, rfl, hsemicolon⟩
    have hstop : ∀ token ∈ (semicolon :: behind).head?, isInner token = false := hends.not_isInner
    have happend : inner ++ [semicolon] ++ behind = inner ++ semicolon :: behind := by simp
    rw [← hline, body_concat_semicolon hsemicolon, happend, reader_append_eq_ok_iff hlast hinner hstop]
    constructor
    · rintro ⟨e, he, hrest, rfl⟩
      exact ⟨⟨e, he, rfl⟩, hrest.unique hends⟩
    · rintro ⟨⟨e, he, rfl⟩, rfl⟩
      exact ⟨e, he, hends, rfl⟩
  | toEnd hinner hend =>
    have hends : Ends behind behind := .inr ⟨hend, rfl⟩
    rw [← hline, body_of_isInner hinner, reader_append_eq_ok_iff hlast hinner hends.not_isInner]
    constructor
    · rintro ⟨e, he, hrest, rfl⟩
      exact ⟨⟨e, he, rfl⟩, hrest.unique hends⟩
    · rintro ⟨⟨e, he, rfl⟩, rfl⟩
      exact ⟨e, he, hends, rfl⟩
  | openString hinner hopen =>
    obtain ⟨token, htoken, hfault⟩ := hopen.resolve_left (by simp)
    have hnone := ofPiece?_eq_none_of_fault hfinal hinner htoken hfault
    rw [← ofPiece?_eq_some_iff hfinal hdone, hnone]
    simp [reader_ne_ok_of_fault hfinal hinner htoken hfault]

end

end Statement

/-! ## Reading on -/

namespace StatementQueue

open Statement

section
variable {queue : StatementQueue}

theorem next_of_atEnd (h : Reader.atEnd (queue.rest.dropWhile isSemicolon)) :
    queue.next = (none, { queue with rest := queue.rest.dropWhile isSemicolon }) := by
  unfold next
  rw [if_pos h]

theorem next_of_ok {statement : Statement} {rest : List Token}
    (hend : ¬ Reader.atEnd (queue.rest.dropWhile isSemicolon))
    (h : reader queue.tokens.getLast? (queue.rest.dropWhile isSemicolon) = .ok statement rest) :
    queue.next = (some (.ok statement),
      ⟨queue.tokens, rest, some { queue with rest := queue.rest.dropWhile isSemicolon }.position⟩) := by
  unfold next
  rw [if_neg hend, EStateM.run, h]

theorem next_of_error {fault : ParseFault} {rest : List Token}
    (hend : ¬ Reader.atEnd (queue.rest.dropWhile isSemicolon))
    (h : reader queue.tokens.getLast? (queue.rest.dropWhile isSemicolon) = .error fault rest) :
    queue.next = (some (.error (.atToken fault (rest.head?.or queue.tokens.getLast?))),
      ⟨queue.tokens, skip none (queue.rest.dropWhile isSemicolon), none⟩) := by
  unfold next
  rw [if_neg hend, EStateM.run, h]

theorem next_cases (queue : StatementQueue) :
    (Reader.atEnd (queue.rest.dropWhile isSemicolon) ∧
      queue.next = (none, { queue with rest := queue.rest.dropWhile isSemicolon })) ∨
    ¬ Reader.atEnd (queue.rest.dropWhile isSemicolon) ∧
      ((∃ statement rest,
        reader queue.tokens.getLast? (queue.rest.dropWhile isSemicolon) = .ok statement rest ∧
        queue.next = (some (.ok statement),
          ⟨queue.tokens, rest, some { queue with rest := queue.rest.dropWhile isSemicolon }.position⟩)) ∨
      ∃ fault rest,
        reader queue.tokens.getLast? (queue.rest.dropWhile isSemicolon) = .error fault rest ∧
        queue.next = (some (.error (.atToken fault (rest.head?.or queue.tokens.getLast?))),
          ⟨queue.tokens, skip none (queue.rest.dropWhile isSemicolon), none⟩)) := by
  by_cases hend : Reader.atEnd (queue.rest.dropWhile isSemicolon)
  · exact .inl ⟨hend, next_of_atEnd hend⟩
  right
  cases hread : reader queue.tokens.getLast? (queue.rest.dropWhile isSemicolon) with
  | ok statement rest => exact ⟨hend, .inl ⟨statement, rest, rfl, next_of_ok hend hread⟩⟩
  | error fault rest => exact ⟨hend, .inr ⟨fault, rest, rfl, next_of_error hend hread⟩⟩

/-- One step reads the first piece that is more than a semicolon, or finds that there is none. -/
theorem next_spec {final : Token} (hlast : queue.tokens.getLast? = some final) (hfinal : final.isDone) :
    (∃ after, queue.next = (none, after) ∧ statementPieces (pieces queue.rest) = []) ∨
      ∃ piece result after, queue.next = (some result, after) ∧ after.tokens = queue.tokens ∧
        after.rest.length < queue.rest.length ∧
        statementPieces (pieces queue.rest) = piece :: statementPieces (pieces after.rest) ∧
        result.toOption = ofPiece? final piece := by
  by_cases hend : Reader.atEnd (queue.rest.dropWhile isSemicolon)
  · refine .inl ⟨_, next_of_atEnd hend, ?_⟩
    rw [← statementPieces_dropWhile, pieces_of_atEnd hend]
    rfl
  right
  obtain ⟨piece, behind, happend, hskip, hpassed, hne, hpieces⟩ := exists_first_piece hend
  have hlength : behind.length < queue.rest.length := by
    have hdrop : (queue.rest.dropWhile isSemicolon).length ≤ queue.rest.length :=
      (List.dropWhile_suffix _).length_le
    have hpos : 0 < piece.length := List.length_pos_iff.2 hne
    rw [happend, List.length_append] at hdrop
    omega
  have hreads {statement : Statement} {rest : List Token} :
      reader (some final) (piece ++ behind) = .ok statement rest ↔
        ofPiece? final piece = some statement ∧ rest = behind :=
    reader_piece_eq_ok_iff hfinal hpassed hne
  cases hread : reader (some final) (piece ++ behind) with
  | ok statement rest =>
    obtain ⟨hpiece, rfl⟩ := hreads.1 hread
    have hnext := next_of_ok hend (by rw [hlast, happend, hread])
    exact ⟨piece, _, _, hnext, rfl, hlength, hpieces, hpiece.symm⟩
  | error fault rest =>
    have hnext := next_of_error hend (by rw [hlast, happend, hread])
    rw [happend, hskip] at hnext
    refine ⟨piece, _, _, hnext, rfl, hlength, hpieces, Eq.symm ?_⟩
    rw [Except.toOption, Option.eq_none_iff_forall_ne_some]
    intro statement hpiece
    rw [hreads.2 ⟨hpiece, rfl⟩] at hread
    cases hread

theorem run_spec {final : Token} {count : Nat} (hlast : queue.tokens.getLast? = some final)
    (hfinal : final.isDone) (hcount : queue.rest.length < count) :
    ((queue.run count).filterMap Prod.fst).map Except.toOption =
      (statementPieces (pieces queue.rest)).map (ofPiece? final) := by
  induction count generalizing queue with
  | zero => omega
  | succ count ih =>
    rw [run]
    rcases next_spec hlast hfinal with
      ⟨after, hnext, hpieces⟩ |
        ⟨piece, result, after, hnext, htokens, hlength, hpieces, hresult⟩
    · rw [hnext, hpieces]
      rfl
    · have ih := ih (htokens ▸ hlast) (by omega)
      rw [hnext, hpieces]
      simp [ih, hresult]

end

end StatementQueue

/-! ## Whole texts -/

namespace Statement

theorem ofTokens_spec {tokens : List Token} {final : Token} (hlast : tokens.getLast? = some final)
    (hfinal : final.isDone) :
    (ofTokens tokens).map Except.toOption = (statementPieces (pieces tokens)).map (ofPiece? final) := by
  have hqueue : (StatementQueue.ofTokens tokens).tokens.getLast? = some final := hlast
  exact StatementQueue.run_spec hqueue hfinal (Nat.lt_succ_self _)

/-- The words of a text, cut behind every semicolon and every string without an end, give one result
for each piece that is more than a semicolon: what the piece gives on its own. Lines are counted in
32 bits. With more of them than that, the piece with such a string ends where skipping does. -/
theorem ofTokens_ofText_pieces (text file : String) :
    ∃ words final, Token.ofText text file = words ++ [final] ∧ final.isDone ∧
      (∀ word ∈ words, ¬ word.isDone) ∧
      (ofTokens (Token.ofText text file)).map Except.toOption =
        (statementPieces (pieces (words ++ [final]))).map (ofPiece? final) ∧
      (text.toList.count '\n' < 2 ^ 32 - 1 →
        (ofTokens (Token.ofText text file)).map Except.toOption =
          (statementPieces (cutAfter isStop words)).map (ofPiece? final)) := by
  obtain ⟨words, final, htokens, hfinal, hwords⟩ := (Cursor.start text file).exists_tokens_concat
  have htext : Token.ofText text file = words ++ [final] := htokens
  have hspec : (ofTokens (Token.ofText text file)).map Except.toOption =
      (statementPieces (pieces (words ++ [final]))).map (ofPiece? final) := by
    rw [htext]
    exact ofTokens_spec List.getLast?_concat hfinal
  refine ⟨words, final, htext, hfinal, hwords, hspec, fun hcount => ?_⟩
  have hlines := Cursor.openStringsEndLines (Cursor.linesFit_start hcount) htokens hwords
  rw [hspec, pieces_concat hfinal hwords hlines]

/-- The string without an end takes the semicolon of its line, and the next line is read. -/
theorem ofTokens_ofText_pieces_openString :
    let text := "a + ;; 'b; c\nd: e; (f"
    text.toList.count '\n' < 2 ^ 32 - 1 ∧
      ∃ words final, Token.ofText text "s.scn" = words ++ [final] ∧
        (statementPieces (cutAfter isStop words)).map List.length = [3, 1, 4, 2] ∧
        (ofTokens (Token.ofText text "s.scn")).map Except.toOption =
          (statementPieces (cutAfter isStop words)).map (ofPiece? final) := by
  intro text
  have hcount : text.toList.count '\n' < 2 ^ 32 - 1 := by decide
  obtain ⟨words, final, htext, -, -, -, hpieces⟩ := ofTokens_ofText_pieces text "s.scn"
  refine ⟨hcount, words, final, htext, ?_, hpieces hcount⟩
  have hwords : words = (Token.ofText text "s.scn").dropLast := by rw [htext, List.dropLast_concat]
  rw [hwords]
  decide +kernel

theorem lexes_lastLine (file : String) :
    Lexes 1 file (List.replicate (2 ^ 32 - 2) '\n' ++ ['\'', 'a', '\n', 'x'])
      [word 4294967295 file (.fault .openString) ['\'', 'a'], word 0 file .name ['x'], word 0 file .done []] := by
  have hstring : IsLexeme (.fault .openString) ['\'', 'a'] ['\'', 'a'] ['\n', 'x'] :=
    ⟨⟨_, _, rfl, ⟨by decide, by decide⟩, rfl⟩, by decide⟩
  have hname : IsLexeme .name ['x'] ['x'] [] := ⟨⟨_, _, rfl, ⟨by decide, by decide⟩, rfl⟩, by decide⟩
  have hline : (1 : UInt32) + UInt32.ofNat ((List.replicate (2 ^ 32 - 2) '\n').count '\n') = 4294967295 := by
    rw [List.count_replicate_self]
    decide
  refine Lexes.spacing (isSpacing_newlines _) ?_
  rw [hline]
  exact (Lexes.newline (Lexes.nil.lexeme hname)).lexeme hstring

/-- With that many line breaks, the line behind the string is not a later one. Skipping passes the name too, though it
is a statement of its own. -/
theorem not_ofTokens_ofText_cutAfter :
    let text := String.ofList (List.replicate (2 ^ 32 - 2) '\n' ++ ['\'', 'a', '\n', 'x'])
    text.toList.count '\n' = 2 ^ 32 - 1 ∧
      ∃ words final, Token.ofText text "s.scn" = words ++ [final] ∧ final.isDone ∧
        (∀ word ∈ words, ¬ word.isDone) ∧
        (statementPieces (cutAfter isStop words)).map (ofPiece? final) = [none, some ⟨none, .var "x", 0⟩] ∧
        (ofTokens (Token.ofText text "s.scn")).map Except.toOption = [none] := by
  intro text
  have htext : text.toList = List.replicate (2 ^ 32 - 2) '\n' ++ ['\'', 'a', '\n', 'x'] := String.toList_ofList
  have htokens : Token.ofText text "s.scn" = [word 4294967295 "s.scn" (.fault .openString) ['\'', 'a'],
      word 0 "s.scn" .name ['x']] ++ [word 0 "s.scn" .done []] := by
    have hlexes := lexes_lastLine "s.scn" 0
    rw [← htext] at hlexes
    exact hlexes
  refine ⟨?_, _, _, htokens, rfl, by decide, rfl, ?_⟩
  · rw [htext, List.count_append, List.count_replicate_self]
    rfl
  · rw [htokens]
    rfl

end Statement

end ScenarioScript
