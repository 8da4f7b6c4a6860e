import ScenarioScript.Proofs.Expr.Local
import ScenarioScript.Proofs.Statement.Recovery

/-!
# What a piece is reported as

A piece gives its statement or its error, and no token behind the piece has a part in either. An error
is at a token of the piece.
-/

namespace ScenarioScript

namespace Statement

/-! ## Reports -/

def report (last : Option Token) :
    EStateM.Result ParseFault (List Token) Statement → Except ParseError Statement
  | .ok statement _ => .ok statement
  | .error fault rest => .error (.atToken fault (rest.head?.or last))

/-- What a piece is reported as on its own before the end of a text. -/
def outcome (final : Token) (piece : List Token) : Except ParseError Statement :=
  report (some final) (reader (some final) (piece ++ [final]))

def resultLine : Except ParseError Statement → UInt32
  | .ok statement => statement.line
  | .error error => error.line

theorem atToken_line (fault : ParseFault) (token : Token) :
    (ParseError.atToken fault (some token)).line = token.line := by
  unfold ParseError.atToken
  split
  · cases ‹some token = none›
  · cases ‹some token = some _›
    split <;> rfl

/-- A statement is reported where it starts, and an error where reading had to stop. -/
def ReportedAt (token : Token) : Except ParseError Statement → Prop
  | .ok statement => statement.line = token.line
  | .error error => ∃ fault, error = .atToken fault (some token)

theorem ReportedAt.line {token : Token} {result : Except ParseError Statement} (h : ReportedAt token result) :
    resultLine result = token.line := by
  cases result with
  | ok statement => exact h
  | error error =>
    obtain ⟨fault, rfl⟩ := h
    exact atToken_line fault token

/-! ## Pieces with a stop -/

section
variable {last : Option Token} {stop : Token} {front : List Token}

theorem readBody_of_ok {label : Option String} {line : UInt32} {tokens rest : List Token} {e : Expr}
    {token : Token} (h : Expr.reader last tokens = .ok e (token :: rest)) :
    report last (readBody last label line tokens) =
      if isSemicolon token || token.isDone then .ok ⟨label, e, line⟩
      else .error (.atToken .missingSemicolon (some token)) := by
  unfold readBody
  rw [Reader.bind_of_ok h]
  by_cases hsemicolon : isSemicolon token
  · rw [Reader.bind_of_ok (Reader.accept_of_kind (isSemicolon_iff.1 hsemicolon)), hsemicolon]
    rfl
  · have hbegins : ¬ Begins .semicolon (token :: rest) := by
      rwa [begins_cons, ← isSemicolon_iff]
    rw [Reader.bind_of_ok (Reader.accept_of_not_begins hbegins)]
    change report last ((if Reader.atEnd (token :: rest) then pure ⟨label, e, line⟩
      else throw .missingSemicolon >>= fun _ => pure ⟨label, e, line⟩ : Reader Statement) (token :: rest)) = _
    by_cases hdone : token.isDone
    · have hend : Reader.atEnd (token :: rest) := hdone
      rw [if_pos hend, if_pos (by simp [hdone])]
      rfl
    · have hend : ¬ Reader.atEnd (token :: rest) := hdone
      rw [if_neg hend, if_neg (by simp [hsemicolon, hdone])]
      rfl

theorem splitLabel_append_stop (hstop : stop.isWord = false) (behind : List Token) :
    splitLabel (front ++ stop :: behind) = ((splitLabel front).1, (splitLabel front).2 ++ stop :: behind) := by
  apply splitLabel_append_of_kind
  rintro token ⟨⟩
  constructor <;> intro hkind <;> simp [Token.isWord, hkind] at hstop

theorem head_append_stop (stop : Token) {more : List Token} (hmore : more <:+ front) :
    ∃ token ∈ front ++ [stop], ∀ behind, ∃ rest, more ++ stop :: behind = token :: rest := by
  cases more with
  | nil => exact ⟨stop, by simp, fun behind => ⟨behind, rfl⟩⟩
  | cons token more =>
    exact ⟨token, List.mem_append_left _ (hmore.subset List.mem_cons_self), fun behind => ⟨_, rfl⟩⟩

theorem exists_report (last : Option Token) (hstop : stop.isWord = false) (front : List Token) :
    ∃ result, (∀ behind, report last (reader last (front ++ stop :: behind)) = result) ∧
      ∃ token ∈ front ++ [stop], ReportedAt token result := by
  obtain ⟨first, hfirst, hhead⟩ := head_append_stop stop (List.suffix_refl front)
  have hline (behind : List Token) : firstLine last (front ++ stop :: behind) = first.line := by
    obtain ⟨rest, hrest⟩ := hhead behind
    rw [hrest]
    rfl
  have hreader (behind : List Token) : reader last (front ++ stop :: behind) =
      readBody last (splitLabel front).1 first.line ((splitLabel front).2 ++ stop :: behind) := by
    rw [reader_eq, splitLabel_append_stop hstop, hline]
  rcases Expr.reader_local last hstop (splitLabel front).2 with
    ⟨e, more, hmore, hread⟩ | ⟨fault, more, hmore, hread⟩
  all_goals obtain ⟨token, htoken, hhead⟩ := head_append_stop stop (hmore.trans (splitLabel_suffix front))
  · refine ⟨if isSemicolon token || token.isDone then .ok ⟨(splitLabel front).1, e, first.line⟩
      else .error (.atToken .missingSemicolon (some token)), fun behind => ?_, ?_⟩
    · obtain ⟨rest, hrest⟩ := hhead behind
      rw [hreader, readBody_of_ok ((hread behind).trans (by rw [hrest]))]
    · split
      · exact ⟨first, hfirst, rfl⟩
      · exact ⟨token, htoken, _, rfl⟩
  · refine ⟨.error (.atToken fault (some token)), fun behind => ?_, token, htoken, _, rfl⟩
    obtain ⟨rest, hrest⟩ := hhead behind
    rw [hreader, readBody, Reader.bind_of_error (hread behind), hrest]
    rfl

end

section
variable {final : Token} {piece : List Token}

theorem isWord_of_isStop {stop : Token} (h : isStop stop) : stop.isWord = false := by
  rw [isStop, Bool.or_eq_true, isSemicolon_iff, decide_eq_true_eq] at h
  rcases h with h | h <;> simp [Token.isWord, h]

theorem exists_stop {piece : List Token} (h : ∃ token ∈ piece, isStop token) :
    ∃ front stop more, piece = front ++ stop :: more ∧ stop.isWord = false := by
  obtain ⟨stop, hmem, hstop⟩ := h
  obtain ⟨front, more, rfl⟩ := List.append_of_mem hmem
  exact ⟨front, stop, more, rfl, isWord_of_isStop hstop⟩

/-- A piece that skipping passes is reported where it stands as it is alone. -/
theorem report_piece {behind : List Token} (hpassed : Passed none behind piece)
    (hend : Reader.atEnd behind → behind = [final]) :
    report (some final) (reader (some final) (piece ++ behind)) = outcome final piece := by
  have of_stop (h : ∃ token ∈ piece, isStop token) :
      report (some final) (reader (some final) (piece ++ behind)) = outcome final piece := by
    obtain ⟨front, stop, more, rfl, hstop⟩ := exists_stop h
    obtain ⟨result, hresult, -⟩ := exists_report (some final) hstop front
    simp only [outcome, List.append_assoc, List.cons_append, hresult]
  cases hpassed with
  | @semicolon inner semicolon hinner hsemicolon => exact of_stop ⟨semicolon, by simp, by simp [isStop, hsemicolon]⟩
  | toEnd hinner hatEnd => rw [hend hatEnd, outcome]
  | openString hinner hopen =>
    obtain ⟨token, htoken, hfault⟩ := hopen.resolve_left (by simp)
    exact of_stop ⟨token, htoken, by simp [isStop, hfault]⟩

theorem outcome_reportedAt (h : ∃ token ∈ piece, isStop token) :
    ∃ token ∈ piece, ReportedAt token (outcome final piece) := by
  obtain ⟨front, stop, more, rfl, hstop⟩ := exists_stop h
  obtain ⟨result, hresult, token, htoken, hreported⟩ := exists_report (some final) hstop front
  refine ⟨token, ?_, ?_⟩
  · simp only [List.mem_append, List.mem_cons, List.not_mem_nil, or_false] at htoken ⊢
    tauto
  · rwa [outcome, List.append_assoc, List.cons_append, hresult]

theorem outcome_line (h : ∃ token ∈ piece, isStop token) :
    ∃ token ∈ piece, resultLine (outcome final piece) = token.line :=
  let ⟨token, htoken, hreported⟩ := outcome_reportedAt h
  ⟨token, htoken, hreported.line⟩

end

end Statement

/-! ## Reading on -/

namespace StatementQueue

open Statement

theorem next_report {queue : StatementQueue} (hend : ¬ Reader.atEnd (queue.rest.dropWhile isSemicolon)) :
    queue.next.1 = some (report queue.tokens.getLast?
      (reader queue.tokens.getLast? (queue.rest.dropWhile isSemicolon))) := by
  cases h : reader queue.tokens.getLast? (queue.rest.dropWhile isSemicolon) with
  | ok statement rest => rw [next_of_ok hend h, report]
  | error fault rest => rw [next_of_error hend h, report]

section
variable {queue : StatementQueue} {final : Token} {words : List Token}

theorem next_behind {piece behind : List Token} (hlast : queue.tokens.getLast? = some final)
    (hfinal : final.isDone) (hend : ¬ Reader.atEnd (queue.rest.dropWhile isSemicolon))
    (happend : queue.rest.dropWhile isSemicolon = piece ++ behind) (hskip : skip none (piece ++ behind) = behind)
    (hpassed : Passed none behind piece) (hne : piece ≠ []) :
    queue.next.2.tokens = queue.tokens ∧ queue.next.2.rest = behind := by
  cases hread : reader (some final) (piece ++ behind) with
  | ok statement rest =>
    rw [next_of_ok hend (by rw [hlast, happend, hread])]
    exact ⟨rfl, ((reader_piece_eq_ok_iff hfinal hpassed hne).1 hread).2⟩
  | error fault rest =>
    rw [next_of_error hend (by rw [hlast, happend, hread])]
    exact ⟨rfl, happend ▸ hskip⟩

theorem exists_words_behind {piece behind : List Token} (hfinal : final.isDone)
    (hwords : ∀ word ∈ words, ¬ word.isDone) (hsuffix : piece ++ behind <:+ words ++ [final])
    (hpiece : ∀ token ∈ piece, ¬ token.isDone) (hne : piece ≠ []) :
    ∃ more, behind = more ++ [final] ∧ ∀ word ∈ more, ¬ word.isDone := by
  obtain ⟨front, hfront⟩ := hsuffix
  rcases List.eq_nil_or_concat' behind with rfl | ⟨more, other, rfl⟩
  · obtain ⟨inner, other, rfl⟩ := (List.eq_nil_or_concat' piece).resolve_left hne
    have hall : (front ++ inner) ++ [other] = words ++ [final] := by simpa using hfront
    obtain rfl := List.singleton_inj.1 (List.append_inj' hall rfl).2
    exact absurd hfinal (hpiece other (by simp))
  · have hall : (front ++ piece ++ more) ++ [other] = words ++ [final] := by simpa using hfront
    obtain ⟨rfl, hother⟩ := List.append_inj' hall rfl
    obtain rfl := List.singleton_inj.1 hother
    exact ⟨more, rfl, fun word hword => hwords word (List.mem_append_right _ hword)⟩

theorem next_outcome (hlast : queue.tokens.getLast? = some final) (hfinal : final.isDone)
    (hrest : queue.rest = words ++ [final]) (hwords : ∀ word ∈ words, ¬ word.isDone) :
    (∃ after, queue.next = (none, after) ∧ statementPieces (pieces queue.rest) = []) ∨
      ∃ piece after more, queue.next = (some (outcome final piece), after) ∧ after.tokens = queue.tokens ∧
        after.rest = more ++ [final] ∧ (∀ word ∈ more, ¬ word.isDone) ∧
        after.rest.length < queue.rest.length ∧
        statementPieces (pieces queue.rest) = piece :: statementPieces (pieces after.rest) := by
  by_cases hend : Reader.atEnd (queue.rest.dropWhile isSemicolon)
  · refine .inl ⟨_, next_of_atEnd hend, ?_⟩
    rw [← statementPieces_dropWhile, pieces_of_atEnd hend]
    rfl
  right
  obtain ⟨piece, behind, happend, hskip, hpassed, hne, hpieces⟩ := exists_first_piece hend
  have hsuffix : piece ++ behind <:+ words ++ [final] := by
    rw [← happend, ← hrest]
    exact List.dropWhile_suffix _
  obtain ⟨more, rfl, hmore⟩ := exists_words_behind hfinal hwords hsuffix hpassed.not_isDone hne
  obtain ⟨htokens, hafter⟩ := next_behind hlast hfinal hend happend hskip hpassed hne
  have hatEnd : Reader.atEnd (more ++ [final]) → more ++ [final] = [final] := by
    cases more with
    | nil => simp
    | cons word more => exact fun hdone => absurd hdone (hmore word List.mem_cons_self)
  have hlength : (more ++ [final]).length < queue.rest.length := by
    have hle := hsuffix.length_le
    have hpos := List.length_pos_iff.2 hne
    rw [← hrest, List.length_append] at hle
    omega
  have hreport := next_report hend
  rw [hlast, happend, report_piece hpassed hatEnd] at hreport
  refine ⟨piece, queue.next.2, more, Prod.ext hreport rfl, htokens, hafter, hmore, ?_, ?_⟩
  · rwa [hafter]
  · rw [hafter, hpieces]

theorem run_outcomes {count : Nat} (hlast : queue.tokens.getLast? = some final) (hfinal : final.isDone)
    (hrest : queue.rest = words ++ [final]) (hwords : ∀ word ∈ words, ¬ word.isDone)
    (hcount : queue.rest.length < count) :
    (queue.run count).filterMap Prod.fst = (statementPieces (pieces queue.rest)).map (outcome final) := by
  induction count generalizing queue words with
  | zero => omega
  | succ count ih =>
    rw [run]
    rcases next_outcome hlast hfinal hrest hwords with
      ⟨after, hnext, hpieces⟩ | ⟨piece, after, more, hnext, htokens, hmore, hmoreWords, hlength, hpieces⟩
    · rw [hnext, hpieces]
      rfl
    · have ih := ih (htokens ▸ hlast) hmore hmoreWords (by omega)
      rw [hnext, hpieces]
      simp [ih]

end

end StatementQueue

namespace Statement

theorem ofTokens_outcomes {words : List Token} {final : Token} (hfinal : final.isDone)
    (hwords : ∀ word ∈ words, ¬ word.isDone) :
    ofTokens (words ++ [final]) = (statementPieces (pieces (words ++ [final]))).map (outcome final) := by
  have hlast : (StatementQueue.ofTokens (words ++ [final])).tokens.getLast? = some final := List.getLast?_concat
  exact StatementQueue.run_outcomes hlast hfinal rfl hwords (Nat.lt_succ_self _)

theorem exists_places {words : List Token} {final : Token} (hfinal : final.isDone)
    (hwords : ∀ word ∈ words, ¬ word.isDone) : ∃ places, places.Sublist (words ++ [final]) ∧
      List.Forall₂ ReportedAt places ((statementPieces (pieces (words ++ [final]))).map (outcome final)) := by
  -- only the last piece can be reported at the end, so the reports are in the order of the tokens
  induction hlength : words.length using Nat.strongRecOn generalizing words with
  | _ length ih =>
    subst hlength
    by_cases hend : Reader.atEnd ((words ++ [final]).dropWhile isSemicolon)
    · refine ⟨[], List.nil_sublist _, ?_⟩
      rw [← statementPieces_dropWhile, pieces_of_atEnd hend]
      exact .nil
    obtain ⟨piece, behind, happend, -, hpassed, hne, hpieces⟩ := exists_first_piece hend
    have hsuffix : piece ++ behind <:+ words ++ [final] := happend ▸ List.dropWhile_suffix _
    obtain ⟨more, rfl, hmore⟩ :=
      StatementQueue.exists_words_behind hfinal hwords hsuffix hpassed.not_isDone hne
    rw [hpieces, List.map_cons]
    have hstopped (h : ∃ token ∈ piece, isStop token) : ∃ places, places.Sublist (words ++ [final]) ∧
        List.Forall₂ ReportedAt places
          (outcome final piece :: (statementPieces (pieces (more ++ [final]))).map (outcome final)) := by
      obtain ⟨token, htoken, hreported⟩ : ∃ token ∈ piece, ReportedAt token (outcome final piece) :=
        outcome_reportedAt h
      have hlt : more.length < words.length := by
        have hle := hsuffix.length_le
        have hpos := List.length_pos_iff.2 hne
        simp only [List.length_append] at hle
        omega
      obtain ⟨places, hplaces, hall⟩ := ih more.length hlt hmore rfl
      exact ⟨token :: places, ((List.singleton_sublist.2 htoken).append hplaces).trans hsuffix.sublist,
        .cons hreported hall⟩
    cases hpassed with
    | @semicolon inner semicolon hinner hsemicolon =>
      exact hstopped ⟨semicolon, by simp, by simp [isStop, hsemicolon]⟩
    | toEnd hinner hatEnd =>
      have hfinalWord : final.isWord = false := by
        by_contra hword
        simp [Token.isDone_eq_false_of_isWord (Bool.not_eq_false _ ▸ hword)] at hfinal
      obtain ⟨result, hresult, token, htoken, hreported⟩ := exists_report (some final) hfinalWord piece
      refine ⟨[token], ?_, ?_⟩
      · have hmem : [token].Sublist (piece ++ [final]) := List.singleton_sublist.2 htoken
        exact hmem.trans (((List.Sublist.refl piece).append (List.sublist_append_right more _)).trans hsuffix.sublist)
      · rw [pieces_of_atEnd hatEnd]
        refine .cons ?_ .nil
        rwa [outcome, hresult]
    | openString hinner hopen =>
      obtain ⟨token, htoken, hfault⟩ := hopen.resolve_left (by simp)
      exact hstopped ⟨token, htoken, by simp [isStop, hfault]⟩

end Statement

end ScenarioScript
