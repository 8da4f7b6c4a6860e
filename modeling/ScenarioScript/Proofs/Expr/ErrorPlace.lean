import ScenarioScript.Proofs.Expr.Local
import ScenarioScript.Proofs.Expr.Lookahead
import ScenarioScript.Proofs.Expr.Viable

/-!
# Where an error is reported

An error is reported at the first token with which no row of tokens can be an expression any more. All tokens before
it begin some expression.
-/

namespace ScenarioScript

namespace Expr

/-- How many tokens have been taken when reading them as one expression stops with an error. -/
def stopPosition? (tokens : List Token) : Option Nat :=
  match wholeReader tokens.getLast? tokens with
  | .ok _ _ => none
  | .error _ rest => some (tokens.length - rest.length)

/-! ## Whole expressions -/

section
variable {last : Option Token} {tokens rest : List Token} {fault : ParseFault}

theorem atEnd_congr {others : List Token} (h : others.head? = tokens.head?) :
    Reader.atEnd others = Reader.atEnd tokens := by
  cases tokens <;> cases others <;> simp_all [Reader.atEnd]

theorem finish_eq (e : Expr) (tokens : List Token) :
    (do
      unless Reader.atEnd (← get) do
        throw .trailingTokens
      return e : Reader Expr) tokens =
      Reader.ending (if Reader.atEnd tokens then .ok e else .error .trailingTokens) tokens := by
  change (if Reader.atEnd tokens then pure e else throw .trailingTokens >>= fun _ => pure e :
    Reader Expr) tokens = _
  cases Reader.atEnd tokens <;> rfl

theorem wholeReader_looks (hlast : ∀ token ∈ last, token.isDone) (otherLast : Option Token) :
    (wholeReader last).Looks (wholeReader otherLast) := by
  refine (reader_looks hlast otherLast).bind fun e tokens => ?_
  refine Reader.looksAt_of_ending _ (finish_eq e tokens) fun others hothers => ?_
  rw [← atEnd_congr hothers]
  exact finish_eq e others

theorem wholeReader_viable (hlast : ∀ token ∈ last, token.isDone) :
    (wholeReader last).Viable 0 .expression := by
  intro tokens fault rest h hfault
  cases hread : reader last tokens with
  | error fault' stop =>
    cases (wholeReader_error hread).symm.trans h
    exact (Grammar.ofBudget_viable hlast (Nat.zero_add maxDepth)).expression hread hfault
  | ok e middle =>
    obtain ⟨taken, rfl, he⟩ := reader_spells last (inSight_of_isDone hlast _) hread
    by_cases hend : Reader.atEnd middle
    · cases (wholeReader_ok hread hend).symm.trans h
    · cases (wholeReader_trailing hread hend).symm.trans h
      exact ⟨taken, [], e, rfl, by simpa using he⟩

end

/-! ## The tokens before an error -/

section
variable {tokens : List Token} {final : Token}

theorem ofTokens?_concat_of_error {rest : List Token} {fault : ParseFault}
    (h : wholeReader (some final) (tokens ++ [final]) = .error fault rest) :
    ofTokens? (tokens ++ [final]) = .error (.atToken fault (rest.head?.or (some final))) := by
  rw [← List.getLast?_concat (l := tokens)] at h ⊢
  exact ofTokens?_of_error h

theorem exists_of_ofTokens?_error {error : ParseError} (hfinal : final.isDone)
    (h : ofTokens? (tokens ++ [final]) = .error error) :
    ∃ fault rest, wholeReader (some final) (tokens ++ [final]) = .error fault rest ∧
      ∃ token ∈ tokens ++ [final], rest.head?.or (some final) = some token ∧ error = .atToken fault (some token) := by
  cases hread : wholeReader (some final) (tokens ++ [final]) with
  | ok e rest =>
    rw [← List.getLast?_concat (l := tokens)] at hread
    cases (ofTokens?_of_ok hread).symm.trans h
  | error fault rest =>
    cases (ofTokens?_concat_of_error hread).symm.trans h
    refine ⟨fault, rest, rfl, ?_⟩
    cases rest with
    | nil => exact ⟨final, by simp, rfl, rfl⟩
    | cons next behind =>
      obtain ⟨taken, htokens, -⟩ := wholeReader_looks (by simpa using hfinal) (some final) _ (.error fault) hread
      exact ⟨next, by simp [htokens], rfl, rfl⟩

theorem stopPosition?_of_error {taken rest : List Token} {fault : ParseFault}
    (happend : tokens ++ [final] = taken ++ rest)
    (h : wholeReader (some final) (tokens ++ [final]) = .error fault rest) :
    stopPosition? (tokens ++ [final]) = some taken.length := by
  unfold stopPosition?
  rw [List.getLast?_concat, h, happend]
  simp

theorem exists_back {taken more rest : List Token} {charge : Nat} {phrase : Phrase} (hfinal : final.isDone)
    (h : tokens ++ [final] = taken ++ rest) (hderives : Derives charge phrase (taken ++ more)) :
    ∃ back, tokens = taken ++ back ∧ rest = back ++ [final] := by
  rcases List.append_eq_append_iff.1 h with ⟨others, htaken, hrest⟩ | ⟨back, htokens, hrest⟩
  · cases others with
    | nil => exact ⟨[], by simpa using htaken.symm, by simpa using hrest.symm⟩
    | cons token others =>
      obtain ⟨rfl, -⟩ := List.cons.inj hrest
      have hmem : final ∈ taken ++ more := by simp [htaken]
      simp [Token.isDone_eq_false_of_isWord (hderives.isWord_of_mem final hmem)] at hfinal
  · exact ⟨back, htokens, hrest⟩

theorem atToken_of_ne_fault {fault : ParseFault} {token : Token} (h : ∀ lexical, token.kind ≠ .fault lexical) :
    ParseError.atToken fault (some token) = ⟨fault, token.describe, token.line, token.file⟩ := by
  unfold ParseError.atToken
  split
  · cases ‹some token = none›
  · cases ‹some token = some _›
    split
    · exact absurd ‹_› (h _)
    · rfl

theorem exists_place_of_error {error : ParseError} (hfinal : final.isDone)
    (hfaults : ∀ token ∈ tokens, ∀ lexical, token.kind ≠ .fault lexical)
    (h : ofTokens? (tokens ++ [final]) = .error error) (hdetail : error.detail ≠ "expression nested too deeply") :
    ∃ fault taken back token, tokens = taken ++ back ∧ (back ++ [final]).head? = some token ∧
      error = ⟨fault, token.describe, token.line, token.file⟩ ∧
      wholeReader (some final) (taken ++ (back ++ [final])) = .error fault (back ++ [final]) ∧
      ∃ more e, Derives 0 (.expression e) (taken ++ more) := by
  obtain ⟨fault, rest, hread, token, htoken, hat, rfl⟩ := exists_of_ofTokens?_error hfinal h
  have hkind : ∀ lexical, token.kind ≠ .fault lexical := by
    rcases List.mem_append.1 htoken with htoken | htoken
    · exact hfaults token htoken
    · obtain rfl := List.mem_singleton.1 htoken
      simp [of_decide_eq_true hfinal]
  rw [atToken_of_ne_fault hkind] at hdetail ⊢
  have hdeep : fault ≠ .tooDeep := by
    rintro rfl
    exact hdetail rfl
  obtain ⟨taken, more, e, happend, hderives⟩ := wholeReader_viable (by simpa using hfinal) hread hdeep
  obtain ⟨back, rfl, rfl⟩ := exists_back hfinal happend hderives
  refine ⟨fault, taken, back, token, rfl, ?_, rfl, happend ▸ hread, more, e, hderives⟩
  rw [← hat]
  cases back <;> rfl

/-- With some tokens behind them these tokens are an expression. -/
def ViablePrefix (final : Token) (tokens : List Token) : Prop :=
  ∃ more e, ofTokens? (tokens ++ more ++ [final]) = .ok e

theorem viablePrefix_of_derives {more : List Token} {e : Expr} (hfinal : final.isDone)
    (h : Derives 0 (.expression e) (tokens ++ more)) : ViablePrefix final tokens :=
  have hmore : ∀ token ∈ tokens ++ more, ¬ token.isDone := fun token htoken => by
    simp [Token.isDone_eq_false_of_isWord (h.isWord_of_mem token htoken)]
  ⟨more, e, (ofTokens?_concat hfinal hmore).2 h⟩

/-- The reader that stops at a token has seen none behind it, so that the token is wrong with any of them. -/
theorem not_viablePrefix_of_error {last : Option Token} {taken behind : List Token} {next other : Token}
    {fault : ParseFault} (hlast : ∀ token ∈ last, token.isDone)
    (h : wholeReader last (taken ++ next :: behind) = .error fault (next :: behind)) :
    ¬ ViablePrefix other (taken ++ [next]) := by
  rintro ⟨more, e, hok⟩
  obtain ⟨front, hfront, hmore⟩ := wholeReader_looks hlast (some other) _ (.error fault) h
  obtain rfl := List.append_cancel_right hfront
  have hread : wholeReader (some other) (taken ++ [next] ++ more ++ [other]) =
      .error fault (next :: (more ++ [other])) := by simpa [Reader.ending] using hmore (more ++ [other])
  cases (ofTokens?_concat_of_error hread).symm.trans hok

theorem exists_error_before_fault {front : List Token} {faulty : Token} {lexical : LexicalFault}
    (last : Option Token) (back : List Token) (hfront : ∀ token ∈ front, ¬ token.isDone)
    (hfaulty : faulty.kind = .fault lexical) :
    ∃ fault more, more <:+ front ∧
      wholeReader last (front ++ faulty :: back) = .error fault (more ++ faulty :: back) := by
  have hword : faulty.isWord = false := by simp [Token.isWord, hfaulty]
  rcases reader_local last hword front with ⟨e, more, hmore, hread⟩ | ⟨fault, more, hmore, hread⟩
  · refine ⟨.trailingTokens, more, hmore, wholeReader_trailing (hread back) ?_⟩
    cases more with
    | nil => simp [Reader.atEnd, Token.isDone, hfaulty]
    | cons token more => simpa [Reader.atEnd] using hfront token (hmore.subset (by simp))
  · exact ⟨fault, more, hmore, wholeReader_error (hread back)⟩

end

/-- Where there is no faulty token, an error stands at the first token with which no row of tokens is an expression any
more. Where there is one, there is an error no later than at the first. -/
theorem ofTokens?_stops (tokens : List Token) (final : Token) (hfinal : final.isDone)
    (htokens : ∀ token ∈ tokens, ¬ token.isDone) :
    (∀ error, ofTokens? (tokens ++ [final]) = .error error →
      (∀ token ∈ tokens, ∀ lexical, token.kind ≠ .fault lexical) → error.detail ≠ "expression nested too deeply" →
      ∃ index token, stopPosition? (tokens ++ [final]) = some index ∧ (tokens ++ [final])[index]? = some token ∧
        error.token = token.describe ∧ error.line = token.line ∧
        ∀ other, other.isDone → ViablePrefix other (tokens.take index) ∧
          (index < tokens.length → ¬ ViablePrefix other (tokens.take (index + 1)))) ∧
    ∀ front faulty back lexical, tokens = front ++ faulty :: back → faulty.kind = .fault lexical →
      ∃ error index, ofTokens? (tokens ++ [final]) = .error error ∧
        stopPosition? (tokens ++ [final]) = some index ∧ index ≤ front.length := by
  constructor
  · intro error herror hfaults hdetail
    obtain ⟨fault, taken, back, token, rfl, htoken, rfl, hread, more, e, hderives⟩ :=
      exists_place_of_error hfinal hfaults herror hdetail
    have happend : taken ++ back ++ [final] = taken ++ (back ++ [final]) := List.append_assoc ..
    refine ⟨taken.length, token, stopPosition?_of_error happend (happend ▸ hread), ?_, rfl, rfl, ?_⟩
    · rw [happend, List.getElem?_append_right (Nat.le_refl _), Nat.sub_self, ← List.head?_eq_getElem?, htoken]
    intro other hother
    constructor
    · rw [List.take_left]
      exact viablePrefix_of_derives hother hderives
    · intro hlt
      cases back with
      | nil => simp at hlt
      | cons next behind =>
        rw [List.take_length_add_append, List.take_one, List.head?_cons]
        exact not_viablePrefix_of_error (by simpa using hfinal) hread
  · rintro front faulty back lexical rfl hfaulty
    have hfront : ∀ token ∈ front, ¬ token.isDone := fun token htoken => htokens token (by simp [htoken])
    have happend : front ++ faulty :: back ++ [final] = front ++ faulty :: (back ++ [final]) := by simp
    obtain ⟨fault, more, ⟨taken, rfl⟩, hread⟩ :=
      exists_error_before_fault (some final) (back ++ [final]) hfront hfaulty
    rw [← happend] at hread
    exact ⟨_, taken.length, ofTokens?_concat_of_error hread, stopPosition?_of_error (by simp) hread, by simp⟩

/-- `f(a ? b, c)` is wrong at its comma, and `a @ b` no later than at the character `@`. -/
theorem ofTokens?_stops_comma :
    let name (text : String) : Token := ⟨.name, .ofString text, 1, "s.scn"⟩
    let sign (symbol : Symbol) : Token := ⟨.symbol symbol, .ofString symbol.text, 1, "s.scn"⟩
    let final : Token := ⟨.done, .ofString "", 1, "s.scn"⟩
    let faulty : Token := ⟨.fault .strangeCharacter, .ofString "@", 1, "s.scn"⟩
    let tokens := [name "f", sign .openParen, name "a", sign .question, name "b", sign .comma, name "c",
      sign .closeParen]
    ViablePrefix final (tokens.take 5) ∧ ¬ ViablePrefix final (tokens.take 6) ∧
      ∃ index, stopPosition? [name "a", faulty, name "b", final] = some index ∧ index ≤ 1 := by
  intro name sign final faulty tokens
  have hfaults : ∀ token ∈ tokens, ∀ lexical, token.kind ≠ .fault lexical := by simp [tokens, name, sign]
  obtain ⟨index, token, hindex, -, -, -, hviable⟩ := (ofTokens?_stops tokens final rfl (by decide)).1
    ⟨.missingColon, (sign .comma).describe, 1, "s.scn"⟩ rfl hfaults (by decide)
  have hcomma : stopPosition? (tokens ++ [final]) = some 5 := rfl
  obtain rfl := Option.some.inj (hcomma.symm.trans hindex)
  obtain ⟨hbefore, hnot⟩ := hviable final rfl
  obtain ⟨error, place, -, hplace, hle⟩ := (ofTokens?_stops [name "a", faulty, name "b"] final rfl (by decide)).2
    [name "a"] faulty [name "b"] .strangeCharacter rfl rfl
  exact ⟨hbefore, hnot (by decide), place, hplace, hle⟩

end Expr

end ScenarioScript
