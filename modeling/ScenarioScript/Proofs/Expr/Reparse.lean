import ScenarioScript.Proofs.Expr.RoundTrip

/-!
# Printing what has been read

A text gives only numbers and names that can be printed, so a tree that was read has a text of its
own. It can need more levels than the text it was read from, where operators and parentheses were
fewer.
-/

namespace ScenarioScript

/-! ## Tokens of a text -/

/-- Numbers are finite and without a sign, names are names. -/
structure Token.IsPrintable (token : Token) : Prop where
  number : ∀ x, token.kind = .number x → x.isFinite ∧ Number.isNegative x = false
  name : token.kind = .name → IsName token.text.toString.toList

theorem readLexeme_number_spec {c : Char} {text : List Char} {x : Float}
    (h : (readLexeme c text).kind = .number x) : x.isFinite ∧ Number.isNegative x = false := by
  unfold readLexeme at h
  split at h
  · rename_i hdigit
    obtain ⟨more, hmore⟩ := exists_spanNumber_cons hdigit text
    rcases numberKind_cases (spanNumber (c :: text)).1 with ⟨y, hkind, hvalue⟩ | hkind
    · obtain rfl : y = x := TokenKind.number.inj (hkind.symm.trans h)
      rw [hmore] at hvalue
      exact Number.numberValue?_spec hdigit hvalue
    · cases hkind.symm.trans h
  split at h
  · dsimp only at h
    split at h <;> cases h
  split at h
  · cases h
  split at h <;> cases h

theorem readLexeme_name_spec {c : Char} {text : List Char} (h : (readLexeme c text).kind = .name) :
    IsName (readLexeme c text).content := by
  unfold readLexeme at h ⊢
  split at h
  · rcases numberKind_cases (spanNumber (c :: text)).1 with ⟨x, hkind, -⟩ | hkind <;> cases hkind.symm.trans h
  rename_i hdigit
  split at h
  · dsimp only at h
    split at h <;> cases h
  rename_i hquote
  split at h
  · rename_i hname
    rw [if_neg hdigit, if_neg hquote, if_pos hname]
    exact ⟨c, _, rfl, hname, List.all_takeWhile⟩
  split at h <;> cases h

theorem Cursor.isPrintable_next (cursor : Cursor) : cursor.next.1.IsPrintable := by
  cases hrest : cursor.skipGap.rest with
  | nil =>
    rw [next_of_nil hrest]
    exact ⟨fun x h => (nomatch h), fun h => (nomatch h)⟩
  | cons c text =>
    rw [next_of_cons hrest]
    refine ⟨fun x h => readLexeme_number_spec h, fun h => ?_⟩
    change IsName (StoredText.ofString _).toString.toList
    rw [StoredText.toString_ofString, String.toList_ofList]
    exact readLexeme_name_spec h

theorem Cursor.isPrintable_of_mem_tokens (cursor : Cursor) : ∀ token ∈ cursor.tokens, token.IsPrintable := by
  induction cursor using tokens_induction with
  | done cursor hdone => simpa using cursor.isPrintable_next
  | more cursor hdone ih => exact List.forall_mem_cons.2 ⟨cursor.isPrintable_next, ih⟩

/-! ## Trees of a text -/

def Phrase.Printable : Phrase → Prop
  | .expression e | .chain _ e | .joined _ _ _ e | .operand e => e.Printable
  | .arguments args => Expr.AllPrintable args

theorem Derives.printable {charge : Nat} {phrase : Phrase} {tokens : List Token}
    (h : Derives charge phrase tokens) (htokens : ∀ token ∈ tokens, token.IsPrintable) :
    phrase.Printable := by
  induction h with
  | number htoken => exact (htokens _ List.mem_cons_self).number _ htoken
  | string htoken => exact trivial
  | var htoken => exact (htokens _ List.mem_cons_self).name htoken
  | call hname hopening hcharge hargs hclosing ih =>
    simp only [List.forall_mem_cons, List.forall_mem_append] at htokens
    exact ⟨htokens.1.name hname, ih htokens.2.2.1⟩
  | parenthesis hopening hcharge he hclosing ih =>
    simp only [List.forall_mem_cons, List.forall_mem_append] at htokens
    exact ih htokens.2.1
  | noArguments => exact trivial
  | lastArgument he ih => exact ⟨ih htokens, trivial⟩
  | argument he hcomma hargs ihe ihargs =>
    simp only [List.forall_mem_cons, List.forall_mem_append] at htokens
    exact ⟨ihe htokens.1, ihargs htokens.2.2⟩
  | operand he ih | first he ih | chain he ih | plain he ih => exact ih htokens
  | unary htoken hcharge he ih => exact ih (List.forall_mem_cons.1 htokens).2
  | next hleft htoken hcharge hright ihleft ihright =>
    simp only [List.forall_mem_cons, List.forall_mem_append] at htokens
    exact ⟨ihleft htokens.1, ihright htokens.2.2⟩
  | conditional hcondition hquestion hcharge hyes hcolon hno ihc ihy ihn =>
    simp only [List.forall_mem_cons, List.forall_mem_append] at htokens
    exact ⟨ihc htokens.1, ihy htokens.2.2.1, ihn htokens.2.2.2.2⟩

namespace Expr

section
variable {text file : String} {e : Expr}

theorem exists_words_of_parse (h : parse text file = .ok e) :
    ∃ words final, Token.ofText text file = words ++ [final] ∧ final.isDone ∧ Derives 0 (.expression e) words := by
  obtain ⟨words, final, htokens, hfinal, hwords⟩ := (Cursor.start text file).exists_tokens_concat
  have htext : Token.ofText text file = words ++ [final] := htokens
  rw [parse, htext] at h
  exact ⟨words, final, htext, hfinal, (ofTokens?_concat hfinal hwords).1 h⟩

theorem exists_derives_of_parse (h : parse text file = .ok e) :
    ∃ words, Derives 0 (.expression e) words ∧ ∀ word ∈ words, word ∈ Token.ofText text file := by
  obtain ⟨words, final, htext, -, he⟩ := exists_words_of_parse h
  exact ⟨words, he, fun word hword => by simp [htext, hword]⟩

theorem printable_of_parse (h : parse text file = .ok e) : e.Printable := by
  obtain ⟨words, he, hwords⟩ := exists_derives_of_parse h
  have hprint := (Cursor.start text file).isPrintable_of_mem_tokens
  exact he.printable fun word hword => hprint word (hwords word hword)

/-- A tree that was read reads back from its own text just if it needs no more levels than there
are. What the text it was read from needed does not matter. -/
theorem reparse_iff (h : parse text file = .ok e) (other : String) :
    (parse e.render other = .ok e ↔ e.need ≤ maxDepth) ∧
      (maxDepth < e.need → ∃ error, parse e.render other = .error error ∧ error.isLexical = false ∧
        error.detail = "expression nested too deeply") := by
  have hprint := printable_of_parse h
  refine ⟨⟨fun hread => ?_, parse_render_of_le hprint other⟩, parse_render_of_lt hprint other⟩
  by_contra hneed
  obtain ⟨error, herror, -⟩ := parse_render_of_lt hprint other (Nat.not_le.1 hneed)
  rw [hread] at herror
  cases herror

theorem exists_of_need {levels : Nat} (h : (parse text file).toOption.map need = some levels) :
    ∃ e, parse text file = .ok e ∧ e.need = levels := by
  cases hread : parse text file with
  | error error =>
    rw [hread] at h
    cases h
  | ok e =>
    rw [hread] at h
    exact ⟨e, rfl, Option.some.inj h⟩

theorem reparse_iff_conditional :
    let text := "a || b ? -f(c, d) : a"
    ∃ e, parse text "s.scn" = .ok e ∧ parse e.render "s.scn" = .ok e := by
  intro text
  have hlevels : (parse text "s.scn").toOption.map need = some 5 := by decide +kernel
  obtain ⟨e, hread, hneed⟩ := exists_of_need hlevels
  have hle : e.need ≤ maxDepth := by
    rw [hneed]
    decide
  exact ⟨e, hread, (reparse_iff hread "s.scn").1.2 hle⟩

/-- `x + x + ... + x` with 64 operators, as many as a text may have in a row. In print each of them is
between parentheses of its own, and the first one takes a level behind them all. -/
theorem not_reparse_sum :
    let text := " + ".intercalate (List.replicate 65 "x")
    ∃ e error, parse text "s.scn" = .ok e ∧ parse e.render "s.scn" = .error error ∧
      error.detail = "expression nested too deeply" := by
  intro text
  have hlevels : (parse text "s.scn").toOption.map need = some 65 := by decide +kernel
  obtain ⟨e, hread, hneed⟩ := exists_of_need hlevels
  have hdeep : maxDepth < e.need := by
    rw [hneed]
    decide
  obtain ⟨error, herror, -, hdetail⟩ := parse_render_of_lt (printable_of_parse hread) "s.scn" hdeep
  exact ⟨e, error, hread, herror, hdetail⟩

end

end Expr

end ScenarioScript
