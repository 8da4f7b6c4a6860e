import ScenarioScript.Proofs.Expr.Completeness

/-!
# The grammar

Reading accepts exactly what the grammar derives, with the tree that it derives.
-/

namespace ScenarioScript

namespace Derives

theorem unique {charge : Nat} {tokens : List Token} {e e' : Expr} (hcharge : charge ≤ maxDepth)
    (h : Derives charge (.expression e) tokens) (h' : Derives charge (.expression e') tokens) :
    e = e' := by
  have hbudget : charge + (maxDepth - charge) = maxDepth := by omega
  have hend : EndsExpression [] := endsExpression_of_atEnd rfl
  have hread := h.readsBack none hbudget [] hend
  rw [h'.readsBack none hbudget [] hend] at hread
  cases hread
  rfl

end Derives

namespace Expr

/-! ## The reader of expressions -/

theorem reader_spells (last : Option Token) : (reader last).Spells last 0 .expression :=
  (Grammar.ofBudget_sound last (Nat.zero_add maxDepth)).expression

theorem reader_append {last : Option Token} {tokens rest : List Token} {e : Expr}
    (h : Derives 0 (.expression e) tokens) (hrest : EndsExpression rest) :
    reader last (tokens ++ rest) = .ok e rest :=
  h.readsBack last (Nat.zero_add maxDepth) rest hrest

section
variable {last : Option Token} {tokens rest : List Token} {e : Expr}

theorem wholeReader_ok (h : reader last tokens = .ok e rest) (hend : Reader.atEnd rest) :
    wholeReader last tokens = .ok e rest := by
  refine (Reader.bind_of_ok h).trans ?_
  change (if Reader.atEnd rest then pure e else throw .trailingTokens >>= fun _ => pure e :
    Reader Expr) rest = _
  rw [if_pos hend]
  rfl

theorem wholeReader_trailing (h : reader last tokens = .ok e rest) (hend : ¬ Reader.atEnd rest) :
    wholeReader last tokens = .error .trailingTokens rest := by
  refine (Reader.bind_of_ok h).trans ?_
  change (if Reader.atEnd rest then pure e else throw .trailingTokens >>= fun _ => pure e :
    Reader Expr) rest = _
  rw [if_neg hend]
  rfl

theorem wholeReader_error {fault : ParseFault} (h : reader last tokens = .error fault rest) :
    wholeReader last tokens = .error fault rest :=
  Reader.bind_of_error h

theorem ofTokens?_of_ok (h : wholeReader tokens.getLast? tokens = .ok e rest) :
    ofTokens? tokens = .ok e := by
  unfold ofTokens?
  rw [EStateM.run, h]

theorem ofTokens?_of_error {fault : ParseFault}
    (h : wholeReader tokens.getLast? tokens = .error fault rest) :
    ofTokens? tokens = .error (.atToken fault (rest.head?.or tokens.getLast?)) := by
  unfold ofTokens?
  rw [EStateM.run, h]

end

theorem ofTokens?_eq_ok {tokens : List Token} {e : Expr} :
    ofTokens? tokens = .ok e ↔
      ∃ rest, reader tokens.getLast? tokens = .ok e rest ∧ Reader.atEnd rest := by
  constructor
  · intro h
    cases hread : reader tokens.getLast? tokens with
    | error fault rest =>
      rw [ofTokens?_of_error (wholeReader_error hread)] at h
      cases h
    | ok e' rest =>
      by_cases hend : Reader.atEnd rest
      · rw [ofTokens?_of_ok (wholeReader_ok hread hend)] at h
        cases h
        exact ⟨rest, rfl, hend⟩
      · rw [ofTokens?_of_error (wholeReader_trailing hread hend)] at h
        cases h
  · rintro ⟨rest, hread, hend⟩
    exact ofTokens?_of_ok (wholeReader_ok hread hend)

end Expr

/-! ## Expressions before an end -/

theorem append_inj_of_stop {α : Type} {p : α → Bool} {l₁ l₂ rest₁ rest₂ : List α}
    (h : l₁ ++ rest₁ = l₂ ++ rest₂) (h₁ : ∀ x ∈ l₁, p x) (hrest₁ : ∀ x ∈ rest₁.head?, p x = false)
    (h₂ : ∀ x ∈ l₂, p x) (hrest₂ : ∀ x ∈ rest₂.head?, p x = false) : l₁ = l₂ ∧ rest₁ = rest₂ := by
  have takeWhile_eq {l rest : List α} (hl : ∀ x ∈ l, p x) (hrest : ∀ x ∈ rest.head?, p x = false) :
      (l ++ rest).takeWhile p = l := by
    rw [List.takeWhile_append_of_pos hl]
    cases rest with
    | nil => simp
    | cons x rest => simp [hrest x rfl]
  have hl : l₁ = l₂ := by rw [← takeWhile_eq h₁ hrest₁, h, takeWhile_eq h₂ hrest₂]
  subst hl
  exact ⟨rfl, List.append_cancel_left h⟩

theorem Reader.not_isDone_of_atEnd {rest : List Token} (h : Reader.atEnd rest) :
    ∀ token ∈ rest.head?, (!token.isDone) = false := by
  cases rest with
  | nil => simp
  | cons token rest => simpa [Reader.atEnd] using h

theorem Derives.not_isDone {charge : Nat} {phrase : Phrase} {tokens : List Token}
    (h : Derives charge phrase tokens) : ∀ token ∈ tokens, !token.isDone := by
  intro token htoken
  simp [Token.isDone_eq_false_of_isWord (h.isWord_of_mem token htoken)]

namespace Expr

theorem ofTokens?_concat {tokens : List Token} {final : Token} (hfinal : final.isDone)
    (htokens : ∀ token ∈ tokens, ¬ token.isDone) {e : Expr} :
    ofTokens? (tokens ++ [final]) = .ok e ↔ Derives 0 (.expression e) tokens := by
  rw [ofTokens?_eq_ok, List.getLast?_concat]
  constructor
  · rintro ⟨rest, hread, hend⟩
    obtain ⟨taken, htaken, he⟩ := reader_spells _ (inSight_of_isDone (by simpa using hfinal) _) hread
    have hcut := append_inj_of_stop htaken (by simpa using htokens) (by simpa using hfinal)
      he.not_isDone (Reader.not_isDone_of_atEnd hend)
    rwa [hcut.1]
  · intro he
    exact ⟨[final], reader_append he (endsExpression_of_atEnd hfinal), hfinal⟩

/-- A row of tokens before the end of a text is read as a tree just if it spells that tree, and it
spells no other. -/
theorem ofTokens?_eq_ok_iff_derives (tokens : List Token) (final : Token) (hfinal : final.isDone)
    (htokens : ∀ token ∈ tokens, ¬ token.isDone) :
    (∀ e, ofTokens? (tokens ++ [final]) = .ok e ↔ Derives 0 (.expression e) tokens) ∧
      ∀ e e', Derives 0 (.expression e) tokens → Derives 0 (.expression e') tokens → e = e' :=
  ⟨fun _ => ofTokens?_concat hfinal htokens, fun _ _ => Derives.unique (Nat.zero_le _)⟩

/-- `a || b ? -f(c, d) : a` -/
theorem ofTokens?_eq_ok_iff_derives_conditional :
    let name (text : String) : Token := ⟨.name, .ofString text, 1, "s.scn"⟩
    let sign (symbol : Symbol) : Token := ⟨.symbol symbol, .ofString symbol.text, 1, "s.scn"⟩
    let var (text : String) : Expr := .var (StoredText.ofString text).toString
    let tokens := [name "a", sign .or, name "b", sign .question, sign .minus, name "f",
      sign .openParen, name "c", sign .comma, name "d", sign .closeParen, sign .colon, name "a"]
    (∀ token ∈ tokens, ¬ token.isDone) ∧
      Derives 0 (.expression (.conditional (.binary .or (var "a") (var "b"))
        (.unary .neg (.call (StoredText.ofString "f").toString [var "c", var "d"])) (var "a")))
        tokens := by
  intro name sign var tokens
  have htokens : ∀ token ∈ tokens, ¬ token.isDone := by decide
  have hread := (ofTokens?_eq_ok_iff_derives tokens ⟨.done, .ofString "", 1, "s.scn"⟩ rfl htokens).1
  exact ⟨htokens, (hread _).1 rfl⟩

end Expr

end ScenarioScript
