import ScenarioScript.Proofs.Expr.Grammar
import ScenarioScript.Statement

/-!
# Reading one statement

A statement is read just if its tokens up to the semicolon spell an expression, perhaps behind a
label. No token behind the semicolon matters.
-/

namespace ScenarioScript

namespace Statement

/-! ## Labels -/

/-- A name and a colon at the front, and what follows them. -/
def splitLabel : List Token → Option String × List Token
  | ⟨.name, text, _, _⟩ :: ⟨.symbol .colon, _, _, _⟩ :: rest => (some text.toString, rest)
  | tokens => (none, tokens)

theorem splitLabel_cons {name colon : Token} {rest : List Token} (hname : name.kind = .name)
    (hcolon : colon.kind = .symbol .colon) :
    splitLabel (name :: colon :: rest) = (some name.text.toString, rest) := by
  obtain ⟨kind, text, line, file⟩ := name
  obtain ⟨kind', text', line', file'⟩ := colon
  subst hname hcolon
  rfl

/-- Whether a label comes first. -/
def HasLabel (tokens : List Token) : Prop :=
  ∃ name colon rest, tokens = name :: colon :: rest ∧ name.kind = .name ∧
    colon.kind = .symbol .colon

theorem splitLabel_of_not_hasLabel {tokens : List Token} (h : ¬ HasLabel tokens) :
    splitLabel tokens = (none, tokens) := by
  unfold splitLabel
  split
  · exact absurd ⟨_, _, _, rfl, rfl, rfl⟩ h
  · rfl

theorem splitLabel_eq_cases (tokens : List Token) :
    (∃ name colon rest, tokens = name :: colon :: rest ∧
      splitLabel tokens = (some name.text.toString, rest)) ∨ splitLabel tokens = (none, tokens) := by
  by_cases h : HasLabel tokens
  · obtain ⟨name, colon, rest, rfl, hname, hcolon⟩ := h
    exact .inl ⟨name, colon, rest, rfl, splitLabel_cons hname hcolon⟩
  · exact .inr (splitLabel_of_not_hasLabel h)

theorem splitLabel_suffix (tokens : List Token) : (splitLabel tokens).2 <:+ tokens := by
  rcases splitLabel_eq_cases tokens with ⟨name, colon, rest, rfl, hsplit⟩ | hsplit
  · rw [hsplit]
    exact List.suffix_append [name, colon] rest
  · simp [hsplit]

theorem mem_of_mem_splitLabel {tokens : List Token} {token : Token}
    (h : token ∈ (splitLabel tokens).2) : token ∈ tokens :=
  (splitLabel_suffix tokens).subset h

theorem readLabel_eq (tokens : List Token) :
    readLabel tokens = .ok (splitLabel tokens).1 (splitLabel tokens).2 := by
  by_cases h : HasLabel tokens
  · obtain ⟨name, colon, rest, rfl, hname, hcolon⟩ := h
    rw [splitLabel_cons hname hcolon]
    obtain ⟨kind, text, line, file⟩ := name
    obtain ⟨kind', text', line', file'⟩ := colon
    subst hname hcolon
    rfl
  · rw [splitLabel_of_not_hasLabel h]
    change (match tokens with
      | ⟨.name, text, _, _⟩ :: ⟨.symbol .colon, _, _, _⟩ :: rest =>
        (do
          set rest
          return some text.toString : Reader (Option String))
      | _ => return none) tokens = _
    split
    · exact absurd ⟨_, _, _, rfl, rfl, rfl⟩ h
    · rfl

/-! ## The end of a statement -/

/-- Whether a token can stand inside a statement. -/
def isInner (token : Token) : Bool := !isSemicolon token && !token.isDone

/-- A statement ends with a semicolon or with the text. -/
def Ends (tokens rest : List Token) : Prop :=
  (∃ token, tokens = token :: rest ∧ isSemicolon token) ∨ (Reader.atEnd tokens ∧ rest = tokens)

theorem isSemicolon_iff {token : Token} : isSemicolon token ↔ token.kind = .symbol .semicolon :=
  decide_eq_true_iff

theorem isInner_of_isWord {token : Token} (h : token.isWord) : isInner token := by
  have hsemicolon : isSemicolon token = false := by
    rw [isSemicolon, decide_eq_false_iff_not]
    intro hkind
    simp [Token.isWord, hkind] at h
  simp [isInner, hsemicolon, Token.isDone_eq_false_of_isWord h]

theorem Ends.not_isInner {tokens rest : List Token} (h : Ends tokens rest) :
    ∀ token ∈ tokens.head?, isInner token = false := by
  rcases h with ⟨token, rfl, hsemicolon⟩ | ⟨hend, -⟩
  · simp [isInner, hsemicolon]
  · intro token htoken
    have hdone := Reader.not_isDone_of_atEnd hend token htoken
    simp_all [isInner]

theorem Ends.endsExpression {tokens rest : List Token} (h : Ends tokens rest) :
    EndsExpression tokens := by
  rcases h with ⟨token, rfl, hsemicolon⟩ | ⟨hend, -⟩
  · exact endsExpression_of_symbol (isSemicolon_iff.1 hsemicolon) (by decide)
  · exact endsExpression_of_atEnd hend

theorem Ends.unique {tokens rest rest' : List Token} (h : Ends tokens rest) (h' : Ends tokens rest') :
    rest = rest' := by
  rcases h with ⟨token, rfl, hsemicolon⟩ | ⟨hend, rfl⟩
  · rcases h' with ⟨token', htokens, -⟩ | ⟨hend, -⟩
    · cases htokens
      rfl
    · have hdone : token.kind = .done := of_decide_eq_true hend
      rw [isSemicolon_iff, hdone] at hsemicolon
      cases hsemicolon
  · rcases h' with ⟨token', rfl, hsemicolon⟩ | ⟨-, rfl⟩
    · have hdone : token'.kind = .done := of_decide_eq_true hend
      rw [isSemicolon_iff, hdone] at hsemicolon
      cases hsemicolon
    · rfl

theorem finish_eq_ok_iff {α : Type} {a b : α} {tokens rest : List Token} :
    (do
      unless ← Reader.accept .semicolon do
        unless Reader.atEnd (← get) do
          throw .missingSemicolon
      return a : Reader α) tokens = .ok b rest ↔ a = b ∧ Ends tokens rest := by
  by_cases hsemicolon : Begins .semicolon tokens
  · obtain ⟨token, more, rfl, hkind⟩ := hsemicolon
    have hends : Ends (token :: more) more := .inl ⟨token, rfl, isSemicolon_iff.2 hkind⟩
    rw [Reader.bind_of_ok (Reader.accept_of_kind hkind)]
    refine Reader.pure_eq_ok_iff.trans (and_congr_right fun _ => ?_)
    exact ⟨fun h => h ▸ hends, fun h => hends.unique h⟩
  · rw [Reader.bind_of_ok (Reader.accept_of_not_begins hsemicolon)]
    change (if Reader.atEnd tokens then pure a else throw .missingSemicolon >>= fun _ => pure a :
      Reader α) tokens = _ ↔ _
    by_cases hend : Reader.atEnd tokens
    · have hends : Ends tokens tokens := .inr ⟨hend, rfl⟩
      rw [if_pos hend]
      refine Reader.pure_eq_ok_iff.trans (and_congr_right fun _ => ?_)
      exact ⟨fun h => h ▸ hends, fun h => hends.unique h⟩
    · rw [if_neg hend]
      constructor
      · intro h
        cases h
      · rintro ⟨-, ⟨token, rfl, hkind⟩ | ⟨hend', -⟩⟩
        · exact absurd (begins_cons.2 (isSemicolon_iff.1 hkind)) hsemicolon
        · exact absurd hend' hend

/-! ## The reader -/

/-- The line of the first token in sight. -/
def firstLine (last : Option Token) (tokens : List Token) : UInt32 :=
  ((tokens.head?.or last).map Token.line).getD 1

/-- Reads the expression of a statement and its end. -/
def readBody (last : Option Token) (label : Option String) (line : UInt32) : Reader Statement := do
  let expr ← Expr.reader last
  unless ← Reader.accept .semicolon do
    unless Reader.atEnd (← get) do
      throw .missingSemicolon
  return ⟨label, expr, line⟩

theorem reader_eq (last : Option Token) (tokens : List Token) :
    reader last tokens =
      readBody last (splitLabel tokens).1 (firstLine last tokens) (splitLabel tokens).2 :=
  Reader.bind_of_ok (readLabel_eq tokens)

theorem reader_eq_ok_iff {last : Option Token} {tokens rest : List Token} {statement : Statement} :
    reader last tokens = .ok statement rest ↔
      ∃ e middle, Expr.reader last (splitLabel tokens).2 = .ok e middle ∧ Ends middle rest ∧
        statement = ⟨(splitLabel tokens).1, e, firstLine last tokens⟩ := by
  rw [reader_eq, readBody, Reader.bind_eq_ok_iff]
  refine exists_congr fun e => exists_congr fun middle => and_congr_right fun _ => ?_
  exact finish_eq_ok_iff.trans ⟨fun h => ⟨h.2, h.1.symm⟩, fun h => ⟨h.2.symm, h.1⟩⟩

theorem splitLabel_append_of_kind {inner rest : List Token}
    (hrest : ∀ token ∈ rest.head?, token.kind ≠ .name ∧ token.kind ≠ .symbol .colon) :
    splitLabel (inner ++ rest) = ((splitLabel inner).1, (splitLabel inner).2 ++ rest) := by
  by_cases h : HasLabel inner
  · obtain ⟨name, colon, more, rfl, hname, hcolon⟩ := h
    rw [splitLabel_cons hname hcolon]
    exact splitLabel_cons hname hcolon
  · rw [splitLabel_of_not_hasLabel h, splitLabel_of_not_hasLabel]
    rintro ⟨name, colon, more, happend, hname, hcolon⟩
    match inner, rest with
    | [], _ :: _ =>
      cases happend
      exact (hrest name rfl).1 hname
    | [_], _ :: _ =>
      cases happend
      exact (hrest colon rfl).2 hcolon
    | first :: second :: inner, _ =>
      cases happend
      exact h ⟨_, _, _, rfl, hname, hcolon⟩
    | [], [] | [_], [] => cases happend

theorem splitLabel_append {inner rest : List Token} (hrest : ∀ token ∈ rest.head?, isInner token = false) :
    splitLabel (inner ++ rest) = ((splitLabel inner).1, (splitLabel inner).2 ++ rest) := by
  apply splitLabel_append_of_kind
  intro token htoken
  have hrest := hrest token htoken
  have hword : ¬ token.isWord := fun hword => by
    rw [isInner_of_isWord hword] at hrest
    cases hrest
  constructor <;> intro hkind <;> exact hword (by simp [Token.isWord, hkind])

/-- The inner tokens alone decide whether a statement is read, and as what. -/
theorem reader_append_eq_ok_iff {last : Option Token} (hlast : ∀ token ∈ last, token.isDone)
    {inner tokens rest : List Token} {statement : Statement} (hinner : ∀ token ∈ inner, isInner token)
    (htokens : ∀ token ∈ tokens.head?, isInner token = false) :
    reader last (inner ++ tokens) = .ok statement rest ↔
      ∃ e, Derives 0 (.expression e) (splitLabel inner).2 ∧ Ends tokens rest ∧
        statement = ⟨(splitLabel inner).1, e, firstLine last (inner ++ tokens)⟩ := by
  rw [reader_eq_ok_iff, splitLabel_append htokens]
  constructor
  · rintro ⟨e, middle, hread, hends, rfl⟩
    obtain ⟨taken, htaken, he⟩ := Expr.reader_spells last (inSight_of_isDone hlast _) hread
    have hcut := append_inj_of_stop htaken (fun token h => hinner token (mem_of_mem_splitLabel h))
      htokens (fun token h => isInner_of_isWord (he.isWord_of_mem token h)) hends.not_isInner
    obtain ⟨rfl, rfl⟩ := hcut
    exact ⟨e, he, hends, rfl⟩
  · rintro ⟨e, he, hends, rfl⟩
    exact ⟨e, tokens, Expr.reader_append he hends.endsExpression, hends, rfl⟩

end Statement

end ScenarioScript
