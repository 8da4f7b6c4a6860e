import ScenarioScript.Proofs.Statement.Recovery
import ScenarioScript.Proofs.Token.Place

/-!
# Statements at other places

What a row of tokens spells depends on their kinds and texts. The place of a piece is the line of its
statement, and nothing else.
-/

namespace ScenarioScript

/-! ## Expressions -/

namespace Derives

theorem congr {charge : Nat} {phrase : Phrase} {tokens others : List Token} (h : Derives charge phrase tokens)
    (hspelling : others.map Token.spelling = tokens.map Token.spelling) : Derives charge phrase others := by
  induction h generalizing others with
  | number htoken =>
    obtain ⟨other, rfl, hother⟩ := List.map_eq_singleton_iff.1 hspelling
    exact .number ((Token.kind_eq_of_spelling hother).trans htoken)
  | string htoken =>
    obtain ⟨other, rfl, hother⟩ := List.map_eq_singleton_iff.1 hspelling
    rw [← Token.text_eq_of_spelling hother]
    exact .string ((Token.kind_eq_of_spelling hother).trans htoken)
  | var htoken =>
    obtain ⟨other, rfl, hother⟩ := List.map_eq_singleton_iff.1 hspelling
    rw [← Token.text_eq_of_spelling hother]
    exact .var ((Token.kind_eq_of_spelling hother).trans htoken)
  | call hname hopening hcharge hargs hclosing ih =>
    simp only [List.map_cons, List.map_append, List.map_nil] at hspelling
    obtain ⟨name, behind, rfl, hname', hspelling⟩ := List.map_eq_cons_iff.1 hspelling
    obtain ⟨opening, behind, rfl, hopening', hspelling⟩ := List.map_eq_cons_iff.1 hspelling
    obtain ⟨args, behind, rfl, hargs', hspelling⟩ := List.map_eq_append_iff.1 hspelling
    obtain ⟨closing, rfl, hclosing'⟩ := List.map_eq_singleton_iff.1 hspelling
    rw [← Token.text_eq_of_spelling hname']
    exact .call ((Token.kind_eq_of_spelling hname').trans hname)
      ((Token.kind_eq_of_spelling hopening').trans hopening) hcharge (ih hargs')
      ((Token.kind_eq_of_spelling hclosing').trans hclosing)
  | parenthesis hopening hcharge he hclosing ih =>
    simp only [List.map_cons, List.map_append, List.map_nil] at hspelling
    obtain ⟨opening, behind, rfl, hopening', hspelling⟩ := List.map_eq_cons_iff.1 hspelling
    obtain ⟨inner, behind, rfl, hinner', hspelling⟩ := List.map_eq_append_iff.1 hspelling
    obtain ⟨closing, rfl, hclosing'⟩ := List.map_eq_singleton_iff.1 hspelling
    exact .parenthesis ((Token.kind_eq_of_spelling hopening').trans hopening) hcharge (ih hinner')
      ((Token.kind_eq_of_spelling hclosing').trans hclosing)
  | noArguments =>
    obtain rfl := List.map_eq_nil_iff.1 hspelling
    exact .noArguments
  | lastArgument he ih => exact .lastArgument (ih hspelling)
  | argument he hcomma hargs ihe ihargs =>
    simp only [List.map_cons, List.map_append] at hspelling
    obtain ⟨first, behind, rfl, hfirst', hspelling⟩ := List.map_eq_append_iff.1 hspelling
    obtain ⟨comma, more, rfl, hcomma', hmore'⟩ := List.map_eq_cons_iff.1 hspelling
    exact .argument (ihe hfirst') ((Token.kind_eq_of_spelling hcomma').trans hcomma) (ihargs hmore')
  | operand he ih => exact .operand (ih hspelling)
  | unary htoken hcharge he ih =>
    obtain ⟨token, behind, rfl, htoken', hbehind⟩ := List.map_eq_cons_iff.1 hspelling
    exact .unary ((Token.kind_eq_of_spelling htoken').trans htoken) hcharge (ih hbehind)
  | first he ih => exact .first (ih hspelling)
  | next hleft htoken hcharge hright ihleft ihright =>
    simp only [List.map_cons, List.map_append] at hspelling
    obtain ⟨left, behind, rfl, hleft', hspelling⟩ := List.map_eq_append_iff.1 hspelling
    obtain ⟨token, right, rfl, htoken', hright'⟩ := List.map_eq_cons_iff.1 hspelling
    exact .next (ihleft hleft') ((Token.kind_eq_of_spelling htoken').trans htoken) hcharge (ihright hright')
  | chain he ih => exact .chain (ih hspelling)
  | plain he ih => exact .plain (ih hspelling)
  | conditional hcondition hquestion hcharge hyes hcolon hno ihcondition ihyes ihno =>
    simp only [List.map_cons, List.map_append] at hspelling
    obtain ⟨condition, behind, rfl, hcondition', hspelling⟩ := List.map_eq_append_iff.1 hspelling
    obtain ⟨question, behind, rfl, hquestion', hspelling⟩ := List.map_eq_cons_iff.1 hspelling
    obtain ⟨yes, behind, rfl, hyes', hspelling⟩ := List.map_eq_append_iff.1 hspelling
    obtain ⟨colon, no, rfl, hcolon', hno'⟩ := List.map_eq_cons_iff.1 hspelling
    exact .conditional (ihcondition hcondition') ((Token.kind_eq_of_spelling hquestion').trans hquestion)
      hcharge (ihyes hyes') ((Token.kind_eq_of_spelling hcolon').trans hcolon) (ihno hno')

theorem map_iff {charge : Nat} {phrase : Phrase} {tokens : List Token} {place : Token → Token}
    (hplace : ∀ token, (place token).spelling = token.spelling) :
    Derives charge phrase (tokens.map place) ↔ Derives charge phrase tokens := by
  have hspelling : (tokens.map place).map Token.spelling = tokens.map Token.spelling := by simp [hplace]
  exact ⟨fun h => h.congr hspelling.symm, fun h => h.congr hspelling⟩

theorem move_iff {charge : Nat} {phrase : Phrase} {tokens : List Token} (file : String) (lines : UInt32) :
    Derives charge phrase (tokens.map (Token.move file lines)) ↔ Derives charge phrase tokens :=
  map_iff fun _ => rfl

theorem not_hasLabel {e : Expr} {tokens : List Token} (h : Derives 0 (.expression e) tokens) :
    ¬ Statement.HasLabel tokens := by
  rintro ⟨name, colon, rest, rfl, hname, hcolon⟩
  have hvar : Derives 0 (.expression (.var name.text.toString)) [name] :=
    .plain (.chain (.first (.chain (.first (.chain (.first (.chain (.first (.chain (.first (.chain (.first
      (.operand (.var hname))))))))))))))
  have hread : Expr.reader none ([name] ++ colon :: rest) = .ok (.var name.text.toString) (colon :: rest) :=
    Expr.reader_append hvar (endsExpression_of_symbol hcolon (by decide))
  have hall : Expr.reader none ((name :: colon :: rest) ++ []) = .ok e [] :=
    Expr.reader_append h (endsExpression_of_atEnd rfl)
  rw [List.append_nil] at hall
  rw [List.singleton_append, hall] at hread
  cases hread

end Derives

/-! ## Statements -/

namespace Statement

def move (lines : UInt32) (statement : Statement) : Statement :=
  { statement with line := statement.line + lines }

/-- What a statement says, wherever it stands. -/
def outline (statement : Statement) : Option String × Expr := (statement.label, statement.expr)

section
variable {place : Token → Token} (hplace : ∀ token, (place token).spelling = token.spelling)
  {final final' : Token} {piece : List Token}
include hplace

theorem splitLabel_map (tokens : List Token) :
    splitLabel (tokens.map place) = ((splitLabel tokens).1, (splitLabel tokens).2.map place) := by
  by_cases h : HasLabel tokens
  · obtain ⟨name, colon, rest, rfl, hname, hcolon⟩ := h
    rw [splitLabel_cons hname hcolon, ← Token.text_eq_of_spelling (hplace name)]
    exact splitLabel_cons ((Token.kind_eq_of_spelling (hplace name)).trans hname)
      ((Token.kind_eq_of_spelling (hplace colon)).trans hcolon)
  · rw [splitLabel_of_not_hasLabel h, splitLabel_of_not_hasLabel]
    rintro ⟨name, colon, rest, htokens, hname, hcolon⟩
    obtain ⟨name, behind, rfl, rfl, hbehind⟩ := List.map_eq_cons_iff.1 htokens
    obtain ⟨colon, rest, rfl, rfl, -⟩ := List.map_eq_cons_iff.1 hbehind
    rw [Token.kind_eq_of_spelling (hplace _)] at hname hcolon
    exact h ⟨name, colon, rest, rfl, hname, hcolon⟩

theorem isSemicolon_comp : isSemicolon ∘ place = isSemicolon := by
  funext token
  simp [isSemicolon, Token.kind_eq_of_spelling (hplace token)]

theorem isStop_comp : isStop ∘ place = isStop := by
  funext token
  simp [isStop, isSemicolon, Token.kind_eq_of_spelling (hplace token)]

theorem body_map (piece : List Token) : body (piece.map place) = (body piece).map place := by
  have hlast : (piece.map place).getLast?.any isSemicolon = piece.getLast?.any isSemicolon := by
    rw [List.getLast?_map, Option.any_map]
    exact congrArg (Option.any · piece.getLast?) (isSemicolon_comp hplace)
  unfold body
  rw [hlast]
  split
  · exact (List.map_dropLast ..).symm
  · rfl

theorem ofPiece?_map (hfinal : final.isDone) (hfinal' : final'.isDone) (hpiece : ∀ token ∈ piece, ¬ token.isDone) :
    ofPiece? final' (piece.map place) = (ofPiece? final piece).map fun statement =>
      { statement with line := ((piece.map place).headD final').line } := by
  have hdone (token : Token) : (place token).isDone = token.isDone := by
    unfold Token.isDone
    rw [Token.kind_eq_of_spelling (hplace token)]
  have hpiece' : ∀ token ∈ piece.map place, ¬ token.isDone := by simpa [hdone] using hpiece
  ext statement
  rw [ofPiece?_eq_some_iff hfinal' hpiece', body_map hplace, splitLabel_map hplace, Option.map_eq_some_iff]
  simp only [Derives.map_iff hplace, ofPiece?_eq_some_iff hfinal hpiece]
  constructor
  · rintro ⟨e, he, rfl⟩
    exact ⟨_, ⟨e, he, rfl⟩, rfl⟩
  · rintro ⟨_, ⟨e, he, rfl⟩, rfl⟩
    exact ⟨e, he, rfl⟩

theorem outline_ofPiece?_map (hfinal : final.isDone) (hfinal' : final'.isDone)
    (hpiece : ∀ token ∈ piece, ¬ token.isDone) :
    (ofPiece? final' (piece.map place)).map outline = (ofPiece? final piece).map outline := by
  rw [ofPiece?_map hplace hfinal hfinal' hpiece, Option.map_map]
  rfl

end

section
variable {final final' : Token} {piece : List Token}

theorem line_of_ofPiece? {statement : Statement} (hfinal : final.isDone)
    (hpiece : ∀ token ∈ piece, ¬ token.isDone) (h : ofPiece? final piece = some statement) :
    statement.line = (piece.headD final).line := by
  obtain ⟨e, -, rfl⟩ := (ofPiece?_eq_some_iff hfinal hpiece).1 h
  rfl

theorem headD_move (final final' : Token) {file : String} {lines : UInt32} (hne : piece ≠ []) :
    ((piece.map (Token.move file lines)).headD final').line = (piece.headD final).line + lines := by
  obtain ⟨token, rest, rfl⟩ := List.exists_cons_of_ne_nil hne
  rfl

theorem ofPiece?_move {file : String} {lines : UInt32} (hfinal : final.isDone) (hfinal' : final'.isDone)
    (hpiece : ∀ token ∈ piece, ¬ token.isDone) (hne : piece ≠ []) :
    ofPiece? final' (piece.map (Token.move file lines)) = (ofPiece? final piece).map (move lines) := by
  have hplace (token : Token) : (token.move file lines).spelling = token.spelling := rfl
  rw [ofPiece?_map hplace hfinal hfinal' hpiece, headD_move final final' hne]
  refine Option.map_congr fun statement hstatement => ?_
  rw [move, line_of_ofPiece? hfinal hpiece hstatement]

end

end Statement

end ScenarioScript
