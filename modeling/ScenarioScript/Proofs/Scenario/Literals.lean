import ScenarioScript.Proofs.Evaluator.Finite
import ScenarioScript.Proofs.Expr.Reparse
import ScenarioScript.Proofs.Statement.Recovery
import ScenarioScript.Scenario

/-!
# The numbers in a scenario

A text spells finite numbers only. Each statement of its scenario has been read from tokens of the text,
so its literals are finite.
-/

namespace ScenarioScript

namespace Expr

mutual

theorem isFinite_of_mem_literals : ∀ e : Expr, e.Printable → ∀ value ∈ e.literals, value.IsFinite
  | .literal value, h => by
    intro other hother
    cases List.mem_singleton.1 hother
    cases value with
    | number x => exact h.1
    | text s => exact trivial
  | .var name, _ => List.forall_mem_nil _
  | .call name args, h => isFinite_of_mem_literalsOfAll args h.2
  | .unary op operand, h => isFinite_of_mem_literals operand h
  | .binary op left right, h =>
    List.forall_mem_append.2 ⟨isFinite_of_mem_literals left h.1, isFinite_of_mem_literals right h.2⟩
  | .conditional condition yes no, h => by
    have hfirst := List.forall_mem_append.2
      ⟨isFinite_of_mem_literals condition h.1, isFinite_of_mem_literals yes h.2.1⟩
    exact List.forall_mem_append.2 ⟨hfirst, isFinite_of_mem_literals no h.2.2⟩

theorem isFinite_of_mem_literalsOfAll : ∀ es : List Expr, AllPrintable es →
    ∀ value ∈ literalsOfAll es, value.IsFinite
  | [], _ => List.forall_mem_nil _
  | e :: es, h => List.forall_mem_append.2 ⟨isFinite_of_mem_literals e h.1, isFinite_of_mem_literalsOfAll es h.2⟩

end

theorem printable_of_ofTokens? {tokens : List Token} {final : Token} {e : Expr} (hfinal : final.isDone)
    (htokens : ∀ token ∈ tokens ++ [final], token.IsPrintable) (h : ofTokens? (tokens ++ [final]) = .ok e) :
    e.Printable := by
  rw [ofTokens?_eq_ok, List.getLast?_concat] at h
  obtain ⟨rest, hread, -⟩ := h
  obtain ⟨taken, htaken, he⟩ := reader_spells _ (inSight_of_isDone (by simpa using hfinal) _) hread
  rw [htaken] at htokens
  exact he.printable fun token htoken => htokens token (List.mem_append_left _ htoken)

end Expr

namespace Statement

theorem mem_of_mem_pieces {tokens piece : List Token} (hpiece : piece ∈ pieces tokens) {token : Token}
    (htoken : token ∈ piece) : token ∈ tokens := by
  induction tokens using pieces.induct with
  | case1 =>
    rw [pieces] at hpiece
    cases hpiece
  | case2 first rest hdone hlength behind ih =>
    rw [pieces, dif_pos hdone] at hpiece
    rcases List.mem_cons.1 hpiece with rfl | hpiece
    · exact List.mem_of_mem_take htoken
    · exact (skip_suffix none (first :: rest)).subset (ih hpiece)
  | case3 first rest hdone =>
    rw [pieces, dif_neg hdone] at hpiece
    cases hpiece

theorem printable_of_ofPiece? {final : Token} {piece : List Token} {statement : Statement} (hfinal : final.isDone)
    (htokens : ∀ token ∈ piece ++ [final], token.IsPrintable) (h : ofPiece? final piece = some statement) :
    statement.expr.Printable := by
  unfold ofPiece? at h
  split at h
  · rename_i e hread
    cases h
    refine Expr.printable_of_ofTokens? hfinal (fun token htoken => htokens token ?_) hread
    rcases List.mem_append.1 htoken with htoken | htoken
    · exact List.mem_append_left _ (mem_of_mem_body (mem_of_mem_splitLabel htoken))
    · exact List.mem_append_right _ htoken
  · cases h

end Statement

namespace Scenario

theorem printable_of_load (text file : String) :
    ∀ statement ∈ (load text file).1.statements, statement.expr.Printable := by
  intro statement hstatement
  obtain ⟨words, final, htokens, hfinal, hwords⟩ := (Cursor.start text file).exists_tokens_concat
  have htext : Token.ofText text file = words ++ [final] := htokens
  have hprint : ∀ token ∈ words ++ [final], token.IsPrintable :=
    htokens ▸ (Cursor.start text file).isPrintable_of_mem_tokens
  have hspec : (Statement.ofTokens (words ++ [final])).map Except.toOption = _ :=
    Statement.ofTokens_spec List.getLast?_concat hfinal
  obtain ⟨result, hresult, hok⟩ := List.mem_filterMap.1 hstatement
  have hmem : some statement ∈ (Statement.ofTokens (words ++ [final])).map Except.toOption := by
    rw [← htext]
    exact List.mem_map.2 ⟨result, hresult, hok⟩
  rw [hspec] at hmem
  obtain ⟨piece, hpiece, hstatement⟩ := List.mem_map.1 hmem
  have hpieces : piece ∈ Statement.pieces (words ++ [final]) := List.mem_of_mem_filter hpiece
  refine Statement.printable_of_ofPiece? hfinal (fun token htoken => hprint token ?_) hstatement
  rcases List.mem_append.1 htoken with htoken | htoken
  · exact Statement.mem_of_mem_pieces hpieces htoken
  · exact List.mem_append_right _ htoken

end Scenario

end ScenarioScript
