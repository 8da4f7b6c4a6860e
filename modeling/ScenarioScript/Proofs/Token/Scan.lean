import Mathlib.Algebra.Group.Nat.Defs
import Mathlib.Data.List.Chain
import ScenarioScript.Proofs.Token.Lexeme

/-!
# The tokens of a text

A text has one token after the other and then the end, once. A string without an end is the last
token of its line.
-/

namespace ScenarioScript

namespace Cursor

/-! ## One step -/

section
variable {cursor : Cursor}

theorem next_of_nil (h : cursor.skipGap.rest = []) :
    cursor.next = (cursor.skipGap.token .done [], cursor.skipGap) := by
  simp only [next, h]

theorem next_of_cons {c : Char} {text : List Char} (h : cursor.skipGap.rest = c :: text) :
    cursor.next = (cursor.skipGap.token (readLexeme c text).kind (readLexeme c text).content,
      cursor.skipGap.advance (readLexeme c text).taken (readLexeme c text).rest) := by
  simp only [next, h]

theorem isDone_next_iff : cursor.next.1.isDone ↔ cursor.skipGap.rest = [] := by
  cases h : cursor.skipGap.rest with
  | nil => simp [next_of_nil h, token, Token.isDone]
  | cons c text => simp [next_of_cons h, token, Token.isDone, readLexeme_kind_ne_done]

theorem next_line : cursor.next.1.line = cursor.skipGap.line := by
  cases h : cursor.skipGap.rest with
  | nil => rw [next_of_nil h]; rfl
  | cons c text => rw [next_of_cons h]; rfl

theorem skipGap_append (cursor : Cursor) :
    (spanGap false cursor.rest).1 ++ cursor.skipGap.rest = cursor.rest :=
  spanGap_append false cursor.rest

theorem skipGap_rest_length_le : cursor.skipGap.rest.length ≤ cursor.rest.length := by
  have h := congrArg List.length cursor.skipGap_append
  simp only [List.length_append] at h
  omega

theorem next_rest_length_lt (h : ¬ cursor.next.1.isDone) :
    cursor.next.2.rest.length < cursor.rest.length := by
  rw [isDone_next_iff] at h
  obtain ⟨c, text, hrest⟩ := List.exists_cons_of_ne_nil h
  have hgap := cursor.skipGap_rest_length_le
  have htaken := List.length_pos_iff.2 (readLexeme_taken_ne_nil c text)
  have happend := congrArg List.length (readLexeme_append c text)
  simp only [List.length_append, ← hrest] at happend
  rw [next_of_cons hrest]
  change (readLexeme c text).rest.length < _
  omega

end

/-! ## All tokens -/

/-- All tokens from a place on. -/
def tokens (cursor : Cursor) : List Token := (cursor.scan (cursor.rest.length + 1)).map Prod.fst

theorem scan_eq_of_lt {cursor : Cursor} {count : Nat} (h : cursor.rest.length < count) :
    cursor.scan count = cursor.scan (cursor.rest.length + 1) := by
  induction hlength : cursor.rest.length using Nat.strong_induction_on generalizing cursor count with
  | _ length ih =>
    obtain ⟨count, rfl⟩ : ∃ more, count = more + 1 := ⟨count - 1, by omega⟩
    rw [scan, scan]
    by_cases hdone : cursor.next.1.isDone
    · simp only [hdone, if_true]
    · have hlt := next_rest_length_lt hdone
      have hleft := ih _ (hlength ▸ hlt) (show _ < count by omega) rfl
      have hright := ih _ (hlength ▸ hlt) (show _ < length by omega) rfl
      simp only [hleft, hright]

theorem tokens_eq (cursor : Cursor) :
    cursor.tokens = cursor.next.1 :: if cursor.next.1.isDone then [] else cursor.next.2.tokens := by
  rw [tokens, scan]
  by_cases hdone : cursor.next.1.isDone
  · simp [hdone]
  · simp [hdone, tokens, scan_eq_of_lt (next_rest_length_lt hdone)]

theorem tokens_induction {motive : Cursor → List Token → Prop}
    (done : ∀ cursor, cursor.next.1.isDone → motive cursor [cursor.next.1])
    (more : ∀ cursor, ¬ cursor.next.1.isDone → motive cursor.next.2 cursor.next.2.tokens →
      motive cursor (cursor.next.1 :: cursor.next.2.tokens))
    (cursor : Cursor) : motive cursor cursor.tokens := by
  induction hlength : cursor.rest.length using Nat.strong_induction_on generalizing cursor with
  | _ length ih =>
    rw [tokens_eq]
    by_cases hdone : cursor.next.1.isDone
    · rw [if_pos hdone]
      exact done cursor hdone
    · rw [if_neg hdone]
      exact more cursor hdone (ih _ (hlength ▸ next_rest_length_lt hdone) _ rfl)

theorem exists_tokens_concat (cursor : Cursor) :
    ∃ words final, cursor.tokens = words ++ [final] ∧ final.isDone ∧ ∀ word ∈ words, ¬ word.isDone := by
  induction cursor using tokens_induction with
  | done cursor hdone => exact ⟨[], _, rfl, hdone, by simp⟩
  | more cursor hdone ih =>
    obtain ⟨words, final, htokens, hfinal, hwords⟩ := ih
    exact ⟨_ :: words, final, congrArg _ htokens, hfinal, List.forall_mem_cons.2 ⟨hdone, hwords⟩⟩

/-! ## Lines -/

/-- The lines from a place on can be counted in 32 bits. -/
def LinesFit (cursor : Cursor) : Prop := cursor.line.toNat + cursor.rest.count '\n' < 2 ^ 32

section
variable {cursor : Cursor} {taken rest : List Char}

theorem advance_line_toNat (h : cursor.LinesFit) (happend : taken ++ rest = cursor.rest) :
    (cursor.advance taken rest).line.toNat = cursor.line.toNat + taken.count '\n' := by
  rw [LinesFit, ← happend, List.count_append] at h
  simp only [advance, UInt32.toNat_add, UInt32.toNat_ofNat']
  omega

theorem LinesFit.advance (h : cursor.LinesFit) (happend : taken ++ rest = cursor.rest) :
    (cursor.advance taken rest).LinesFit := by
  rw [LinesFit, advance_line_toNat h happend]
  rw [LinesFit, ← happend, List.count_append] at h
  change _ + rest.count '\n' < _
  omega

theorem LinesFit.skipGap (h : cursor.LinesFit) : cursor.skipGap.LinesFit :=
  h.advance cursor.skipGap_append

theorem LinesFit.next (h : cursor.LinesFit) : cursor.next.2.LinesFit := by
  cases hrest : cursor.skipGap.rest with
  | nil =>
    rw [next_of_nil hrest]
    exact h.skipGap
  | cons c text =>
    rw [next_of_cons hrest]
    exact h.skipGap.advance (hrest ▸ readLexeme_append c text)

theorem line_lt_skipGap_line (h : cursor.LinesFit) {text : List Char} (hrest : cursor.rest = '\n' :: text) :
    cursor.line < cursor.skipGap.line := by
  have hgap : (spanGap false cursor.rest).1 = '\n' :: (spanGap false text).1 := by
    rw [hrest, spanGap]
    rfl
  have hline : cursor.skipGap.line.toNat = _ := advance_line_toNat h cursor.skipGap_append
  rw [hgap, List.count_cons_self] at hline
  rw [UInt32.lt_iff_toNat_lt]
  omega

/-- Behind a string without an end a new line begins. -/
theorem next_line_lt_of_openString (h : cursor.LinesFit) (hopen : cursor.next.1.kind = .fault .openString)
    (hdone : ¬ cursor.next.2.next.1.isDone) : cursor.next.1.line < cursor.next.2.next.1.line := by
  have hword : ¬ cursor.next.1.isDone := by simp [Token.isDone, hopen]
  obtain ⟨c, text, hrest⟩ := List.exists_cons_of_ne_nil (mt isDone_next_iff.2 hword)
  have hbehind : cursor.next.2.rest = (readLexeme c text).rest := by rw [next_of_cons hrest]; rfl
  have hstop : ∀ d ∈ cursor.next.2.rest.head?, d = '\n' := by
    rw [hbehind]
    rw [next_of_cons hrest] at hopen
    exact readLexeme_rest_of_openString hopen
  have hline : cursor.next.1.line ≤ cursor.next.2.line := by
    have hline := advance_line_toNat h.skipGap (hrest ▸ readLexeme_append c text)
    rw [next_line, next_of_cons hrest, UInt32.le_iff_toNat_le]
    dsimp only
    omega
  rw [isDone_next_iff] at hdone
  obtain ⟨d, more, hmore⟩ : ∃ d more, cursor.next.2.rest = d :: more := by
    refine List.exists_cons_of_ne_nil fun hnil => hdone ?_
    simp [skipGap, hnil, spanGap, advance]
  obtain rfl : d = '\n' := hstop d (by simp [hmore])
  have hnext : cursor.next.2.next.1.line = cursor.next.2.skipGap.line := next_line
  rw [hnext]
  exact UInt32.lt_of_le_of_lt hline (line_lt_skipGap_line h.next hmore)

end

theorem linesFit_start {text file : String} (h : text.toList.count '\n' < 2 ^ 32 - 1) :
    (start text file).LinesFit := by
  change 1 + text.toList.count '\n' < 2 ^ 32
  omega

end Cursor

/-! ## Strings without an end -/

/-- What follows a string without an end is on a later line. -/
def OpenStringsEndLines (tokens : List Token) : Prop :=
  tokens.IsChain fun token next => token.kind = .fault .openString → token.line < next.line

theorem Cursor.openStringsEndLines {cursor : Cursor} (h : cursor.LinesFit) {words : List Token}
    {final : Token} (htokens : cursor.tokens = words ++ [final]) (hwords : ∀ word ∈ words, ¬ word.isDone) :
    OpenStringsEndLines words := by
  unfold OpenStringsEndLines
  induction cursor using tokens_induction generalizing words with
  | done cursor hdone =>
    cases words with
    | nil => exact .nil
    | cons word words => simp at htokens
  | more cursor hdone ih =>
    cases words with
    | nil => exact .nil
    | cons word words =>
      obtain ⟨hword, hbehind⟩ := List.cons.inj htokens
      have hwords' := fun word hword => hwords word (List.mem_cons_of_mem _ hword)
      refine List.isChain_cons.2 ⟨fun next hnext hopen => ?_, ih h.next hbehind hwords'⟩
      obtain ⟨words, rfl⟩ := List.head?_eq_some_iff.1 hnext
      rw [tokens_eq] at hbehind
      obtain ⟨hnext, -⟩ := List.cons.inj hbehind
      subst hword hnext
      exact next_line_lt_of_openString h hopen (hwords' _ List.mem_cons_self)

end ScenarioScript
