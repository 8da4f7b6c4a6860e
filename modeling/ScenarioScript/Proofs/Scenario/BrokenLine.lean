import ScenarioScript.Proofs.Statement.Outcome
import ScenarioScript.Proofs.Token.Place
import ScenarioScript.Scenario

/-!
# Lines of whole statements

In a text whose lines end their statements, each line gives its own results. A string without an end
takes the rest of its line, and costs the statements of the other lines nothing. The one exception is
a backslash at the end of the line: it takes the line break into the string.
-/

namespace ScenarioScript

/-! ## Cutting lists with a stop at the end -/

section
variable {α : Type} {p : α → Bool} {l rest : List α}

/-- Whether the last element, if there is one, has the property. -/
def EndsWith (p : α → Bool) (l : List α) : Prop := ∀ x ∈ l.getLast?, p x

theorem EndsWith.append (h : EndsWith p l) (hrest : EndsWith p rest) : EndsWith p (l ++ rest) := by
  unfold EndsWith at *
  rw [List.getLast?_append]
  intro x hx
  rcases Option.or_eq_some_iff.1 hx with hx | ⟨-, hx⟩
  · exact hrest x hx
  · exact h x hx

theorem EndsWith.of_append (h : EndsWith p (l ++ rest)) : EndsWith p rest := by
  intro x hx
  apply h
  simp [Option.mem_def.1 hx]

theorem EndsWith.induction {motive : List α → Prop} (nil : motive [])
    (piece : ∀ front x rest, (∀ y ∈ front, p y = false) → p x → motive rest → motive (front ++ x :: rest))
    (h : EndsWith p l) : motive l := by
  induction hlength : l.length using Nat.strongRecOn generalizing l with
  | _ length ih =>
    rcases exists_first_or_forall p l with ⟨front, x, rest, rfl, hfront, hx⟩ | hall
    · -- what is left behind the first stop still ends with one
      have hrest : EndsWith p rest := by
        rw [List.append_cons] at h
        exact h.of_append
      have hlt : rest.length < length := by
        simp only [List.length_append, List.length_cons] at hlength
        omega
      exact piece front x rest hfront hx (ih _ hlt hrest rfl)
    · -- without a stop there is no last element
      cases hlast : l.getLast? with
      | none => exact List.getLast?_eq_none_iff.1 hlast ▸ nil
      | some x =>
        have hx := h x hlast
        rw [hall x (List.mem_of_getLast? hlast)] at hx
        cases hx

theorem cutAfter_append (h : EndsWith p l) (rest : List α) :
    cutAfter p (l ++ rest) = cutAfter p l ++ cutAfter p rest := by
  refine h.induction (motive := fun l => cutAfter p (l ++ rest) = cutAfter p l ++ cutAfter p rest) rfl ?_
  intro front x more hfront hx ih
  rw [List.append_assoc, List.cons_append, cutAfter_append_cons hfront hx, ih, cutAfter_append_cons hfront hx]
  rfl

theorem exists_of_mem_cutAfter (h : EndsWith p l) : ∀ piece ∈ cutAfter p l, ∃ x ∈ piece, p x := by
  refine h.induction (motive := fun l => ∀ piece ∈ cutAfter p l, ∃ x ∈ piece, p x) (by simp [cutAfter]) ?_
  intro front x more hfront hx ih
  rw [cutAfter_append_cons hfront hx, List.forall_mem_cons]
  exact ⟨⟨x, by simp, hx⟩, ih⟩

end

namespace Statement

/-! ## Results of whole lines -/

section
variable {final : Token} {words : List Token}

def outcomes (final : Token) (words : List Token) : List (Except ParseError Statement) :=
  (statementPieces (cutAfter isStop words)).map (outcome final)

theorem outcomes_append (h : EndsWith isStop words) (rest : List Token) :
    outcomes final (words ++ rest) = outcomes final words ++ outcomes final rest := by
  simp [outcomes, cutAfter_append h, statementPieces]

theorem line_of_mem_outcomes (h : EndsWith isStop words) :
    ∀ result ∈ outcomes final words, ∃ token ∈ words, resultLine result = token.line := by
  unfold outcomes
  rw [List.forall_mem_map]
  intro piece hpiece
  have hcut : piece ∈ cutAfter isStop words := List.mem_of_mem_filter hpiece
  obtain ⟨token, htoken, hline⟩ := outcome_line (exists_of_mem_cutAfter h piece hcut)
  exact ⟨token, subset_of_mem_cutAfter hcut htoken, hline⟩

end

/-! ## Lines -/

/-- A line that ends its statements, or has none. -/
structure IsWholeLine (line file : String) : Prop where
  oneLine : '\n' ∉ line.toList
  noOpenString : ∀ token ∈ Token.ofText line file, token.kind ≠ .fault .openString
  ends : ∀ token ∈ (Token.ofText line file).dropLast.getLast?, isSemicolon token

instance (line file : String) : Decidable (IsWholeLine line file) :=
  decidable_of_iff
    ('\n' ∉ line.toList ∧ (∀ token ∈ Token.ofText line file, token.kind ≠ .fault .openString) ∧
      ∀ token ∈ (Token.ofText line file).dropLast.getLast?, isSemicolon token)
    ⟨fun h => ⟨h.1, h.2.1, h.2.2⟩, fun h => ⟨h.oneLine, h.noOpenString, h.ends⟩⟩

/-- The end of a text that has so many lines before the last one. -/
def endAfter (file : String) (n : Nat) : Token := word (1 + UInt32.ofNat n) file .done []

/-- The words of lines of which the first one has so many lines before it. -/
def linesWords (file : String) : Nat → List String → List Token
  | _, [] => []
  | n, line :: rest => wordsBelow line file n ++ linesWords file (n + 1) rest

section
variable {file : String} {lines : List String} {n : Nat}

theorem linesWords_append (a b : List String) :
    linesWords file n (a ++ b) = linesWords file n a ++ linesWords file (n + a.length) b := by
  induction a generalizing n with
  | nil => rfl
  | cons line a ih => simp [linesWords, ih, Nat.add_assoc, Nat.add_comm 1]

theorem not_isDone_of_mem_linesWords : ∀ token ∈ linesWords file n lines, ¬ token.isDone := by
  induction lines generalizing n with
  | nil => simp [linesWords]
  | cons line rest ih =>
    rw [linesWords, List.forall_mem_append]
    exact ⟨not_isDone_of_mem_wordsBelow, ih⟩

theorem line_of_mem_linesWords (h : ∀ line ∈ lines, '\n' ∉ line.toList) :
    ∀ token ∈ linesWords file n lines, ∃ i < lines.length, token.line = 1 + UInt32.ofNat (n + i) := by
  induction lines generalizing n with
  | nil => simp [linesWords]
  | cons line rest ih =>
    rw [List.forall_mem_cons] at h
    rw [linesWords, List.forall_mem_append]
    constructor
    · intro token htoken
      exact ⟨0, by simp, line_of_mem_wordsBelow h.1 token htoken⟩
    · intro token htoken
      obtain ⟨i, hi, hline⟩ := ih h.2 token htoken
      refine ⟨i + 1, by simpa using hi, ?_⟩
      rw [hline, Nat.add_assoc, Nat.add_comm 1]

theorem lexes_lines (hne : lines ≠ []) (hline : ∀ line ∈ lines, '\n' ∉ line.toList)
    (hends : ∀ line ∈ lines.dropLast, (Cursor.start line file).EndsAtNewline) (n : Nat) :
    Lexes (1 + UInt32.ofNat n) file ("\n".intercalate lines).toList
      (linesWords file n lines ++ [endAfter file (n + (lines.length - 1))]) := by
  induction lines generalizing n with
  | nil => exact absurd rfl hne
  | cons line rest ih =>
    rw [List.forall_mem_cons] at hline
    have hcount : line.toList.count '\n' = 0 := List.count_eq_zero.2 hline.1
    cases rest with
    | nil =>
      have hlexes := lexes_below line file n
      rw [hcount] at hlexes
      rwa [linesWords, linesWords, List.append_nil, String.intercalate_singleton]
    | cons next rest =>
      rw [List.dropLast_cons_of_ne_nil (by simp), List.forall_mem_cons] at hends
      have hmore := ih (by simp) hline.2 hends.2 (n + 1)
      have hlexes := lexes_below_newline hends.1 (by rw [hcount]; exact hmore)
      have htext : ("\n".intercalate (line :: next :: rest)).toList =
          line.toList ++ '\n' :: ("\n".intercalate (next :: rest)).toList := by
        simp [String.intercalate_cons_cons]
      have hlast : n + ((line :: next :: rest).length - 1) = n + 1 + ((next :: rest).length - 1) := by
        simp only [List.length_cons]
        omega
      rwa [htext, linesWords, List.append_assoc, hlast]

theorem count_intercalate (hline : ∀ line ∈ lines, '\n' ∉ line.toList) :
    ("\n".intercalate lines).toList.count '\n' = lines.length - 1 := by
  induction lines with
  | nil => rfl
  | cons line rest ih =>
    rw [List.forall_mem_cons] at hline
    have hcount : line.toList.count '\n' = 0 := List.count_eq_zero.2 hline.1
    cases rest with
    | nil => rwa [String.intercalate_singleton]
    | cons next rest =>
      have hbreak : ("\n" : String).toList.count '\n' = 1 := rfl
      rw [String.intercalate_cons_cons, String.toList_append, String.toList_append, List.count_append,
        List.count_append, hcount, hbreak, ih hline.2]
      simp only [List.length_cons]
      omega

theorem ofTokens_lines (hne : lines ≠ []) (hline : ∀ line ∈ lines, '\n' ∉ line.toList)
    (hends : ∀ line ∈ lines.dropLast, (Cursor.start line file).EndsAtNewline) (hlength : lines.length < 2 ^ 32) :
    ofTokens (Token.ofText ("\n".intercalate lines) file) =
      outcomes (endAfter file (lines.length - 1)) (linesWords file 0 lines) := by
  have htokens : (Cursor.start ("\n".intercalate lines) file).tokens = _ := lexes_lines hne hline hends 0 0
  rw [Nat.zero_add] at htokens
  have hfit : (Cursor.start ("\n".intercalate lines) file).LinesFit := by
    apply Cursor.linesFit_start
    rw [count_intercalate hline]
    omega
  have hopen := Cursor.openStringsEndLines hfit htokens not_isDone_of_mem_linesWords
  have htext : Token.ofText ("\n".intercalate lines) file = _ := htokens
  rw [htext, ofTokens_outcomes rfl not_isDone_of_mem_linesWords,
    pieces_concat rfl not_isDone_of_mem_linesWords hopen]
  rfl

theorem endsWith_wordsBelow {line : String} (h : IsWholeLine line file) : EndsWith isStop (wordsBelow line file n) := by
  unfold wordsBelow EndsWith
  rw [List.getLast?_map]
  intro token htoken
  obtain ⟨other, hother, rfl⟩ := Option.map_eq_some_iff.1 htoken
  have hsemicolon : isSemicolon other := h.ends other hother
  simp [isStop, isSemicolon_iff.1 hsemicolon, isSemicolon]

theorem endsWith_linesWords (h : ∀ line ∈ lines, IsWholeLine line file) :
    EndsWith isStop (linesWords file n lines) := by
  induction lines generalizing n with
  | nil => simp [linesWords, EndsWith]
  | cons line rest ih =>
    rw [List.forall_mem_cons] at h
    exact (endsWith_wordsBelow h.1).append (ih h.2)

theorem endsAtNewline_of_whole {line : String} (h : IsWholeLine line file) :
    (Cursor.start line file).EndsAtNewline := .inl h.noOpenString

end

/-! ## A line with an open string -/

/-- A line in which a string has no end. -/
structure IsBrokenLine (line file : String) : Prop where
  oneLine : '\n' ∉ line.toList
  openString : ∃ token ∈ Token.ofText line file, token.kind = .fault .openString

instance (line file : String) : Decidable (IsBrokenLine line file) :=
  decidable_of_iff
    ('\n' ∉ line.toList ∧ ∃ token ∈ Token.ofText line file, token.kind = .fault .openString)
    ⟨fun h => ⟨h.1, h.2⟩, fun h => ⟨h.oneLine, h.openString⟩⟩

section
variable {file broken : String} {n : Nat}

theorem openString_last {cursor : Cursor} (hline : '\n' ∉ cursor.rest)
    (hopen : ∃ token ∈ cursor.tokens, token.kind = .fault .openString) :
    ∃ token ∈ cursor.words.getLast?, token.kind = .fault .openString := by
  induction cursor using Cursor.tokens_induction with
  | done cursor hdone =>
    obtain ⟨token, htoken, hkind⟩ := hopen
    obtain rfl := List.mem_singleton.1 htoken
    simp [Token.isDone, hkind] at hdone
  | more cursor hword ih =>
    obtain ⟨c, text, hrest⟩ := List.exists_cons_of_ne_nil (mt Cursor.isDone_next_iff.2 hword)
    have hbehind : '\n' ∉ cursor.next.2.rest := by
      rw [← Cursor.skipGap_next_append hrest] at hline
      exact fun hmem => hline (List.mem_append_right _ hmem)
    rw [Cursor.words_of_word hword, List.getLast?_cons]
    by_cases hnext : cursor.next.1.kind = .fault .openString
    · -- it takes the line to its end
      have hnil : cursor.next.2.rest = [] := by
        rw [Cursor.next_of_cons hrest] at hnext hbehind ⊢
        have hstop := readLexeme_rest_of_openString hnext
        cases hlexeme : (readLexeme c text).rest with
        | nil => rfl
        | cons d more =>
          obtain rfl := hstop d (by simp [hlexeme])
          exact absurd (by simp [Cursor.advance, hlexeme]) hbehind
      have hdone : cursor.next.2.next.1.isDone := by
        rw [Cursor.isDone_next_iff]
        simp [Cursor.skipGap, Cursor.advance, hnil, spanGap]
      exact ⟨cursor.next.1, by simp [Cursor.words_of_isDone hdone], hnext⟩
    · obtain ⟨token, htoken, hkind⟩ := hopen
      rcases List.mem_cons.1 htoken with rfl | htoken
      · exact absurd hkind hnext
      · obtain ⟨last, hlast, hkind⟩ := ih hbehind ⟨token, htoken, hkind⟩
        exact ⟨last, by simp [Option.mem_def.1 hlast], hkind⟩

theorem endsWith_broken (h : IsBrokenLine broken file) : EndsWith isStop (wordsBelow broken file n) := by
  obtain ⟨token, htoken, hkind⟩ := openString_last h.oneLine h.openString
  unfold wordsBelow EndsWith
  rw [List.getLast?_map, Option.mem_def.1 htoken]
  rintro _ ⟨⟩
  simp [isStop, hkind]

theorem wordsBelow_empty : wordsBelow "" file n = [] := by
  have hdone : (Cursor.start "" file).next.1.isDone := Cursor.isDone_next_iff.2 rfl
  rw [wordsBelow, Cursor.words_of_isDone hdone]
  rfl

theorem line_injective {i j : Nat} (hi : i < 2 ^ 32) (hj : j < 2 ^ 32)
    (h : 1 + UInt32.ofNat i = 1 + UInt32.ofNat j) : i = j := by
  have hnat := congrArg UInt32.toNat h
  simp only [UInt32.toNat_add, UInt32.toNat_ofNat'] at hnat
  omega

end

section
variable {file : String} {before after : List String} {broken : String}

theorem ofTokens_before_after (hlength : (before ++ broken :: after).length < 2 ^ 32)
    (hwhole : ∀ line ∈ before ++ after, IsWholeLine line file) (hline : '\n' ∉ broken.toList)
    (hends : after ≠ [] → (Cursor.start broken file).EndsAtNewline)
    (hstop : EndsWith isStop (wordsBelow broken file before.length)) :
    let final := endAfter file (before.length + after.length)
    ofTokens (Token.ofText ("\n".intercalate (before ++ broken :: after)) file) =
      outcomes final (linesWords file 0 before) ++
        (outcomes final (wordsBelow broken file before.length) ++
          outcomes final (linesWords file (before.length + 1) after)) := by
  rw [List.forall_mem_append] at hwhole
  have hlines : ∀ line ∈ before ++ broken :: after, '\n' ∉ line.toList := by
    rw [List.forall_mem_append, List.forall_mem_cons]
    exact ⟨fun line h => (hwhole.1 line h).oneLine, hline, fun line h => (hwhole.2 line h).oneLine⟩
  have hendsLines : ∀ line ∈ (before ++ broken :: after).dropLast, (Cursor.start line file).EndsAtNewline := by
    rw [List.dropLast_append_of_ne_nil (by simp), List.forall_mem_append]
    refine ⟨fun line h => endsAtNewline_of_whole (hwhole.1 line h), ?_⟩
    by_cases hafter : after = []
    · simp [hafter]
    · rw [List.dropLast_cons_of_ne_nil hafter, List.forall_mem_cons]
      refine ⟨hends hafter, fun line h => ?_⟩
      exact endsAtNewline_of_whole (hwhole.2 line (List.dropLast_subset _ h))
  have hlast : (before ++ broken :: after).length - 1 = before.length + after.length := by simp
  rw [ofTokens_lines (by simp) hlines hendsLines hlength, hlast, linesWords_append, linesWords, Nat.zero_add,
    outcomes_append (endsWith_linesWords hwhole.1), outcomes_append hstop]

theorem resultLine_of_mem_wordsBelow (final : Token) {n : Nat}
    (hline : '\n' ∉ broken.toList) (hstop : EndsWith isStop (wordsBelow broken file n)) :
    ∀ result ∈ outcomes final (wordsBelow broken file n), resultLine result = 1 + UInt32.ofNat n := by
  intro result hresult
  obtain ⟨token, htoken, hresultLine⟩ := line_of_mem_outcomes hstop result hresult
  rw [hresultLine, line_of_mem_wordsBelow hline token htoken]

theorem resultLine_ne_of_mem_linesWords (final : Token) {lines : List String} {n k : Nat}
    (hwhole : ∀ line ∈ lines, IsWholeLine line file) (hk : k < n ∨ n + lines.length ≤ k)
    (hlength : n + lines.length ≤ 2 ^ 32) (hlast : k < 2 ^ 32) :
    ∀ result ∈ outcomes final (linesWords file n lines), resultLine result ≠ 1 + UInt32.ofNat k := by
  intro result hresult
  obtain ⟨token, htoken, hline⟩ := line_of_mem_outcomes (endsWith_linesWords hwhole) result hresult
  obtain ⟨i, hi, htokenLine⟩ := line_of_mem_linesWords (fun line h => (hwhole line h).oneLine) token htoken
  rw [hline, htokenLine]
  intro heq
  have := line_injective (by omega) hlast heq
  omega

theorem isWholeLine_empty (file : String) : IsWholeLine "" file where
  oneLine := by simp
  noOpenString := by
    have htokens : Token.ofText "" file = _ := Lexes.nil 0
    simp [htokens, word]
  ends := by
    have htokens : Token.ofText "" file = _ := Lexes.nil 0
    simp [htokens]

/-- Without the results of its line, an open string is an empty line. -/
theorem filter_ofTokens_broken (hlength : (before ++ broken :: after).length < 2 ^ 32)
    (hwhole : ∀ line ∈ before ++ after, IsWholeLine line file) (hbroken : IsBrokenLine broken file)
    (hslash : after ≠ [] → trailingBackslashes broken.toList % 2 = 0) :
    (ofTokens (Token.ofText ("\n".intercalate (before ++ broken :: after)) file)).filter
        (resultLine · ≠ 1 + UInt32.ofNat before.length) =
      ofTokens (Token.ofText ("\n".intercalate (before ++ "" :: after)) file) := by
  have hempty := isWholeLine_empty file
  have hends : after ≠ [] → (Cursor.start broken file).EndsAtNewline :=
    fun hafter => .inr (isPlainLine_of_even hbroken.oneLine (hslash hafter))
  have hlength' : (before ++ "" :: after).length < 2 ^ 32 := by simpa using hlength
  rw [ofTokens_before_after hlength hwhole hbroken.oneLine hends (endsWith_broken hbroken),
    ofTokens_before_after hlength' hwhole hempty.oneLine (fun _ => endsAtNewline_of_whole hempty)
      (endsWith_wordsBelow hempty), wordsBelow_empty]
  rw [List.forall_mem_append] at hwhole
  simp only [List.length_append, List.length_cons] at hlength
  let final := endAfter file (before.length + after.length)
  have hfirst := resultLine_ne_of_mem_linesWords final (k := before.length) (n := 0) hwhole.1
    (by omega) (by omega) (by omega)
  have hown := resultLine_of_mem_wordsBelow final (n := before.length) hbroken.oneLine
    (endsWith_broken hbroken)
  have hlast := resultLine_ne_of_mem_linesWords final (k := before.length) (n := before.length + 1)
    hwhole.2 (by omega) (by omega) (by omega)
  rw [List.filter_append, List.filter_append, List.filter_eq_self.2 (by simpa using hfirst),
    List.filter_eq_nil_iff.2 (by simpa using hown), List.filter_eq_self.2 (by simpa using hlast)]
  rfl

end

end Statement

/-! ## Loading -/

namespace Scenario

open Statement

theorem filter_filterMap_line {α : Type} {f : Except ParseError Statement → Option α} {line : α → UInt32}
    (h : ∀ result a, f result = some a → line a = resultLine result) (k : UInt32)
    (results : List (Except ParseError Statement)) :
    (results.filterMap f).filter (line · ≠ k) = (results.filter (resultLine · ≠ k)).filterMap f := by
  rw [List.filter_filterMap, List.filterMap_filter]
  refine List.filterMap_congr fun result _ => ?_
  cases hresult : f result with
  | none => simp
  | some a => simp [h result a hresult, Option.filter]

/-- A string without an end costs its own line, unless a backslash takes the line break into it. -/
theorem load_brokenLine (file : String) (before after : List String) (broken : String)
    (hlength : (before ++ broken :: after).length < 2 ^ 32)
    (hwhole : ∀ line ∈ before ++ after, IsWholeLine line file) (hbroken : IsBrokenLine broken file)
    (hslash : after ≠ [] → trailingBackslashes broken.toList % 2 = 0) :
    let found := load ("\n".intercalate (before ++ broken :: after)) file
    let blank := load ("\n".intercalate (before ++ "" :: after)) file
    let line := UInt32.ofNat (before.length + 1)
    found.1.statements.filter (·.line ≠ line) = blank.1.statements ∧
      found.2.filter (·.line ≠ line) = blank.2 := by
  intro found blank line
  have hline : line = 1 + UInt32.ofNat before.length := by simp [line, UInt32.ofNat_add, UInt32.add_comm]
  have hresults := filter_ofTokens_broken hlength hwhole hbroken hslash
  simp only [found, blank, load, hline, ← hresults]
  constructor
  · apply filter_filterMap_line
    intro result statement hresult
    cases result with
    | ok other => cases hresult; rfl
    | error error => cases hresult
  · apply filter_filterMap_line
    intro result error hresult
    cases result with
    | ok statement => cases hresult
    | error other => cases hresult; rfl

/-- The string takes the second statement of its line and everything that could end it. -/
theorem load_brokenLine_comment :
    let before := ["a: 1;", "# no; 'end"]
    let broken := "b: 2; c: 'x; # \"\\\\"
    let after := ["", "d +* ;", "e: f(\"g\");"]
    let found := load ("\n".intercalate (before ++ broken :: after)) "s.scn"
    let blank := load ("\n".intercalate (before ++ "" :: after)) "s.scn"
    (before ++ broken :: after).length < 2 ^ 32 ∧ (∀ line ∈ before ++ after, IsWholeLine line "s.scn") ∧
      IsBrokenLine broken "s.scn" ∧ (after ≠ [] → trailingBackslashes broken.toList % 2 = 0) ∧
      found.1.statements.filter (·.line ≠ 3) = blank.1.statements ∧ found.2.filter (·.line ≠ 3) = blank.2 ∧
      found.1.statements.map (·.line) = [1, 3, 6] ∧ found.2.map (·.line) = [3, 5] := by
  intro before broken after found blank
  have hlength : (before ++ broken :: after).length < 2 ^ 32 := by decide
  have hwhole : ∀ line ∈ before ++ after, IsWholeLine line "s.scn" := by decide +kernel
  have hbroken : IsBrokenLine broken "s.scn" := by decide +kernel
  have hslash : after ≠ [] → trailingBackslashes broken.toList % 2 = 0 := fun _ => by decide +kernel
  obtain ⟨hstatements, herrors⟩ := load_brokenLine "s.scn" before after broken hlength hwhole hbroken hslash
  exact ⟨hlength, hwhole, hbroken, hslash, hstatements, herrors, by decide +kernel, by decide +kernel⟩

/-- Behind a backslash the string goes on in the next line, and `x` is lost. -/
theorem not_load_escapedBreak :
    let broken := "\"abc\\"
    let after := ["x: 1;"]
    IsBrokenLine broken "s.scn" ∧ (∀ line ∈ after, IsWholeLine line "s.scn") ∧
      (load ("\n".intercalate (broken :: after)) "s.scn").1.statements.filter (·.line ≠ 1) ≠
        (load ("\n".intercalate ("" :: after)) "s.scn").1.statements := by
  intro broken after
  refine ⟨by decide +kernel, by decide +kernel, fun h => ?_⟩
  have hlength := congrArg List.length h
  have hlost : (load ("\n".intercalate (broken :: after)) "s.scn").1.statements.length = 0 := by decide +kernel
  have hkept : (load ("\n".intercalate ("" :: after)) "s.scn").1.statements.length = 1 := by decide +kernel
  rw [List.eq_nil_of_length_eq_zero hlost, hkept] at hlength
  cases hlength

end Scenario

end ScenarioScript
