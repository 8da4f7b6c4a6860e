import ScenarioScript.Proofs.Statement.Reader
import ScenarioScript.Proofs.Token.Scan

/-!
# The pieces of a token list

Skipping cuts a list of tokens into pieces, whatever is wrong inside of them. Each piece gives one
result, and the result depends on the tokens of the piece alone.
-/

namespace ScenarioScript

/-! ## Cutting lists -/

/-- Cuts a list behind every element with a property. -/
def cutAfter {α : Type} (p : α → Bool) : List α → List (List α)
  | [] => []
  | x :: rest =>
    if p x then [x] :: cutAfter p rest
    else match cutAfter p rest with
      | [] => [[x]]
      | piece :: pieces => (x :: piece) :: pieces

section
variable {α : Type} {p : α → Bool}

theorem cutAfter_append_cons {l rest : List α} {x : α} (hl : ∀ y ∈ l, p y = false) (hx : p x) :
    cutAfter p (l ++ x :: rest) = (l ++ [x]) :: cutAfter p rest := by
  induction l with
  | nil => simp [cutAfter, hx]
  | cons y l ih =>
    have ih := ih fun z hz => hl z (List.mem_cons_of_mem _ hz)
    simp [cutAfter, hl y List.mem_cons_self, ih]

theorem cutAfter_of_none {l : List α} (hl : ∀ y ∈ l, p y = false) (hne : l ≠ []) :
    cutAfter p l = [l] := by
  induction l with
  | nil => exact absurd rfl hne
  | cons y l ih =>
    have hy := hl y List.mem_cons_self
    cases l with
    | nil => simp [cutAfter, hy]
    | cons z l =>
      have ih := ih (fun w hw => hl w (List.mem_cons_of_mem _ hw)) (by simp)
      rw [cutAfter, if_neg (by simp [hy]), ih]

theorem flatten_cutAfter (p : α → Bool) (l : List α) : (cutAfter p l).flatten = l := by
  fun_induction cutAfter with
  | case1 => rfl
  | case2 x rest hx ih => simp [ih]
  | case3 x rest hx hnil ih => simpa [hnil] using ih
  | case4 x rest hx piece pieces hcons ih => simpa [hcons] using ih

theorem subset_of_mem_cutAfter {l piece : List α} (hpiece : piece ∈ cutAfter p l) : piece ⊆ l := by
  intro x hx
  rw [← flatten_cutAfter p l]
  exact List.mem_flatten_of_mem hpiece hx

theorem cutAfter_map {β : Type} (p : β → Bool) (f : α → β) (l : List α) :
    cutAfter p (l.map f) = (cutAfter (p ∘ f) l).map (List.map f) := by
  induction l with
  | nil => rfl
  | cons x rest ih =>
    simp only [List.map_cons, cutAfter, ih, Function.comp_apply]
    split
    · rfl
    · cases cutAfter (p ∘ f) rest <;> rfl

theorem exists_first_or_forall (p : α → Bool) (l : List α) :
    (∃ front x rest, l = front ++ x :: rest ∧ (∀ y ∈ front, p y = false) ∧ p x) ∨
      ∀ y ∈ l, p y = false := by
  induction l with
  | nil => simp
  | cons y l ih =>
    by_cases hy : p y
    · exact .inl ⟨[], y, l, rfl, by simp, hy⟩
    · rcases ih with ⟨front, x, rest, rfl, hfront, hx⟩ | hall
      · exact .inl ⟨y :: front, x, rest, rfl, by simpa [hy] using hfront, hx⟩
      · exact .inr (by simpa [hy] using hall)

end

namespace Statement

/-! ## What skipping passes -/

/-- Whether a statement that cannot be read ends behind a token. -/
def isStop (token : Token) : Bool := isSemicolon token || token.kind = .fault .openString

theorem skip_cons_of_isDone {openLine : Option UInt32} {token : Token} {rest : List Token}
    (h : token.isDone) : skip openLine (token :: rest) = token :: rest := by
  simp [skip, h]

theorem skip_cons_of_isSemicolon {token : Token} {rest : List Token} (h : isSemicolon token) :
    skip none (token :: rest) = rest := by
  have hkind := isSemicolon_iff.1 h
  simp [skip, Token.isDone, hkind]

theorem skip_suffix (openLine : Option UInt32) (tokens : List Token) :
    skip openLine tokens <:+ tokens := by
  induction tokens generalizing openLine with
  | nil => exact List.suffix_rfl
  | cons token rest ih =>
    rw [skip]
    split
    · exact List.suffix_rfl
    · split
      · exact List.suffix_cons _ _
      · exact (ih _).trans (List.suffix_cons _ _)
      · exact (ih _).trans (List.suffix_cons _ _)

theorem skip_length_lt {token : Token} {rest : List Token} (h : token.isDone = false) :
    (skip none (token :: rest)).length < (token :: rest).length := by
  have hlength {openLine : Option UInt32} : (skip openLine rest).length < (token :: rest).length :=
    Nat.lt_succ_of_le (skip_suffix openLine rest).length_le
  rw [skip, h]
  simp only [Option.any_none, Bool.or_false, Bool.false_eq_true, if_false]
  split
  · exact Nat.lt_succ_self _
  · exact hlength
  · exact hlength

theorem skip_cons_of_openString {openLine : Option UInt32} {token : Token} {rest : List Token}
    (h : token.kind = .fault .openString) (hline : ¬ openLine.any (· < token.line)) :
    skip openLine (token :: rest) = skip (some token.line) rest := by
  simp [skip, Token.isDone, h, hline]

theorem skip_cons_of_isInner {openLine : Option UInt32} {token : Token} {rest : List Token}
    (h : isInner token) (hopen : token.kind ≠ .fault .openString)
    (hline : ¬ openLine.any (· < token.line)) :
    skip openLine (token :: rest) = skip openLine rest := by
  simp only [isInner, isSemicolon, Bool.and_eq_true, Bool.not_eq_true', decide_eq_false_iff_not] at h
  simp only [skip, h.2, hline, Bool.or_self, Bool.false_eq_true, if_false]
  split
  · exact absurd ‹_› h.1
  · exact absurd ‹_› hopen
  · rfl

theorem skip_append_of_isInner {inner tokens : List Token}
    (h : ∀ token ∈ inner, isInner token ∧ token.kind ≠ .fault .openString) :
    skip none (inner ++ tokens) = skip none tokens := by
  induction inner with
  | nil => rfl
  | cons token inner ih =>
    obtain ⟨hinner, hopen⟩ := h token List.mem_cons_self
    rw [List.cons_append, skip_cons_of_isInner hinner hopen (by simp)]
    exact ih fun other hother => h other (List.mem_cons_of_mem _ hother)

/-- What skipping passes: a statement with its semicolon, or inner tokens up to the end of the text
or up to a later line than one with an open string. -/
inductive Passed (openLine : Option UInt32) (behind : List Token) : List Token → Prop
  | semicolon {inner : List Token} {semicolon : Token} (hinner : ∀ token ∈ inner, isInner token)
      (hsemicolon : isSemicolon semicolon) : Passed openLine behind (inner ++ [semicolon])
  | toEnd {inner : List Token} (hinner : ∀ token ∈ inner, isInner token)
      (hend : Reader.atEnd behind) : Passed openLine behind inner
  | openString {inner : List Token} (hinner : ∀ token ∈ inner, isInner token)
      (hopen : openLine ≠ none ∨ ∃ token ∈ inner, token.kind = .fault .openString) :
      Passed openLine behind inner

theorem Passed.cons {openLine : Option UInt32} {behind piece : List Token} {token : Token}
    (h : Passed openLine behind piece) (htoken : isInner token) :
    Passed openLine behind (token :: piece) := by
  cases h with
  | @semicolon inner semicolon hinner hsemicolon =>
    exact .semicolon (List.forall_mem_cons.2 ⟨htoken, hinner⟩) hsemicolon
  | toEnd hinner hend => exact .toEnd (List.forall_mem_cons.2 ⟨htoken, hinner⟩) hend
  | openString hinner hopen =>
    refine .openString (List.forall_mem_cons.2 ⟨htoken, hinner⟩) (hopen.imp_right ?_)
    rintro ⟨other, hother, hkind⟩
    exact ⟨other, List.mem_cons_of_mem _ hother, hkind⟩

theorem Passed.of_openString {openLine : Option UInt32} {line : UInt32} {behind piece : List Token}
    {token : Token} (h : Passed (some line) behind piece) (htoken : token.kind = .fault .openString) :
    Passed openLine behind (token :: piece) := by
  have hinner : isInner token := by simp [isInner, isSemicolon, Token.isDone, htoken]
  have hopen : ∃ other ∈ token :: piece, other.kind = .fault .openString :=
    ⟨token, List.mem_cons_self, htoken⟩
  cases h with
  | semicolon h hsemicolon => exact .semicolon (List.forall_mem_cons.2 ⟨hinner, h⟩) hsemicolon
  | toEnd h | openString h => exact .openString (List.forall_mem_cons.2 ⟨hinner, h⟩) (.inr hopen)

theorem exists_passed (openLine : Option UInt32) (tokens : List Token) :
    ∃ piece, tokens = piece ++ skip openLine tokens ∧
      Passed openLine (skip openLine tokens) piece := by
  induction tokens generalizing openLine with
  | nil => exact ⟨[], rfl, .toEnd (by simp) rfl⟩
  | cons token rest ih =>
    by_cases hdone : token.isDone
    · rw [skip_cons_of_isDone hdone]
      exact ⟨[], rfl, .toEnd (by simp) hdone⟩
    by_cases hline : openLine.any (· < token.line)
    · have hskip : skip openLine (token :: rest) = token :: rest := by simp [skip, hline]
      rw [hskip]
      refine ⟨[], rfl, .openString (by simp) (.inl ?_)⟩
      rintro rfl
      simp at hline
    by_cases hsemicolon : isSemicolon token
    · have hskip : skip openLine (token :: rest) = rest := by
        simp [skip, Token.isDone, isSemicolon_iff.1 hsemicolon, hline]
      rw [hskip]
      have hpassed : Passed openLine rest ([] ++ [token]) := .semicolon (by simp) hsemicolon
      exact ⟨[token], rfl, hpassed⟩
    have hinner : isInner token := by simp [isInner, hsemicolon, hdone]
    by_cases hopen : token.kind = .fault .openString
    · rw [skip_cons_of_openString hopen hline]
      obtain ⟨piece, hrest, hpassed⟩ := ih (some token.line)
      exact ⟨token :: piece, congrArg _ hrest, hpassed.of_openString hopen⟩
    · rw [skip_cons_of_isInner hinner hopen hline]
      obtain ⟨piece, hrest, hpassed⟩ := ih openLine
      exact ⟨token :: piece, congrArg _ hrest, hpassed.cons hinner⟩

/-! ## Pieces -/

/-- The tokens up to the end of the text, in the pieces that skipping passes. -/
def pieces : List Token → List (List Token)
  | [] => []
  | token :: rest =>
    if h : token.isDone = false then
      have _ : (skip none (token :: rest)).length < (token :: rest).length := skip_length_lt h
      let behind := skip none (token :: rest)
      (token :: rest).take ((token :: rest).length - behind.length) :: pieces behind
    else []
termination_by tokens => tokens.length
decreasing_by assumption

theorem pieces_of_atEnd {tokens : List Token} (h : Reader.atEnd tokens) : pieces tokens = [] := by
  match tokens with
  | [] => rw [pieces]
  | token :: rest =>
    have hdone : token.isDone = true := h
    rw [pieces, dif_neg (by simp [hdone])]

theorem pieces_append {piece behind : List Token} (hskip : skip none (piece ++ behind) = behind)
    (hend : ¬ Reader.atEnd (piece ++ behind)) : pieces (piece ++ behind) = piece :: pieces behind := by
  match hpiece : piece ++ behind with
  | [] => simp [hpiece, Reader.atEnd] at hend
  | token :: rest =>
    have hdone : token.isDone = false := by simpa [hpiece, Reader.atEnd] using hend
    rw [pieces, dif_pos hdone]
    simp only [← hpiece, hskip]
    simp

/-- Pieces that hold more than a semicolon. -/
def statementPieces (pieces : List (List Token)) : List (List Token) :=
  pieces.filter fun piece => !piece.all isSemicolon

theorem statementPieces_dropWhile (tokens : List Token) :
    statementPieces (pieces (tokens.dropWhile isSemicolon)) = statementPieces (pieces tokens) := by
  induction tokens with
  | nil => rfl
  | cons token rest ih =>
    by_cases h : isSemicolon token
    · have hskip : skip none ([token] ++ rest) = rest := skip_cons_of_isSemicolon h
      have hend : ¬ Reader.atEnd ([token] ++ rest) := by
        simp [Reader.atEnd, Token.isDone, isSemicolon_iff.1 h]
      rw [List.dropWhile_cons_of_pos h, ih]
      have hpieces : pieces (token :: rest) = [token] :: pieces rest := pieces_append hskip hend
      simp [hpieces, statementPieces, h]
    · rw [List.dropWhile_cons_of_neg h]

theorem exists_cons_of_not_atEnd {tokens : List Token} (hend : ¬ Reader.atEnd (tokens.dropWhile isSemicolon)) :
    ∃ token more, tokens.dropWhile isSemicolon = token :: more ∧ token.isDone = false ∧
      isSemicolon token = false := by
  have hhead := List.head?_dropWhile_not isSemicolon tokens
  cases hmore : tokens.dropWhile isSemicolon with
  | nil => exact absurd (hmore ▸ rfl) hend
  | cons token more =>
    rw [hmore] at hhead
    exact ⟨token, more, rfl, by simpa [hmore, Reader.atEnd] using hend, hhead⟩

theorem exists_first_piece {tokens : List Token} (hend : ¬ Reader.atEnd (tokens.dropWhile isSemicolon)) :
    ∃ piece behind, tokens.dropWhile isSemicolon = piece ++ behind ∧
      skip none (piece ++ behind) = behind ∧ Passed none behind piece ∧ piece ≠ [] ∧
      statementPieces (pieces tokens) = piece :: statementPieces (pieces behind) := by
  obtain ⟨token, more, hmore, hdone, htoken⟩ := exists_cons_of_not_atEnd hend
  obtain ⟨piece, happend, hpassed⟩ := exists_passed none (token :: more)
  have hlength : (skip none (token :: more)).length < (token :: more).length := skip_length_lt hdone
  generalize hbehind : skip none (token :: more) = behind at happend hpassed hlength
  have hne : piece ≠ [] := by
    rintro rfl
    simp [happend] at hlength
  have hskip : skip none (piece ++ behind) = behind := happend ▸ hbehind
  have hend' : ¬ Reader.atEnd (piece ++ behind) := happend ▸ hmore ▸ hend
  have hkept : piece.all isSemicolon = false := by
    obtain ⟨first, piece, rfl⟩ := List.exists_cons_of_ne_nil hne
    obtain ⟨rfl, -⟩ := List.cons.inj happend
    simp [htoken]
  refine ⟨piece, behind, hmore.trans happend, hskip, hpassed, hne, ?_⟩
  rw [← statementPieces_dropWhile, hmore, happend, pieces_append hskip hend']
  simp [statementPieces, hkept]

/-! ## Pieces by stops

Where every string without an end is the last token of its line, no token but the stops themselves
matters for the pieces. -/

theorem skip_behind_stop {stop final : Token} {rest : List Token} (hstop : isStop stop)
    (hfinal : final.isDone) (hlines : OpenStringsEndLines (stop :: rest)) :
    skip none (stop :: rest ++ [final]) = rest ++ [final] := by
  simp only [isStop, Bool.or_eq_true, decide_eq_true_eq] at hstop
  rcases hstop with hsemicolon | hopen
  · exact skip_cons_of_isSemicolon hsemicolon
  rw [List.cons_append, skip_cons_of_openString hopen (by simp)]
  match rest with
  | [] => exact skip_cons_of_isDone hfinal
  | next :: rest =>
    have hline : stop.line < next.line := (List.isChain_cons_cons.1 hlines).1 hopen
    simp [skip, hline]

theorem pieces_concat {tokens : List Token} {final : Token} (hfinal : final.isDone)
    (htokens : ∀ token ∈ tokens, ¬ token.isDone) (hlines : OpenStringsEndLines tokens) :
    pieces (tokens ++ [final]) = cutAfter isStop tokens := by
  have skip_front {front tokens : List Token} (hfront : ∀ token ∈ front, isStop token = false)
      (hdone : ∀ token ∈ front, ¬ token.isDone) :
      skip none (front ++ tokens) = skip none tokens := by
    refine skip_append_of_isInner fun token htoken => ?_
    have hstop := hfront token htoken
    simp only [isStop, Bool.or_eq_false_iff, decide_eq_false_iff_not] at hstop
    exact ⟨by simp [isInner, hstop.1, hdone token htoken], hstop.2⟩
  have not_atEnd {tokens : List Token} (htokens : ∀ token ∈ tokens, ¬ token.isDone) (hne : tokens ≠ []) :
      ¬ Reader.atEnd (tokens ++ [final]) := by
    obtain ⟨token, rest, rfl⟩ := List.exists_cons_of_ne_nil hne
    exact htokens token List.mem_cons_self
  rcases exists_first_or_forall isStop tokens with ⟨front, stop, rest, rfl, hfront, hstop⟩ | hall
  · have hrest : ∀ token ∈ rest, ¬ token.isDone := fun token htoken => htokens token (by simp [htoken])
    have hsuffix : OpenStringsEndLines (stop :: rest) := hlines.suffix (List.suffix_append _ _)
    have hskip : skip none ((front ++ [stop]) ++ (rest ++ [final])) = rest ++ [final] := by
      have hbehind := skip_behind_stop hstop hfinal hsuffix
      rw [List.append_assoc, skip_front hfront fun token htoken => htokens token (by simp [htoken])]
      exact hbehind
    have hend : ¬ Reader.atEnd ((front ++ [stop]) ++ (rest ++ [final])) := by
      simpa using not_atEnd htokens (by simp)
    have ih := pieces_concat hfinal hrest hsuffix.tail
    rw [cutAfter_append_cons hfront hstop, ← ih, ← pieces_append hskip hend]
    simp
  · by_cases hne : tokens = []
    · subst hne
      exact pieces_of_atEnd hfinal
    · have hskip : skip none (tokens ++ [final]) = [final] :=
        (skip_front hall htokens).trans (skip_cons_of_isDone hfinal)
      have hfinal : pieces [final] = [] := pieces_of_atEnd hfinal
      rw [cutAfter_of_none hall hne, pieces_append hskip (not_atEnd htokens hne), hfinal]
termination_by tokens.length

end Statement

end ScenarioScript
