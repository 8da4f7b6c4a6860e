import ScenarioScript.Proofs.Glob.Pieces

/-!
# Scanning with one star in mind

A scan goes through a pattern and a text from front to back. Where a character does not fit, it goes back to the
last star, which then takes one character more. No earlier star has to be tried again, so the scan finds out what
the rows say. It never looks outside of the pattern and the text.
-/

namespace ScenarioScript.Glob

/-! ## Scans -/

/-- How far a scan has come in the pattern and in the text. It knows where the last star stands, and how far in the
text that star reaches. -/
structure Scan where
  inPattern : Nat
  inText : Nat
  star : Option (Nat × Nat)

namespace Scan

def start : Scan := ⟨0, 0, none⟩

/-- Back to the last star, which takes one character more. Without a star there is no match. -/
def back (scan : Scan) : Scan ⊕ Bool :=
  match scan.star with
  | some (place, reach) => .inl ⟨place + 1, reach + 1, some (place, reach + 1)⟩
  | none => .inr false

/-- One move leads to another scan or to the answer. There is none if it had to look outside of the text or of the
pattern. Behind the text only stars may be left of the pattern. -/
def move (pattern text : List Char) (scan : Scan) : Option (Scan ⊕ Bool) :=
  if scan.inText < text.length then
    text[scan.inText]?.map fun t =>
      match pattern[scan.inPattern]? with
      | some c =>
        if c = '*' then .inl ⟨scan.inPattern + 1, scan.inText, some (scan.inPattern, scan.inText)⟩
        else if takes c t then .inl ⟨scan.inPattern + 1, scan.inText + 1, scan.star⟩
        else scan.back
      | none => scan.back
  else if scan.inPattern ≤ pattern.length then some (.inr ((pattern.drop scan.inPattern).all (· = '*')))
  else none

/-- The answer, if a scan comes to one within some moves. -/
def run (pattern text : List Char) : (moves : Nat) → Scan → Option Bool
  | 0, _ => none
  | moves + 1, scan =>
    match scan.move pattern text with
    | some (.inl next) => run pattern text moves next
    | some (.inr answer) => some answer
    | none => none

/-! ## What has been passed -/

/-- The characters of a pattern, of which none is a star, take the characters of a text one by one. -/
def Passes : (front passed : List Char) → Prop := List.Forall₂ fun c t => c ≠ '*' ∧ takes c t

section
variable {front passed pattern text rest : List Char}

theorem Passes.matches_append_iff (h : Passes front passed) :
    Matches (front ++ pattern) (passed ++ text) ↔ Matches pattern text := by
  induction h with
  | nil => rfl
  | cons hfits _ ih => simp [matches_char_iff hfits.1, hfits.2, ih]

theorem Passes.exists_of_matches (h : Passes front passed) (hmatches : Matches (front ++ pattern) text) :
    ∃ other rest, text = other ++ rest ∧ other.length = passed.length ∧ Matches pattern rest := by
  induction h generalizing text with
  | nil => exact ⟨[], text, rfl, rfl, hmatches⟩
  | cons hfits _ ih =>
    obtain ⟨t, behind, rfl, -, hbehind⟩ := (matches_char_iff hfits.1).1 hmatches
    obtain ⟨other, rest, rfl, hlength, hrest⟩ := ih hbehind
    exact ⟨t :: other, rest, rfl, congrArg (· + 1) hlength, hrest⟩

/-- What a star and the characters behind it match can be had without trying the star again: if the star takes
more, then what is left can be found behind what has been passed as well. -/
theorem Passes.matches_star (h : Passes front passed)
    (hmatches : Matches ('*' :: (front ++ pattern)) (passed ++ text)) : Matches ('*' :: pattern) text := by
  obtain ⟨later, hlater, hmatches⟩ := matches_star_iff.1 hmatches
  obtain ⟨other, rest, rfl, hlength, hrest⟩ := h.exists_of_matches hmatches
  have hle : rest.length ≤ text.length := by
    have hle := hlater.length_le
    simp only [List.length_append] at hle
    omega
  have hsuffix : rest <:+ passed ++ text := (List.suffix_append other rest).trans hlater
  exact matches_star_iff.2 ⟨rest, List.suffix_of_suffix_length_le hsuffix (List.suffix_append passed text) hle, hrest⟩

theorem Passes.matches_star_star_iff (h : Passes front passed) :
    Matches ('*' :: (front ++ '*' :: pattern)) (passed ++ text) ↔ Matches ('*' :: pattern) text := by
  constructor
  · intro hmatches
    exact Glob.matches_star_star_iff.1 (h.matches_star hmatches)
  · intro hmatches
    exact matches_star_of_matches (h.matches_append_iff.2 hmatches)

theorem Passes.matches_star_end_iff (h : Passes front passed) :
    Matches ('*' :: (front ++ pattern)) passed ↔ Matches pattern [] := by
  constructor
  · intro hmatches
    rw [← List.append_nil passed] at hmatches
    exact matches_star_nil_iff.1 (h.matches_star hmatches)
  · intro hmatches
    have hfront := h.matches_append_iff.2 hmatches
    rw [List.append_nil] at hfront
    exact matches_star_of_matches hfront

end

/-! ## What a scan knows -/

/-- How many moves there can be from a scan on. It gets less with each move: a star that is tried again reaches
further, and behind a later star there is less of the pattern. -/
def movesLeft (pattern text : List Char) (scan : Scan) : Nat :=
  (match scan.star with
    | some (place, reach) => (text.length - reach) * (pattern.length - place)
    | none => text.length * pattern.length) + (pattern.length - scan.inPattern)

/-- The scan is inside, and the text matches just if what is in front of the scan does. With a star this has to hold
of some place that the star can reach to, and between there and the scan all has been passed. -/
inductive Tracks (pattern text : List Char) : Scan → Prop
  | unstarred {inPattern inText : Nat} (hpattern : inPattern ≤ pattern.length) (htext : inText ≤ text.length)
      (hmatches : Matches pattern text ↔ Matches (pattern.drop inPattern) (text.drop inText)) :
      Tracks pattern text ⟨inPattern, inText, none⟩
  | starred {inPattern inText place reach : Nat} {front passed : List Char} (hpattern : inPattern ≤ pattern.length)
      (htext : inText ≤ text.length) (hplace : place < inPattern) (hreach : reach ≤ inText)
      (hfront : pattern.drop (place + 1) = front ++ pattern.drop inPattern)
      (hpassed : text.drop reach = passed ++ text.drop inText) (hpasses : Passes front passed)
      (hmatches : Matches pattern text ↔ Matches ('*' :: pattern.drop (place + 1)) (text.drop reach)) :
      Tracks pattern text ⟨inPattern, inText, some (place, reach)⟩

/-- The next scan knows as much and has fewer moves left. An answer is right. -/
def Leads (pattern text : List Char) (scan : Scan) : Scan ⊕ Bool → Prop
  | .inl next => next.Tracks pattern text ∧ next.movesLeft pattern text < scan.movesLeft pattern text
  | .inr answer => answer ↔ Matches pattern text

section
variable {pattern text : List Char} {inPattern inText : Nat} {star : Option (Nat × Nat)} {c t : Char}

theorem drop_of_getElem? {chars : List Char} {place : Nat} (h : chars[place]? = some c) :
    chars.drop place = c :: chars.drop (place + 1) := by
  obtain ⟨hlt, rfl⟩ := List.getElem?_eq_some_iff.1 h
  exact List.drop_eq_getElem_cons hlt

theorem Tracks.leads_star (h : Tracks pattern text ⟨inPattern, inText, star⟩) (htext : inText < text.length)
    (hstar : pattern[inPattern]? = some '*') :
    Leads pattern text ⟨inPattern, inText, star⟩ (.inl ⟨inPattern + 1, inText, some (inPattern, inText)⟩) := by
  have hlt : inPattern < pattern.length := (List.getElem?_eq_some_iff.1 hstar).1
  have hdrop := drop_of_getElem? hstar
  constructor
  · refine .starred hlt (Nat.le_of_lt htext) (Nat.lt_succ_self _) (Nat.le_refl _) rfl rfl .nil ?_
    cases h with
    | unstarred _ _ hmatches => rw [hmatches, hdrop]
    | starred _ _ _ _ hfront hpassed hpasses hmatches =>
      rw [hmatches, hfront, hpassed, hdrop]
      exact hpasses.matches_star_star_iff
  · cases h with
    | unstarred =>
      have hle : (text.length - inText) * (pattern.length - inPattern) ≤ text.length * pattern.length :=
        Nat.mul_le_mul (Nat.sub_le _ _) (Nat.sub_le _ _)
      simp only [movesLeft]
      omega
    | @starred _ _ place reach _ _ _ _ hplace hreach =>
      have hle : (text.length - inText) * (pattern.length - inPattern) ≤
          (text.length - reach) * (pattern.length - place) :=
        Nat.mul_le_mul (Nat.sub_le_sub_left hreach _) (Nat.sub_le_sub_left (Nat.le_of_lt hplace) _)
      simp only [movesLeft]
      omega

theorem Tracks.leads_take (h : Tracks pattern text ⟨inPattern, inText, star⟩) (ht : text[inText]? = some t)
    (hc : pattern[inPattern]? = some c) (hne : c ≠ '*') (htakes : takes c t) :
    Leads pattern text ⟨inPattern, inText, star⟩ (.inl ⟨inPattern + 1, inText + 1, star⟩) := by
  have hlt : inPattern < pattern.length := (List.getElem?_eq_some_iff.1 hc).1
  have htext : inText < text.length := (List.getElem?_eq_some_iff.1 ht).1
  have hdrop := drop_of_getElem? hc
  have hdropText := drop_of_getElem? ht
  have hone : Passes [c] [t] := .cons ⟨hne, htakes⟩ .nil
  constructor
  · cases h with
    | unstarred _ _ hmatches =>
      refine .unstarred hlt htext ?_
      rw [hmatches, hdrop, hdropText]
      exact hone.matches_append_iff
    | @starred _ _ place reach front passed _ _ hplace hreach hfront hpassed hpasses hmatches =>
      have hfront : pattern.drop (place + 1) = (front ++ [c]) ++ pattern.drop (inPattern + 1) := by
        rw [hfront, hdrop, List.append_assoc, List.singleton_append]
      have hpassed : text.drop reach = (passed ++ [t]) ++ text.drop (inText + 1) := by
        rw [hpassed, hdropText, List.append_assoc, List.singleton_append]
      have hpasses : Passes (front ++ [c]) (passed ++ [t]) := List.rel_append hpasses hone
      exact .starred hlt htext (Nat.lt_succ_of_lt hplace) (Nat.le_succ_of_le hreach) hfront hpassed hpasses hmatches
  · simp only [movesLeft]
    omega

theorem Tracks.leads_back (h : Tracks pattern text ⟨inPattern, inText, star⟩) (htext : inText < text.length)
    (hmismatch : ¬ Matches (pattern.drop inPattern) (text.drop inText)) :
    Leads pattern text ⟨inPattern, inText, star⟩ (back ⟨inPattern, inText, star⟩) := by
  cases h with
  | unstarred _ _ hmatches => simpa [Leads, back, hmatches] using hmismatch
  | @starred _ _ place reach front passed hpattern _ hplace hreach hfront hpassed hpasses hmatches =>
    have hreached : reach < text.length := Nat.lt_of_le_of_lt hreach htext
    have hhere : ¬ Matches (pattern.drop (place + 1)) (text.drop reach) := by
      rwa [hfront, hpassed, hpasses.matches_append_iff]
    -- what is in front of the scan does not fit, so the star has to reach further
    constructor
    · refine .starred (Nat.le_trans hplace hpattern) hreached (Nat.lt_succ_self _)
        (Nat.le_refl _) rfl rfl .nil ?_
      rw [List.drop_eq_getElem_cons hreached] at hhere hmatches
      rw [hmatches, matches_star_cons_iff, or_iff_right hhere]
    · have hmul : (text.length - reach) * (pattern.length - place) =
          (text.length - (reach + 1)) * (pattern.length - place) + (pattern.length - place) := by
        rw [← Nat.succ_mul]
        congr 1
        omega
      simp only [movesLeft, hmul]
      omega

theorem Tracks.leads_end (h : Tracks pattern text ⟨inPattern, inText, star⟩) (htext : text.length ≤ inText) :
    Leads pattern text ⟨inPattern, inText, star⟩ (.inr ((pattern.drop inPattern).all (· = '*'))) := by
  have hdrop : text.drop inText = [] := List.drop_eq_nil_of_le htext
  unfold Leads
  dsimp only
  rw [← matches_nil_text_iff]
  cases h with
  | unstarred _ _ hmatches => rw [hmatches, hdrop]
  | starred _ _ _ _ hfront hpassed hpasses hmatches =>
    rw [hmatches, hfront, hpassed, hdrop, List.append_nil]
    exact hpasses.matches_star_end_iff.symm

end

/-! ## Moves and runs -/

section
variable {pattern text : List Char} {scan : Scan}

theorem Tracks.exists_move (h : scan.Tracks pattern text) :
    ∃ result, scan.move pattern text = some result ∧ Leads pattern text scan result := by
  obtain ⟨inPattern, inText, star⟩ := scan
  unfold move
  dsimp only
  by_cases htext : inText < text.length
  · obtain ⟨t, ht⟩ : ∃ t, text[inText]? = some t := ⟨_, List.getElem?_eq_getElem htext⟩
    have hdropText := drop_of_getElem? ht
    rw [if_pos htext, ht, Option.map_some]
    refine ⟨_, rfl, ?_⟩
    cases hc : pattern[inPattern]? with
    | none =>
      have hdrop : pattern.drop inPattern = [] := List.drop_eq_nil_of_le (List.getElem?_eq_none_iff.1 hc)
      refine h.leads_back htext ?_
      rw [hdrop, hdropText]
      simp
    | some c =>
      dsimp only
      split
      · rename_i hstar
        exact h.leads_star htext (hstar ▸ hc)
      · rename_i hne
        split
        · rename_i htakes
          exact h.leads_take ht hc hne htakes
        · rename_i htakes
          refine h.leads_back htext ?_
          rw [drop_of_getElem? hc, hdropText]
          simp [matches_char_iff hne, htakes]
  · have hpattern : inPattern ≤ pattern.length := by cases h <;> assumption
    rw [if_neg htext, if_pos hpattern]
    exact ⟨_, rfl, h.leads_end (Nat.le_of_not_lt htext)⟩

theorem Tracks.run (h : scan.Tracks pattern text) {moves : Nat} (hmoves : scan.movesLeft pattern text < moves) :
    scan.run pattern text moves = some (isMatch pattern text) := by
  induction moves generalizing scan with
  | zero => exact absurd hmoves (Nat.not_lt_zero _)
  | succ moves ih =>
    obtain ⟨result, hmove, hleads⟩ := h.exists_move
    unfold Scan.run
    rw [hmove]
    cases result with
    | inl next => exact ih hleads.1 (Nat.lt_of_lt_of_le hleads.2 (Nat.le_of_lt_succ hmoves))
    | inr answer =>
      have hanswer : answer = isMatch pattern text := Bool.eq_iff_iff.2 (hleads.trans (isMatch_iff_matches _ _).symm)
      exact congrArg some hanswer

end

end Scan

/-- A pattern matches just if the text can be cut into pieces that fit its characters one by one. A scan that only
ever goes back to the last star finds this out too. It always comes to an answer, within as many moves as the
pattern is long for each place of the text, and it looks at no place that is not there. -/
theorem isMatch_iff_cut (pattern text : List Char) :
    (isMatch pattern text ↔ ∃ pieces : List (List Char), text = pieces.flatten ∧ List.Forall₂ Fits pattern pieces) ∧
      Scan.start.run pattern text ((text.length + 1) * pattern.length + 1) = some (isMatch pattern text) := by
  refine ⟨isMatch_iff_matches pattern text, ?_⟩
  have hstart : Scan.start.Tracks pattern text := .unstarred (Nat.zero_le _) (Nat.zero_le _) Iff.rfl
  refine hstart.run ?_
  simp [Scan.movesLeft, Scan.start, Nat.succ_mul]

example : isMatch "*a?b*".toList "aabab".toList = true := by decide

end ScenarioScript.Glob
