import Mathlib.Data.List.Forall2
import ScenarioScript.Glob

/-!
# What a wildcard pattern matches

A text matches a pattern if it can be cut into pieces, one for each character of the pattern. The rows say the
same of every place in the text.
-/

namespace ScenarioScript.Glob

/-! ## Pieces -/

/-- What a character of a pattern stands for. -/
def Fits (c : Char) (piece : List Char) : Prop :=
  if c = '*' then True else if c = '?' then piece.length = 1 else piece = [c]

/-- The text can be cut into consecutive pieces that fit the characters of the pattern one by one. -/
def Matches (pattern text : List Char) : Prop :=
  ∃ pieces : List (List Char), text = pieces.flatten ∧ List.Forall₂ Fits pattern pieces

/-- Whether a character of a pattern, other than a star, stands for a character. -/
def takes (c t : Char) : Bool := c = '?' || c = t

section
variable {c t : Char} {piece pattern text rest : List Char}

theorem fits_star (piece : List Char) : Fits '*' piece := by
  unfold Fits
  simp

theorem fits_iff_takes (hc : c ≠ '*') : Fits c piece ↔ ∃ t, piece = [t] ∧ takes c t := by
  unfold Fits takes
  rw [if_neg hc]
  split
  · rename_i hquestion
    simp [hquestion, List.length_eq_one_iff]
  · rename_i hquestion
    simp [hquestion, eq_comm]

@[simp] theorem matches_nil_iff : Matches [] text ↔ text = [] := by
  constructor
  · rintro ⟨pieces, rfl, h⟩
    cases h
    rfl
  · rintro rfl
    exact ⟨[], rfl, .nil⟩

theorem matches_cons_iff :
    Matches (c :: pattern) text ↔ ∃ piece rest, text = piece ++ rest ∧ Fits c piece ∧ Matches pattern rest := by
  constructor
  · rintro ⟨_, rfl, h⟩
    obtain _ | ⟨hpiece, hpieces⟩ := h
    exact ⟨_, _, List.flatten_cons, hpiece, _, rfl, hpieces⟩
  · rintro ⟨piece, _, rfl, hpiece, pieces, rfl, hpieces⟩
    exact ⟨piece :: pieces, List.flatten_cons.symm, .cons hpiece hpieces⟩

theorem matches_star_iff : Matches ('*' :: pattern) text ↔ ∃ rest, rest <:+ text ∧ Matches pattern rest := by
  rw [matches_cons_iff]
  constructor
  · rintro ⟨piece, rest, rfl, -, h⟩
    exact ⟨rest, List.suffix_append piece rest, h⟩
  · rintro ⟨rest, ⟨piece, rfl⟩, h⟩
    exact ⟨piece, rest, rfl, fits_star piece, h⟩

theorem matches_star_nil_iff : Matches ('*' :: pattern) [] ↔ Matches pattern [] := by
  simp [matches_star_iff]

theorem matches_star_cons_iff :
    Matches ('*' :: pattern) (t :: text) ↔ Matches pattern (t :: text) ∨ Matches ('*' :: pattern) text := by
  simp only [matches_star_iff, List.suffix_cons_iff, or_and_right, exists_or, exists_eq_left]

theorem matches_star_of_suffix (hsuffix : rest <:+ text) (h : Matches ('*' :: pattern) rest) :
    Matches ('*' :: pattern) text := by
  obtain ⟨last, hlast, h⟩ := matches_star_iff.1 h
  exact matches_star_iff.2 ⟨last, hlast.trans hsuffix, h⟩

theorem matches_star_of_matches (h : Matches pattern text) : Matches ('*' :: pattern) text :=
  matches_star_iff.2 ⟨text, List.suffix_rfl, h⟩

theorem matches_star_star_iff : Matches ('*' :: '*' :: pattern) text ↔ Matches ('*' :: pattern) text := by
  constructor
  · intro h
    obtain ⟨rest, hsuffix, h⟩ := matches_star_iff.1 h
    exact matches_star_of_suffix hsuffix h
  · exact matches_star_of_matches

theorem matches_char_iff (hc : c ≠ '*') :
    Matches (c :: pattern) text ↔ ∃ t rest, text = t :: rest ∧ takes c t ∧ Matches pattern rest := by
  rw [matches_cons_iff]
  constructor
  · rintro ⟨piece, rest, rfl, hpiece, h⟩
    obtain ⟨t, rfl, ht⟩ := (fits_iff_takes hc).1 hpiece
    exact ⟨t, rest, rfl, ht, h⟩
  · rintro ⟨t, rest, rfl, ht, h⟩
    exact ⟨[t], rest, rfl, (fits_iff_takes hc).2 ⟨t, rfl, ht⟩, h⟩

theorem matches_nil_text_iff : Matches pattern [] ↔ pattern.all (· = '*') := by
  induction pattern with
  | nil => simp
  | cons c pattern ih =>
    by_cases hc : c = '*'
    · subst hc
      rw [matches_star_nil_iff, ih]
      simp
    · simp [matches_char_iff hc, hc]

end

/-! ## Rows -/

section
variable {c t : Char} {text pattern : List Char}

theorem row_char (hc : c ≠ '*') : row text (c :: pattern) = charRow c text (row text pattern) := by
  rw [row]
  exact fun h => absurd h hc

theorem length_starRow (row : List Bool) : (starRow row).length = row.length := by
  induction row with
  | nil => rfl
  | cons here later ih => simp [starRow, ih]

theorem length_charRow {row : List Bool} (h : row.length = text.length + 1) :
    (charRow c text row).length = text.length + 1 := by
  induction text generalizing row with
  | nil => rfl
  | cons t text ih =>
    match row with
    | _ :: next :: later => simpa [charRow] using ih (by simpa using h)

theorem length_row (text pattern : List Char) : (row text pattern).length = text.length + 1 := by
  induction pattern with
  | nil => simp [row]
  | cons c pattern ih =>
    by_cases hc : c = '*'
    · subst hc
      rw [row, length_starRow, ih]
    · rw [row_char hc, length_charRow ih]

theorem exists_row_eq_cons (text pattern : List Char) : ∃ later, row text pattern = isMatch pattern text :: later := by
  have hne : row text pattern ≠ [] := List.ne_nil_of_length_eq_add_one (length_row text pattern)
  obtain ⟨here, later, hrow⟩ := List.exists_cons_of_ne_nil hne
  rw [isMatch, hrow]
  exact ⟨later, rfl⟩

theorem row_cons (t : Char) (text pattern : List Char) :
    row (t :: text) pattern = isMatch pattern (t :: text) :: row text pattern := by
  have hcons : ∃ here, row (t :: text) pattern = here :: row text pattern := by
    induction pattern with
    | nil => exact ⟨false, rfl⟩
    | cons c pattern ih =>
      obtain ⟨here, hhere⟩ := ih
      by_cases hc : c = '*'
      · subst hc
        rw [row, hhere]
        exact ⟨_, rfl⟩
      · obtain ⟨later, hlater⟩ := exists_row_eq_cons text pattern
        rw [row_char hc, row_char hc, hhere, hlater]
        exact ⟨_, rfl⟩
  obtain ⟨here, hhere⟩ := hcons
  rw [isMatch, hhere]
  rfl

theorem isMatch_star_nil : isMatch ('*' :: pattern) [] = isMatch pattern [] := by
  obtain ⟨later, hlater⟩ := exists_row_eq_cons [] pattern
  have hlength := length_row [] pattern
  rw [hlater, List.length_cons, List.length_nil, Nat.zero_add, Nat.add_eq_right] at hlength
  rw [isMatch, row, hlater, List.length_eq_zero_iff.1 hlength]
  exact Bool.or_false _

theorem isMatch_star_cons :
    isMatch ('*' :: pattern) (t :: text) = (isMatch pattern (t :: text) || isMatch ('*' :: pattern) text) := by
  rw [isMatch, row, row_cons]
  rfl

theorem isMatch_char_nil (hc : c ≠ '*') : isMatch (c :: pattern) [] = false := by
  rw [isMatch, row_char hc]
  rfl

theorem isMatch_char_cons (hc : c ≠ '*') :
    isMatch (c :: pattern) (t :: text) = (takes c t && isMatch pattern text) := by
  obtain ⟨later, hlater⟩ := exists_row_eq_cons text pattern
  rw [isMatch, row_char hc, row_cons, hlater]
  rfl

theorem isMatch_iff_matches (pattern text : List Char) : isMatch pattern text ↔ Matches pattern text := by
  induction pattern generalizing text with
  | nil => cases text <;> simp [isMatch, row, List.replicate_succ]
  | cons c pattern ih =>
    by_cases hc : c = '*'
    · subst hc
      induction text with
      | nil => rw [isMatch_star_nil, ih, matches_star_nil_iff]
      | cons t text ihText => rw [isMatch_star_cons, Bool.or_eq_true, ih, ihText, matches_star_cons_iff]
    · cases text with
      | nil => simp [isMatch_char_nil hc, matches_char_iff hc]
      | cons t text => simp [isMatch_char_cons hc, matches_char_iff hc, ih]

end

end ScenarioScript.Glob
