import ScenarioScript.Number.Text
import ScenarioScript.Proofs.Number.Bits
import ScenarioScript.Proofs.Number.Decimal
import ScenarioScript.Proofs.Token.Lexeme

/-!
# The text of a number reads back

A finite double is written as digits, perhaps with a point and more digits, and no exponent. Read
as a number word, they give the same double.
-/

namespace ScenarioScript

namespace Number

/-! ## Digits -/

theorem digitsValue_eq (digits : List Char) : digitsValue digits = Nat.ofDigitChars 10 digits 0 := by
  unfold digitsValue
  rw [Nat.ofDigitChars_eq_foldl]
  congr 1
  funext value c
  rw [Nat.mul_comm]

theorem digitsValue_append (front back : List Char) :
    digitsValue (front ++ back) = digitsValue front * 10 ^ back.length + digitsValue back := by
  rw [digitsValue_eq, digitsValue_eq, digitsValue_eq, Nat.ofDigitChars_append,
    Nat.ofDigitChars_eq_ofDigitChars_zero, Nat.mul_comm]

theorem digitsValue_zeros (count : Nat) : digitsValue (List.replicate count '0') = 0 := by
  rw [digitsValue_eq, Nat.ofDigitChars_replicate_zero, Nat.mul_zero]

theorem digitsValue_toDigits (n : Nat) : digitsValue (Nat.toDigits 10 n) = n := by
  rw [digitsValue_eq, Nat.ofDigitChars_ten_toDigits]

theorem isDigit_of_mem_toDigits {n : Nat} {c : Char} (h : c ∈ Nat.toDigits 10 n) : c.isDigit :=
  Nat.isDigit_of_mem_toDigits (by decide) (by decide) h

/-! ## Digits with a point -/

/-- Digits with a point before the fraction, if there is one. -/
def pointed (whole fraction : List Char) : List Char :=
  whole ++ if fraction.isEmpty then [] else '.' :: fraction

/-- The decimal that digits with a point spell. -/
def pointedDecimal (whole fraction : List Char) : Decimal :=
  ⟨digitsValue (whole ++ fraction), 0 - fraction.length⟩

/-- Digits on both sides, and one at least before the point. -/
structure IsPointed (whole fraction : List Char) : Prop where
  whole_ne_nil : whole ≠ []
  whole_isDigit : ∀ c ∈ whole, c.isDigit
  fraction_isDigit : ∀ c ∈ fraction, c.isDigit

theorem exists_zeros (digits : List Char) :
    ∃ zeros, digits = List.replicate zeros '0' ++ digits.dropWhile (· == '0') := by
  induction digits with
  | nil => exact ⟨0, rfl⟩
  | cons c digits ih =>
    by_cases hc : c = '0'
    · obtain ⟨zeros, hzeros⟩ := ih
      refine ⟨zeros + 1, ?_⟩
      rw [List.dropWhile_cons_of_pos (by simp [hc]), hc, List.replicate_succ, List.cons_append, ← hzeros]
    · refine ⟨0, ?_⟩
      rw [List.dropWhile_cons_of_neg (by simp [hc])]
      rfl

theorem exists_last_zeros (digits : List Char) :
    ∃ zeros, digits = (digits.reverse.dropWhile (· == '0')).reverse ++ List.replicate zeros '0' := by
  obtain ⟨zeros, hzeros⟩ := exists_zeros digits.reverse
  refine ⟨zeros, ?_⟩
  have h := congrArg List.reverse hzeros
  rwa [List.reverse_reverse, List.reverse_append, List.reverse_replicate] at h

theorem exists_withPoint {digits : List Char} (hdigits : ∀ c ∈ digits, c.isDigit) (count : Nat) :
    ∃ whole fraction zeros, withPoint digits count = pointed whole fraction ∧
      IsPointed whole fraction ∧ fraction.length + zeros = count ∧
      digitsValue (whole ++ fraction) * 10 ^ zeros = digitsValue digits := by
  unfold withPoint
  extract_lets padded split fraction
  have hlength : count < padded.length := by
    simp only [padded, List.length_append, List.length_replicate]
    omega
  have hpadded : ∀ c ∈ padded, c.isDigit := by
    intro c hc
    rcases List.mem_append.1 hc with hzero | hdigit
    · rw [List.eq_of_mem_replicate hzero]
      rfl
    · exact hdigits c hdigit
  have hvalue : digitsValue padded = digitsValue digits := by
    rw [digitsValue_append, digitsValue_zeros, Nat.zero_mul, Nat.zero_add]
  have hsplit : split + count = padded.length := Nat.sub_add_cancel hlength.le
  obtain ⟨zeros, hzeros⟩ : ∃ zeros, padded.drop split = fraction ++ List.replicate zeros '0' :=
    exists_last_zeros (padded.drop split)
  refine ⟨padded.take split, fraction, zeros, rfl, ?_⟩
  clear_value fraction split padded
  have happend : padded = padded.take split ++ fraction ++ List.replicate zeros '0' := by
    rw [List.append_assoc, ← hzeros, List.take_append_drop]
  refine ⟨⟨?_, ?_, ?_⟩, ?_, ?_⟩
  · rw [← List.length_pos_iff, List.length_take]
    omega
  · exact fun c hc => hpadded c (List.mem_of_mem_take hc)
  · intro c hc
    apply hpadded
    rw [happend]
    simp [hc]
  · have h := congrArg List.length hzeros
    rw [List.length_drop, List.length_append, List.length_replicate] at h
    omega
  · rw [← hvalue, happend, digitsValue_append (_ ++ _), digitsValue_zeros, List.length_replicate, ← happend]
    rfl

theorem exists_positional (d : Decimal) :
    ∃ whole fraction, positional d = pointed whole fraction ∧ IsPointed whole fraction ∧
      d.steps * Decimal.below (pointedDecimal whole fraction).exponent =
        (pointedDecimal whole fraction).steps * Decimal.below d.exponent := by
  have hdigits {c : Char} (h : c ∈ Nat.toDigits 10 d.digits) : c.isDigit := isDigit_of_mem_toDigits h
  unfold positional
  dsimp only
  split
  · rename_i hexponent
    refine ⟨_, [], (List.append_nil _).symm, ⟨by simp, ?_, by simp⟩, ?_⟩
    · intro c hc
      rcases List.mem_append.1 hc with hdigit | hzero
      · exact hdigits hdigit
      · rw [List.eq_of_mem_replicate hzero]
        rfl
    · have hvalue : digitsValue (Nat.toDigits 10 d.digits ++ List.replicate d.exponent.toNat '0') =
          d.digits * Decimal.above d.exponent := by
        rw [digitsValue_append, digitsValue_toDigits, digitsValue_zeros, List.length_replicate]
        rfl
      unfold Decimal.steps pointedDecimal
      rw [List.append_nil, hvalue]
      change _ * Decimal.below 0 = _ * Decimal.above 0 * _ * _
      rw [Decimal.below_eq_one hexponent, Decimal.below_eq_one le_rfl, Decimal.above_eq_one le_rfl]
      ring
  · rename_i hexponent
    obtain ⟨whole, fraction, zeros, htext, hpointed, hlength, hvalue⟩ :=
      exists_withPoint (fun c hc => hdigits hc) (-d.exponent).toNat
    rw [digitsValue_toDigits] at hvalue
    refine ⟨whole, fraction, htext, hpointed, ?_⟩
    have hbelow : Decimal.below d.exponent = 10 ^ fraction.length * 10 ^ zeros := by
      rw [← Nat.pow_add, hlength]
      rfl
    have hfraction : Decimal.below (0 - fraction.length) = 10 ^ fraction.length := by
      have htoNat : (-(0 - fraction.length : Int)).toNat = fraction.length := by omega
      unfold Decimal.below
      rw [htoNat]
      rfl
    unfold Decimal.steps pointedDecimal
    dsimp only
    rw [hfraction, hbelow, Decimal.above_eq_one (by omega), Decimal.above_eq_one (by omega), ← hvalue]
    ring

/-- The text of a finite double is the nearest one to what it spells. -/
theorem exists_unsigned {rank : Nat} (hrank : rank < infinityRank) :
    ∃ whole fraction, unsigned rank = pointed whole fraction ∧ IsPointed whole fraction ∧
      (pointedDecimal whole fraction).nearestRank = rank := by
  unfold unsigned
  split
  · rename_i hzero
    subst hzero
    exact ⟨['0'], [], rfl, ⟨by simp, by simp, by simp⟩, rfl⟩
  · obtain ⟨whole, fraction, htext, hpointed, hvalue⟩ := exists_positional (Decimal.shortest rank)
    refine ⟨whole, fraction, htext, hpointed, Decimal.nearestRank_of_roundsTo hrank ?_⟩
    exact Decimal.roundsTo_of_eq_value hvalue (Decimal.roundsTo_shortest rank)

/-! ## Reading digits with a point -/

section
variable {whole fraction : List Char}

theorem takeWhile_digits {digits more : List Char} (hdigits : ∀ c ∈ digits, c.isDigit)
    (hmore : ∀ c ∈ more.head?, c.isDigit = false) :
    (digits ++ more).takeWhile Char.isDigit = digits ∧
      (digits ++ more).dropWhile Char.isDigit = more := by
  rw [List.takeWhile_append_of_pos hdigits, List.dropWhile_append_of_pos hdigits]
  cases more with
  | nil => simp
  | cons c more => simp [hmore c rfl]

theorem takeWhile_point (h : ∀ c ∈ whole, c.isDigit) (fraction : List Char) :
    (pointed whole fraction).takeWhile Char.isDigit = whole ∧
      (pointed whole fraction).dropWhile Char.isDigit =
        if fraction.isEmpty then [] else '.' :: fraction := by
  apply takeWhile_digits h
  split <;> simp

theorem readDecimal?_pointed (h : IsPointed whole fraction) :
    readDecimal? (pointed whole fraction) = some (pointedDecimal whole fraction) := by
  obtain ⟨htake, hdrop⟩ := takeWhile_point h.whole_isDigit fraction
  unfold readDecimal?
  rw [htake, hdrop]
  cases fraction with
  | nil => simp [h.whole_ne_nil, readExponent?, pointedDecimal]
  | cons c fraction =>
    have hend : ∀ c ∈ ([] : List Char).head?, c.isDigit = false := by simp
    have hdigits := takeWhile_digits h.fraction_isDigit hend
    rw [List.append_nil] at hdigits
    simp [hdigits, h.whole_ne_nil, readExponent?, pointedDecimal]

theorem toLower_of_isDigit {c : Char} (h : c.isDigit) : c.toLower = c := by
  simp only [Char.isDigit, Bool.and_eq_true, decide_eq_true_eq] at h
  unfold Char.toLower
  rw [dif_neg]
  intro hupper
  have hle : 'A'.val ≤ '9'.val := UInt32.le_trans hupper.1 h.2
  exact absurd hle (by decide)

theorem ofList_toLower_ne {c : Char} (hc : c.isDigit) (text : List Char) {word : String}
    (hword : word.toList.head?.any Char.isDigit = false) :
    String.ofList ((c :: text).map Char.toLower) ≠ word := by
  intro heq
  have hlist := congrArg String.toList heq
  rw [String.toList_ofList] at hlist
  rw [← hlist, List.map_cons, toLower_of_isDigit hc] at hword
  cases hc.symm.trans hword

theorem readUnsigned?_of_isDigit {c : Char} (hc : c.isDigit) (text : List Char) :
    readUnsigned? (c :: text) = (readDecimal? (c :: text)).map Decimal.nearestRank := by
  unfold readUnsigned?
  dsimp only
  rw [if_neg, if_neg]
  · exact ofList_toLower_ne hc text (by decide)
  · exact not_or.2 ⟨ofList_toLower_ne hc text (by decide), ofList_toLower_ne hc text (by decide)⟩

theorem readChars?_of_isDigit {c : Char} (hc : c.isDigit) (text : List Char) :
    readChars? (c :: text) =
      (readDecimal? (c :: text)).map fun d => ofRank false d.nearestRank := by
  have hread : (readUnsigned? (c :: text)).map (ofRank false) =
      (readDecimal? (c :: text)).map fun d => ofRank false d.nearestRank := by
    rw [readUnsigned?_of_isDigit hc, Option.map_map]
    rfl
  rw [← hread]
  unfold readChars?
  split
  · rename_i heq
    cases heq
    cases hc
  · rename_i heq
    cases heq
    cases hc
  · rfl

theorem readChars?_pointed (h : IsPointed whole fraction) :
    readChars? (pointed whole fraction) =
      some (ofRank false (pointedDecimal whole fraction).nearestRank) := by
  have hread := readDecimal?_pointed h
  obtain ⟨c, more, rfl⟩ := List.exists_cons_of_ne_nil h.whole_ne_nil
  have hc : c.isDigit := h.whole_isDigit c List.mem_cons_self
  rw [pointed, List.cons_append] at hread ⊢
  rw [readChars?_of_isDigit hc, hread]
  rfl

/-! ## The number word -/

theorem isDigit_or_point_of_mem (h : IsPointed whole fraction) :
    ∀ c ∈ pointed whole fraction, c.isDigit ∨ c = '.' := by
  intro c hc
  rcases List.mem_append.1 hc with hwhole | hpoint
  · exact .inl (h.whole_isDigit c hwhole)
  · split at hpoint
    · cases hpoint
    · rcases List.mem_cons.1 hpoint with rfl | hfraction
      · exact .inr rfl
      · exact .inl (h.fraction_isDigit c hfraction)

theorem numberKind_pointed (h : IsPointed whole fraction)
    (hfinite : (pointedDecimal whole fraction).nearestRank < infinityRank) :
    numberKind (pointed whole fraction) =
      .number (ofRank false (pointedDecimal whole fraction).nearestRank) := by
  have hchars := isDigit_or_point_of_mem h
  have hvalue : numberValue? (pointed whole fraction) =
      some (ofRank false (pointedDecimal whole fraction).nearestRank) := by
    unfold numberValue?
    split
    · rename_i heq
      have hx := hchars 'x' (by simp [heq])
      simp at hx
    · rename_i heq
      have hx := hchars 'X' (by simp [heq])
      simp at hx
    · rw [readChars?_pointed h, Option.filter_some, isFinite_ofRank hfinite]
      rfl
  unfold numberKind
  rw [hvalue]

end

theorem numberKind_unsigned {x : Float} (hfinite : x.isFinite) (hsign : isNegative x = false) :
    numberKind (unsigned (rank x)) = .number x := by
  have hrank := (isFinite_iff x).1 hfinite
  obtain ⟨whole, fraction, htext, hpointed, hnearest⟩ := exists_unsigned hrank
  rw [htext, numberKind_pointed hpointed (by rwa [hnearest]), hnearest, ofRank_rank hfinite hsign]

theorem numberValue?_spec {c : Char} (hc : c.isDigit) {text : List Char} {x : Float}
    (h : numberValue? (c :: text) = some x) : x.isFinite ∧ isNegative x = false := by
  have readHex?_spec {digits : List Char} (h : readHex? digits = some x) :
      x.isFinite ∧ isNegative x = false := by
    unfold readHex? at h
    dsimp only at h
    split at h
    · rename_i hdigits
      have hlt := nearestRank_whole_lt hdigits.2
      cases h
      exact ⟨isFinite_ofRank hlt, isNegative_ofRank hlt.le⟩
    · cases h
  unfold numberValue? at h
  split at h
  · exact readHex?_spec h
  · exact readHex?_spec h
  · rw [Option.filter_eq_some_iff] at h
    obtain ⟨hread, hfinite⟩ := h
    rw [readChars?_of_isDigit hc, Option.map_eq_some_iff] at hread
    obtain ⟨d, -, rfl⟩ := hread
    exact ⟨hfinite, isNegative_ofRank d.nearestRank_le⟩

theorem render_of_isFinite {x : Float} (hfinite : x.isFinite) (hsign : isNegative x = false) :
    render x = String.ofList (unsigned (rank x)) := by
  unfold render
  rw [isNaN_of_isFinite hfinite, hsign]
  rfl

end Number

/-! ## The extent of a number word -/

/-- Whether a name or a number ends before a text. -/
def EndsWord (text : List Char) : Prop := ∀ c ∈ text.head?, continuesName c = false

theorem EndsWord.not_isDigit {text : List Char} (h : EndsWord text) :
    ∀ c ∈ text.head?, c.isDigit = false := by
  intro c hc
  have hno := h c hc
  simp only [continuesName, Char.isAlphanum, Bool.or_eq_false_iff] at hno
  exact hno.1.1.2

theorem EndsWord.ne {text : List Char} {c : Char} (h : EndsWord text) (hc : continuesName c) :
    ∀ more, text ≠ c :: more := by
  rintro more rfl
  rw [h c rfl] at hc
  cases hc

theorem spanFraction_point {fraction more : List Char} (h : ∀ c ∈ fraction, c.isDigit)
    (hmore : EndsWord more) :
    spanFraction ((if fraction.isEmpty then [] else '.' :: fraction) ++ more) =
      (if fraction.isEmpty then [] else '.' :: fraction, more) := by
  cases fraction with
  | nil =>
    change spanFraction more = ([], more)
    unfold spanFraction
    split
    · exact absurd rfl (hmore.ne (by decide) _)
    · rfl
  | cons c fraction =>
    have hdigits := Number.takeWhile_digits h hmore.not_isDigit
    change spanFraction ('.' :: c :: (fraction ++ more)) = ('.' :: c :: fraction, more)
    rw [List.cons_append] at hdigits
    rw [spanFraction, if_pos (h c List.mem_cons_self), hdigits.1, hdigits.2]

theorem spanExponent_of_endsWord {more : List Char} (h : EndsWord more) :
    spanExponent more = ([], more) := by
  unfold spanExponent
  split
  · rw [if_neg]
    rintro (rfl | rfl)
    · exact absurd rfl (h.ne (by decide) _)
    · exact absurd rfl (h.ne (by decide) _)
  · rfl

theorem pointed_append_ne {whole fraction more : List Char} {c d : Char} {text : List Char}
    (h : Number.IsPointed whole fraction) (hmore : EndsWord more) (hd : continuesName d)
    (hletter : ¬ (d.isDigit ∨ d = '.')) : Number.pointed whole fraction ++ more ≠ c :: d :: text := by
  intro heq
  have hchars := Number.isDigit_or_point_of_mem h
  match hword : Number.pointed whole fraction with
  | [] => exact h.whole_ne_nil (List.append_eq_nil_iff.1 hword).1
  | [first] =>
    rw [hword] at heq
    exact hmore.ne hd text (List.cons.inj heq).2
  | first :: second :: rest =>
    rw [hword] at heq
    obtain ⟨rfl, -⟩ := List.cons.inj (List.cons.inj heq).2
    exact hletter (hchars second (by simp [hword]))

theorem spanNumber_pointed {whole fraction more : List Char} (h : Number.IsPointed whole fraction)
    (hmore : EndsWord more) :
    spanNumber (Number.pointed whole fraction ++ more) = (Number.pointed whole fraction, more) := by
  have hpoint : ∀ c ∈ ((if fraction.isEmpty then [] else '.' :: fraction) ++ more).head?,
      c.isDigit = false := by
    cases fraction with
    | nil => exact hmore.not_isDigit
    | cons => simp
  obtain ⟨htake, hdrop⟩ := Number.takeWhile_digits h.whole_isDigit hpoint
  rw [← List.append_assoc] at htake hdrop
  unfold spanNumber
  split
  · rename_i heq
    exact absurd heq (pointed_append_ne h hmore (by decide) (by decide))
  · rename_i heq
    exact absurd heq (pointed_append_ne h hmore (by decide) (by decide))
  · change (Number.pointed whole fraction ++ more).takeWhile _ = _ at htake
    change (Number.pointed whole fraction ++ more).dropWhile _ = _ at hdrop
    rw [htake, hdrop]
    dsimp only
    rw [spanFraction_point h.fraction_isDigit hmore]
    dsimp only
    rw [spanExponent_of_endsWord hmore, List.append_nil]
    rfl

end ScenarioScript
