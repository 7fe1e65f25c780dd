import LayeredConfig.Proofs.Duration.Spelling
import Mathlib.Algebra.Order.Floor.Semifield
import Mathlib.Data.Rat.Floor

/-!
# What is cut off an amount

An amount is the product of a number and a unit, cut off below a nanosecond.  The product is not that of the number
itself, though: its fraction counts with the first 18 digits alone.  The key facts: the amount is that of the number
without the further digits (`nanosOf_eq_floor`); they are too small to make more than one nanosecond
(`cut_mul_lt_one`), and they make none of it whatever the number is exactly if the unit divides 10^18 nanoseconds
(`forall_exact_iff_dvd`), so not for minutes, hours and days.
-/

namespace LayeredConfig.Duration

/-- The number that digits with a point spell. -/
def valueOf (number : List Char) : ℚ :=
  ofDigits (wholePart number) + ofDigits (fractionPart number) / 10 ^ (fractionPart number).length

/-- A number without the digits of its fraction behind the first 18. -/
def counted (number : List Char) : List Char := wholePart number ++ '.' :: (fractionPart number).take 18

/-! ### The product of a number and a unit -/

private theorem parts_point {whole : List Char} (h : '.' ∉ whole) (fraction : List Char) :
    wholePart (whole ++ '.' :: fraction) = whole ∧ fractionPart (whole ++ '.' :: fraction) = fraction := by
  have hwhole : ∀ c ∈ whole, decide (c ≠ '.') = true := by
    intro c hc
    rw [decide_eq_true_eq]
    rintro rfl
    exact h hc
  have hpoint : ∀ c ∈ ('.' :: fraction).head?, decide (c ≠ '.') = false := by simp
  obtain ⟨htake, hdrop⟩ := span_append hwhole hpoint
  refine ⟨htake, ?_⟩
  rw [fractionPart, hdrop]
  rfl

/-- The whole part makes whole nanoseconds, so only the fraction is cut off. -/
private theorem floor_valueOf_mul (number : List Char) (scale : Nat) :
    ⌊valueOf number * scale⌋₊ = ofDigits (wholePart number) * scale +
      ofDigits (fractionPart number) * scale / 10 ^ (fractionPart number).length := by
  have hsplit : valueOf number * scale = ((ofDigits (wholePart number) * scale : ℕ) : ℚ) +
      ((ofDigits (fractionPart number) * scale : ℕ) : ℚ) / ((10 ^ (fractionPart number).length : ℕ) : ℚ) := by
    rw [valueOf]
    push_cast
    ring
  rw [hsplit, add_comm, Nat.floor_add_natCast (by positivity), Nat.floor_div_eq_div, Nat.add_comm]

/-- The amount of a number is the product of what counts of it and the unit, cut off below a nanosecond. -/
theorem nanosOf_eq_floor (number : List Char) (scale : Nat) :
    nanosOf number scale = ⌊valueOf (counted number) * scale⌋₊ := by
  obtain ⟨hwhole, hfraction⟩ := parts_point (point_not_mem_wholePart number) ((fractionPart number).take 18)
  rw [floor_valueOf_mul, counted, hwhole, hfraction, nanosOf]

private theorem IsNumeral.isDigit_of_mem_fractionPart {number : List Char} (h : IsNumeral number) :
    ∀ c ∈ fractionPart number, c.isDigit = true :=
  fun c hc => (isNumeral_iff.1 h).2 c (List.mem_append_right _ hc)

/-! ### What does not count -/

section

variable (number : List Char)

/-- The digits that count and the further ones make up the fraction. -/
private theorem ofDigits_fractionPart :
    ofDigits (fractionPart number) =
      10 ^ ((fractionPart number).drop 18).length * ofDigits ((fractionPart number).take 18) +
        ofDigits ((fractionPart number).drop 18) := by
  conv_lhs => rw [← List.take_append_drop 18 (fractionPart number)]
  rw [ofDigits_append, Nat.ofDigitChars_eq_ofDigitChars_zero]
  rfl

private theorem length_fractionPart :
    (fractionPart number).length = ((fractionPart number).take 18).length + ((fractionPart number).drop 18).length := by
  rw [← List.length_append, List.take_append_drop]

/-- The further digits keep their places. -/
private theorem valueOf_eq_add : valueOf number =
    valueOf (counted number) + ofDigits ((fractionPart number).drop 18) / 10 ^ (fractionPart number).length := by
  obtain ⟨hwhole, hfraction⟩ := parts_point (point_not_mem_wholePart number) ((fractionPart number).take 18)
  rw [valueOf, valueOf, counted, hwhole, hfraction, ofDigits_fractionPart, length_fractionPart, pow_add]
  push_cast
  field_simp
  ring

variable {number} (hdigits : ∀ c ∈ fractionPart number, c.isDigit = true)

include hdigits

private theorem ofDigits_drop_lt :
    ofDigits ((fractionPart number).drop 18) < 10 ^ ((fractionPart number).drop 18).length :=
  ofDigits_lt fun c hc => hdigits c (List.mem_of_mem_drop hc)

/-- The further digits make less than one in the last place that counts. -/
private theorem cut_lt : valueOf number - valueOf (counted number) < 1 / 10 ^ 18 := by
  rw [valueOf_eq_add number, add_sub_cancel_left]
  by_cases hlength : (fractionPart number).length ≤ 18
  · rw [List.drop_of_length_le hlength]
    simp [ofDigits]
  · have htake : ((fractionPart number).take 18).length = 18 := List.length_take_of_le (by omega)
    have hlt : (ofDigits ((fractionPart number).drop 18) : ℚ) < 10 ^ ((fractionPart number).drop 18).length := by
      exact_mod_cast ofDigits_drop_lt hdigits
    rw [length_fractionPart, htake, pow_add, div_lt_div_iff₀ (by positivity) (by positivity)]
    linarith

/-- So they make less than a nanosecond. -/
theorem cut_mul_lt_one {scale : Nat} (hscale : scale ≤ day) :
    (valueOf number - valueOf (counted number)) * scale < 1 := by
  have hcut := cut_lt hdigits
  have hday : (scale : ℚ) ≤ 86400000000000 := by exact_mod_cast hscale
  calc (valueOf number - valueOf (counted number)) * scale
    _ ≤ 1 / 10 ^ 18 * 86400000000000 := by gcongr
    _ < 1 := by norm_num

/-- If the unit divides 10^18 nanoseconds, they make none at all. -/
private theorem exact_of_dvd {scale : Nat} (hscale : scale ∣ 10 ^ 18) :
    ⌊valueOf number * scale⌋₊ = nanosOf number scale := by
  rw [floor_valueOf_mul, nanosOf]
  congr 1
  by_cases hlength : (fractionPart number).length ≤ 18
  · rw [List.take_of_length_le hlength]
  · obtain ⟨d, hd⟩ := hscale
    have hpos : 0 < scale := Nat.pos_of_dvd_of_pos ⟨d, hd⟩ (by decide)
    have htake : ((fractionPart number).take 18).length = 18 := List.length_take_of_le (by omega)
    have hrest := ofDigits_drop_lt hdigits
    rw [ofDigits_fractionPart, length_fractionPart, htake, Nat.pow_add, hd, Nat.mul_assoc scale d,
      Nat.mul_comm _ scale, Nat.mul_comm _ scale, Nat.mul_div_mul_left _ _ hpos, Nat.mul_div_mul_left _ _ hpos,
      Nat.mul_comm d, ← Nat.div_div_eq_div_mul, Nat.mul_add_div (Nat.pow_pos (by decide)), Nat.div_eq_of_lt hrest,
      Nat.add_zero]

end

/-- The number whose digits that count make just less than a nanosecond, and whose further ones are nines. -/
def justBelow (scale : Nat) : List Char := '.' :: (paddedDigits 18 (10 ^ 18 / scale) ++ paddedDigits 14 (10 ^ 14 - 1))

private theorem parts_justBelow (scale : Nat) : wholePart (justBelow scale) = [] ∧
    fractionPart (justBelow scale) = paddedDigits 18 (10 ^ 18 / scale) ++ paddedDigits 14 (10 ^ 14 - 1) :=
  @parts_point [] List.not_mem_nil _

private theorem isNumeral_justBelow (scale : Nat) : IsNumeral (justBelow scale) := by
  obtain ⟨hwhole, hfraction⟩ := parts_justBelow scale
  rw [isNumeral_iff, hwhole, hfraction, List.nil_append]
  refine ⟨fun hnil => ?_, fun c hc => ?_⟩
  · have hlength := congrArg List.length hnil
    rw [List.length_append, length_paddedDigits, length_paddedDigits] at hlength
    nomatch hlength
  · exact (List.mem_append.1 hc).elim (isDigit_of_mem_paddedDigits c) (isDigit_of_mem_paddedDigits c)

/-- If the unit does not divide 10^18 nanoseconds, the further digits can make a nanosecond of their own. -/
private theorem not_exact_of_not_dvd {scale : Nat} (hpos : 0 < scale) (hscale : scale ≤ day) (h : ¬ scale ∣ 10 ^ 18) :
    nanosOf (justBelow scale) scale = 0 ∧ 0 < ⌊valueOf (justBelow scale) * scale⌋₊ := by
  obtain ⟨hwhole, hfraction⟩ := parts_justBelow scale
  have hone : 1 < scale := by
    rcases Nat.lt_or_eq_of_le hpos with hlt | rfl
    · exact hlt
    · exact absurd (Nat.one_dvd _) h
  have hdigits : ofDigits (paddedDigits 18 (10 ^ 18 / scale)) = 10 ^ 18 / scale :=
    ofDigits_paddedDigits (Nat.div_lt_self (by decide) hone)
  have hnines : ofDigits (paddedDigits 14 (10 ^ 14 - 1)) = 10 ^ 14 - 1 := ofDigits_paddedDigits (by decide)
  have hbelow : 10 ^ 18 / scale * scale < 10 ^ 18 :=
    Nat.lt_of_le_of_ne (Nat.div_mul_le_self _ _) fun heq => h ⟨_, by rw [Nat.mul_comm, heq]⟩
  have habove : 10 ^ 18 < 10 ^ 18 / scale * scale + scale := Nat.lt_div_mul_add hpos
  constructor
  · rw [nanosOf, hwhole, hfraction, List.take_left' (length_paddedDigits 18 _), hdigits,
      length_paddedDigits, Nat.div_eq_of_lt hbelow]
    simp [ofDigits]
  · rw [floor_valueOf_mul, hwhole, hfraction, ofDigits_append, Nat.ofDigitChars_eq_ofDigitChars_zero, hdigits,
      List.length_append, length_paddedDigits, length_paddedDigits]
    refine Nat.add_pos_right _ (Nat.div_pos ?_ (by decide))
    show 10 ^ (18 + 14) ≤ (10 ^ 14 * (10 ^ 18 / scale) + ofDigits (paddedDigits 14 (10 ^ 14 - 1))) * scale
    have hday : scale ≤ 86400000000000 := hscale
    rw [hnines, Nat.add_mul, Nat.mul_assoc]
    omega

/-- The numbers are cut off exactly, all of them, if and only if the unit divides 10^18 nanoseconds. -/
theorem forall_exact_iff_dvd {scale : Nat} (hpos : 0 < scale) (hscale : scale ≤ day) :
    (∀ number, IsNumeral number → scaledNanos number scale = inRange ⌊valueOf number * scale⌋₊) ↔ scale ∣ 10 ^ 18 := by
  constructor
  · intro hexact
    by_contra hdvd
    obtain ⟨hzero, hfloor⟩ := not_exact_of_not_dvd hpos hscale hdvd
    have hnumeral := isNumeral_justBelow scale
    have hread := hexact _ hnumeral
    rw [scaledNanos_of_isNumeral hnumeral hpos, hzero, eq_comm] at hread
    obtain ⟨-, hnone⟩ := inRange_eq_some.1 hread
    rw [hnone] at hfloor
    exact Nat.lt_irrefl 0 hfloor
  · intro hdvd number hnumber
    rw [scaledNanos_of_isNumeral hnumber hpos, exact_of_dvd hnumber.isDigit_of_mem_fractionPart hdvd]

/-! ### Carrying -/

/-- Adding to a number carries into its whole part, or it does not. -/
private theorem floor_add_eq_iff {x y : ℚ} (hx : 0 ≤ x) (hy : 0 ≤ y) : ⌊x + y⌋₊ = ⌊x⌋₊ ↔ Int.fract x + y < 1 := by
  have hfloor : ((⌊x⌋₊ : ℕ) : ℚ) = ⌊x⌋ := natCast_floor_eq_intCast_floor hx
  have hle : ((⌊x⌋₊ : ℕ) : ℚ) ≤ x + y := le_add_of_le_of_nonneg (Nat.floor_le hx) hy
  rw [Nat.floor_eq_iff (add_nonneg hx hy), and_iff_right hle, hfloor, Int.fract]
  constructor
  · intro h
    linarith
  · intro h
    linarith

/-- What is less than one carries at most one. -/
private theorem floor_add_eq_or {x y : ℚ} (hx : 0 ≤ x) (hy : 0 ≤ y) (hlt : y < 1) :
    ⌊x + y⌋₊ = ⌊x⌋₊ ∨ ⌊x + y⌋₊ = ⌊x⌋₊ + 1 := by
  have hle : ⌊x⌋₊ ≤ ⌊x + y⌋₊ := Nat.floor_le_floor (le_add_of_nonneg_right hy)
  have hle' : ⌊x + y⌋₊ ≤ ⌊x + 1⌋₊ := Nat.floor_le_floor (by linarith)
  rw [Nat.floor_add_one hx] at hle'
  omega

private theorem inRange_eq_inRange_iff {n m : Nat} (h : n ≤ m) : inRange n = inRange m ↔ n = m ∨ amountLimit ≤ n := by
  cases hm : inRange m with
  | none =>
    have hlarge := inRange_eq_none.1 hm
    rw [inRange_eq_none]
    omega
  | some k =>
    obtain ⟨hlt, rfl⟩ := inRange_eq_some.1 hm
    rw [inRange_eq_some]
    omega

/-! ### The amounts in the units -/

/-- The units up to the second divide 10^18 nanoseconds, and the others do not. -/
private theorem dvd_iff_of_unit {unit : List Char} {scale : Nat} (h : (unit, scale) ∈ units) :
    scale ∣ 10 ^ 18 ↔ scale ≤ second := by
  have hcheck : ∀ p ∈ units, p.2 ∣ 10 ^ 18 ↔ p.2 ≤ second := by decide
  exact hcheck _ h

/-- The amount of a number is cut off from that of the number without the digits behind the first 18 of its fraction,
so it is at most a nanosecond too small.  It is that of the number itself exactly if the further digits carry no
nanosecond, or the amount is too large anyway; so it is whenever there are no further digits, and for all numbers of
a unit if and only if the unit is at most a second. -/
theorem scaledNanos_truncates {unit number : List Char} {scale : Nat} (hunit : unitNanos? unit = some scale)
    (hnumber : IsNumeral number) :
    scaledNanos number scale = inRange ⌊valueOf (counted number) * scale⌋₊ ∧
    (⌊valueOf number * scale⌋₊ = ⌊valueOf (counted number) * scale⌋₊ ∨
      ⌊valueOf number * scale⌋₊ = ⌊valueOf (counted number) * scale⌋₊ + 1) ∧
    (scaledNanos number scale = inRange ⌊valueOf number * scale⌋₊ ↔
      Int.fract (valueOf (counted number) * scale) + (valueOf number - valueOf (counted number)) * scale < 1 ∨
        amountLimit ≤ ⌊valueOf (counted number) * scale⌋₊) ∧
    ((fractionPart number).length ≤ 18 → scaledNanos number scale = inRange ⌊valueOf number * scale⌋₊) ∧
    ((∀ other, IsNumeral other → scaledNanos other scale = inRange ⌊valueOf other * scale⌋₊) ↔ scale ≤ second) := by
  have hmem := unitNanos?_eq_some.1 hunit
  obtain ⟨-, hpos, hday, -⟩ := units_spec _ hmem
  have hread : scaledNanos number scale = inRange ⌊valueOf (counted number) * scale⌋₊ := by
    rw [scaledNanos_of_isNumeral hnumber hpos, nanosOf_eq_floor]
  have hsum : valueOf number * scale =
      valueOf (counted number) * scale + (valueOf number - valueOf (counted number)) * scale := by ring
  have hcounted : 0 ≤ valueOf (counted number) * scale := by
    unfold valueOf
    positivity
  have hcut : 0 ≤ (valueOf number - valueOf (counted number)) * scale := by
    rw [valueOf_eq_add number, add_sub_cancel_left]
    positivity
  have hlt := cut_mul_lt_one hnumber.isDigit_of_mem_fractionPart hday
  refine ⟨hread, ?_, ?_, fun hlength => ?_, ?_⟩
  · rw [hsum]
    exact floor_add_eq_or hcounted hcut hlt
  · rw [hread, hsum, ← floor_add_eq_iff hcounted hcut,
      inRange_eq_inRange_iff (Nat.floor_le_floor (le_add_of_nonneg_right hcut)), eq_comm]
  · have hnone : valueOf number = valueOf (counted number) := by
      rw [valueOf_eq_add number, List.drop_of_length_le hlength]
      simp [ofDigits]
    rw [hread, hnone]
  · rw [forall_exact_iff_dvd hpos hday, dvd_iff_of_unit hmem]

/-- Tenths of a nanosecond that a second is divided into are cut off, however many digits there are. -/
theorem scaledNanos_truncates_seconds :
    scaledNanos "1.00000000099999999999999".toList second =
      inRange ⌊valueOf "1.00000000099999999999999".toList * second⌋₊ := by
  have hnumber : IsNumeral "1.00000000099999999999999".toList :=
    isNumeral_iff.2 ⟨by decide, List.all_eq_true.1 (by decide)⟩
  have hunit : unitNanos? ['s'] = some second := by decide
  exact (scaledNanos_truncates hunit hnumber).2.2.2.2.2 (Nat.le_refl second) _ hnumber

/-- A bit more than a nanosecond, in minutes: what the digits that count make of it is less than one. -/
theorem scaledNanos_ne_floor_minutes :
    IsNumeral "0.0000000000166666667".toList ∧ unitNanos? ['m'] = some minute ∧
      ⌊valueOf "0.0000000000166666667".toList * minute⌋₊ = 1 ∧
      scaledNanos "0.0000000000166666667".toList minute = some 0 ∧
      scaledNanos "0.0000000000166666667".toList minute ≠
        inRange ⌊valueOf "0.0000000000166666667".toList * minute⌋₊ := by
  have hfloor : ⌊valueOf "0.0000000000166666667".toList * minute⌋₊ = 1 := by
    rw [floor_valueOf_mul]
    decide
  have hread : scaledNanos "0.0000000000166666667".toList minute = some 0 := by decide
  refine ⟨isNumeral_iff.2 ⟨by decide, List.all_eq_true.1 (by decide)⟩, by decide, hfloor, hread, ?_⟩
  rw [hread, hfloor]
  decide

end LayeredConfig.Duration
