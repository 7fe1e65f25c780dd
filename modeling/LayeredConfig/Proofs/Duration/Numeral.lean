import LayeredConfig.Duration.Reader
import Mathlib.Data.List.TakeWhile

/-!
# Numbers in durations

A number is made of digits, with at most one point among them (`IsNumeral`).  Read without a bound it stands for
`nanosOf` so many nanoseconds, and reading it with a bound refuses it exactly if this amount is too large
(`scaledNanos_of_isNumeral`): no step on the way is larger than the amount that they lead to.
-/

namespace LayeredConfig.Duration

/-- Digits with at most one point among them, and at least one digit. -/
structure IsNumeral (text : List Char) : Prop where
  chars : ∀ c ∈ text, c.isDigit = true ∨ c = '.'
  onePoint : text.count '.' ≤ 1
  someDigit : ∃ c ∈ text, c.isDigit = true

/-- The digits in front of the point. -/
def wholePart (number : List Char) : List Char := number.takeWhile (· ≠ '.')

/-- The digits behind the point. -/
def fractionPart (number : List Char) : List Char := (number.dropWhile (· ≠ '.')).drop 1

/-- A number of units in whole nanoseconds.  At most 18 digits behind the point count, and what they make up below a
nanosecond is cut off. -/
def nanosOf (number : List Char) (scale : Nat) : Nat :=
  let digits := (fractionPart number).take 18
  ofDigits (wholePart number) * scale + ofDigits digits * scale / 10 ^ digits.length

/-! ### The parts of a number -/

section

variable {number : List Char}

theorem point_not_mem_wholePart (number : List Char) : '.' ∉ wholePart number := by
  intro h
  simpa using List.mem_takeWhile_imp h

/-- A number has no point, or it is its two parts with the point between them. -/
private theorem eq_parts (number : List Char) :
    (number = wholePart number ∧ fractionPart number = []) ∨ number = wholePart number ++ '.' :: fractionPart number := by
  have hnumber : wholePart number ++ number.dropWhile (· ≠ '.') = number := List.takeWhile_append_dropWhile
  unfold fractionPart
  cases hrest : number.dropWhile (· ≠ '.') with
  | nil =>
    rw [hrest, List.append_nil] at hnumber
    exact .inl ⟨hnumber.symm, rfl⟩
  | cons c cs =>
    have hpoint : c = '.' := by
      have hnot := List.head?_dropWhile_not (· ≠ '.') number
      rw [hrest] at hnot
      simpa using hnot
    rw [hrest, hpoint] at hnumber
    exact .inr hnumber.symm

private theorem mem_parts {c : Char} (hc : c ∈ number) (hpoint : c ≠ '.') :
    c ∈ wholePart number ++ fractionPart number := by
  rcases eq_parts number with ⟨hnumber, -⟩ | hnumber
  · rw [hnumber] at hc
    exact List.mem_append_left _ hc
  · rw [hnumber] at hc
    simpa [hpoint] using hc

private theorem mem_of_mem_parts {c : Char} (hc : c ∈ wholePart number ++ fractionPart number) : c ∈ number := by
  rcases eq_parts number with ⟨hnumber, hfraction⟩ | hnumber
  · rw [hfraction, List.append_nil] at hc
    rwa [hnumber]
  · rw [hnumber]
    exact (List.mem_append.1 hc).elim (List.mem_append_left _) fun hc => List.mem_append_right _ (.tail _ hc)

private theorem count_point_le_one_iff : number.count '.' ≤ 1 ↔ '.' ∉ wholePart number ++ fractionPart number := by
  have hwhole := point_not_mem_wholePart number
  rw [List.mem_append, or_iff_right hwhole]
  rcases eq_parts number with ⟨hnumber, hfraction⟩ | hnumber
  · have hcount : number.count '.' = 0 := by
      rw [hnumber]
      exact List.count_eq_zero.2 hwhole
    simp [hcount, hfraction]
  · have hcount : number.count '.' = (fractionPart number).count '.' + 1 := by
      have hsplit := congrArg (List.count '.') hnumber
      rwa [List.count_append, List.count_cons_self, List.count_eq_zero.2 hwhole, Nat.zero_add] at hsplit
    rw [hcount, ← List.count_eq_zero]
    omega

/-- A number has a digit in one of its parts, and nothing else in them. -/
theorem isNumeral_iff :
    IsNumeral number ↔ wholePart number ++ fractionPart number ≠ [] ∧
      ∀ c ∈ wholePart number ++ fractionPart number, c.isDigit = true := by
  have hdigit : ¬ Char.isDigit '.' = true := by decide
  constructor
  · rintro ⟨hchars, hpoint, c, hc, hcDigit⟩
    refine ⟨List.ne_nil_of_mem (mem_parts hc ?_), fun d hd => (hchars d (mem_of_mem_parts hd)).resolve_right ?_⟩
    · rintro rfl
      exact hdigit hcDigit
    · rintro rfl
      exact count_point_le_one_iff.1 hpoint hd
  · rintro ⟨hne, hdigits⟩
    obtain ⟨c, hc⟩ := List.exists_mem_of_ne_nil _ hne
    refine ⟨fun d hd => ?_, count_point_le_one_iff.2 fun hpoint => hdigit (hdigits _ hpoint), c, mem_of_mem_parts hc,
      hdigits c hc⟩
    by_cases hd' : d = '.'
    · exact .inr hd'
    · exact .inl (hdigits d (mem_parts hd hd'))

end

/-! ### Reading a number with a bound -/

theorem inRange_eq_some {n m : Nat} : inRange n = some m ↔ n < amountLimit ∧ n = m := by
  unfold inRange
  split
  · rename_i h
    simp [h]
  · rename_i h
    simp [h]

theorem inRange_eq_none {n : Nat} : inRange n = none ↔ amountLimit ≤ n := by
  unfold inRange
  split
  · rename_i h
    simpa using h
  · rename_i h
    simpa using h

/-- A step to a greater number needs no test of its own. -/
private theorem inRange_bind_of_le {n : Nat} {f : Nat → Nat} (h : n ≤ f n) :
    ((inRange n).bind fun m => inRange (f m)) = inRange (f n) := by
  cases hn : inRange n with
  | none =>
    rw [Option.bind_none, eq_comm, inRange_eq_none]
    exact Nat.le_trans (inRange_eq_none.1 hn) h
  | some m =>
    obtain ⟨-, rfl⟩ := inRange_eq_some.1 hn
    rfl

/-- What is too large to be read, or to be added to the sum before it, is also too large with all that is added
behind it. -/
theorem toOption_add (rest : Nat → Except Fault Nat) {total n more : Nat} {fault fault' : Fault}
    (hrest : total + n < amountLimit → (rest (total + n)).toOption = inRange (total + n + more)) :
    Except.toOption (match inRange n with
      | none => .error fault
      | some m => if total + m < amountLimit then rest (total + m) else .error fault') =
      inRange (total + (n + more)) := by
  cases hn : inRange n with
  | none =>
    have hlarge := inRange_eq_none.1 hn
    exact (inRange_eq_none.2 (by omega)).symm
  | some m =>
    obtain ⟨-, rfl⟩ := inRange_eq_some.1 hn
    dsimp only
    split
    · rename_i hsum
      rw [hrest hsum, Nat.add_assoc]
    · rename_i hsum
      exact (inRange_eq_none.2 (by omega)).symm

private theorem isEmpty_and {a b : List Char} : (a.isEmpty && b.isEmpty) = true ↔ a ++ b = [] := by
  rw [Bool.and_eq_true, List.isEmpty_iff, List.isEmpty_iff, List.append_eq_nil_iff]

/-- A number is read as the amount that it stands for, if this is not too large. -/
theorem scaledNanos_of_isNumeral {number : List Char} (h : IsNumeral number) {scale : Nat} (hscale : 0 < scale) :
    scaledNanos number scale = inRange (nanosOf number scale) := by
  obtain ⟨hne, hdigits⟩ := isNumeral_iff.1 h
  unfold scaledNanos nanosOf
  dsimp only
  rw [← wholePart, ← fractionPart, if_neg fun hempty => hne (isEmpty_and.1 hempty), List.all_eq_true.2 hdigits,
    Bool.not_true, if_neg Bool.false_ne_true]
  generalize ofDigits (wholePart number) = whole
  generalize ofDigits ((fractionPart number).take 18) * scale / 10 ^ ((fractionPart number).take 18).length = part
  calc (inRange whole).bind fun n => (inRange (n * scale)).bind fun nanos => inRange (nanos + part)
    _ = (inRange whole).bind fun n => inRange (n * scale + part) := by
      congr 1
      funext n
      exact inRange_bind_of_le (f := fun nanos => nanos + part) (Nat.le_add_right _ _)
    _ = inRange (whole * scale + part) :=
      inRange_bind_of_le (f := fun n => n * scale + part)
        (Nat.le_trans (Nat.le_mul_of_pos_right whole hscale) (Nat.le_add_right _ _))

/-- Nothing but a number is read. -/
theorem isNumeral_of_scaledNanos {number : List Char} {scale n : Nat} (h : scaledNanos number scale = some n) :
    IsNumeral number := by
  unfold scaledNanos at h
  dsimp only at h
  rw [← wholePart, ← fractionPart] at h
  split at h
  · cases h
  · rename_i hempty
    split at h
    · cases h
    · rename_i hdigits
      rw [Bool.not_eq_true', Bool.not_eq_false, List.all_eq_true] at hdigits
      exact isNumeral_iff.2 ⟨fun hnil => hempty (isEmpty_and.2 hnil), hdigits⟩

end LayeredConfig.Duration
