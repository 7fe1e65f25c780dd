import LayeredConfig.Number.Power

/-!
# Change markers

A counter of 64 bits that every reported change moves forward: to the reading of the clock, or by one when the clock
is not ahead.  The key facts: below the limit it always grows (`lt_advance`), and it never falls (`le_advance`).
-/

namespace LayeredConfig.Marker

/-- The greatest marker. -/
def limit : Nat := 2 ^ (64 : Nat) - 1

/-- The marker after a change that is reported at `clock`; of the reading only 64 bits count. -/
def advance (clock last : Nat) : Nat :=
  let now := clock % 2 ^ (64 : Nat)
  if last < now then now else min (last + 1) limit

theorem lt_advance {clock last : Nat} (h : last < limit) : last < advance clock last := by
  simp only [advance]
  split <;> omega

theorem advance_le_limit (clock last : Nat) : advance clock last ≤ limit := by
  have hnow : clock % 2 ^ (64 : Nat) ≤ limit := Nat.le_sub_one_of_lt (Nat.mod_lt clock (by decide))
  simp only [advance]
  split <;> omega

theorem le_advance {clock last : Nat} (h : last ≤ limit) : last ≤ advance clock last := by
  simp only [advance]
  split <;> omega

end LayeredConfig.Marker
