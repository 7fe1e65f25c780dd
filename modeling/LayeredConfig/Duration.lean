import LayeredConfig.Number.Power

/-!
# Durations

A span of time of whole seconds and nanoseconds, and its text: the amount in the largest of the units seconds,
milliseconds, microseconds and nanoseconds whose whole part is not zero, with the exact fraction.
-/

namespace LayeredConfig

/-- A span of time below 2^64 seconds. -/
structure Duration where
  seconds : Nat
  nanos : Nat
  seconds_lt : seconds < 2 ^ (64 : Nat) := by decide
  nanos_lt : nanos < 1000000000 := by decide
  deriving DecidableEq

namespace Duration

/-- Nanoseconds in a second. -/
def second : Nat := 1000000000

/-- The whole span in nanoseconds. -/
def totalNanos (d : Duration) : Nat := d.seconds * second + d.nanos

/-- The span of so many nanoseconds, if it is below 2^64 seconds. -/
def ofNanos? (n : Nat) : Option Duration :=
  if h : n / second < 2 ^ (64 : Nat) then
    some ⟨n / second, n % second, h, Nat.mod_lt n (by decide)⟩
  else none

/-- A number below 10^places, written with exactly so many digits. -/
def paddedDigits : (places n : Nat) → List Char
  | 0, _ => []
  | places + 1, n => paddedDigits places (n / 10) ++ [Nat.digitChar (n % 10)]

/-- The digits of a fraction with `places` digits, without the zeros at its end. -/
def fractionDigits (places n : Nat) : List Char :=
  ((paddedDigits places n).reverse.dropWhile (· == '0')).reverse

private def amount (whole places fraction : Nat) (unit : String) : String :=
  let digits := fractionDigits places fraction
  if digits.isEmpty then toString whole ++ unit else toString whole ++ "." ++ String.ofList digits ++ unit

/-- The text of a duration. -/
def render (d : Duration) : String :=
  if 0 < d.seconds then amount d.seconds 9 d.nanos "s"
  else if 1000000 ≤ d.nanos then amount (d.nanos / 1000000) 6 (d.nanos % 1000000) "ms"
  else if 1000 ≤ d.nanos then amount (d.nanos / 1000) 3 (d.nanos % 1000) "µs"
  else amount d.nanos 0 0 "ns"

/-- A decimal number: the digits of its whole part, and those of its fraction behind a point, if there are any. -/
def written (whole : Nat) (fraction : List Char) : List Char :=
  Nat.toDigits 10 whole ++ if fraction.isEmpty then [] else '.' :: fraction

private theorem toList_amount (whole places fraction : Nat) (unit : String) :
    (amount whole places fraction unit).toList = written whole (fractionDigits places fraction) ++ unit.toList := by
  have hwhole : (toString whole).toList = Nat.toDigits 10 whole := Nat.toList_repr
  unfold amount written
  dsimp only
  split
  · rw [String.toList_append, hwhole, List.append_nil]
  · rw [String.toList_append, String.toList_append, String.toList_append, hwhole, String.toList_ofList]
    simp

/-- A duration is written as one amount, which stands for all of it.  A unit has ten to the power of its places
nanoseconds. -/
theorem toList_render (d : Duration) :
    ∃ whole places fraction unit, (places, unit) ∈ [(9, "s"), (6, "ms"), (3, "µs"), (0, "ns")] ∧
      whole < 2 ^ (64 : Nat) ∧ fraction < 10 ^ places ∧ d.totalNanos = whole * 10 ^ places + fraction ∧
      d.render.toList = written whole (fractionDigits places fraction) ++ unit.toList := by
  have hseconds : d.seconds < 18446744073709551616 := d.seconds_lt
  have hnanos := d.nanos_lt
  unfold render totalNanos second
  split
  · exact ⟨_, 9, _, _, by simp, d.seconds_lt, hnanos, rfl, toList_amount ..⟩
  · split
    · exact ⟨_, 6, _, _, by simp, by omega, Nat.mod_lt _ (by decide), by omega, toList_amount ..⟩
    · split
      · exact ⟨_, 3, _, _, by simp, by omega, Nat.mod_lt _ (by decide), by omega, toList_amount ..⟩
      · exact ⟨_, 0, _, _, by simp, by omega, by decide, by omega, toList_amount ..⟩

theorem ofNanos?_totalNanos (d : Duration) : ofNanos? d.totalNanos = some d := by
  have hn : d.nanos < second := d.nanos_lt
  have hdiv : d.totalNanos / second = d.seconds := by
    unfold totalNanos second at *
    omega
  have hmod : d.totalNanos % second = d.nanos := by
    unfold totalNanos second at *
    omega
  have hlt : d.seconds < 18446744073709551616 := d.seconds_lt
  simp [ofNanos?, hlt, hdiv, hmod]

end Duration

end LayeredConfig
