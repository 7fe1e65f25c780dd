import LayeredConfig.Number.Power

/-!
# Binary floating-point numbers

Numbers `± m · 2 ^ e` with a bounded `m`, infinities and not-a-number.  A fraction is rounded to the nearest
number of a format, a tie to the even `m`.
-/

namespace LayeredConfig

/-- A binary format: `m` has at most `precision` bits and `e` lies between two bounds. -/
inductive BinaryFormat where
  | single
  | double
  deriving DecidableEq, Repr

namespace BinaryFormat

def name : BinaryFormat → String
  | single => "f32"
  | double => "f64"

/-- The number of bits of `m`. -/
def precision : BinaryFormat → Nat
  | single => 24
  | double => 53

/-- The least exponent. -/
def minExponent : BinaryFormat → Int
  | single => -149
  | double => -1074

/-- The greatest exponent. -/
def maxExponent : BinaryFormat → Int
  | single => 104
  | double => 971

/-- So many significant digits always suffice to tell a number from its neighbours. -/
def maxDigits : BinaryFormat → Nat
  | single => 9
  | double => 17

end BinaryFormat

/-- A number of a binary format.  A finite one has `m` with all its bits used, or the least exponent. -/
inductive Binary where
  | nan
  | infinite (negative : Bool)
  | finite (negative : Bool) (m : Nat) (e : Int)
  deriving DecidableEq, Repr

namespace Binary

/-- Numerical equality: not-a-number differs from itself and the two zeros are equal. -/
def same : Binary → Binary → Bool
  | nan, _ => false
  | _, nan => false
  | finite _ 0 _, finite _ 0 _ => true
  | x, y => x == y

theorem same_comm (x y : Binary) : same x y = same y x := by
  cases x with
  | nan => cases y <;> rfl
  | infinite a =>
    cases y with
    | infinite b => exact BEq.comm
    | _ => rfl
  | finite a m e =>
    cases y with
    | finite b n f =>
      -- Two zeros are the same whatever their signs are.
      cases m with
      | zero =>
        cases n with
        | zero => rfl
        | succ n => exact BEq.comm
      | succ m =>
        cases n with
        | zero => exact BEq.comm
        | succ n => exact BEq.comm
    | _ => rfl

/-- `num / den` rounded to a whole number, a tie to the even one. -/
def roundDiv (num den : Nat) : Nat :=
  let q := num / den
  let r := num % den
  if den < 2 * r ∨ (2 * r = den ∧ q % 2 = 1) then q + 1 else q

/-- `num / den / 2 ^ e` as a fraction. -/
def scaleDown (num den : Nat) : Int → Nat × Nat
  | .ofNat e => (num, den * 2 ^ e)
  | .negSucc e => (num * 2 ^ (e + 1), den)

/-- The number with `m` rounded at exponent `e`, or infinity when the exponent is out of bounds. -/
def assemble (f : BinaryFormat) (negative : Bool) (m : Nat) (e : Int) : Binary :=
  let carried := m == 2 ^ f.precision
  let m := if carried then 2 ^ (f.precision - 1) else m
  let e := if carried then e + 1 else e
  if f.maxExponent < e then infinite negative else finite negative m e

/-- The number of a format that is nearest to `num / den`, where `den` is not zero. -/
def ofFraction (f : BinaryFormat) (negative : Bool) (num den : Nat) : Binary :=
  if num = 0 then finite negative 0 f.minExponent
  else
    let estimate : Int := Nat.log2 num - Nat.log2 den - f.precision
    let e := max estimate f.minExponent
    let p := scaleDown num den e
    let e := if 2 ^ f.precision ≤ p.1 / p.2 then e + 1 else e
    let p := scaleDown num den e
    assemble f negative (roundDiv p.1 p.2) e

/-- The finite number as a fraction, without its sign. -/
def fraction (m : Nat) (e : Int) : Nat × Nat :=
  match e with
  | .ofNat e => (m * 2 ^ e, 1)
  | .negSucc e => (m, 2 ^ (e + 1))

end Binary

end LayeredConfig
