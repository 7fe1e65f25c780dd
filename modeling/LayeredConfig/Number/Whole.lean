import LayeredConfig.Number.Power
import LayeredConfig.Text.Blank

/-!
# Whole numbers of fixed width

The kinds of whole number with a bound on their size, and reading one from decimal digits.  Digits are read from
left to right, so the first character that is no digit and the first digit that leaves the range compete: the
earlier one decides the fault.
-/

namespace LayeredConfig

/-- A fixed-width kind of whole number. -/
inductive WholeKind where
  | i8 | i16 | i32 | i64 | i128 | isize
  | u8 | u16 | u32 | u64 | u128 | usize
  deriving DecidableEq, Repr

namespace WholeKind

def name : WholeKind → String
  | i8 => "i8" | i16 => "i16" | i32 => "i32" | i64 => "i64" | i128 => "i128" | isize => "isize"
  | u8 => "u8" | u16 => "u16" | u32 => "u32" | u64 => "u64" | u128 => "u128" | usize => "usize"

def all : List WholeKind := [i8, i16, i32, i64, i128, isize, u8, u16, u32, u64, u128, usize]

def isSigned : WholeKind → Bool
  | i8 | i16 | i32 | i64 | i128 | isize => true
  | _ => false

def bits : WholeKind → Nat
  | i8 | u8 => 8
  | i16 | u16 => 16
  | i32 | u32 => 32
  | i64 | u64 | isize | usize => 64
  | i128 | u128 => 128

/-- The least number of the kind. -/
def least (k : WholeKind) : Int := if k.isSigned then -(2 ^ (k.bits - 1) : Nat) else 0

/-- The greatest number of the kind. -/
def greatest (k : WholeKind) : Int := if k.isSigned then (2 ^ (k.bits - 1) : Nat) - 1 else (2 ^ k.bits : Nat) - 1

end WholeKind

namespace Whole

/-- Why a text is no whole number of a kind. -/
inductive Fault where
  | empty
  | invalidDigit
  | tooLarge
  | tooSmall
  deriving DecidableEq, Repr

/-- The text shown for a fault. -/
def Fault.message : Fault → String
  | empty => "cannot parse integer from empty string"
  | invalidDigit => "invalid digit found in string"
  | tooLarge => "number too large to fit in target type"
  | tooSmall => "number too small to fit in target type"

/-- The number after one more digit, counted away from zero. -/
def step (k : WholeKind) (negative : Bool) (n : Int) (c : Char) : Except Fault Int :=
  if c.isDigit then
    let d : Int := c.toNat - '0'.toNat
    if negative then
      if 10 * n - d < k.least then .error .tooSmall else .ok (10 * n - d)
    else
      if k.greatest < 10 * n + d then .error .tooLarge else .ok (10 * n + d)
  else .error .invalidDigit

/-- The number that decimal digits spell, continuing after `n`. -/
def readDigits (k : WholeKind) (negative : Bool) (n : Int) : List Char → Except Fault Int
  | [] => .ok n
  | c :: cs => (step k negative n c).bind fun n => readDigits k negative n cs

/-- The number of kind `k` that a text spells: digits after an optional sign, a minus only for signed kinds. -/
def parse (k : WholeKind) (text : String) : Except Fault Int :=
  match text.toList with
  | [] => .error .empty
  | ['+'] => .error .invalidDigit
  | ['-'] => .error .invalidDigit
  | '+' :: digits => readDigits k false 0 digits
  | '-' :: digits => if k.isSigned then readDigits k true 0 digits else .error .invalidDigit
  | digits => readDigits k false 0 digits

end Whole

/-- The rank that a source gives itself, or `default` when the text is no 32 bit number. -/
def ordinalOr (value : Option String) (default : Int) : Int :=
  match value with
  | none => default
  | some raw =>
    match Whole.parse .i32 (Text.trimmed raw) with
    | .ok n => n
    | .error _ => default

end LayeredConfig
