import LayeredConfig.Number.Binary

/-!
# Decimal texts of binary numbers

Reading takes a decimal number to the nearest number of a format.  Writing goes through the fewest significant
digits that read back, and of those the nearest to the number (`shortest`); `positional` spells them out.
-/

namespace LayeredConfig.Decimal

/-- A positive decimal number `digits · 10 ^ exponent`. -/
structure Scientific where
  digits : Nat
  exponent : Int
  deriving DecidableEq, Repr

/-- `digits · 10 ^ exponent` as a fraction. -/
def Scientific.fraction (s : Scientific) : Nat × Nat :=
  match s.exponent with
  | .ofNat e => (s.digits * 10 ^ e, 1)
  | .negSucc e => (s.digits, 10 ^ (e + 1))

/-- Why a text is no number. -/
inductive Fault where
  | empty
  | invalid
  deriving DecidableEq, Repr

/-- The text shown for a fault. -/
def Fault.message : Fault → String
  | empty => "cannot parse float from empty string"
  | invalid => "invalid float literal"

/-- The whole number that decimal digits spell. -/
def ofDigits (digits : List Char) : Nat :=
  digits.foldl (fun n c => 10 * n + (c.toNat - '0'.toNat)) 0

private def signed (cs : List Char) : Bool × List Char :=
  match cs with
  | '-' :: rest => (true, rest)
  | '+' :: rest => (false, rest)
  | rest => (false, rest)

/-- The exponent that follows an `e`, if there is nothing else. -/
private def exponent? (cs : List Char) : Option Int :=
  let p := signed cs
  if p.2.isEmpty || !p.2.all Char.isDigit then none
  else some (if p.1 then -(ofDigits p.2 : Int) else ofDigits p.2)

/-- Digits with an optional fraction and an optional exponent. -/
def scientific? (cs : List Char) : Option Scientific :=
  let whole := cs.takeWhile Char.isDigit
  let rest := cs.dropWhile Char.isDigit
  let fraction := match rest with
    | '.' :: more => more.takeWhile Char.isDigit
    | _ => []
  let rest := match rest with
    | '.' :: more => more.dropWhile Char.isDigit
    | more => more
  if whole.isEmpty && fraction.isEmpty then none
  else
    let power : Option Int := match rest with
      | [] => some 0
      | c :: more => if c = 'e' ∨ c = 'E' then exponent? more else none
    power.map fun p => ⟨ofDigits (whole ++ fraction), p - fraction.length⟩

private def decimalLength (n : Nat) : Nat := (Nat.toDigits 10 n).length

/-- The number of format `f` nearest to a decimal one.  What is far out of the range of every format is not
worked out. -/
def nearest (f : BinaryFormat) (negative : Bool) (s : Scientific) : Binary :=
  let magnitude : Int := decimalLength s.digits + s.exponent
  if s.digits = 0 ∨ magnitude < -400 then .finite negative 0 f.minExponent
  else if 400 < magnitude then .infinite negative
  else
    let p := s.fraction
    Binary.ofFraction f negative p.1 p.2

private def isWord (word : String) (cs : List Char) : Bool := cs.map Char.toLower == word.toList

/-- The number of format `f` that a text spells. -/
def parse (f : BinaryFormat) (text : String) : Except Fault Binary :=
  if text.isEmpty then .error .empty
  else
    let p := signed text.toList
    if isWord "inf" p.2 || isWord "infinity" p.2 then .ok (.infinite p.1)
    else if isWord "nan" p.2 then .ok .nan
    else
      match scientific? p.2 with
      | some s => .ok (nearest f p.1 s)
      | none => .error .invalid

/-- The bounds of the numbers that round to `m · 2 ^ e`, in quarters of `2 ^ e`. -/
def interval (f : BinaryFormat) (m : Nat) (e : Int) : Nat × Nat :=
  let narrow := m == 2 ^ (f.precision - 1) && f.minExponent < e
  (if narrow then 4 * m - 1 else 4 * m - 2, 4 * m + 2)

/-- Whether the decimal number `s` reads back as `m · 2 ^ e`. -/
def readsBack (f : BinaryFormat) (m : Nat) (e : Int) (s : Scientific) : Bool :=
  let bounds := interval f m e
  let low := Binary.fraction bounds.1 (e - 2)
  let high := Binary.fraction bounds.2 (e - 2)
  let x := s.fraction
  if m % 2 = 0 then low.1 * x.2 ≤ x.1 * low.2 && x.1 * high.2 ≤ high.1 * x.2
  else low.1 * x.2 < x.1 * low.2 && x.1 * high.2 < high.1 * x.2

/-- The exponent of the first digit of `num / den`, searched for downwards with `fuel` steps. -/
private def leadingExponentBelowOne (fuel num den : Nat) : Int :=
  match fuel with
  | 0 => 0
  | fuel + 1 => if den ≤ 10 * num then -1 else leadingExponentBelowOne fuel (10 * num) den - 1

/-- The power of ten of the first significant digit of a positive number. -/
def leadingExponent (num den : Nat) : Int :=
  if den ≤ num then (decimalLength (num / den) : Int) - 1 else leadingExponentBelowOne 400 num den

/-- Which of two decimal numbers stands for a number in the middle between them. -/
inductive Tie where
  | up
  | even
  deriving DecidableEq, Repr

/-- Of two neighbouring decimal numbers around `num / den`, the nearer. -/
private def nearer (tie : Tie) (num den : Nat) (below above : Scientific) : Scientific :=
  let b := below.fraction
  let a := above.fraction
  -- num/den - below against above - num/den, over the common denominator
  let toBelow := num * b.2 * a.2 - b.1 * den * a.2
  let toAbove := a.1 * den * b.2 - num * a.2 * b.2
  if toBelow < toAbove ∨ (toBelow = toAbove ∧ tie = .even ∧ below.digits % 2 = 0) then below else above

/-- The decimal number with `count` digits next to `m · 2 ^ e` that reads back, if there is one. -/
def withDigits? (f : BinaryFormat) (tie : Tie) (m : Nat) (e : Int) (count : Nat) : Option Scientific :=
  let v := Binary.fraction m e
  let k := leadingExponent v.1 v.2 - count + 1
  let unit := Scientific.fraction ⟨1, k⟩
  let q := v.1 * unit.2 / (v.2 * unit.1)
  let below : Scientific := ⟨q, k⟩
  let above : Scientific := if q + 1 = 10 ^ count then ⟨10 ^ (count - 1), k + 1⟩ else ⟨q + 1, k⟩
  match readsBack f m e below, readsBack f m e above with
  | true, true => some (nearer tie v.1 v.2 below above)
  | true, false => some below
  | false, true => some above
  | false, false => none

/-- The first decimal number that reads back, with at least `count` digits and at most `fuel` more. -/
private def shortestFrom (f : BinaryFormat) (tie : Tie) (m : Nat) (e : Int) (count : Nat) : (fuel : Nat) → Scientific
  | 0 => ⟨m, 0⟩
  | fuel + 1 => (withDigits? f tie m e count).getD (shortestFrom f tie m e (count + 1) fuel)

/-- The decimal number with the fewest digits that reads back as `m · 2 ^ e`. -/
def shortest (f : BinaryFormat) (tie : Tie) (m : Nat) (e : Int) : Scientific :=
  shortestFrom f tie m e 1 f.maxDigits

/-- The digits of a decimal number around the point, zero first when there is none before it. -/
def positionalParts (s : Scientific) : List Char × List Char :=
  let digits := Nat.toDigits 10 s.digits
  match s.exponent with
  | .ofNat e => (digits ++ List.replicate e '0', [])
  | .negSucc e =>
    let places := e + 1
    if places < digits.length then (digits.take (digits.length - places), digits.drop (digits.length - places))
    else (['0'], List.replicate (places - digits.length) '0' ++ digits)

/-- A decimal number without exponent; a fraction is written only if there is one. -/
def positional (s : Scientific) : String :=
  let p := positionalParts s
  if p.2.isEmpty then String.ofList p.1 else String.ofList (p.1 ++ '.' :: p.2)

private def signText (negative : Bool) : String := if negative then "-" else ""

/-- The text of a number: the shortest digits that read back, without exponent. -/
def render (f : BinaryFormat) : Binary → String
  | .nan => "NaN"
  | .infinite negative => signText negative ++ "inf"
  | .finite negative m e =>
    signText negative ++ (if m = 0 then "0" else positional (shortest f .up m e))

/-- A decimal number with one digit before the point and an exponent. -/
def exponential (s : Scientific) : String :=
  let digits := Nat.toDigits 10 s.digits
  let power := s.exponent + digits.length - 1
  match digits with
  | [d] => String.ofList [d] ++ "e" ++ toString power
  | d :: ds => String.ofList (d :: '.' :: ds) ++ "e" ++ toString power
  | [] => ""

/-- A decimal number without exponent and with at least one digit after the point. -/
def pointed (s : Scientific) : String :=
  let p := positionalParts s
  String.ofList (p.1 ++ '.' :: (if p.2.isEmpty then ['0'] else p.2))

/-- The text of a number in a listing of a structure: with a point, and with an exponent from `10 ^ 16` on and
below `10 ^ -4`. -/
def inspect (f : BinaryFormat) : Binary → String
  | .nan => "NaN"
  | .infinite negative => signText negative ++ "inf"
  | .finite negative m e =>
    if m = 0 then signText negative ++ "0.0"
    else
      let s := shortest f .up m e
      let leading := s.exponent + (Nat.toDigits 10 s.digits).length - 1
      signText negative ++ (if -4 ≤ leading ∧ leading < 16 then pointed s else exponential s)

end LayeredConfig.Decimal
