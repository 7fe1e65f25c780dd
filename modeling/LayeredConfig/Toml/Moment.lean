import LayeredConfig.Instant

/-!
# TOML dates and times

A date, a time, or both, with an offset from UTC if both are there.  The normal form separates date and time by a
`T`, and keeps up to nine digits of a fraction without the zeros at its end.
-/

namespace LayeredConfig.Toml

private def number (digits : List Char) : Nat := digits.foldl (fun n c => 10 * n + (c.toNat - '0'.toNat)) 0

/-- Exactly `count` digits at the start of a text, and what follows them. -/
private def readDigits (count : Nat) (cs : List Char) : Option (List Char × List Char) :=
  let digits := cs.takeWhile Char.isDigit
  if digits.length = count then some (digits, cs.drop count) else none

private def readChar (c : Char) : List Char → Option (List Char)
  | [] => none
  | d :: cs => if c = d then some cs else none

/-- A date and what follows it. -/
def readDate (cs : List Char) : Option (List Char × List Char) := do
  let (year, cs) ← readDigits 4 cs
  let cs ← readChar '-' cs
  let (month, cs) ← readDigits 2 cs
  let cs ← readChar '-' cs
  let (day, cs) ← readDigits 2 cs
  let m := number month
  let d := number day
  if 1 ≤ m ∧ m ≤ 12 ∧ 1 ≤ d ∧ d ≤ Instant.daysInMonth (number year) m then
    return (year ++ '-' :: month ++ '-' :: day, cs)
  else none

private def withoutTrailingZeros (digits : List Char) : List Char :=
  (digits.reverse.dropWhile (· = '0')).reverse

/-- The fraction of a second in normal form. -/
private def fractionText (digits : List Char) : List Char :=
  let kept := withoutTrailingZeros (digits.take 9)
  '.' :: (if kept.isEmpty then ['0'] else kept)

/-- A second with an optional fraction, and what follows it. -/
private def readSecond (cs : List Char) : Option (List Char × List Char) := do
  let (second, cs) ← readDigits 2 cs
  if 60 < number second then none
  else
    match cs with
    | '.' :: cs =>
      let digits := cs.takeWhile Char.isDigit
      if digits.isEmpty then none else return (second ++ fractionText digits, cs.drop digits.length)
    | _ => return (second, cs)

/-- A time, whose seconds may be left out, and what follows it. -/
def readTime (cs : List Char) : Option (List Char × List Char) := do
  let (hour, cs) ← readDigits 2 cs
  let cs ← readChar ':' cs
  let (minute, cs) ← readDigits 2 cs
  if 23 < number hour ∨ 59 < number minute then none
  else
    match cs with
    | ':' :: cs => do
      let (second, cs) ← readSecond cs
      return (hour ++ ':' :: minute ++ ':' :: second, cs)
    | _ => return (hour ++ ':' :: minute, cs)

/-- An offset that ends a text. -/
private def readOffset (cs : List Char) : Option (List Char) :=
  match cs with
  | [] => some []
  | c :: cs =>
    if c = 'Z' ∨ c = 'z' then (if cs.isEmpty then some ['Z'] else none)
    else if c = '+' ∨ c = '-' then do
      let (hours, cs) ← readDigits 2 cs
      let cs ← readChar ':' cs
      let (minutes, cs) ← readDigits 2 cs
      let isZero := number hours = 0 ∧ number minutes = 0
      if 23 < number hours ∨ 59 < number minutes ∨ !cs.isEmpty then none
      else return (if isZero then '+' else c) :: hours ++ ':' :: minutes
    else none

/-- The normal form of a date, a time, or both. -/
def moment? (cs : List Char) : Option String :=
  match readDate cs with
  | some (date, []) => some (String.ofList date)
  | some (date, c :: cs) =>
    if c = 'T' ∨ c = 't' ∨ c = ' ' then do
      let (time, cs) ← readTime cs
      let offset ← readOffset cs
      return String.ofList (date ++ 'T' :: time ++ offset)
    else none
  | none =>
    match readTime cs with
    | some (time, []) => some (String.ofList time)
    | _ => none

end LayeredConfig.Toml
