import LayeredConfig.Number.Power

/-!
# Instants

Points in time as seconds since the start of 1970 in UTC, with nanoseconds.  A leap second is the second before
it with nanoseconds from 10^9 on.  The written form is a date and a time with an offset from UTC; instants are
written in UTC.
-/

namespace LayeredConfig

/-- A point in time. -/
structure Instant where
  seconds : Int
  nanos : Nat
  deriving DecidableEq, Repr

namespace Instant

/-- Why a text is no instant. -/
inductive Fault where
  | tooShort
  | invalid
  | outOfRange
  | tooLong
  deriving DecidableEq, Repr

/-- The text shown for a fault. -/
def Fault.message : Fault → String
  | tooShort => "premature end of input"
  | invalid => "input contains invalid characters"
  | outOfRange => "input is out of range"
  | tooLong => "trailing input"

def isLeapYear (year : Int) : Bool := year % 4 == 0 && (year % 100 != 0 || year % 400 == 0)

def daysInMonth (year : Int) (month : Nat) : Nat :=
  if month = 2 then (if isLeapYear year then 29 else 28)
  else if month = 4 ∨ month = 6 ∨ month = 9 ∨ month = 11 then 30
  else 31

/-- Days from 1970-01-01 to a date, with years counted from March. -/
def daysOfDate (year : Int) (month day : Nat) : Int :=
  let y := if month ≤ 2 then year - 1 else year
  let era := y / 400
  let yearOfEra := y % 400
  let shifted : Int := if 2 < month then month - 3 else month + 9
  let dayOfYear := (153 * shifted + 2) / 5 + day - 1
  era * 146097 + (yearOfEra * 365 + yearOfEra / 4 - yearOfEra / 100 + dayOfYear) - 719468

/-- The year, month and day that lie so many days after 1970-01-01. -/
def dateOfDays (days : Int) : Int × Int × Int :=
  let z := days + 719468
  let era := z / 146097
  let dayOfEra := z % 146097
  let yearOfEra := (dayOfEra - dayOfEra / 1460 + dayOfEra / 36524 - dayOfEra / 146096) / 365
  let dayOfYear := dayOfEra - (365 * yearOfEra + yearOfEra / 4 - yearOfEra / 100)
  let shifted := (5 * dayOfYear + 2) / 153
  let month := if shifted < 10 then shifted + 3 else shifted - 9
  let year := yearOfEra + era * 400
  (if month ≤ 2 then year + 1 else year, month, dayOfYear - (153 * shifted + 2) / 5 + 1)

/-- So many digits at the start of a text, and what follows them. -/
private def digits (count : Nat) (cs : List Char) : Except Fault (Nat × List Char) :=
  let ds := cs.take count
  if ds.all Char.isDigit ∧ ds.length = count then
    .ok (ds.foldl (fun n c => 10 * n + (c.toNat - '0'.toNat)) 0, cs.drop count)
  else .error .invalid

private def expect (c : Char) : List Char → Except Fault (List Char)
  | [] => .error .tooShort
  | d :: cs => if c = d then .ok cs else .error .invalid

/-- The nanoseconds after a point, at least one digit; digits after the ninth do not count. -/
private def fractionNanos (cs : List Char) : Except Fault (Nat × List Char) :=
  let ds := (cs.take 9).takeWhile Char.isDigit
  if cs.isEmpty then .error .tooShort
  else if ds.isEmpty then .error .invalid
  else
    let n := ds.foldl (fun n c => 10 * n + (c.toNat - '0'.toNat)) 0
    .ok (n * 10 ^ (9 - ds.length), cs.dropWhile Char.isDigit)

private def byteLength (cs : List Char) : Nat := cs.foldl (fun n c => n + c.utf8Size) 0

/-- Two digits of an offset. -/
private def offsetDigits (cs : List Char) : Except Fault (Nat × List Char) :=
  if byteLength cs < 2 then .error .tooShort else digits 2 cs

/-- The seconds by which a local time is ahead of UTC, and what follows the offset. -/
private def offset (cs : List Char) : Except Fault (Int × List Char) :=
  match cs with
  | [] => .error .tooShort
  | c :: rest =>
    if c = 'Z' ∨ c = 'z' then .ok (0, rest)
    else if c = '+' ∨ c = '-' ∨ c = '−' then do
      let (hours, rest) ← offsetDigits rest
      let rest ← expect ':' rest
      let (minutes, rest) ← offsetDigits rest
      if 59 < minutes then throw .outOfRange
      let seconds : Int := hours * 3600 + minutes * 60
      return (if c = '+' then seconds else -seconds, rest)
    else .error .invalid

/-- The instant that a date and a time with an offset stand for. -/
def parse (text : String) : Except Fault Instant := do
  let cs := text.toList
  if byteLength cs < 19 then throw .tooShort
  let (year, cs) ← digits 4 cs
  let cs ← expect '-' cs
  let (month, cs) ← digits 2 cs
  let cs ← expect '-' cs
  let (day, cs) ← digits 2 cs
  if month < 1 ∨ 12 < month ∨ day < 1 ∨ daysInMonth year month < day then throw .outOfRange
  let cs ← match cs with
    | c :: cs => if c = 'T' ∨ c = 't' ∨ c = ' ' then pure cs else throw .invalid
    | [] => throw .invalid
  let (hour, cs) ← digits 2 cs
  let cs ← expect ':' cs
  let (minute, cs) ← digits 2 cs
  let cs ← expect ':' cs
  let (second, cs) ← digits 2 cs
  let (fraction, cs) ← match cs with
    | '.' :: cs => fractionNanos cs
    | cs => pure (0, cs)
  if 23 < hour ∨ 59 < minute ∨ 60 < second then throw .outOfRange
  let (ahead, cs) ← offset cs
  if !cs.isEmpty then throw .tooLong
  if ahead ≤ -86400 ∨ 86400 ≤ ahead then throw .outOfRange
  let leap := second == 60
  let seconds : Int := daysOfDate year month day * 86400 + hour * 3600 + minute * 60 + (if leap then 59 else second)
  return ⟨seconds - ahead, if leap then 1000000000 + fraction else fraction⟩

private def pad (width : Nat) (n : Int) : String :=
  let ds := Nat.toDigits 10 n.toNat
  String.ofList (List.replicate (width - ds.length) '0' ++ ds)

/-- Four digits, or a sign and at least four digits for a year outside 0 to 9999. -/
private def yearText (year : Int) : String :=
  if year < 0 then "-" ++ pad 4 (-year) else if year ≤ 9999 then pad 4 year else "+" ++ pad 4 year

/-- A point and 3, 6 or 9 digits, as many as needed; nothing for a whole second. -/
private def fractionText (nanos : Nat) : String :=
  if nanos = 0 then ""
  else if nanos % 1000000 = 0 then "." ++ pad 3 (nanos / 1000000 : Nat)
  else if nanos % 1000 = 0 then "." ++ pad 6 (nanos / 1000 : Nat)
  else "." ++ pad 9 nanos

/-- Date and time in UTC, without an offset. -/
def civil (t : Instant) : String :=
  let (year, month, day) := dateOfDays (t.seconds / 86400)
  let inDay := t.seconds % 86400
  let leap := 1000000000 ≤ t.nanos
  let second := inDay % 60 + (if leap then 1 else 0)
  yearText year ++ "-" ++ pad 2 month ++ "-" ++ pad 2 day ++ "T" ++ pad 2 (inDay / 3600) ++ ":"
    ++ pad 2 (inDay / 60 % 60) ++ ":" ++ pad 2 second
    ++ fractionText (if leap then t.nanos - 1000000000 else t.nanos)

/-- The text of an instant. -/
def render (t : Instant) : String := t.civil ++ "+00:00"

end Instant

end LayeredConfig
