import LayeredConfig.Text.Hex
import LayeredConfig.Toml
import LayeredConfig.Toml.Moment

/-!
# TOML scalars without quotes

Truth values, whole numbers of 64 bits, numbers of the double format, dates and times.  Single underscores may
group the digits of a number.
-/

namespace LayeredConfig.Toml

/-- The characters of scalars without quotes. -/
def isAtomChar (c : Char) : Bool := c.isAlphanum || ['+', '-', '_', '.', ':'].contains c

/-- The digits of a text in which underscores stand only between digits. -/
def ungrouped? (isDigit : Char → Bool) (afterDigit : Bool) : List Char → Option (List Char)
  | [] => if afterDigit then some [] else none
  | c :: cs =>
    if c = '_' then (if afterDigit then ungrouped? isDigit false cs else none)
    else if isDigit c then (ungrouped? isDigit true cs).map (c :: ·)
    else none

/-- The digits of a whole number, which starts with a zero only if it is zero. -/
def wholeDigits? (cs : List Char) : Option (List Char) :=
  match cs with
  | '0' :: _ :: _ => none
  | _ => ungrouped? Char.isDigit false cs

private def inRange (n : Int) : Option Toml :=
  if -(2 ^ (63 : Nat) : Nat) ≤ n ∧ n < (2 ^ (63 : Nat) : Nat) then some (.integer n) else none

/-- A whole number in another base than ten. -/
private def based (base : Nat) (isDigit : Char → Bool) (cs : List Char) : Option Toml := do
  let digits ← ungrouped? isDigit false cs
  let values ← digits.mapM Text.hexDigit?
  inRange ((values.foldl (fun n d => base * n + d) 0 : Nat) : Int)

private def signed (cs : List Char) : Bool × List Char :=
  match cs with
  | '+' :: cs => (false, cs)
  | '-' :: cs => (true, cs)
  | cs => (false, cs)

/-- A whole number. -/
def integer? (cs : List Char) : Option Toml :=
  match cs with
  | '0' :: 'x' :: cs => based 16 (fun c => (Text.hexDigit? c).isSome) cs
  | '0' :: 'o' :: cs => based 8 (fun c => '0' ≤ c && c ≤ '7') cs
  | '0' :: 'b' :: cs => based 2 (fun c => c == '0' || c == '1') cs
  | cs => do
    let p := signed cs
    let digits ← wholeDigits? p.2
    let n : Int := Decimal.ofDigits digits
    inRange (if p.1 then -n else n)

private def exponent? (cs : List Char) : Option Int := do
  let p := signed cs
  let digits ← ungrouped? Char.isDigit false p.2
  let n : Int := Decimal.ofDigits digits
  return if p.1 then -n else n

private def finite? : Binary → Option Toml
  | .infinite _ => none
  | x => some (.float x)

/-- A number with a fraction, an exponent, or both, or one of the special numbers. -/
def float? (cs : List Char) : Option Toml := do
  let p := signed cs
  if p.2 = "inf".toList then return .float (.infinite p.1)
  if p.2 = "nan".toList then return .float .nan
  let isMark := fun c : Char => c == 'e' || c == 'E'
  let mantissa := p.2.takeWhile fun c => !isMark c
  let power := p.2.drop mantissa.length
  let whole ← wholeDigits? (mantissa.takeWhile (· ≠ '.'))
  let fraction ← match mantissa.dropWhile (· ≠ '.') with
    | [] => some []
    | _ :: cs => ungrouped? Char.isDigit false cs
  let exponent ← match power with
    | [] => if mantissa.contains '.' then some 0 else none
    | _ :: cs => exponent? cs
  finite? (Decimal.nearest .double p.1 ⟨Decimal.ofDigits (whole ++ fraction), exponent - fraction.length⟩)

/-- The scalar that a text without quotes spells. -/
def scalar? (cs : List Char) : Option Toml :=
  if cs = "true".toList then some (.boolean true)
  else if cs = "false".toList then some (.boolean false)
  else ((moment? cs).map .moment).or ((integer? cs).or (float? cs))

private def isDate (cs : List Char) : Bool := cs.length == 10 && (readDate cs).isSome

/-- The text of a scalar without quotes, and what follows it; one blank may stand between a date and a time. -/
def readAtom (cs : List Char) : List Char × List Char :=
  let atom := cs.takeWhile isAtomChar
  let rest := cs.drop atom.length
  match rest with
  | ' ' :: d :: more =>
    if isDate atom && d.isDigit then
      let time := (d :: more).takeWhile isAtomChar
      (atom ++ ' ' :: time, (d :: more).drop time.length)
    else (atom, rest)
  | _ => (atom, rest)

end LayeredConfig.Toml
