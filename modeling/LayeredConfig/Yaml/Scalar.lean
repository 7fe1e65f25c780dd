import LayeredConfig.Text.Hex
import LayeredConfig.Yaml
import LayeredConfig.Yaml.Token

/-!
# YAML scalars

What a scalar without quotes stands for: nothing, a truth value, a whole number, a floating-point number, or else
its text.  Digits after a leading zero are a text.  A whole number outside of 64 bits has no value, unless it does
not even fit into 128 bits.
-/

namespace LayeredConfig.Yaml

/-- What a scalar stands for; a number may have no value. -/
inductive Resolved where
  | value (y : Yaml)
  | outOfRange

private def isOneOf (words : List String) (s : String) : Bool := words.contains s

def isNull (s : String) : Bool := isOneOf ["null", "Null", "NULL", "~"] s

def boolean? (s : String) : Option Bool :=
  if isOneOf ["true", "True", "TRUE"] s then some true
  else if isOneOf ["false", "False", "FALSE"] s then some false
  else none

private def isSign (c : Char) : Bool := c == '+' || c == '-'

private def startsWithSign : List Char → Bool
  | c :: _ => isSign c
  | [] => false

/-- Whether a text is digits after a leading zero, with or without a sign. -/
def isZeroPadded (cs : List Char) : Bool :=
  let digits := if startsWithSign cs then cs.drop 1 else cs
  1 < digits.length && digits.head? == some '0' && digits.all Char.isDigit

private def digitsIn (base : Nat) (cs : List Char) : Option Nat :=
  if cs.isEmpty then none
  else do
    let values ← cs.mapM Text.hexDigit?
    if values.all (· < base) then some (values.foldl (fun n d => base * n + d) 0) else none

/-- The digits after the sign of a base. -/
private def based? (cs : List Char) : Option Nat :=
  match cs with
  | '0' :: 'x' :: cs => digitsIn 16 cs
  | '0' :: 'o' :: cs => digitsIn 8 cs
  | '0' :: 'b' :: cs => digitsIn 2 cs
  | _ => none

/-- The whole number that a text spells, in the base ten or another one, with or without a sign. -/
def integer? (cs : List Char) : Option Int :=
  match cs with
  | '-' :: digits =>
    match based? digits with
    | some n => some (-(n : Int))
    | none => if isZeroPadded cs then none else (digitsIn 10 digits).map fun n => -(n : Int)
  | _ =>
    let digits := if cs.head? = some '+' then cs.drop 1 else cs
    match based? digits with
    | some n => some (n : Int)
    | none => if isZeroPadded cs then none else (digitsIn 10 digits).map fun n => (n : Int)

/-- A whole number as far as its size permits: of 64 bits, of 128 bits, or greater. -/
private def sized (n : Int) : Option Resolved :=
  if -(2 ^ (63 : Nat) : Nat) ≤ n ∧ n < (2 ^ (64 : Nat) : Nat) then some (.value (.integer n))
  else if -(2 ^ (127 : Nat) : Nat) ≤ n ∧ n < (2 ^ (128 : Nat) : Nat) then some .outOfRange
  else none

/-- The floating-point number that a text spells; only the named numbers may be infinite. -/
def float? (s : String) : Option Binary :=
  let cs := s.toList
  let positive := if cs.head? = some '+' then cs.drop 1 else cs
  if cs.head? = some '+' ∧ startsWithSign positive then none
  else if isOneOf [".inf", ".Inf", ".INF"] (String.ofList positive) then some (.infinite false)
  else if isOneOf ["-.inf", "-.Inf", "-.INF"] s then some (.infinite true)
  else if isOneOf [".nan", ".NaN", ".NAN"] s then some .nan
  else
    match Decimal.parse .double (String.ofList positive) with
    | .ok (.finite negative m e) => some (.finite negative m e)
    | _ => none

/-- What a scalar without quotes and tag stands for. -/
def resolvePlain (s : String) : Resolved :=
  if s.isEmpty ∨ isNull s then .value .null
  else
    match boolean? s with
    | some b => .value (.boolean b)
    | none =>
      match (integer? s.toList).bind sized with
      | some r => r
      | none =>
        if isZeroPadded s.toList then .value (.string s)
        else
          match float? s with
          | some x => .value (.float x)
          | none => .value (.string s)

/-- The module of the tags that name the kind of a scalar. -/
private def standardTag (name : String) : String := "tag:yaml.org,2002:" ++ name

/-- What a scalar with a tag, if it has one, stands for; `none` if it is not of the kind that the tag names. -/
def resolve (tag : Option String) (w : Written) : Option Yaml :=
  match tag with
  | none => if w.plain then untagged else some (.string w.text)
  | some tag =>
    if tag = standardTag "bool" then (boolean? w.text).map .boolean
    else if tag = standardTag "int" then
      match (integer? w.text.toList).bind sized with
      | some (.value y) => some y
      | _ => none
    else if tag = standardTag "float" then (float? w.text).map .float
    else if tag = standardTag "null" then (if isNull w.text then some .null else none)
    else if tag.toList.head? = some '!' ∧ w.plain then untagged
    else some (.string w.text)
where
  untagged : Option Yaml :=
    match resolvePlain w.text with
    | .value y => some y
    | .outOfRange => none

end LayeredConfig.Yaml
