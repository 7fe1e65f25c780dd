import LayeredConfig.Entries
import LayeredConfig.KeyPath
import LayeredConfig.ListText
import LayeredConfig.Number.Decimal

/-!
# YAML values

The tree that a YAML text stands for, and its entries: each value that is no mapping has one under the path of its
keys.  A sequence becomes the list text of its scalars; tags do not count, and neither does a key that is no
scalar.
-/

namespace LayeredConfig

/-- A YAML value. -/
inductive Yaml where
  | null
  | boolean (b : Bool)
  | integer (n : Int)
  | float (x : Binary)
  | string (s : String)
  | sequence (items : List Yaml)
  | mapping (members : List (Yaml × Yaml))
  | tagged (tag : String) (value : Yaml)

namespace Yaml

/-- The text of a floating-point number: positional from `10 ^ -5` up to below `10 ^ 16`, else with an exponent. -/
def floatText : Binary → String
  | .nan => ".nan"
  | .infinite negative => if negative then "-.inf" else ".inf"
  | .finite negative m e =>
    let sign := if negative then "-" else ""
    if m = 0 then sign ++ "0.0"
    else
      let s := Decimal.shortest .double .even m e
      let leading := s.exponent + (Nat.toDigits 10 s.digits).length - 1
      sign ++ (if -5 ≤ leading ∧ leading < 16 then Decimal.pointed s else Decimal.exponential s)

/-- The text of a scalar, below any tags. -/
def scalarText? : Yaml → Option String
  | null => some ""
  | boolean b => some (toString b)
  | integer n => some (toString n)
  | float x => some (floatText x)
  | string s => some s
  | tagged _ value => value.scalarText?
  | sequence _ => none
  | mapping _ => none

/-- The list text of the scalars among some values. -/
def listText (items : List Yaml) : String := ListText.join (items.filterMap scalarText?)

mutual

/-- Adds the entries of a value at a path. -/
def flattenInto (path : String) (entries : Entries) : Yaml → Entries
  | mapping members => flattenMembers path entries members
  | sequence items => entries.put path (listText items)
  | tagged _ value => flattenInto path entries value
  | scalar =>
    match scalar.scalarText? with
    | some s => entries.put path s
    | none => entries

/-- Adds the entries of the members of a mapping at a path. -/
def flattenMembers (path : String) (entries : Entries) : List (Yaml × Yaml) → Entries
  | [] => entries
  | (key, value) :: rest =>
    match key.scalarText? with
    | some key => flattenMembers path (flattenInto (KeyPath.join path key) entries value) rest
    | none => flattenMembers path entries rest

end

/-- The entries of a document, which is a mapping or nothing. -/
def flatten? : Yaml → Option Entries
  | null => some Entries.empty
  | mapping members => some (flattenMembers "" Entries.empty members)
  | _ => none

end Yaml

end LayeredConfig
