import LayeredConfig.Entries
import LayeredConfig.KeyPath
import LayeredConfig.ListText
import LayeredConfig.Number.Decimal

/-!
# TOML values

The tree that a TOML text stands for, and its entries: each value that is no table has one under the path of its
keys.  An array becomes the list text of its scalars.
-/

namespace LayeredConfig

/-- A TOML value. -/
inductive Toml where
  | text (s : String)
  | integer (n : Int)
  | float (x : Binary)
  | boolean (b : Bool)
  /-- A date, a time, or both, in normal form. -/
  | moment (s : String)
  | array (items : List Toml)
  | table (members : List (String × Toml))

namespace Toml

/-- The text of a scalar. -/
def scalarText? : Toml → Option String
  | text s => some s
  | integer n => some (toString n)
  | float x => some (Decimal.render .double x)
  | boolean b => some (toString b)
  | moment s => some s
  | array _ => none
  | table _ => none

/-- The list text of the scalars among some values. -/
def listText (items : List Toml) : String := ListText.join (items.filterMap scalarText?)

mutual

/-- Adds the entries of a value at a path. -/
def flattenInto (path : String) (entries : Entries) : Toml → Entries
  | table members => flattenMembers path entries members
  | array items => entries.put path (listText items)
  | scalar =>
    match scalar.scalarText? with
    | some s => entries.put path s
    | none => entries

/-- Adds the entries of the members of a table at a path. -/
def flattenMembers (path : String) (entries : Entries) : List (String × Toml) → Entries
  | [] => entries
  | (key, value) :: rest => flattenMembers path (flattenInto (KeyPath.join path key) entries value) rest

end

/-- The entries of a document. -/
def flatten (document : Toml) : Entries := flattenInto "" Entries.empty document

end Toml

end LayeredConfig
