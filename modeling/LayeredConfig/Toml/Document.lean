import LayeredConfig.Toml.Quoted
import LayeredConfig.Toml.Scalar
import LayeredConfig.Toml.Table

/-!
# TOML documents

Lines that assign values to dotted keys, below headers that name tables.  Arrays and tables in braces may span
lines and nest up to a limit.  Readers of nested values take fuel, which the length of the text always covers.
-/

namespace LayeredConfig.Toml

/-- The number of arrays and tables in braces around a value stays below this. -/
def nestingLimit : Nat := 80

private def isKeyChar (c : Char) : Bool := c.isAlphanum || c == '_' || c == '-'

/-- One part of a dotted key, and what follows it. -/
private def readKeyPart (cs : List Char) : Option (String × List Char) :=
  match cs with
  | '"' :: cs => (readBasic cs).map fun p => (String.ofList p.1, p.2)
  | '\'' :: cs => (readLiteral cs).map fun p => (String.ofList p.1, p.2)
  | cs =>
    let part := cs.takeWhile isKeyChar
    if part.isEmpty then none else some (String.ofList part, cs.drop part.length)

/-- A dotted key as the path of its first parts and its last part, and what follows it and blanks. -/
private def readKey (path : List String) (cs : List Char) : (fuel : Nat) → Option (List String × String × List Char)
  | 0 => none
  | fuel + 1 =>
    match readKeyPart (skipBlanks cs) with
    | none => none
    | some (part, rest) =>
      match skipBlanks rest with
      | '.' :: rest => readKey (path ++ [part]) rest fuel
      | rest => some (path, part, rest)

mutual

/-- A value and what follows it. -/
private def readValue (depth : Nat) (cs : List Char) : (fuel : Nat) → Option (Toml × List Char)
  | 0 => none
  | fuel + 1 =>
    match cs with
    | '[' :: cs => if nestingLimit ≤ depth + 1 then none else readItems (depth + 1) [] cs fuel
    | '\x7b' :: cs => if nestingLimit ≤ depth + 1 then none else readMembers (depth + 1) Table.fresh cs fuel
    | '"' :: _ => (readQuoted cs).map fun p => (.text (String.ofList p.1), p.2)
    | '\'' :: _ => (readQuoted cs).map fun p => (.text (String.ofList p.1), p.2)
    | cs =>
      let p := readAtom cs
      (scalar? p.1).map (·, p.2)

/-- The items of an array up to its bracket; `items` are those before, the last one first. -/
private def readItems (depth : Nat) (items : List Toml) (cs : List Char) : (fuel : Nat) → Option (Toml × List Char)
  | 0 => none
  | fuel + 1 =>
    match skipLines false cs with
    | none => none
    | some (']' :: rest) => some (.array items.reverse, rest)
    | some cs =>
      match readValue depth cs fuel with
      | none => none
      | some (value, rest) =>
        match skipLines false rest with
        | some (',' :: rest) => readItems depth (value :: items) rest fuel
        | some (']' :: rest) => some (.array (value :: items).reverse, rest)
        | _ => none

/-- The members of a table in braces up to its brace. -/
private def readMembers (depth : Nat) (t : Table) (cs : List Char) : (fuel : Nat) → Option (Toml × List Char)
  | 0 => none
  | fuel + 1 =>
    match skipLines false cs with
    | none => none
    | some ('\x7d' :: rest) => some (t.value, rest)
    | some cs =>
      match readKey [] cs fuel with
      | some (path, key, '=' :: rest) =>
        match readValue depth (skipBlanks rest) fuel with
        | none => none
        | some (value, rest) =>
          match t.assign path key value, skipLines false rest with
          | some t, some (',' :: rest) => readMembers depth t rest fuel
          | some t, some ('\x7d' :: rest) => some (t.value, rest)
          | _, _ => none
      | _ => none

end

/-- A document up to some line: its tables and the header that holds there. -/
structure Draft where
  root : Table
  header : List String

private def readHeader (cs : List Char) : Option (List String × String × List Char) :=
  readKey [] cs (cs.length + 1)

/-- The draft after a line that starts a part of the text, and what follows the line. -/
private def readLine (d : Draft) (cs : List Char) : Option (Draft × List Char) :=
  match cs with
  | '[' :: '[' :: cs =>
    match readHeader cs with
    | some (path, key, ']' :: ']' :: rest) =>
      match d.root.append path key, skipLineEnd false rest with
      | some root, some rest => some (⟨root, path ++ [key]⟩, rest)
      | _, _ => none
    | _ => none
  | '[' :: cs =>
    match readHeader cs with
    | some (path, key, ']' :: rest) =>
      match d.root.define path key, skipLineEnd false rest with
      | some root, some rest => some (⟨root, path ++ [key]⟩, rest)
      | _, _ => none
    | _ => none
  | cs =>
    match readKey [] cs (cs.length + 1) with
    | some (path, key, '=' :: rest) =>
      match readValue 0 (skipBlanks rest) (rest.length + 1) with
      | none => none
      | some (value, rest) =>
        match d.root.modify false (Table.assign path key value) d.header, skipLineEnd false rest with
        | some root, some rest => some (⟨root, d.header⟩, rest)
        | _, _ => none
    | _ => none

private def readLines (d : Draft) (cs : List Char) : (fuel : Nat) → Option Draft
  | 0 => none
  | fuel + 1 =>
    match skipLines false cs with
    | none => none
    | some [] => some d
    | some cs =>
      match readLine d cs with
      | some (d, rest) => readLines d rest fuel
      | none => none

private def withoutMark : List Char → List Char
  | '\ufeff' :: cs => cs
  | cs => cs

/-- The document of a text, which is a table; `none` if the text is malformed. -/
def parse? (text : String) : Option Toml :=
  let cs := withoutMark text.toList
  (readLines ⟨Table.fresh, []⟩ cs (cs.length + 1)).map fun d => d.root.value

end LayeredConfig.Toml
