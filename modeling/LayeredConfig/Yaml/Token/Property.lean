import LayeredConfig.Text.Hex
import LayeredConfig.Yaml.Cursor
import LayeredConfig.Yaml.Token

/-!
# Anchors, tags and directives

Names that stand before values, and the lines before a document that give its version and the handles of its
tags.
-/

namespace LayeredConfig.Yaml

/-- The name after the sign of an anchor or alias, and the cursor after it. -/
def readName (c : Cursor) : Option (String × Cursor) :=
  let p := c.takeWhile isNameChar
  let ends := match p.2.rest with
    | [] => true
    | ch :: _ => isBlank ch || isBreak ch || ['?', ':', ',', ']', '\x7d', '%', '@', '\x60'].contains ch
  if p.1.isEmpty || !ends then none else some (String.ofList p.1, p.2)

private def isUriChar (verbatim : Bool) (c : Char) : Bool :=
  isNameChar c
    || [';', '/', '?', ':', '@', '&', '=', '+', '$', '.', '!', '~', '*', '\'', '(', ')'].contains c
    || (verbatim && [',', '[', ']'].contains c)

/-- The bytes of an address in which a percent sign with two hexadecimal digits stands for a byte, and how many
characters spell them. -/
private def readUriBytes (verbatim : Bool) : List Char → Option (List UInt8 × Nat)
  | [] => some ([], 0)
  | '%' :: a :: b :: cs =>
    match Text.hexDigit? a, Text.hexDigit? b with
    | some x, some y =>
      (readUriBytes verbatim cs).map fun p => (UInt8.ofNat (16 * x + y) :: p.1, p.2 + 3)
    | _, _ => none
  | c :: cs =>
    if c = '%' then none
    else if isUriChar verbatim c then
      (readUriBytes verbatim cs).map fun p => (String.utf8EncodeChar c ++ p.1, p.2 + 1)
    else some ([], 0)

/-- An address and the cursor after it. -/
private def readUri (verbatim : Bool) (c : Cursor) : Option (String × Cursor) := do
  let (bytes, length) ← readUriBytes verbatim c.rest
  let text ← String.fromUTF8? ⟨bytes.toArray⟩
  return (text, c.drop length)

/-- A text that starts like a handle: the sign, a name, and perhaps the sign again. -/
private def readHandle (c : Cursor) : Option (String × Cursor) :=
  match c.rest with
  | '!' :: _ =>
    let p := (c.drop 1).takeWhile isNameChar
    if p.2.rest.head? = some '!' then some (String.ofList ('!' :: p.1 ++ ['!']), p.2.drop 1)
    else some (String.ofList ('!' :: p.1), p.2)
  | _ => none

private def isFullHandle (handle : String) : Bool :=
  2 ≤ handle.length && handle.toList.getLast? == some '!'

/-- The handle and the suffix of a tag, and the cursor after it. -/
private def readTagParts (c : Cursor) : Option (String × String × Cursor) :=
  match c.rest with
  | '!' :: '<' :: _ => do
    let (uri, c) ← readUri true (c.drop 2)
    if uri.isEmpty ∨ c.rest.head? ≠ some '>' then none else return ("", uri, c.drop 1)
  | _ => do
    let (handle, c) ← readHandle c
    let (uri, c) ← readUri false c
    if isFullHandle handle then
      if uri.isEmpty then none else return (handle, uri, c)
    else
      let suffix := String.ofList (handle.toList.drop 1) ++ uri
      return if suffix.isEmpty then ("", "!", c) else ("!", suffix, c)

/-- A tag and the cursor after it; in a flow collection a comma may follow it at once. -/
def readTag (flow : Bool) (c : Cursor) : Option (Token × Cursor) := do
  let (handle, suffix, c) ← readTagParts c
  if startsBlank c.rest || (flow && c.rest.head? == some ',') then return (.tag handle suffix, c) else none

/-- A number of at most nine digits, and the cursor after it. -/
private def readNumber (c : Cursor) : Option (Nat × Cursor) :=
  let p := c.takeWhile Char.isDigit
  if p.1.isEmpty ∨ 9 < p.1.length then none
  else some (p.1.foldl (fun n d => 10 * n + (d.toNat - '0'.toNat)) 0, p.2)

private def readVersion (c : Cursor) : Option (Token × Cursor) := do
  let (major, c) ← readNumber (c.skipWhile isBlank)
  if c.rest.head? ≠ some '.' then none
  else
    let (minor, c) ← readNumber (c.drop 1)
    return (.version major minor, c)

private def startsWithBlank : List Char → Bool
  | [] => false
  | c :: _ => isBlank c

private def readTagHandle (c : Cursor) : Option (Token × Cursor) := do
  let (handle, c) ← readHandle (c.skipWhile isBlank)
  if (handle ≠ "!" ∧ !isFullHandle handle) ∨ !startsWithBlank c.rest then none
  else
    let (uri, c) ← readUri true (c.skipWhile isBlank)
    if uri.isEmpty ∨ !startsBlank c.rest then none else return (.tagHandle handle uri, c)

/-- A directive after its sign, and the cursor after its line. -/
def readDirective (c : Cursor) : Option (Token × Cursor) := do
  let (name, c) := c.takeWhile isNameChar
  if !startsBlank c.rest then none
  else
    let (token, c) ←
      if name = "YAML".toList then readVersion c
      else if name = "TAG".toList then readTagHandle c
      else none
    let c := c.skipWhile isBlank
    let c := if c.rest.head? = some '#' then c.skipWhile fun _ => true else c
    if startsBreak c.rest then return (token, c.readBreak.2) else none

end LayeredConfig.Yaml
