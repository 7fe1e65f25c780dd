import LayeredConfig.Yaml.Cursor

/-!
# Block scalars

Texts of whole indented lines, after a header with an optional chomping mark and an optional indentation.  A
literal text keeps its line ends; a folded one joins lines that start with no blank.
-/

namespace LayeredConfig.Yaml

/-- What happens to the line ends at the end of a block scalar. -/
inductive Chomping where
  | strip
  | clip
  | keep
  deriving DecidableEq, Repr

private def chomping? (c : Char) : Option Chomping :=
  if c = '+' then some .keep else if c = '-' then some .strip else none

private def digit? (c : Char) : Option Nat := if c.isDigit then some (c.toNat - '0'.toNat) else none

/-- The chomping and the indentation that a header gives, and how many characters it has. -/
private def readHeader (cs : List Char) : Chomping × Option Nat × Nat :=
  match cs with
  | a :: rest =>
    match chomping? a, digit? a with
    | some chomping, _ =>
      match rest.head?.bind digit? with
      | some n => (chomping, some n, 2)
      | none => (chomping, none, 1)
    | none, some n =>
      match rest.head?.bind chomping? with
      | some chomping => (chomping, some n, 2)
      | none => (.clip, some n, 1)
    | none, none => (.clip, none, 0)
  | [] => (.clip, none, 0)

/-- Reads empty lines and the indentation of the next one: the line ends, the greatest indentation that was seen,
and the cursor.  While `indent` is zero, all spaces are indentation. -/
private def readIndentation (indent widest : Nat) (breaks : List Char) (c : Cursor) :
    (fuel : Nat) → Option (List Char × Nat × Cursor)
  | 0 => some (breaks, widest, c)
  | fuel + 1 =>
    let spaces := (c.takeWhile (· == ' ')).1.length
    let c := c.drop (if indent = 0 then spaces else min spaces (indent - c.column))
    let widest := max widest c.column
    if (indent = 0 ∨ c.column < indent) ∧ c.rest.head? = some '\t' then none
    else if c.rest.isEmpty || !startsBreak c.rest then some (breaks, widest, c)
    else
      let p := c.readBreak
      readIndentation indent widest (breaks ++ p.1) p.2 fuel

/-- The lines of a block scalar that are read so far. -/
private structure Lines where
  text : List Char
  /-- The end of the last line. -/
  lastBreak : List Char
  /-- The line ends of the empty lines after it. -/
  emptyLines : List Char
  /-- Whether the last line starts with a blank. -/
  startsBlank : Bool
  cursor : Cursor

private def readLines (folded : Bool) (indent : Nat) (l : Lines) : (fuel : Nat) → Option Lines
  | 0 => some l
  | fuel + 1 =>
    if l.cursor.column ≠ indent ∨ l.cursor.rest.isEmpty then some l
    else
      let blank := match l.cursor.rest with
        | ch :: _ => isBlank ch
        | [] => false
      let joined :=
        if folded ∧ l.lastBreak.head? = some '\n' ∧ !l.startsBlank ∧ !blank then
          (if l.emptyLines.isEmpty then [' '] else []) ++ l.emptyLines
        else l.lastBreak ++ l.emptyLines
      let line := l.cursor.takeWhile fun _ => true
      let ending := line.2.readBreak
      match readIndentation indent 0 [] ending.2 (ending.2.rest.length + 1) with
      | none => none
      | some (emptyLines, _, cursor) =>
        readLines folded indent ⟨l.text ++ joined ++ line.1, ending.1, emptyLines, blank, cursor⟩ fuel

private def skipComment (c : Cursor) : Cursor :=
  if c.rest.head? = some '#' then c.skipWhile fun _ => true else c

/-- The text of a block scalar after its indicator, inside a block that is indented by `outer`, and the cursor
after it. -/
def readBlock (folded : Bool) (outer : Int) (c : Cursor) : Option (List Char × Cursor) :=
  let header := readHeader c.rest
  let c := skipComment ((c.drop header.2.2).skipWhile isBlank)
  if header.2.1 = some 0 ∨ !startsBreak c.rest then none
  else
    let c := c.readBreak.2
    let base := outer.toNat
    let given := match header.2.1 with
      | some n => base + n
      | none => 0
    match readIndentation given 0 [] c (c.rest.length + 1) with
    | none => none
    | some (breaks, widest, c) =>
      let indent := if given = 0 then max widest (max (outer + 1).toNat 1) else given
      match readLines folded indent ⟨[], [], breaks, false, c⟩ (c.rest.length + 1) with
      | none => none
      | some l =>
        let tail := match header.1 with
          | .strip => []
          | .clip => l.lastBreak
          | .keep => l.lastBreak ++ l.emptyLines
        some (l.text ++ tail, l.cursor)

end LayeredConfig.Yaml
