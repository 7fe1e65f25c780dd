import LayeredConfig.Yaml.Cursor

/-!
# Gaps inside scalars

Blanks and line ends between the words of a scalar.  Blanks within a line stay; a single line end becomes a space,
and of several ones all but the first stay.
-/

namespace LayeredConfig.Yaml

/-- What stands between two words of a scalar. -/
inductive Gap where
  | blanks (text : List Char)
  /-- The first line end and the further ones. -/
  | lines (first others : List Char)

namespace Gap

/-- No gap. -/
def none : Gap := blanks []

def hasLines : Gap → Bool
  | blanks _ => false
  | lines _ _ => true

/-- The text that a gap becomes. -/
def fold : Gap → List Char
  | blanks text => text
  | lines first others =>
    if first.head? = some '\n' then (if others.isEmpty then [' '] else others) else first ++ others

private def addBlank (c : Char) : Gap → Gap
  | blanks text => blanks (text ++ [c])
  | lines first others => lines first others

private def addBreak (text : List Char) : Gap → Gap
  | blanks _ => lines text []
  | lines first others => lines first (others ++ text)

/-- Reads a gap on from `gap`.  After a line end no tab may stand before the column `indent`. -/
def read (indent : Int) (gap : Gap) (c : Cursor) : (fuel : Nat) → Option (Gap × Cursor)
  | 0 => some (gap, c)
  | fuel + 1 =>
    match c.rest with
    | [] => some (gap, c)
    | ch :: _ =>
      if isBlank ch then
        if gap.hasLines && ch == '\t' && (c.column : Int) < indent then Option.none
        else read indent (addBlank ch gap) (c.drop 1) fuel
      else if isBreak ch then
        let p := c.readBreak
        read indent (addBreak p.1 gap) p.2 fuel
      else some (gap, c)

end Gap

end LayeredConfig.Yaml
