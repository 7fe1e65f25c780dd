import LayeredConfig.Entries
import LayeredConfig.Text.Blank
import LayeredConfig.Text.Hex

/-!
# Property text

A text of `key = value` lines.  A line whose first character is `#` or `!` is a comment, an odd run of
backslashes at its end joins it to the next line, and inside a line a backslash gives the next character another
meaning or takes its meaning away.
-/

namespace LayeredConfig.Properties

open Text (isBlank trimStart)

/-- The lines of a text: each ends before a line feed, or before a carriage return with a line feed. -/
def lines : List Char → List (List Char)
  | [] => []
  | '\n' :: cs => [] :: lines cs
  | '\r' :: '\n' :: cs => [] :: lines cs
  | c :: cs =>
    match lines cs with
    | [] => [[c]]
    | l :: ls => (c :: l) :: ls

/-- Whether the line goes on in the next one: it ends in an odd run of backslashes. -/
def continues (line : List Char) : Bool :=
  (line.reverse.takeWhile (· == '\\')).length % 2 == 1

/-- Whether a line that starts no entry is passed over. -/
def isIgnored (line : List Char) : Bool :=
  match trimStart line with
  | [] => true
  | c :: _ => c == '#' || c == '!'

/-- The logical lines: comments and empty lines left out, continued lines joined.  `pending` is a line that ends
in the backslash which joins it to the next one. -/
def logicalLines (pending : Option (List Char)) : List (List Char) → List (List Char)
  | [] => (pending.map List.dropLast).toList
  | line :: rest =>
    match pending with
    | none =>
      if isIgnored line then logicalLines none rest
      else
        let current := trimStart line
        if continues current then logicalLines (some current) rest else current :: logicalLines none rest
    | some p =>
      let current := p.dropLast ++ trimStart line
      if continues current then logicalLines (some current) rest else current :: logicalLines none rest

/-- The value after the blanks that end a key: at most one separator is part of the gap. -/
def valueAfterGap (cs : List Char) : List Char :=
  match trimStart cs with
  | '=' :: rest => trimStart rest
  | ':' :: rest => trimStart rest
  | rest => rest

/-- The key and the value of a logical line, both still escaped. -/
def splitEntry : List Char → List Char × List Char
  | [] => ([], [])
  | ['\\'] => (['\\'], [])
  | '\\' :: c :: cs =>
    let p := splitEntry cs
    ('\\' :: c :: p.1, p.2)
  | c :: cs =>
    if c = '=' ∨ c = ':' then ([], trimStart cs)
    else if isBlank c then ([], valueAfterGap cs)
    else
      let p := splitEntry cs
      (c :: p.1, p.2)

/-- The character with a hexadecimal code, which may carry a plus sign. -/
def unicodeChar? (code : List Char) : Option Char :=
  let digits := match code with
    | '+' :: rest => rest
    | rest => rest
  if digits.isEmpty then none
  else (Text.hexNumber? digits).bind Text.charOfCode?

/-- The text with its escapes resolved. -/
def unescape : List Char → List Char
  | [] => []
  | ['\\'] => []
  | '\\' :: c :: cs =>
    if c = 'u' then
      let code := cs.take 4
      match unicodeChar? code with
      | some decoded => decoded :: unescape (cs.drop 4)
      | none => 'u' :: code ++ unescape (cs.drop 4)
    else
      (match c with
      | 't' => '\t'
      | 'n' => '\n'
      | 'r' => '\r'
      | 'f' => '\x0c'
      | c => c) :: unescape cs
  | c :: cs => c :: unescape cs
termination_by cs => cs.length
decreasing_by all_goals simp; try omega

/-- The entry of a logical line. -/
def entry (line : List Char) : String × String :=
  let p := splitEntry line
  (String.ofList (unescape p.1), String.ofList (unescape p.2))

/-- The entries of a text; the last entry of a key wins. -/
def parse (text : String) : Entries :=
  Entries.ofPairs ((logicalLines none (lines text.toList)).map entry)

end LayeredConfig.Properties
