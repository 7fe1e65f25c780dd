/-!
# JSON

Values of JSON and their layout over several lines, in which each level is indented by two spaces.
-/

namespace LayeredConfig

/-- A value of JSON. -/
inductive JsonValue where
  | null
  | text (s : String)
  | number (n : Int)
  | array (items : List JsonValue)
  | object (fields : List (String × JsonValue))

namespace JsonValue

private def codeDigits (c : Char) : List Char :=
  let digits := Nat.toDigits 16 c.toNat
  List.replicate (4 - digits.length) '0' ++ digits

/-- A character inside a quoted text. -/
def escapeChar (c : Char) : List Char :=
  if c = '"' ∨ c = '\\' then ['\\', c]
  else if c = '\x08' then ['\\', 'b']
  else if c = '\x0c' then ['\\', 'f']
  else if c = '\n' then ['\\', 'n']
  else if c = '\r' then ['\\', 'r']
  else if c = '\t' then ['\\', 't']
  else if c.toNat < 0x20 then '\\' :: 'u' :: codeDigits c
  else [c]

/-- A text in quotes. -/
def quote (s : String) : String := String.ofList ('"' :: s.toList.flatMap escapeChar ++ ['"'])

private def newline (level : Nat) : String := String.ofList ('\n' :: List.replicate (2 * level) ' ')

/-- Laid out items between brackets. -/
def enclose (level : Nat) (opening closing : String) : List String → String
  | [] => opening ++ closing
  | items =>
    opening ++ newline (level + 1) ++ String.intercalate ("," ++ newline (level + 1)) items ++ newline level ++ closing

mutual

/-- The layout of a value that stands at some level. -/
def renderAt (level : Nat) : JsonValue → String
  | null => "null"
  | text s => quote s
  | number n => toString n
  | array items => enclose level "[" "]" (renderItems (level + 1) items)
  | object fields => enclose level "\x7b" "\x7d" (renderFields (level + 1) fields)

/-- The layouts of items. -/
def renderItems (level : Nat) : List JsonValue → List String
  | [] => []
  | item :: rest => renderAt level item :: renderItems level rest

/-- The layouts of the fields of an object. -/
def renderFields (level : Nat) : List (String × JsonValue) → List String
  | [] => []
  | (name, value) :: rest => (quote name ++ ": " ++ renderAt level value) :: renderFields level rest

end

/-- The layout of a value. -/
def render (v : JsonValue) : String := renderAt 0 v

end JsonValue

end LayeredConfig
