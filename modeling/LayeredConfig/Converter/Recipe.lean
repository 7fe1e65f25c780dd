import LayeredConfig.Registry

/-!
# Recipes for converters

Converters that are described by data: each turns the text it is given into another one, which a fresh registry
reads as a value of the target type, or refuses it.
-/

namespace LayeredConfig

/-- A description of a converter. -/
inductive Recipe where
  /-- Always the value of one text. -/
  | constant (text : String)
  /-- Always a refusal. -/
  | refuse (reason : String)
  /-- The value of the text with another one before it. -/
  | prepend (text : String)
  /-- The value of the text in capital letters of the alphabet. -/
  | upper
  /-- The value of the number of bytes of the text. -/
  | length
  /-- The value of the text without a beginning that it must have. -/
  | strip (beginning : String)
  /-- The refusal of a text that ends in an escape. -/
  | dangling
  deriving DecidableEq, Repr

namespace Recipe

/-- The value of type `t` that a text stands for; a value of an application's type holds the text as it is. -/
def make (customTypes : List CustomType) (t : ValueType) (text : String) : Except Refusal Value :=
  match t with
  | .custom name => .ok (.custom name text)
  | t =>
    match (Registry.standard customTypes).convert t (some text) with
    | (.ok (some v), _) => .ok v
    | (.ok none, _) => .error (.because "")
    | (.error e, _) => .error (.because e.message)

/-- The text without a beginning. -/
def stripped? (beginning text : List Char) : Option (List Char) :=
  if beginning.isPrefixOf text then some (text.drop beginning.length) else none

/-- What the recipe makes of a text. -/
def read (customTypes : List CustomType) (t : ValueType) (recipe : Recipe) (raw : String) : Except Refusal Value :=
  let make := make customTypes t
  match recipe with
  | constant text => make text
  | refuse reason => .error (.because reason)
  | prepend text => make (text ++ raw)
  | upper => make (String.ofList (raw.toList.map Char.toUpper))
  | length => make (toString raw.utf8ByteSize)
  | strip beginning =>
    match stripped? beginning.toList raw.toList with
    | some rest => make (String.ofList rest)
    | none => .error (.because ("missing prefix " ++ beginning))
  | dangling => .error .danglingEscape

/-- The converter to `t` that a recipe describes. -/
def converter (customTypes : List CustomType) (t : ValueType) (recipe : Recipe) : Converter :=
  .reading t (recipe.read customTypes t)

end Recipe

end LayeredConfig
