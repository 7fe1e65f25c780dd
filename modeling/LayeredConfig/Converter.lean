import LayeredConfig.Error
import LayeredConfig.ListText
import LayeredConfig.Value

/-!
# Converters

A converter reads texts as values of its target type.  It may be asked for another type than it produces, which
fails after the reading.  Reading the name of a type needs the table of the names that are known at that moment.
-/

namespace LayeredConfig

/-- Why a converter does not read a text. -/
inductive Refusal where
  | danglingEscape
  | because (reason : String)
  deriving DecidableEq, Repr

/-- The text shown for a refusal. -/
def Refusal.message : Refusal → String
  | danglingEscape => "value ends with a dangling escape character"
  | because reason => reason

/-- The error of a converter to `target` that refuses `raw`. -/
def Refusal.toError (target : ValueType) (raw : String) : Refusal → ConfigError
  | danglingEscape => .malformedInput "" raw danglingEscape.message
  | because reason => .conversionFailed raw target.fullName reason

/-- The types that names stand for; the first entry of a name counts. -/
abbrev TypeNames := List (String × ValueType)

/-- A way to read texts as values. -/
inductive Converter where
  | reading (target : ValueType) (read : String → Except Refusal Value)
  /-- Reads the name of a type. -/
  | typeNames
  /-- Reads the items of a list text one by one. -/
  | list (element : ValueType) (item : Converter)

namespace Converter

/-- The type that a converter produces. -/
def target : Converter → ValueType
  | reading target _ => target
  | typeNames => .typeRef
  | list element _ => .list element

/-- What a converter to `target` that was asked for a `wanted` gives for `raw`. -/
def settle (target wanted : ValueType) (raw : String) : Except Refusal Value → Except ConfigError Value
  | .error refusal => .error (refusal.toError target raw)
  | .ok v =>
    if target = wanted then .ok v
    else .error (.conversionFailed raw wanted.fullName ("converter produced a " ++ target.fullName))

/-- Reads a text. -/
def run (names : TypeNames) : Converter → String → Except Refusal Value
  | reading _ read, raw => read raw
  | typeNames, raw =>
    match names.lookup (Text.trimmed raw) with
    | some t => .ok (.typeRef t)
    | none => .error (.because ("unknown type '" ++ raw ++ "'"))
  | list element item, raw =>
    match ListText.split raw with
    | none => .error .danglingEscape
    | some tokens =>
      match tokens.mapM fun token => settle item.target element token (run names item token) with
      | .ok values => .ok (.list values)
      | .error e => .error (.because e.message)

/-- Reads a text as a value of type `wanted`. -/
def convert (names : TypeNames) (c : Converter) (wanted : ValueType) (raw : String) : Except ConfigError Value :=
  settle c.target wanted raw (c.run names raw)

end Converter

end LayeredConfig
