import LayeredConfig.Accessor.Builder
import LayeredConfig.CommandLine.Setup
import LayeredConfig.JsonValue

/-!
# Getting a value

The command that looks up one key, as a text of its source or as a value of some type, and prints what it found.
-/

namespace LayeredConfig.CommandLine

/-- The texts of a value and the key that gave it. -/
structure Resolved where
  resolvedKey : Option String
  values : List String

namespace GetRequest

/-- How the accessor of a request is built. -/
def steps (r : GetRequest) : List BuildStep :=
  r.suffixes.map .suffix ++ [.type r.type] ++ (if r.list then [.list] else []) ++ r.default.toList.map .textDefault

/-- How the accessor of a request for the text of a source is built. -/
def rawSteps (r : GetRequest) : List BuildStep := r.suffixes.map .suffix ++ [.expands false]

/-- The texts of a result: one for each item of a list. -/
def texts : Value → List String
  | .list items => items.map Value.render
  | value => [value.render]

/-- The text of a source, or the default. -/
def resolveRaw (r : GetRequest) (s : Setup) : Except ConfigError Resolved := do
  let built := Accessor.build s.view s.engine.registry r.key r.rawSteps
  let reading := (← built.outcome).rawValue s.view built.registry
  match (← reading.outcome).or r.default with
  | some text => return ⟨reading.accessor.memory.resolvedKey, [text]⟩
  | none => throw (.notFound r.key)

/-- The value of the key, or the default. -/
def resolveValue (r : GetRequest) (s : Setup) : Except ConfigError Resolved := do
  let built := Accessor.build s.view s.engine.registry r.key r.steps
  let (outcome, reading) := (← built.outcome).value s.view built.registry
  return ⟨reading.accessor.memory.resolvedKey, texts (← outcome)⟩

/-- What a request finds. -/
def resolve (r : GetRequest) (s : Setup) : Except ConfigError Resolved :=
  if r.raw then r.resolveRaw s else r.resolveValue s

private def optionalText : Option String → JsonValue
  | some text => .text text
  | none => .null

/-- What was found, as a document. -/
def document (r : GetRequest) (found : Resolved) : JsonValue :=
  .object
    [("key", .text r.key), ("resolved_key", optionalText found.resolvedKey),
     ("value", if r.list then .array (found.values.map .text) else optionalText found.values.head?)]

/-- What a request prints, or the problem it has. -/
def run (r : GetRequest) (s : Setup) : Except Problem String :=
  match r.resolve s with
  | .error e => .error (.ofConfigError r.key e)
  | .ok found => .ok (if r.json then (r.document found).render ++ "\n" else String.join (found.values.map (· ++ "\n")))

end GetRequest

end LayeredConfig.CommandLine
