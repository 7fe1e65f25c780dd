/-!
# YAML tokens

The parts that a YAML text consists of: punctuation, the starts and ends of indented blocks, properties of values
and scalars.
-/

namespace LayeredConfig.Yaml

/-- A scalar as it is written. -/
structure Written where
  text : String
  /-- Whether it stands without quotes on the lines of its neighbours. -/
  plain : Bool
  deriving DecidableEq, Repr

/-- A part of a YAML text. -/
inductive Token where
  | version (major minor : Nat)
  | tagHandle (handle start : String)
  | documentStart
  | documentEnd
  | blockSequenceStart
  | blockMappingStart
  | blockEnd
  | flowSequenceStart
  | flowSequenceEnd
  | flowMappingStart
  | flowMappingEnd
  | blockEntry
  | flowEntry
  | key
  | value
  | alias (name : String)
  | anchor (name : String)
  | tag (handle suffix : String)
  | scalar (s : Written)
  deriving DecidableEq, Repr

end LayeredConfig.Yaml
