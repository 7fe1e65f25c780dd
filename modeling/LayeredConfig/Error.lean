/-!
# Errors

What can go wrong between a key and its typed value, and the wording of each cause.
-/

namespace LayeredConfig

/-- A converter or source that failed to close. -/
structure CloseFailure where
  component : String
  message : String
  deriving DecidableEq, Repr

/-- The causes for which a lookup, a conversion, a registration or a shutdown fails. -/
inductive ConfigError where
  | notFound (key : String)
  | noConverter (typeName : String)
  | conversionFailed (raw typeName reason : String)
  | conflictingPriority (typeName : String) (priority : Int)
  | malformedInput (key value reason : String)
  | invalidDefault (key : String)
  | shutdown (failures : List CloseFailure)
  deriving DecidableEq, Repr

namespace ConfigError

private def failureLines : List CloseFailure → String
  | [] => ""
  | f :: fs => "\n  " ++ f.component ++ ": " ++ f.message ++ failureLines fs

/-- The text shown for an error. -/
def message : ConfigError → String
  | notFound key => "No configured value found for config key " ++ key
  | noConverter typeName => "No converter registered for type " ++ typeName
  | conversionFailed raw typeName reason => "Cannot convert '" ++ raw ++ "' to " ++ typeName ++ ": " ++ reason
  | conflictingPriority typeName priority =>
    "Found 2 converters with the same priority " ++ toString priority ++ " for type " ++ typeName
      ++ "; aborting to avoid nondeterministic precedence"
  | malformedInput key value reason =>
    "Incorrect escaping of key " ++ key ++ " value '" ++ value ++ "': " ++ reason
  | invalidDefault key => "Empty string supplied as string-default value for property " ++ key
  | shutdown failures =>
    "The following " ++ toString failures.length ++ " errors got detected while shutting down the configuration:"
      ++ failureLines failures

/-- Whether the error is that no value is configured. -/
def isNotFound : ConfigError → Bool
  | notFound _ => true
  | _ => false

/-- The error with `key` named where a malformed value does not name one yet. -/
def forKey (key : String) : ConfigError → ConfigError
  | malformedInput k value reason => malformedInput (if k = "" then key else k) value reason
  | e => e

theorem forKey_forKey {e : ConfigError} {key other : String} (h : key ≠ "") :
    (e.forKey key).forKey other = e.forKey key := by
  cases e <;> simp only [forKey]
  split <;> simp_all

end ConfigError

end LayeredConfig
