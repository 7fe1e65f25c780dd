import LayeredConfig.Registry
import LayeredConfig.Template

/-!
# Views of an engine

What a reader sees of an engine at one moment: the value of each key, the marker of the last change and the time.
An empty value counts as absent wherever values are converted or put in for references.
-/

namespace LayeredConfig

/-- The readable state of an engine. -/
structure View where
  /-- The value of a key, as its source holds it. -/
  find : String → Option String
  /-- The marker of the last change. -/
  marker : Nat
  /-- Nanoseconds. -/
  now : Nat

namespace View

/-- The value of a key that is neither absent nor empty. -/
def present? (v : View) (key : String) : Option String := (v.find key).filter fun value => !value.isEmpty

/-- A text and the keys that were looked up to get it, in order. -/
structure Looked where
  text : String
  asked : List String

/-- A text with its references replaced.  A text whose own references never come to an end stands for itself here,
where a reader waits without end: what is said about reads is meant of those that return. -/
def expand (v : View) (raw : String) : Looked :=
  let e := Template.expand v.present? raw
  ⟨String.ofList e.text, e.trace.filterMap Template.Event.name?⟩

/-- The value of a key as a value of type `t`, without replacing references. -/
def optionalValue (v : View) (r : Registry) (t : ValueType) (key : String) :
    Except ConfigError (Option Value) × Registry :=
  let p := r.convert t (v.present? key)
  (p.1.mapError (ConfigError.forKey key), p.2)

/-- The error of a key without a value, in place of an absent value. -/
def require {α : Type} (key : String) : Except ConfigError (Option α) → Except ConfigError α
  | .error e => .error e
  | .ok none => .error (.notFound key)
  | .ok (some a) => .ok a

/-- The value of a key, which must have one. -/
def value (v : View) (r : Registry) (t : ValueType) (key : String) : Except ConfigError Value × Registry :=
  let p := v.optionalValue r t key
  (require key p.1, p.2)

end View

end LayeredConfig
