import LayeredConfig.Converter
import LayeredConfig.Duration.Reader
import LayeredConfig.Truth

/-!
# Built-in converters

The converter of each basic type.
-/

namespace LayeredConfig.Converter

private def direct (target : ValueType) (read : String → Value) : Converter :=
  reading target fun raw => .ok (read raw)

private def parsing {α ε : Type} (target : ValueType) (parse : String → Except ε α) (value : α → Value)
    (message : ε → String) : Converter :=
  reading target fun raw =>
    match parse raw with
    | .ok a => .ok (value a)
    | .error e => .error (.because (message e))

/-- The only character of a text, or how many there are. -/
def onlyChar (raw : String) : Except Nat Char :=
  match raw.toList with
  | [c] => .ok c
  | cs => .error cs.length

private def charCountMessage (count : Nat) : String :=
  "expected exactly one character, got " ++ toString count ++ " characters"

/-- The converter to a basic type. -/
def builtin? : ValueType → Option Converter
  | .text => some (direct .text .text)
  | .bool => some (direct .bool fun raw => .bool (Truth.parse raw))
  | .char => some (parsing .char onlyChar .char charCountMessage)
  | .whole k => some (parsing (.whole k) (Whole.parse k) .whole Whole.Fault.message)
  | .float f => some (parsing (.float f) (Decimal.parse f) (.float f) Decimal.Fault.message)
  | .duration => some (parsing .duration Duration.parse .duration Duration.Fault.message)
  | .instant => some (parsing .instant Instant.parse .instant Instant.Fault.message)
  | .url => some (parsing .url Url.parse .url Url.Fault.message)
  | .path => some (direct .path .path)
  | .typeRef => some typeNames
  | .custom _ => none
  | .list _ => none

private theorem isExact_of_direct {names : TypeNames} {target : ValueType} {read : String → Value} {raw : String}
    {v : Value} (hread : ∀ raw, (read raw).isExact = true) (h : (direct target read).run names raw = .ok v) :
    v.isExact = true := by
  rw [direct, run] at h
  obtain rfl := Except.ok.inj h
  exact hread raw

private theorem isExact_of_parsing {α ε : Type} {names : TypeNames} {target : ValueType} {parse : String → Except ε α}
    {value : α → Value} {message : ε → String} {raw : String} {v : Value} (hvalue : ∀ a, (value a).isExact = true)
    (h : (parsing target parse value message).run names raw = .ok v) : v.isExact = true := by
  rw [parsing, run] at h
  cases hparse : parse raw with
  | error e =>
    rw [hparse] at h
    cases h
  | ok a =>
    rw [hparse] at h
    obtain rfl := Except.ok.inj h
    exact hvalue a

/-- The built-in converters that do not read floating-point numbers produce none. -/
theorem isExact_of_builtin? {names : TypeNames} {t : ValueType} {c : Converter} {raw : String} {v : Value}
    (hc : builtin? t = some c) (ht : ∀ f, t ≠ .float f) (hv : c.run names raw = .ok v) : v.isExact = true := by
  cases t with
  | text | path | bool =>
    obtain rfl := Option.some.inj hc
    exact isExact_of_direct (fun _ => rfl) hv
  | char | whole | duration | instant | url =>
    obtain rfl := Option.some.inj hc
    exact isExact_of_parsing (fun _ => rfl) hv
  | typeRef =>
    obtain rfl := Option.some.inj hc
    rw [run] at hv
    split at hv
    · obtain rfl := Except.ok.inj hv
      rfl
    · cases hv
  | float f => exact absurd rfl (ht f)
  | custom name => cases hc
  | list element => cases hc

/-- A built-in converter produces the type that it is built in for. -/
theorem target_of_builtin? {t : ValueType} {c : Converter} (h : builtin? t = some c) : c.target = t := by
  cases t with
  | custom name => cases h
  | list element => cases h
  | _ =>
    obtain rfl := Option.some.inj h
    rfl

end LayeredConfig.Converter
