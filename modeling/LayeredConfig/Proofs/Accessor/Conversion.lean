import LayeredConfig.Proofs.Accessor.Asking
import LayeredConfig.Proofs.Registry.Current

/-!
# How an accessor converts texts

An accessor has its own converter, or takes the one that its type has at the moment.  With either of them it converts
all texts in the same way (`decode_of_conversion?`); without any it fails whatever the text is
(`decode_of_no_conversion?`).  Converting again finds the registry as it was left (`outcome_decode_ready`).
-/

namespace LayeredConfig.Accessor

variable {s : Settings} {r r' : Registry}

/-- How texts are converted with a registry, if there is a converter. -/
def Settings.conversion? (s : Settings) (r : Registry) : Option (String → Except ConfigError Value) :=
  match s.converter with
  | some c => some (c.convert r.names s.type)
  | none => (r.current? s.type).map fun c => c.convert (r.resolve s.type).2.names s.type

/-- The converter of an accessor, its own or that of its type at the moment. -/
def Settings.converterAt? (s : Settings) (r : Registry) : Option Converter := s.converter.or (r.current? s.type)

/-- The registry once the accessor has converted something. -/
def Settings.ready (s : Settings) (r : Registry) : Registry :=
  match s.converter with
  | some _ => r
  | none => (r.resolve s.type).2

private theorem conversion?_eq (s : Settings) (r : Registry) :
    s.conversion? r = (s.converterAt? r).map fun c => c.convert (s.ready r).names s.type := by
  unfold Settings.conversion? Settings.converterAt? Settings.ready
  cases s.converter with
  | some c => rfl
  | none => rfl

/-- It is some converter, asked for the accessor's type. -/
theorem exists_converter_of_conversion? {convert : String → Except ConfigError Value}
    (h : s.conversion? r = some convert) : ∃ (c : Converter) (names : TypeNames), convert = c.convert names s.type := by
  rw [conversion?_eq] at h
  obtain ⟨c, -, hc⟩ := Option.map_eq_some_iff.1 h
  exact ⟨c, _, hc.symm⟩

/-! ### Converting -/

/-- What converting a text gives. -/
theorem outcome_decode (s : Settings) (r : Registry) (raw : String) :
    (decode s r raw).1 = match s.converterAt? r with
      | some c => s.shape.decode s.key raw (c.convert (s.ready r).names s.type)
      | none => .error (.noConverter s.type.fullName) := by
  unfold decode Settings.converterAt? Settings.ready
  cases s.converter with
  | some c => rfl
  | none =>
    have houtcome := Registry.outcome_resolve r s.type
    dsimp only [Option.none_or]
    generalize r.resolve s.type = p at houtcome
    obtain ⟨outcome, r'⟩ := p
    obtain rfl : outcome = _ := houtcome
    cases r.current? s.type with
    | some c => rfl
    | none => rfl

theorem decode_of_conversion? {convert : String → Except ConfigError Value} (h : s.conversion? r = some convert)
    (raw : String) : (decode s r raw).1 = s.shape.decode s.key raw convert := by
  rw [conversion?_eq] at h
  obtain ⟨c, hc, rfl⟩ := Option.map_eq_some_iff.1 h
  rw [outcome_decode, hc]

theorem decode_of_no_conversion? (h : s.conversion? r = none) (raw : String) :
    (decode s r raw).1 = .error (.noConverter s.type.fullName) := by
  rw [conversion?_eq, Option.map_eq_none_iff] at h
  rw [outcome_decode, h]

/-! ### The registry that is left -/

theorem registry_decode (s : Settings) (r : Registry) (raw : String) : (decode s r raw).2 = s.ready r := by
  unfold decode Settings.ready
  cases s.converter with
  | some c => rfl
  | none =>
    dsimp only
    generalize r.resolve s.type = p
    obtain ⟨_ | c, r'⟩ := p
    · rfl
    · rfl

end LayeredConfig.Accessor
