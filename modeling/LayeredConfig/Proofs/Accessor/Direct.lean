import LayeredConfig.Accessor.Builder

/-!
# Direct accessors

An accessor that was told a type and a shape, and to leave references alone, but nothing else.  It stays like that
whatever is read of it, and gives what its key converts to at that moment (`IsDirect.reading`).
-/

namespace LayeredConfig.Accessor

/-- The settings of an accessor to values of one type, without anything else. -/
def Settings.direct (key : String) (t : ValueType) (shape : Shape) : Settings :=
  { key, type := t, shape, expands := false, lifetime := none, default := none, converter := none }

/-- An accessor to a key as values of one type, without anything else.  It may have been read already. -/
def IsDirect (key : String) (t : ValueType) (shape : Shape) (a : Accessor) : Prop :=
  ∃ m, a = mk (.direct key t shape) .nil m

variable {key : String} {t : ValueType} {shape : Shape} {a : Accessor}

/-- Without suffixes only the key itself is looked up, and an empty value counts as absent. -/
theorem raw_lookup_direct (v : View) (key : String) (t : ValueType) (shape : Shape) :
    (lookup v (.direct key t shape) []).raw = v.present? key := by
  have hsearch : search v key [] (2 ^ ([] : List String).length - 1) = ⟨none, []⟩ := rfl
  unfold lookup View.present?
  rw [Settings.direct, hsearch]
  dsimp only
  cases v.find key with
  | none => rfl
  | some raw =>
    show nonempty raw = _
    cases hraw : raw.isEmpty with
    | false => simp [nonempty, Option.filter, hraw]
    | true => simp [nonempty, Option.filter, hraw]

/-- Whatever is found, it is the key itself that was resolved. -/
theorem key_lookup_direct (v : View) (key : String) (t : ValueType) (shape : Shape) :
    (lookup v (.direct key t shape) []).key = key := by
  have hsearch : search v key [] (2 ^ ([] : List String).length - 1) = ⟨none, []⟩ := rfl
  rw [lookup, Settings.direct, hsearch]
  dsimp only
  cases v.find key with
  | none => rfl
  | some raw => rfl

/-- Reading gives the result of the key's present value, and leaves the accessor direct. -/
theorem IsDirect.reading (h : a.IsDirect key t shape) (v : View) (r : Registry) :
    (a.optionalValue v r).outcome = (result (.direct key t shape) r (v.present? key)).1 ∧
      (a.optionalValue v r).registry = (result (.direct key t shape) r (v.present? key)).2 ∧
      (a.optionalValue v r).accessor.IsDirect key t shape := by
  obtain ⟨m, rfl⟩ := h
  have hkept : kept? v (.direct key t shape) m = none := rfl
  rw [optionalValue, hkept, presentSuffixes]
  dsimp only
  rw [raw_lookup_direct]
  generalize result (.direct key t shape) r (v.present? key) = p
  obtain ⟨_ | value, r'⟩ := p
  · exact ⟨rfl, rfl, m, rfl⟩
  · exact ⟨rfl, rfl, _, rfl⟩

theorem IsDirect.optionalValue (h : a.IsDirect key t shape) (v : View) (r : Registry) :
    (a.optionalValue v r).accessor.IsDirect key t shape := (h.reading v r).2.2

theorem IsDirect.rawValue (h : a.IsDirect key t shape) (v : View) (r : Registry) :
    (a.rawValue v r).accessor.IsDirect key t shape := by
  obtain ⟨m, rfl⟩ := h
  exact ⟨_, rfl⟩

theorem IsDirect.value_eq (h : a.IsDirect key t shape) (v : View) (r : Registry) :
    (a.value v r).1 = View.require key (result (.direct key t shape) r (v.present? key)).1 := by
  obtain ⟨houtcome, -, -⟩ := h.reading v r
  obtain ⟨m, rfl⟩ := h
  exact congrArg (View.require key) houtcome

end LayeredConfig.Accessor
