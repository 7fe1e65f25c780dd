import LayeredConfig.Engine
import LayeredConfig.Proofs.Converter.TypeNames
import LayeredConfig.Proofs.Lookup

/-!
# Discovered converters

Reading may make a registry grow: a converter that is discovered is kept, and its type is known by name from then
on (`Asked.extends`).  Which converter a type gets does not depend on what was discovered before (`resolve_eq`), so
the only trace that growth leaves is in the table of names.  A registry that already knows the converter of a type
does not grow when it is asked for it again (`resolve_of_settled`).
-/

namespace LayeredConfig.Registry

/-- The converter that a type gets, whether it was discovered already or not. -/
def converter? (r : Registry) (t : ValueType) : Option Converter :=
  match r.active? t with
  | some g => some g.converter
  | none =>
    match t with
    | .list element => (r.converter? element).map (.list element)
    | .custom name => r.customConverter? name
    | _ => none

/-- What was discovered is what would be discovered again, and all types are types of the application, which have
different names. -/
structure WellFormed (r : Registry) : Prop where
  apart : ValueType.NamesApart r.customTypes
  discovered : ∀ t c, r.discovered.lookup t = some c → r.converter? t = some c
  registered : ∀ t g, r.active? t = some g → t.IsKnown r.customTypes
  names : r.names.Sound r.customTypes

/-- A registry that has discovered more. -/
structure Extends (r r' : Registry) : Prop where
  customTypes : r'.customTypes = r.customTypes
  registered : r'.registered = r.registered
  discovered : r.discovered <:+ r'.discovered
  names : r.names <:+ r'.names

/-- A registry that was only asked for converters. -/
inductive Asked (r : Registry) : Registry → Prop
  | refl : Asked r r
  | resolve {r' : Registry} (h : Asked r r') (t : ValueType) : Asked r (r'.resolve t).2

/-- Whether a registry has the converter of a type already. -/
def Settled (r : Registry) (t : ValueType) : Prop := (r.active? t).isSome ∨ (r.discovered.lookup t).isSome

variable {r r' r'' : Registry} {t : ValueType}

theorem Extends.refl (r : Registry) : r.Extends r := ⟨rfl, rfl, List.suffix_refl _, List.suffix_refl _⟩

theorem Extends.trans (h : r.Extends r') (h' : r'.Extends r'') : r.Extends r'' :=
  ⟨h'.customTypes.trans h.customTypes, h'.registered.trans h.registered, h.discovered.trans h'.discovered,
    h.names.trans h'.names⟩

theorem Extends.active? (h : r.Extends r') (t : ValueType) : r'.active? t = r.active? t := by
  rw [Registry.active?, h.registered, Registry.active?]

private theorem Extends.converter? (h : r.Extends r') (t : ValueType) : r'.converter? t = r.converter? t := by
  induction t with
  | list element ih =>
    rw [Registry.converter?, Registry.converter?, h.active?, ih]
  | custom name =>
    rw [Registry.converter?, Registry.converter?, h.active?, customConverter?, customConverter?, h.customTypes]
  | _ => simp only [Registry.converter?, h.active?]

/-! ### Asking -/

theorem Asked.trans (h : r.Asked r') (h' : r'.Asked r'') : r.Asked r'' := by
  induction h' with
  | refl => exact h
  | resolve _ t ih => exact ih.resolve t

theorem asked_resolve (r : Registry) (t : ValueType) : r.Asked (r.resolve t).2 := .resolve .refl t

/-- Converting asks for a converter, unless there is nothing to convert. -/
theorem registry_convert (r : Registry) (t : ValueType) (raw : Option String) :
    (r.convert t raw).2 = match raw with
      | none => r
      | some _ => (r.resolve t).2 := by
  cases raw with
  | none => rfl
  | some raw =>
    unfold convert
    generalize r.resolve t = p
    obtain ⟨_ | c, r'⟩ := p
    · rfl
    · rfl

theorem registry_hasConverter (r : Registry) (t : ValueType) : (r.hasConverter t).2 = (r.resolve t).2 := by
  unfold hasConverter
  generalize r.resolve t = p
  obtain ⟨_ | c, r'⟩ := p
  · rfl
  · rfl

theorem asked_convert (r : Registry) (t : ValueType) (raw : Option String) : r.Asked (r.convert t raw).2 := by
  rw [registry_convert]
  cases raw with
  | none => exact .refl
  | some raw => exact asked_resolve r t

theorem asked_hasConverter (r : Registry) (t : ValueType) : r.Asked (r.hasConverter t).2 := by
  rw [registry_hasConverter]
  exact asked_resolve r t

private theorem extends_discover (r : Registry) (t : ValueType) (c : Converter) : r.Extends (r.discover t c) :=
  ⟨rfl, rfl, List.suffix_cons _ _, (List.suffix_cons _ _).trans (List.suffix_cons _ _)⟩

theorem extends_resolve (r : Registry) (t : ValueType) : r.Extends (r.resolve t).2 := by
  fun_induction resolve r t with
  | case3 element item r' hitem _ _ ih =>
    rw [hitem] at ih
    exact ih.trans (extends_discover r' _ _)
  | case4 element e r' hitem _ _ ih =>
    rw [hitem] at ih
    exact ih
  | case5 => exact extends_discover _ _ _
  | _ => exact .refl _

theorem Asked.extends (h : r.Asked r') : r.Extends r' := by
  induction h with
  | refl => exact .refl r
  | resolve _ t ih => exact ih.trans (extends_resolve _ t)

/-! ### Growing -/

theorem Settled.extends (hs : r.Settled t) (h : r.Extends r') : r'.Settled t := by
  rcases hs with hs | hs
  · exact .inl (by rwa [h.active?])
  · exact .inr (h.discovered.sublist.lookup_isSome hs)

/-- A registry is not asked twice for one type. -/
theorem resolve_of_settled (h : r.Settled t) : (r.resolve t).2 = r := by
  unfold resolve
  cases ha : r.active? t with
  | some g => rfl
  | none =>
    cases hd : r.discovered.lookup t with
    | some c => rfl
    | none => simp [Settled, ha, hd] at h

private theorem isKnown_of_converter? (hr : r.WellFormed) {c : Converter} (h : r.converter? t = some c) :
    t.IsKnown r.customTypes := by
  induction t generalizing c with
  | list element ih =>
    rw [Registry.converter?] at h
    cases ha : r.active? (.list element) with
    | some g => exact hr.registered _ _ ha
    | none =>
      rw [ha] at h
      obtain ⟨item, hitem, -⟩ := Option.map_eq_some_iff.1 h
      exact ih hitem
  | custom name =>
    rw [Registry.converter?] at h
    cases ha : r.active? (.custom name) with
    | some g => exact hr.registered _ _ ha
    | none =>
      rw [ha] at h
      obtain ⟨t, ht, -⟩ := Option.bind_eq_some_iff.1 h
      exact ⟨t, List.mem_of_find?_eq_some ht, by simpa using List.find?_some ht⟩
  | _ => trivial

/-- Keeping a discovered converter. -/
private theorem WellFormed.discover (hr : r.WellFormed) {c : Converter} (h : r.converter? t = some c) :
    r.Extends (r.discover t c) ∧ (r.discover t c).WellFormed := by
  have hext : r.Extends (r.discover t c) :=
    ⟨rfl, rfl, List.suffix_cons _ _, (List.suffix_cons _ _).trans (List.suffix_cons _ _)⟩
  refine ⟨hext, hr.apart, ?_, ?_, ?_⟩
  · intro u d hd
    rw [hext.converter?]
    -- The new entry hides older ones, but they would say the same.
    by_cases hu : u = t
    · subst hu
      have : some c = some d := by simpa [Registry.discover, Registry.remember] using hd
      rw [h, this]
    · have hu' : (u == t) = false := by simpa using hu
      have : r.discovered.lookup u = some d := by
        simpa [Registry.discover, Registry.remember, List.lookup_cons, hu'] using hd
      exact hr.discovered u d this
  · intro u g hu
    rw [hext.active?] at hu
    exact hr.registered u g hu
  · intro p hp
    have hknown := isKnown_of_converter? hr h
    rcases List.mem_cons.1 hp with rfl | hp
    · exact ⟨by simp [ValueType.names], hknown⟩
    · rcases List.mem_cons.1 hp with rfl | hp
      · exact ⟨by simp [ValueType.names], hknown⟩
      · exact hr.names p hp

/-- What was read as a type stays the name of that type. -/
theorem Extends.within (h : r.Extends r') (hr' : r'.WellFormed) : r.names.Within r'.names :=
  TypeNames.within_of_suffix hr'.apart hr'.names h.names

/-- What resolving a type gives: the converter that the type gets, and a registry that has it. -/
structure Resolves (r : Registry) (t : ValueType) (p : Except ConfigError Converter × Registry) : Prop where
  outcome : p.1 = match r.converter? t with
    | some c => .ok c
    | none => .error (.noConverter t.fullName)
  grown : r.Extends p.2
  wellFormed : p.2.WellFormed
  settled : ∀ c, p.1 = .ok c → p.2.Settled t

private theorem resolves_of_settled (hr : r.WellFormed) (h : r.Settled t) : r.Resolves t (r.resolve t) := by
  have hkept {c : Converter} (hc : r.converter? t = some c) : r.Resolves t (.ok c, r) :=
    ⟨by rw [hc], .refl r, hr, fun _ _ => h⟩
  unfold resolve
  cases ha : r.active? t with
  | some g =>
    apply hkept
    unfold Registry.converter?
    rw [ha]
  | none =>
    cases hd : r.discovered.lookup t with
    | some c => exact hkept (hr.discovered t c hd)
    | none => simp [Settled, ha, hd] at h

private theorem resolves_of_fresh (hr : r.WellFormed)
    (h : r.active? t = none → r.discovered.lookup t = none → r.Resolves t (r.resolve t)) :
    r.Resolves t (r.resolve t) := by
  by_cases hs : r.Settled t
  · exact resolves_of_settled hr hs
  · obtain ⟨ha, hd⟩ := not_or.1 hs
    rw [Option.not_isSome_iff_eq_none] at ha hd
    exact h ha hd

/-- Finding no converter, with a registry that may have grown on the way. -/
private theorem resolves_none (hext : r.Extends r') (hr' : r'.WellFormed) (h : r.converter? t = none)
    {e : ConfigError} (he : e = .noConverter t.fullName) : r.Resolves t (.error e, r') :=
  ⟨by rw [h, he], hext, hr', by simp⟩

private theorem resolves_discover (hext : r.Extends r') (hr' : r'.WellFormed) {c : Converter}
    (h : r.converter? t = some c) : r.Resolves t (.ok c, r'.discover t c) := by
  obtain ⟨hext', hwf⟩ := hr'.discover ((hext.converter? t).trans h)
  refine ⟨by rw [h], hext.trans hext', hwf, fun _ _ => .inr ?_⟩
  simp [Registry.discover, Registry.remember]

private theorem resolves (hr : r.WellFormed) (t : ValueType) : r.Resolves t (r.resolve t) := by
  induction t with
  | list element ih =>
    -- The converter of the elements may be discovered on the way, which leaves the registry well formed.
    refine resolves_of_fresh hr fun ha hd => ?_
    have hc : r.converter? (.list element) = (r.converter? element).map (.list element) := by
      rw [Registry.converter?, ha]
    unfold resolve
    simp only [ha, hd]
    obtain ⟨houtcome, hext, hwf, -⟩ := ih
    generalize r.resolve element = p at houtcome hext hwf
    obtain ⟨outcome, r'⟩ := p
    cases h : r.converter? element with
    | none =>
      obtain rfl : outcome = .error (.noConverter element.fullName) := by simpa [h] using houtcome
      exact resolves_none hext hwf (by rw [hc, h]; rfl) rfl
    | some item =>
      obtain rfl : outcome = .ok item := by simpa [h] using houtcome
      exact resolves_discover hext hwf (by rw [hc, h]; rfl)
  | custom name =>
    refine resolves_of_fresh hr fun ha hd => ?_
    have hc : r.converter? (.custom name) = r.customConverter? name := by
      rw [Registry.converter?, ha]
    unfold resolve
    simp only [ha, hd]
    cases h : r.customConverter? name with
    | none => exact resolves_none (.refl r) hr (hc.trans h) rfl
    | some c => exact resolves_discover (.refl r) hr (hc.trans h)
  | _ =>
    refine resolves_of_fresh hr fun ha hd => ?_
    unfold resolve
    simp only [ha, hd]
    exact resolves_none (.refl r) hr (by simp only [Registry.converter?, ha]) rfl

/-- Which converter a type gets does not depend on what was discovered. -/
theorem resolve_eq (hr : r.WellFormed) (hr' : r'.WellFormed) (h : r.Extends r') (t : ValueType) :
    (r'.resolve t).1 = (r.resolve t).1 := by
  rw [(resolves hr' t).outcome, (resolves hr t).outcome, h.converter?]

/-- A registry that grew after a type was resolved resolves it alike, and grows no more. -/
theorem resolve_again (hr : r.WellFormed) {c : Converter} (h : (r.resolve t).1 = .ok c)
    (hext : (r.resolve t).2.Extends r') (hr' : r'.WellFormed) : r'.resolve t = (.ok c, r') := by
  obtain ⟨-, hgrown, -, hsettled⟩ := resolves hr t
  refine Prod.ext ?_ (resolve_of_settled ((hsettled c h).extends hext))
  rw [resolve_eq hr hr' (hgrown.trans hext), h]

/-- A registry that is asked for converters stays well formed. -/
theorem Asked.grows (h : r.Asked r') (hr : r.WellFormed) : r.Extends r' ∧ r'.WellFormed := by
  refine ⟨h.extends, ?_⟩
  induction h with
  | refl => exact hr
  | resolve _ t ih => exact (resolves ih t).wellFormed

/-! ### Building a registry -/

variable {customTypes : List CustomType} {g : Registration}

/-- A registration is accepted, or the registry stays as it is. -/
theorem register_cases {g : Registration} (h : r.register t g = .ok r') : r' = r ∨ r' = r.accept t g := by
  unfold register at h
  split at h
  · exact .inr (Except.ok.inj h).symm
  · split at h
    · obtain rfl := Except.ok.inj h
      split
      · exact .inr rfl
      · exact .inl rfl
    · split at h
      · cases h
      · obtain rfl := Except.ok.inj h
        split
        · exact .inr rfl
        · exact .inl rfl

/-- What holds of an empty registry and is kept by accepting built-in converters holds of a new registry. -/
theorem standard_induction {P : Registry → Prop} (hempty : P (empty customTypes))
    (haccept : ∀ r t c, t ∈ ValueType.basic → Converter.builtin? t = some c → P r →
      P (r.accept t ⟨c, builtinPriority, true, none⟩)) : P (standard customTypes) := by
  have hfold (types : List ValueType) (hbasic : types ⊆ ValueType.basic) (r : Registry) (hr : P r) :
      P (types.foldl addBuiltin r) := by
    induction types generalizing r with
    | nil => exact hr
    | cons t types ih =>
      obtain ⟨ht, hbasic⟩ := List.cons_subset.1 hbasic
      rw [List.foldl_cons, addBuiltin]
      split
      · rename_i c hc
        exact ih hbasic _ (haccept r t c ht hc hr)
      · exact ih hbasic r hr
  exact hfold _ (List.Subset.refl _) _ hempty

/-- What holds of a new registry and is kept by the registrations of an engine holds of what it is built with. -/
theorem registryOf_induction {P : Registry → Prop} (hstandard : P (standard customTypes))
    {pending : List Store.Pending}
    (hregister : ∀ r p r', p ∈ pending → r.register p.1 p.2 = .ok r' → P r → P r')
    (h : Store.registryOf customTypes pending = .ok r) : P r := by
  unfold Store.registryOf at h
  generalize standard customTypes = r₀ at h hstandard
  induction pending generalizing r₀ with
  | nil =>
    obtain rfl := Except.ok.inj h
    exact hstandard
  | cons p pending ih =>
    rw [List.foldlM_cons] at h
    obtain ⟨r₁, hp, h⟩ := bind_eq_ok.1 h
    exact ih (fun r q r' hq => hregister r q r' (List.mem_cons_of_mem p hq)) r₁ h
      (hregister r₀ p r₁ List.mem_cons_self hp hstandard)

/-- A registry for an application that has discovered nothing yet. -/
structure Fresh (customTypes : List CustomType) (r : Registry) : Prop where
  wellFormed : r.WellFormed
  discovered : r.discovered = []
  customTypes : r.customTypes = customTypes

private theorem Fresh.empty (hapart : ValueType.NamesApart customTypes) : (empty customTypes).Fresh customTypes :=
  ⟨⟨hapart, by simp [Registry.empty], by simp [Registry.empty, Registry.active?],
    by simp [Registry.empty, TypeNames.Sound]⟩, rfl, rfl⟩

private theorem Fresh.accept (hr : r.Fresh customTypes) (ht : t.IsKnown customTypes) (g : Registration) :
    (r.accept t g).Fresh customTypes := by
  obtain ⟨hwf, hd, rfl⟩ := hr
  refine ⟨⟨hwf.apart, ?_, ?_, ?_⟩, hd, rfl⟩
  · intro u c hc
    simp [Registry.accept, Registry.remember, hd] at hc
  · intro u h hu
    have : (r.accept t g).active? u = if u = t then some g else r.active? u := lookup_put r.registered t u g
    rw [this] at hu
    split at hu
    · rename_i heq
      exact heq ▸ ht
    · exact hwf.registered u h hu
  · intro p hp
    rcases List.mem_cons.1 hp with rfl | hp
    · exact ⟨by simp [ValueType.names], ht⟩
    · rcases List.mem_cons.1 hp with rfl | hp
      · exact ⟨by simp [ValueType.names], ht⟩
      · exact hwf.names p hp

private theorem Fresh.register (hr : r.Fresh customTypes) (ht : t.IsKnown customTypes) (h : r.register t g = .ok r') :
    r'.Fresh customTypes := by
  rcases register_cases h with rfl | rfl
  · exact hr
  · exact hr.accept ht g

theorem isKnown_of_basic (customTypes : List CustomType) (h : t ∈ ValueType.basic) : t.IsKnown customTypes := by
  cases t with
  | custom name => simp [ValueType.basic] at h
  | list element => simp [ValueType.basic] at h
  | _ => trivial

private theorem Fresh.standard (hapart : ValueType.NamesApart customTypes) : (standard customTypes).Fresh customTypes :=
  standard_induction (.empty hapart) fun _ _ _ ht _ hr => hr.accept (isKnown_of_basic customTypes ht) _

/-- The registry of an engine that is built with converters for types of the application. -/
theorem Fresh.registryOf (hapart : ValueType.NamesApart customTypes) {pending : List Store.Pending}
    (hpending : ∀ p ∈ pending, p.1.IsKnown customTypes) (h : Store.registryOf customTypes pending = .ok r) :
    r.Fresh customTypes :=
  registryOf_induction (.standard hapart) (fun _ p _ hp hregister hr => hr.register (hpending p hp) hregister) h

end LayeredConfig.Registry
