import LayeredConfig.Proofs.Registry.KnownTypes

/-!
# Registries that know the same types

A registry is `Tabled` whatever it was asked for, and whichever converters it was given: it knows a type only when it
has a converter for it, or when the application has the type.  It is `Orderly` when no name of a type is ambiguous, and
stays so when it is asked for converters (`Orderly.resolve`).  Orderly registries that know the same types understand
the same names (`Orderly.lookup_names_eq`).
-/

namespace LayeredConfig.Registry

/-- A registry for an application whose table of names is up to date, and which comes to know types of the application
only, if converters are registered for no others.  It has a converter of texts, one that does not look at the names of
types. -/
structure Tabled (customTypes : List CustomType) (r : Registry) : Prop where
  types : r.customTypes = customTypes
  listed : r.Listed
  closed : r.Closed
  settled : (∀ t g, r.active? t = some g → t.IsKnown customTypes) → ∀ t, r.Settled t → t.IsKnown customTypes
  texts : ∃ g, r.active? .text = some g ∧ g.converter.readsNames = false

/-- A registry for an application without ambiguous names, with converters registered for types of the application
only. -/
structure Orderly (customTypes : List CustomType) (r : Registry) : Prop extends Tabled customTypes r where
  apart : ValueType.NamesApart customTypes
  registered : ∀ t g, r.active? t = some g → t.IsKnown customTypes

variable {customTypes : List CustomType} {r r' : Registry} {t u : ValueType}

/-- A type that has a converter is known if all those are that have one already. -/
private theorem isKnown_of_current? (hcustom : r.customTypes = customTypes)
    (h : ∀ t, r.Settled t → t.IsKnown customTypes) (ht : (r.current? t).isSome) : t.IsKnown customTypes := by
  have hbeyond {t : ValueType} {beyond : Option Converter}
      (hnow : r.current? t = (((r.active? t).map Registration.converter).or (r.discovered.lookup t)).or beyond)
      (ht : (r.current? t).isSome) : t.IsKnown customTypes ∨ beyond.isSome := by
    rw [hnow, Option.isSome_or, Option.isSome_or, Option.isSome_map, Bool.or_eq_true, Bool.or_eq_true] at ht
    exact ht.imp_left (h t)
  induction t with
  | list element ih =>
    rcases hbeyond (current?_eq r _) ht with hknown | helement
    · exact hknown
    · rw [Option.isSome_map] at helement
      exact ih helement
  | custom name =>
    rcases hbeyond (current?_eq r _) ht with hknown | hname
    · exact hknown
    · obtain ⟨c, hc⟩ := Option.isSome_iff_exists.1 hname
      obtain ⟨t, ht, -⟩ := Option.bind_eq_some_iff.1 hc
      exact ⟨t, hcustom ▸ List.mem_of_find?_eq_some ht, by simpa using List.find?_some ht⟩
  | _ => trivial

private theorem Derives.isKnown {entered : ValueType → Prop} (h : Derives entered u t) (hu : u.IsKnown customTypes) :
    t.IsKnown customTypes := by
  induction h with
  | self => exact hu
  | element _ _ ih => exact ih hu

theorem Tabled.resolve (h : r.Tabled customTypes) (u : ValueType) : (r.resolve u).2.Tabled customTypes := by
  have hextends := extends_resolve r u
  refine ⟨hextends.customTypes.trans h.types, h.listed.resolve u, h.closed.resolve u, fun hregistered t ht => ?_, ?_⟩
  · have hknown := h.settled fun t g hg => hregistered t g (by rwa [hextends.active?])
    rcases (settled_resolve_iff h.closed u t).1 ht with ht | ⟨hu, hderives⟩
    · exact hknown t ht
    · exact hderives.isKnown (isKnown_of_current? h.types hknown hu)
  · rw [hextends.active?]
    exact h.texts

private theorem Tabled.accept (h : r.Tabled customTypes) (t : ValueType) {g : Registration}
    (hg : g.converter.readsNames = false) : (r.accept t g).Tabled customTypes := by
  refine ⟨h.types, h.listed.remembers rfl (settled_accept r t g),
    fun element helement => (settled_accept r t g element).2 (.inr (h.closed element helement)),
    fun hregistered u hu => ?_, ?_⟩
  · rcases (settled_accept r t g u).1 hu with rfl | hu
    · exact hregistered u g (by rw [active?_accept, if_pos rfl])
    · refine h.settled (fun v g' hg' => ?_) u hu
      by_cases hv : v = t
      · exact hregistered v g (by rw [active?_accept, if_pos hv])
      · exact hregistered v g' (by rwa [active?_accept, if_neg hv])
  · rw [active?_accept]
    split
    · exact ⟨g, rfl, hg⟩
    · exact h.texts

theorem Tabled.standard (customTypes : List CustomType) : (standard customTypes).Tabled customTypes := by
  have hdiscovered : (Registry.standard customTypes).discovered = [] := discovered_initial customTypes true
  have hlisted : (Registry.standard customTypes).Listed := listed_initial customTypes true
  refine ⟨customTypes_initial customTypes true, hlisted, fun element helement => ?_, fun hregistered t ht => ?_,
    _, (active?_initial customTypes true .text).trans rfl, rfl⟩
  · rw [hdiscovered] at helement
    nomatch helement
  · obtain ⟨g, hg⟩ := Option.isSome_iff_exists.1 (ht.resolve_right (by simp [hdiscovered]))
    exact hregistered t g hg

theorem Tabled.register (h : r.Tabled customTypes) {g : Registration} (hg : g.converter.readsNames = false)
    (hregister : r.register t g = .ok r') : r'.Tabled customTypes := by
  rcases register_cases hregister with rfl | rfl
  · exact h
  · exact h.accept t hg

theorem Orderly.resolve (h : r.Orderly customTypes) (u : ValueType) : (r.resolve u).2.Orderly customTypes := by
  refine ⟨h.toTabled.resolve u, h.apart, fun t g hg => h.registered t g ?_⟩
  rwa [(extends_resolve r u).active?] at hg

theorem Orderly.asked (h : r.Orderly customTypes) (hasked : r.Asked r') : r'.Orderly customTypes := by
  induction hasked with
  | refl => exact h
  | resolve _ t ih => exact ih.resolve t

end LayeredConfig.Registry
