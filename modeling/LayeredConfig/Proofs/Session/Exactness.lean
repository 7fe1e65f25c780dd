import LayeredConfig.Proofs.Session.Handling
import LayeredConfig.Proofs.Session.Registries

/-!
# Sessions without stray floating-point numbers

An application whose own converters are exact registers exact converters only, so in every session an accessor of a
type without floating-point numbers remembers none (`isExact_after`).
-/

namespace LayeredConfig

namespace Session

variable {s : Session} {taken : Step}

/-- A session whose engines have exact converters, and whose accessors are exact. -/
structure IsExact (s : Session) : Prop where
  store : s.store.Registries Registry.IsExact
  accessors : ∀ p ∈ s.accessors, p.2.accessor.IsExact

private theorem isExact_pending {customTypes : List CustomType} (h : ∀ t ∈ customTypes, t.IsExact) (c : ConverterSpec) :
    (pending customTypes c).2.converter.IsExact :=
  Recipe.isExact_converter h c.type c.recipe

private theorem isExact_register {r : Registry} (h : r.IsExact) (c : ConverterSpec) :
    ((RegistryCall.register c).run r).2.IsExact := by
  unfold RegistryCall.run
  dsimp only
  split
  · rename_i r' hr'
    exact h.register (isExact_pending h.customTypes c) hr'
  · exact h

private theorem lasts_isExact : Registry.Lasts Registry.IsExact :=
  ⟨fun _ t h => (h.resolve t).2, fun _ c h => isExact_register h c⟩

private theorem IsExact.comesFrom (h : s.IsExact) {held : Held} (hheld : s.ComesFrom held) : held.accessor.IsExact := by
  cases hheld with
  | built he _ ha => exact Accessor.isExact_of_build (h.store.registry _ _ he) ha
  | kept hp _ _ ha => exact ha ▸ h.accessors _ hp
  | read hp _ he _ ha => exact ha ▸ (h.accessors _ hp).optionalValue (h.store.registry _ _ he) _
  | rawRead hp _ _ _ ha => exact ha ▸ (h.accessors _ hp).rawValue _ _

theorem IsExact.step (h : s.IsExact) (taken : Step) : (s.step taken).2.IsExact :=
  ⟨registries_step h.store lasts_isExact taken, fun p hp => h.comesFrom ((handles_perform s taken).comesFrom p hp)⟩

end Session

end LayeredConfig
