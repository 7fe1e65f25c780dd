import LayeredConfig.Proofs.Registry.Agreement
import LayeredConfig.Proofs.Session.Effects
import LayeredConfig.Proofs.Store.Closing

/-!
# The registries of a session

The registry of an engine is a new one that was given converters when the engine was built or later, and asked for them
in between.  So what holds of new registries and is kept by both (`Registry.Lasts`) holds of the registries of all
engines, in every session (`registry_after`).
-/

namespace LayeredConfig

/-- What a registry keeps when it is asked for converters, and when it is given more of them. -/
structure Registry.Lasts (P : Registry → Prop) : Prop where
  resolve : ∀ r t, P r → P (r.resolve t).2
  register : ∀ r (c : Session.ConverterSpec), P r → P ((Session.RegistryCall.register c).run r).2

namespace Registry

variable {P : Registry → Prop} {r r' : Registry}

private theorem Lasts.asked (hP : Lasts P) (h : r.Asked r') (hr : P r) : P r' := by
  induction h with
  | refl => exact hr
  | resolve _ t ih => exact hP.resolve _ t ih

private theorem customTypes_of_register {t : ValueType} {g : Registration} (h : r.register t g = .ok r') :
    r'.customTypes = r.customTypes := by
  rcases register_cases h with rfl | rfl
  · rfl
  · rfl

/-- The registry that an engine is built with. -/
private theorem Lasts.registryOf (hP : Lasts P) {customTypes : List CustomType} (hstandard : P (standard customTypes))
    {converters : List Session.ConverterSpec}
    (h : Store.registryOf customTypes (converters.map (Session.pending customTypes)) = .ok r) : P r := by
  have hnew : (standard customTypes).customTypes = customTypes := customTypes_initial customTypes true
  refine (registryOf_induction (P := fun r => r.customTypes = customTypes ∧ P r) ⟨hnew, hstandard⟩ ?_ h).2
  rintro r p r' hp hregister ⟨htypes, hr⟩
  obtain ⟨c, -, rfl⟩ := List.mem_map.1 hp
  refine ⟨(customTypes_of_register hregister).trans htypes, ?_⟩
  have hrun : ((Session.RegistryCall.register c).run r).2 = r' := by
    rw [Session.RegistryCall.run, htypes, hregister]
  exact hrun ▸ hP.register r c hr

end Registry

namespace Store

variable {P : Registry → Prop} {st st' : Store} {F : EngineId} {e : Engine}

/-- A store whose engines have registries of some kind, as new ones for the same application are. -/
structure Registries (P : Registry → Prop) (st : Store) : Prop where
  standard : P (Registry.standard st.customTypes)
  registry : ∀ F e, st.engine? F = some e → P e.registry

private theorem Registries.leavesAlone (h : st.Registries P) (hP : Registry.Lasts P)
    (hleaves : ∀ F, st.LeavesAlone F st') : st'.Registries P := by
  refine ⟨?_, fun F e' he' => ?_⟩
  · rw [(hleaves 0).customTypes]
    exact h.standard
  · obtain ⟨e, he, hasked, -⟩ := (hleaves F).engine e' he'
    exact hP.asked hasked (h.registry F e he)

private theorem Registries.setEngine (h : st.Registries P) (hr : P e.registry) (F : EngineId) :
    (st.setEngine F e).Registries P := by
  refine ⟨h.standard, fun G e' he' => ?_⟩
  rw [engine?_setEngine] at he'
  split at he'
  · obtain rfl := Option.some.inj he'
    exact hr
  · exact h.registry G e' he'

private theorem Registries.close (h : st.Registries P) (he : st.engine? F = some e) :
    (st.close F e).2.store.Registries P := by
  have hclosed : P { e with closed := true }.registry := h.registry F e he
  unfold Store.close
  split
  · exact h
  · exact h.setEngine hclosed F

private theorem Registries.build (h : st.Registries P) (hP : Registry.Lasts P) {ids : List SourceId}
    {environment : Bool} {converters : List Session.ConverterSpec} {n : Noticed}
    (hbuild : st.build ids environment (converters.map (Session.pending st.customTypes)) = .ok (F, n)) :
    n.store.Registries P := by
  have hadd {st : Store} (h : st.Registries P) (G : EngineId) (ids : List SourceId) :
      (st.addSources G ids).store.Registries P := h.leavesAlone hP fun F => leavesAlone_addSources st F G ids
  have hnew {st : Store} (h : st.Registries P) {r : Registry} (hr : P r) :
      ({ st with next := st.next + 1 }.setEngine st.next ⟨[], r, 0, st.now, false⟩).Registries P := by
    have hnext : Registries P { st with next := st.next + 1 } := ⟨h.standard, h.registry⟩
    exact hnext.setEngine hr _
  unfold Store.build at hbuild
  split at hbuild
  · cases hbuild
  · rename_i r hregistry
    have hr : P r := hP.registryOf h.standard hregistry
    cases environment with
    | false =>
      obtain ⟨rfl, rfl⟩ := Prod.mk.inj (Except.ok.inj hbuild)
      exact hadd (hnew h hr) _ _
    | true =>
      obtain ⟨rfl, rfl⟩ := Prod.mk.inj (Except.ok.inj hbuild)
      have henvironment := h.leavesAlone hP fun F => leavesAlone_addSource st F (Source.ofEnvironment st.vars)
      exact hadd (hnew henvironment hr) _ _

end Store

namespace Session

variable {P : Registry → Prop} {s : Session} {taken : Step} {st : Store} {names : List (String × SourceId)}

private theorem registries_effect (h : s.store.Registries P) (hP : Registry.Lasts P)
    (heffect : Effect s taken st names) : st.Registries P := by
  cases heffect with
  | nothing => exact h
  | world _ files vars now => exact ⟨h.standard, h.registry⟩
  | source => exact h.leavesAlone hP fun F => Store.leavesAlone_addSource s.store F _
  | set => exact h.leavesAlone hP fun F => Store.leavesAlone_setValue s.store F _ _ _ _
  | remove => exact h.leavesAlone hP fun F => Store.leavesAlone_removeKey s.store F _ _ _
  | report => exact h.leavesAlone hP fun F => Store.leavesAlone_report s.store F _
  | sourceReload => exact h.leavesAlone hP fun F => Store.leavesAlone_reloadSource ⟨s.store, []⟩ F _
  | build hbuild => exact h.build hP hbuild
  | @defaultEngine _ F n _ hbuild =>
    have hnone : s.store.build [] true (List.map (pending s.store.customTypes) []) = .ok (F, n) := hbuild
    exact h.build hP hnone
  | registry _ he hr => exact h.leavesAlone hP fun F => Store.leavesAlone_setEngine he hr rfl
  | register _ he => exact h.setEngine (hP.register _ _ (h.registry _ _ he)) _
  | addSources => exact h.leavesAlone hP fun F => Store.leavesAlone_addSources s.store F _ _
  | externalChange => exact h.leavesAlone hP fun F => Store.leavesAlone_reportTo s.store F _
  | reload => exact h.leavesAlone hP fun F => Store.leavesAlone_reload s.store F _ _
  | close _ he => exact h.close he
  | releaseDefault _ he => exact h.close he

theorem registries_step (h : s.store.Registries P) (hP : Registry.Lasts P) (taken : Step) :
    (s.step taken).2.store.Registries P := by
  have hstore := registries_effect h hP (shows_perform s taken)
  exact ⟨hstore.standard, fun F e he => hstore.registry F e (Store.engine?_of_filter _ he)⟩

end Session

end LayeredConfig
