import LayeredConfig.Proofs.Accessor.Building
import LayeredConfig.Proofs.Session.Discipline

/-!
# The steps of a session, as one engine sees them

What each kind of step that changes no values leads to.  The steps on accessors are among them: building one leaves
nothing kept, and a read leaves behind what is current.
-/

namespace LayeredConfig.Session

variable {customTypes : List CustomType} {E F : EngineId} {unnoticed unnoticed' : Bool} {s : Session} {e : Engine}

/-! ### Steps without change -/

/-- The world around an engine changes without it. -/
theorem leads_world (hs : s.Coherent customTypes E unnoticed) (files : FileTree) (vars : Entries) (now : Nat) :
    s.Leads E unnoticed unnoticed (withStore s { s.store with files, vars, now }) := by
  have hstore : s.store.Leads E unnoticed unnoticed { s.store with files, vars, now } :=
    Store.leads_of_kept hs.store rfl (Nat.le_refl _) rfl fun _ he => he
  exact leads_of_store hstore rfl rfl

theorem leads_stepSource (hs : s.Coherent customTypes E unnoticed) (name : String) (spec : SourceSpec) :
    s.Leads E unnoticed unnoticed (stepSource s name spec).session := by
  unfold stepSource
  split
  · exact hs.leads_self
  · rename_i source hsource
    refine ⟨Store.leads_addSource hs.store source, fun p hp => ?_, fun p hp => .inl ⟨p, hp, rfl, rfl⟩⟩
    rcases mem_bind hp with rfl | hp
    · right
      show ((s.store.addSource source).2.joined? s.store.next).isSome
      rw [Store.joined?_addSource, if_pos rfl]
      rfl
    · exact .inl hp

theorem leads_stepBuild (hs : s.Coherent customTypes E unnoticed) (hapart : ValueType.NamesApart customTypes)
    (hlimit : s.store.BelowLimit E) {name : String} {sources : List String} {environment : Bool}
    {converters : List ConverterSpec} (hspares : s.store.SparesMemory E (s.named sources))
    (hknown : ∀ c ∈ converters, c.type.IsKnown s.store.customTypes) :
    s.Leads E unnoticed unnoticed (stepBuild s name sources environment converters).session := by
  unfold stepBuild
  dsimp only
  split
  · exact hs.leads_self
  · rename_i id n hbuild
    refine leads_of_store ?_ rfl rfl
    have hpending : ∀ p ∈ converters.map (pending s.store.customTypes), p.1.IsKnown s.store.customTypes := by
      intro p hp
      obtain ⟨c, hc, rfl⟩ := List.mem_map.1 hp
      exact hknown c hc
    have hids : ∀ id ∈ s.named sources, (s.store.joined? id).isSome := joined_of_mem_named hs.sources
    exact Store.leads_build hs.store hlimit (hs.customTypes ▸ hapart) hpending hids hspares hbuild

theorem leads_stepDefaultEngine (hs : s.Coherent customTypes E unnoticed) (hapart : ValueType.NamesApart customTypes)
    (hlimit : s.store.BelowLimit E) (name : String) :
    s.Leads E unnoticed unnoticed (stepDefaultEngine s name).session := by
  unfold stepDefaultEngine
  split
  · exact leads_of_store (.refl hs.store) rfl rfl
  · split
    · exact hs.leads_self
    · rename_i id n hbuild
      refine leads_of_store ?_ rfl rfl
      exact Store.leads_build hs.store hlimit (hs.customTypes ▸ hapart) (by simp) (by simp)
        (fun _ _ _ hid => by simp at hid) hbuild

theorem leads_stepReleaseDefault (hs : s.Coherent customTypes E unnoticed) :
    s.Leads E unnoticed unnoticed (stepReleaseDefault s).session := by
  refine stepReleaseDefault_cases (P := fun p => s.Leads E unnoticed unnoticed p.session)
    (fun _ => leads_of_store (.refl hs.store) rfl rfl) fun F e _ he => ?_
  exact leads_of_store (Store.leads_close hs.store he) rfl rfl

/-- An engine that has discovered more. -/
theorem leads_keepRegistry (hs : s.Coherent customTypes E unnoticed) (he : s.store.engine? F = some e)
    {r : Registry} (hr : F = E → e.registry.Extends r ∧ r.WellFormed) :
    s.store.Leads E unnoticed unnoticed (keepRegistry s F e r).store :=
  Store.leads_setEngine_of_extends hs.store he hr rfl rfl

/-! ### Accessors -/

theorem leads_stepAccessor (hs : s.Coherent customTypes E unnoticed) (he : s.store.engine? F = some e)
    (name key : String) (steps : List BuildStep) :
    s.Leads E unnoticed unnoticed (stepAccessor s name F e key steps).session := by
  have hbuilt (hF : F = E) :
      (Accessor.build (s.store.view e) e.registry key steps).IsSound e.registry := by
    subst hF
    exact Accessor.build_isSound (hs.store.engine e he).registry key steps
  have hstore : s.store.Leads E unnoticed unnoticed (keepRegistry s F e _).store :=
    leads_keepRegistry hs he fun hF => ⟨(hbuilt hF).grown, (hbuilt hF).wellFormed⟩
  unfold stepAccessor
  dsimp only
  split
  · exact leads_of_store hstore rfl rfl
  · rename_i accessor haccessor
    refine ⟨hstore, fun p hp => .inl hp, fun p hp => ?_⟩
    rcases mem_bind hp with rfl | hp
    · refine .inr fun hF => ?_
      dsimp only at hF ⊢
      subst hF
      have hunread := (hbuilt rfl).unread accessor haccessor
      exact ⟨(hs.store.engine e he).id_lt, fun e' _ => hunread.isCurrent _⟩
    · exact .inl ⟨p, hp, rfl, rfl⟩

private theorem leads_afterReading (hs : s.Coherent customTypes E unnoticed) {name : String} {held : Held}
    (he : s.store.engine? held.engine = some e) {accessor : Accessor} {r : Registry}
    (hr : held.engine = E → e.registry.Extends r ∧ r.WellFormed)
    (hcurrent : held.engine = E → unnoticed = false ∧ accessor.IsCurrent (.noticed (s.store.view e) r))
    {asked : List String} {change : Option Accessor.Change} {result : Except Failure Answer} :
    s.Leads E unnoticed unnoticed (afterReading s name held e accessor r asked change result).session := by
  have hstore : s.store.Leads E unnoticed unnoticed (keepRegistry s held.engine e r).store :=
    leads_keepRegistry hs he hr
  refine ⟨hstore, fun p hp => .inl hp, fun p hp => ?_⟩
  rcases mem_bind hp with rfl | hp
  · refine .inr fun hE => ?_
    dsimp only at hE ⊢
    obtain ⟨rfl, hnow⟩ := hcurrent hE
    subst hE
    -- After the read the engine differs in its registry alone, which is the one that the read left behind.
    refine ⟨(hs.store.engine e he).id_lt, fun e' he' => ?_⟩
    have he'' : (s.store.setEngine held.engine { e with registry := r }).engine? held.engine = some e' := he'
    rw [Store.engine?_setEngine, if_pos rfl] at he''
    obtain rfl := Option.some.inj he''
    exact hnow
  · exact .inl ⟨p, hp, rfl, rfl⟩

theorem leads_stepRead (hs : s.Coherent customTypes E unnoticed) {name : String} {held : Held}
    (hheld : (name, held) ∈ s.accessors) (he : s.store.engine? held.engine = some e)
    (hnoticed : held.engine = E → unnoticed = false) (kind : ReadKind) :
    s.Leads E unnoticed unnoticed (stepRead s name held e kind).session := by
  have hcurrent (hE : held.engine = E) :
      e.registry.WellFormed ∧ held.accessor.IsCurrent (.noticed (s.store.view e) e.registry) := by
    obtain ⟨-, hcurrent⟩ := hs.accessors _ hheld hE
    subst hE
    obtain rfl := hnoticed rfl
    exact ⟨(hs.store.engine e he).registry, hcurrent e he⟩
  have hvalue (hE : held.engine = E) :
      e.registry.Extends (held.accessor.optionalValue (s.store.view e) e.registry).registry ∧
        (held.accessor.optionalValue (s.store.view e) e.registry).registry.WellFormed :=
    (Accessor.asked_optionalValue (s.store.view e) e.registry held.accessor).grows (hcurrent hE).1
  have hread (hE : held.engine = E) := ((hcurrent hE).2.reads (hcurrent hE).1).current
  have hraw (hE : held.engine = E) := (hcurrent hE).2.rawValue (hcurrent hE).1
  cases kind with
  | value => exact leads_afterReading hs he hvalue fun hE => ⟨hnoticed hE, hread hE⟩
  | optional => exact leads_afterReading hs he hvalue fun hE => ⟨hnoticed hE, hread hE⟩
  | raw => exact leads_afterReading hs he (fun hE => (hraw hE).2) fun hE => ⟨hnoticed hE, (hraw hE).1⟩
  | default => exact hs.leads_self
  | key => exact hs.leads_self
  | listing => exact hs.leads_self
  | none => exact hs.leads_self

/-- Accessors that listen to more or fewer, or are there no more. -/
theorem leads_of_accessors (hs : s.Coherent customTypes E unnoticed) {accessors : List (String × Held)}
    {subscriptions : List (String × Subscription)}
    (h : ∀ p ∈ accessors, ∃ q ∈ s.accessors, q.2.engine = p.2.engine ∧ q.2.accessor = p.2.accessor) :
    s.Leads E unnoticed unnoticed { s with accessors, subscriptions } :=
  ⟨.refl hs.store, fun _ hp => .inl hp, fun p hp => .inl (h p hp)⟩

private theorem exists_of_mem_silence {subscription : Subscription} {accessors : List (String × Held)} :
    ∀ p ∈ silence subscription accessors, ∃ q ∈ accessors, q.2.engine = p.2.engine ∧ q.2.accessor = p.2.accessor := by
  intro p hp
  obtain ⟨q, hq, rfl⟩ := List.mem_map.1 hp
  refine ⟨q, hq, ?_⟩
  split
  · exact ⟨rfl, rfl⟩
  · exact ⟨rfl, rfl⟩

theorem leads_dropSubscription (hs : s.Coherent customTypes E unnoticed) (name : String) :
    s.Leads E unnoticed unnoticed (dropSubscription s name) := by
  unfold dropSubscription
  split
  · exact hs.leads_self
  · exact leads_of_accessors hs exists_of_mem_silence

theorem Coherent.stepSubscribe (hs : s.Coherent customTypes E unnoticed) {name : String} {held : Held}
    (hheld : (name, held) ∈ s.accessors) (subscription : String) :
    (stepSubscribe s name subscription held).session.Coherent customTypes E unnoticed := by
  let listening : Held :=
    { held with listeners := held.listeners ++ [(held.nextListener, subscription)],
                nextListener := held.nextListener + 1 }
  have hlistening : s.Leads E unnoticed unnoticed { s with accessors := bind name listening s.accessors } := by
    refine leads_of_accessors hs fun p hp => ?_
    rcases mem_bind hp with rfl | hp
    · exact ⟨_, hheld, rfl, rfl⟩
    · exact ⟨p, hp, rfl, rfl⟩
  have hs' := hs.leads hlistening
  have hs'' := hs'.leads (leads_dropSubscription hs' subscription)
  exact hs''.leads (leads_of_accessors hs'' fun p hp => ⟨p, hp, rfl, rfl⟩)

end LayeredConfig.Session
