import LayeredConfig.Proofs.Session.Steps

/-!
# Accessors never serve what is out of date

Every step that the application may take keeps a session in order, also one that changes values
(`Coherent.perform`).  So in a session that keeps to the rules of an engine, an accessor of the engine gives at every
moment what it would give without lifetimes (`Reached.read_eq`).  This takes an application in which no two types share
a name (`read_ne_withoutLifetimes`).  Like all results about sessions it speaks of reads that return.
-/

namespace LayeredConfig.Session

variable {customTypes : List CustomType} {E F : EngineId} {unnoticed unnoticed' : Bool} {s : Session} {e : Engine}
  {taken : Step}

/-- The steps that can change values of an engine which it has already. -/
def ChangesValues : Step → Prop
  | .set _ _ _ | .remove _ _ | .sourceReload _ | .reload _ | .externalChange _ => True
  | _ => False

/-! ### Steps on sources and engines -/

private theorem leads_stepOfSource (hs : s.Coherent customTypes E unnoticed) (hlimit : s.store.BelowLimit E)
    (id : SourceId) (j : Joined) (hquiet : ¬ ChangesValues taken) :
    s.Leads E unnoticed unnoticed (stepOfSource s id j taken).session := by
  cases taken with
  | set name key value => exact absurd trivial hquiet
  | remove name key => exact absurd trivial hquiet
  | sourceReload name => exact absurd trivial hquiet
  | report name =>
    unfold stepOfSource
    dsimp only
    split
    · exact hs.leads_self
    · exact leads_of_store (Store.leads_report hs.store hlimit j) rfl rfl
  | reporterListing name =>
    unfold stepOfSource
    dsimp only
    split <;> exact hs.leads_self
  | _ => exact hs.leads_self

private theorem leads_call (hs : s.Coherent customTypes E unnoticed) (he : s.store.engine? F = some e)
    {call : RegistryCall} (hregister : F = E → ∀ c, call ≠ .register c) :
    s.store.Leads E unnoticed unnoticed (keepRegistry s F e (call.run e.registry).2).store := by
  refine leads_keepRegistry hs he fun hF => ?_
  subst hF
  have hr := (hs.store.engine e he).registry
  cases call with
  | register c => exact absurd rfl (hregister rfl c)
  | convert t raw => exact (e.registry.asked_convert t raw).grows hr
  | has t => exact (e.registry.asked_hasConverter t).grows hr

private theorem leads_conversion (hs : s.Coherent customTypes E unnoticed) (he : s.store.engine? F = some e)
    (t : ValueType) (raw : Option String) :
    s.store.Leads E unnoticed unnoticed (keepRegistry s F e (e.registry.convert t raw).2).store := by
  refine leads_keepRegistry hs he fun hF => ?_
  subst hF
  exact (e.registry.asked_convert t raw).grows (hs.store.engine e he).registry

/-- A step on an engine that changes no values, but may add sources. -/
private theorem leads_stepOfEngine (hs : s.Coherent customTypes E unnoticed) (hlimit : s.store.BelowLimit E)
    (he : s.store.engine? F = some e)
    (hadd : ∀ name sources, taken = .addSources name sources → F = E ∨ s.store.SparesMemory E (s.named sources))
    (hregister : ∀ name c, taken = .converters name (.register c) → F ≠ E)
    (hquiet : ¬ ChangesValues taken) :
    s.Leads E unnoticed unnoticed (stepOfEngine s F e taken).session := by
  cases taken with
  | value name t key => exact leads_of_store (leads_conversion hs he t _) rfl rfl
  | optionalValue name t key => exact leads_of_store (leads_conversion hs he t _) rfl rfl
  | addSources name sources =>
    have hids : ∀ id ∈ s.named sources, (s.store.joined? id).isSome := joined_of_mem_named hs.sources
    exact leads_of_store (Store.leads_addSources hs.store hlimit hids (hadd name sources rfl)) rfl rfl
  | externalChange name => exact absurd trivial hquiet
  | reload name => exact absurd trivial hquiet
  | close name => exact leads_of_store (Store.leads_close hs.store he) rfl rfl
  | converters name call =>
    refine leads_of_store (leads_call hs he fun hF c hc => ?_) rfl rfl
    exact hregister name c (hc ▸ rfl) hF
  | _ => exact leads_of_store (.refl hs.store) rfl rfl

/-! ### Steps that change values -/

/-- Whether a step tells the engine that values may have changed. -/
def Tells (s : Session) (E : EngineId) (taken : Step) : Prop :=
  ∃ name, taken = .externalChange name ∧ s.engineNames.lookup name = some E

/-- Apart from being told, the engine knows of what was reported to it, and of nothing else that changed. -/
private theorem Notices.cases (h : s.Notices E taken unnoticed unnoticed') (htaken : ¬ s.Tells E taken) :
    s.Reports E taken ∧ unnoticed' = unnoticed ∨
      s.store.Admits E unnoticed unnoticed' (perform s taken).session.store := by
  cases h with
  | reported h => exact .inl ⟨h, rfl⟩
  | unchanged h => exact .inr (.inr ⟨rfl, h⟩)
  | missed => exact .inr (.inl rfl)
  | told name h hname => exact absurd ⟨name, h, hname⟩ htaken

/-- A step that leaves everything in order without any change of values. -/
private theorem Coherent.of_notices {s' : Session} (h : s'.Coherent customTypes E unnoticed)
    (hnotices : s.Notices E taken unnoticed unnoticed') (htaken : ¬ s.Tells E taken) :
    s'.Coherent customTypes E unnoticed' := by
  cases hnotices with
  | reported => exact h
  | unchanged => exact h
  | missed => exact h.slips
  | told name heq hname => exact absurd ⟨name, heq, hname⟩ htaken

/-- A step on a source that may change its values: either it reports them, or the engine is not told. -/
private theorem Coherent.changeSource (hs : s.Coherent customTypes E unnoticed)
    (hnotices : s.Notices E taken unnoticed unnoticed') (htaken : ¬ s.Tells E taken) (name : String)
    {f : SourceId → Joined → Stepped} (hperform : perform s taken = withSource s name f)
    (hkept : ∀ id j, (f id j).session.sourceNames = s.sourceNames ∧ (f id j).session.accessors = s.accessors)
    (hreported : s.Reports E taken → ∀ id j, s.sourceNames.lookup name = some id → s.store.joined? id = some j →
      s.store.Leads E unnoticed unnoticed (f id j).session.store)
    (hadmitted : ∀ id j, s.store.joined? id = some j →
      s.store.Admits E unnoticed unnoticed' (f id j).session.store →
        s.store.Leads E unnoticed unnoticed' (f id j).session.store) :
    (perform s taken).session.Coherent customTypes E unnoticed' := by
  -- Either the source reports what it changes, or what changed is taken for unnoticed.
  rcases hnotices.cases htaken with ⟨hreports, rfl⟩ | hadmits
  · rw [hperform]
    refine withSource_cases (P := fun p => p.session.Coherent customTypes E unnoticed') (fun _ => hs) ?_
    intro id j hid hj
    exact hs.leads (leads_of_store (hreported hreports id j hid hj) (hkept id j).1 (hkept id j).2)
  · rw [hperform] at hadmits ⊢
    revert hadmits
    refine withSource_cases (P := fun p => s.store.Admits E unnoticed unnoticed' p.session.store →
      p.session.Coherent customTypes E unnoticed') (fun _ hadmits => ?_) ?_
    · exact hs.leads (leads_of_store ((Store.Leads.refl hs.store).slips.of_admits rfl hadmits) rfl rfl)
    · intro id j hid hj hadmits
      exact hs.leads (leads_of_store (hadmitted id j hj hadmits) (hkept id j).1 (hkept id j).2)

private theorem Coherent.reload (hs : s.Coherent customTypes E unnoticed) (hlimit : s.store.BelowLimit E)
    {name : String} (hnotices : s.Notices E (.reload name) unnoticed unnoticed') :
    (perform s (.reload name)).session.Coherent customTypes E unnoticed' := by
  by_cases hE : s.engineNames.lookup name = some E
  · refine withEngine_cases (P := fun p => p.session.Coherent customTypes E unnoticed') (fun _ _ => ?_) ?_
    · exact hs.of_notices hnotices (by simp [Tells])
    · intro F e hF he
      obtain rfl := Option.some.inj (hE.symm.trans hF)
      exact hs.leads (leads_of_store (Store.leads_reload_self hs.store hlimit e) rfl rfl)
  · rcases hnotices.cases (by simp [Tells]) with ⟨hreports, -⟩ | hadmits
    · exact absurd hreports hE
    · revert hadmits
      refine withEngine_cases (P := fun p => s.store.Admits E unnoticed unnoticed' p.session.store →
        p.session.Coherent customTypes E unnoticed') (fun _ _ _ => ?_) ?_
      · exact hs.of_notices hnotices (by simp [Tells])
      · intro F e hF he hadmits
        exact hs.leads (leads_of_store (Store.leads_reload hs.store hlimit F e hadmits) rfl rfl)

private theorem Coherent.externalChange (hs : s.Coherent customTypes E unnoticed) (hlimit : s.store.BelowLimit E)
    {name : String} (hnotices : s.Notices E (.externalChange name) unnoticed unnoticed') :
    (perform s (.externalChange name)).session.Coherent customTypes E unnoticed' := by
  by_cases hE : s.engineNames.lookup name = some E
  -- Being told moves the marker, so nothing that was kept before counts any more.
  · have htold : s.store.Leads E unnoticed unnoticed' (s.store.reportTo E) :=
      Store.leads_reportTo_self hs.store hlimit
    show (withEngine s name _).session.Coherent customTypes E unnoticed'
    unfold withEngine
    simp only [hE]
    cases he : s.store.engine? E with
    | none =>
      rw [Store.reportTo, he] at htold
      exact hs.leads (leads_of_store htold rfl rfl)
    | some e => exact hs.leads (leads_of_store htold rfl rfl)
  · have htaken : ¬ s.Tells E (.externalChange name) := by
      rintro ⟨name', heq, hname⟩
      obtain rfl := Step.externalChange.inj heq
      exact hE hname
    refine withEngine_cases (P := fun p => p.session.Coherent customTypes E unnoticed') (fun _ _ => ?_) ?_
    · exact hs.of_notices hnotices htaken
    · intro F e hF he
      have hreport : s.Leads E unnoticed unnoticed (withStore s (s.store.reportTo F)) :=
        leads_of_store (Store.leads_reportTo hs.store hlimit F) rfl rfl
      exact (hs.leads hreport).of_notices hnotices htaken

/-! ### Whole steps -/

/-- A step that changes no values keeps the session in order. -/
private theorem Coherent.performQuiet (hs : s.Coherent customTypes E unnoticed)
    (hapart : ValueType.NamesApart customTypes) (hlimit : s.store.BelowLimit E) (hpermits : s.Permits E unnoticed taken)
    (hquiet : ¬ ChangesValues taken) :
    (perform s taken).session.Coherent customTypes E unnoticed := by
  cases taken with
  | source name spec => exact hs.leads (leads_stepSource hs name spec)
  | set name key value => exact absurd trivial hquiet
  | remove name key => exact absurd trivial hquiet
  | sourceReload name => exact absurd trivial hquiet
  | reload name => exact absurd trivial hquiet
  | externalChange name => exact absurd trivial hquiet
  | report name | reporterListing name | sourceGet name _ | sourceClose name | sourceInfo name =>
    refine withSource_cases (P := fun p => p.session.Coherent customTypes E unnoticed) (fun _ => hs) ?_
    intro id j hid hj
    exact hs.leads (leads_stepOfSource hs hlimit id j hquiet)
  | writeFile path node => exact hs.leads (leads_world hs (s.store.files.put path node) s.store.vars s.store.now)
  | deleteFile path => exact hs.leads (leads_world hs (s.store.files.erase path) s.store.vars s.store.now)
  | environment changes =>
    exact hs.leads (leads_world hs s.store.files (changes.foldl setVariable s.store.vars) s.store.now)
  | sleep milliseconds =>
    exact hs.leads (leads_world hs s.store.files s.store.vars (s.store.now + milliseconds * 1000000))
  | build name sources environment converters =>
    exact hs.leads (leads_stepBuild hs hapart hlimit hpermits.1 hpermits.2)
  | clone name _ | rawValue name _ | value name _ _ | optionalValue name _ _ | expand name _
  | propertyNames name | engineSources name | close name | isClosed name | registerDefault name _ =>
    refine withEngine_cases (P := fun p => p.session.Coherent customTypes E unnoticed) (fun _ _ => hs) ?_
    intro F e hF he
    exact hs.leads (leads_stepOfEngine hs hlimit he (by simp) (by simp) hquiet)
  | addSources name sources =>
    refine withEngine_cases (P := fun p => p.session.Coherent customTypes E unnoticed) (fun _ _ => hs) ?_
    intro F e hF he
    refine hs.leads (leads_stepOfEngine hs hlimit he (fun name' sources' heq => ?_) (by simp) hquiet)
    obtain ⟨rfl, rfl⟩ := Step.addSources.inj heq
    exact hpermits.imp_left fun hE => Option.some.inj (hF.symm.trans hE)
  | converters name call =>
    refine withEngine_cases (P := fun p => p.session.Coherent customTypes E unnoticed) (fun _ _ => hs) ?_
    intro F e hF he
    refine hs.leads (leads_stepOfEngine hs hlimit he (by simp) (fun name' c heq hFE => ?_) hquiet)
    obtain ⟨rfl, rfl⟩ := Step.converters.inj heq
    exact hpermits (hFE ▸ hF)
  | dropEngine name => exact hs.leads (leads_of_store (.refl hs.store) rfl rfl)
  | defaultEngine name => exact hs.leads (leads_stepDefaultEngine hs hapart hlimit name)
  | releaseDefault => exact hs.leads (leads_stepReleaseDefault hs)
  | accessor name engine key steps =>
    refine withEngine_cases (P := fun p => p.session.Coherent customTypes E unnoticed) (fun _ _ => hs) ?_
    intro F e hF he
    exact hs.leads (leads_stepAccessor hs he name key steps)
  | read name kind =>
    refine withAccessor_cases (P := fun p => p.session.Coherent customTypes E unnoticed) (fun _ => hs) ?_
    intro held e hheld he
    exact hs.leads (leads_stepRead hs (mem_of_lookup hheld) he (hpermits held hheld) kind)
  | subscribe name subscription =>
    refine withAccessor_cases (P := fun p => p.session.Coherent customTypes E unnoticed) (fun _ => hs) ?_
    intro held e hheld he
    exact hs.stepSubscribe (mem_of_lookup hheld) subscription
  | unsubscribe name => exact hs.leads (leads_dropSubscription hs name)
  | subscriptionListing name =>
    unfold perform
    dsimp only
    split <;> exact hs
  | dropAccessor name =>
    refine hs.leads (leads_of_accessors hs fun p hp => ⟨p, (List.mem_filter.1 hp).1, rfl, rfl⟩)

/-- Every step that the application may take keeps the session in order. -/
theorem Coherent.perform (hs : s.Coherent customTypes E unnoticed) (hapart : ValueType.NamesApart customTypes)
    (hlimit : s.store.BelowLimit E) (hpermits : s.Permits E unnoticed taken)
    (hnotices : s.Notices E taken unnoticed unnoticed') :
    (perform s taken).session.Coherent customTypes E unnoticed' := by
  cases taken with
  | set name key value =>
    refine hs.changeSource hnotices (by simp [Tells]) name rfl (fun _ _ => ⟨rfl, rfl⟩) ?_ ?_
    · intro hmemory id j hid hj
      exact Store.leads_setValue hs.store hlimit hj (hmemory id j hid hj) key value
    · intro id j hj hadmits
      exact Store.leads_setValue_of_admits hs.store hlimit hj hadmits
  | remove name key =>
    refine hs.changeSource hnotices (by simp [Tells]) name rfl (fun _ _ => ⟨rfl, rfl⟩) ?_ ?_
    · intro hmemory id j hid hj
      exact Store.leads_removeKey hs.store hlimit hj (hmemory id j hid hj) key
    · intro id j hj hadmits
      exact Store.leads_removeKey_of_admits hs.store hlimit hj hadmits
  | sourceReload name =>
    refine hs.changeSource hnotices (by simp [Tells]) name rfl (fun _ _ => ⟨rfl, rfl⟩) (fun hfalse => hfalse.elim) ?_
    intro id j hj hadmits
    have hreload : s.store.Leads E unnoticed true (Store.reloadSource ⟨s.store, []⟩ id).store :=
      Store.leads_reloadSource (n := ⟨s.store, []⟩) hs.store id
    exact hreload.of_admits (Store.engine?_reloadSource _ id) hadmits
  | reload name => exact hs.reload hlimit hnotices
  | externalChange name => exact hs.externalChange hlimit hnotices
  | _ => exact (hs.performQuiet hapart hlimit hpermits (by simp [ChangesValues])).of_notices hnotices (by simp [Tells])

private theorem Coherent.collect (hs : s.Coherent customTypes E unnoticed) :
    s.collect.Coherent customTypes E unnoticed := by
  have hstore : s.store.Leads E unnoticed unnoticed s.collect.store :=
    Store.leads_of_kept hs.store rfl (Nat.le_refl _) rfl fun e he => Store.engine?_of_filter s.store he
  exact hs.leads (leads_of_store hstore rfl rfl)

end LayeredConfig.Session
