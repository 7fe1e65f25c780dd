import LayeredConfig.Proofs.Session.Effects
import LayeredConfig.Proofs.Store.Engines

/-!
# Sessions that keep to the rules of one engine

An engine relies on the application: its converters are registered when it is built, its sources in memory join no
other engine, and its marker stays below the limit.  Its sources may also change behind its back, but then it must be
told before one of its accessors is read.  `Reached` are the sessions that come about this way; its flag says whether
values may have changed since the engine was told.
-/

namespace LayeredConfig.Session

/-- What the application may do, as far as the engine `E` is concerned. -/
def Permits (s : Session) (E : EngineId) (unnoticed : Bool) : Step → Prop
  | .converters name (.register _) => s.engineNames.lookup name ≠ some E
  | .addSources name sources => s.engineNames.lookup name = some E ∨ s.store.SparesMemory E (s.named sources)
  | .build _ sources _ converters =>
    s.store.SparesMemory E (s.named sources) ∧ ∀ c ∈ converters, c.type.IsKnown s.store.customTypes
  | .read name _ => ∀ held, s.accessors.lookup name = some held → held.engine = E → unnoticed = false
  | _ => True

/-- The steps that change values of the engine `E` and report it themselves. -/
def Reports (s : Session) (E : EngineId) : Step → Prop
  | .set name _ _ | .remove name _ =>
    ∀ id j, s.sourceNames.lookup name = some id → s.store.joined? id = some j → j.source.backing = .memory
  | .addSources name _ | .reload name => s.engineNames.lookup name = some E
  | _ => False

/-- Whether values of the engine `E` may have changed unnoticed, before and after a step. -/
inductive Notices (s : Session) (E : EngineId) (taken : Step) (unnoticed : Bool) : Bool → Prop
  | reported (h : s.Reports E taken) : Notices s E taken unnoticed unnoticed
  | unchanged (h : s.store.SameValues E (s.step taken).2.store) : Notices s E taken unnoticed unnoticed
  | missed : Notices s E taken unnoticed true
  | told (name : String) (h : taken = .externalChange name) (hname : s.engineNames.lookup name = some E) :
    Notices s E taken unnoticed false

/-- What every session among them keeps: the engine has what it relies on, and what its accessors remember is
current. -/
structure Coherent (customTypes : List CustomType) (E : EngineId) (unnoticed : Bool) (s : Session) : Prop where
  store : s.store.Sound E
  customTypes : s.store.customTypes = customTypes
  sources : ∀ p ∈ s.sourceNames, (s.store.joined? p.2).isSome
  accessors : ∀ p ∈ s.accessors, p.2.engine = E →
    E < s.store.next ∧ ∀ e, s.store.engine? E = some e → p.2.accessor.IsCurrent (s.store.moment e unnoticed)

/-- One session leads to another: the store does, and every source and accessor is an old one or in order. -/
structure Leads (s : Session) (E : EngineId) (unnoticed unnoticed' : Bool) (s' : Session) : Prop where
  store : s.store.Leads E unnoticed unnoticed' s'.store
  sources : ∀ p ∈ s'.sourceNames, p ∈ s.sourceNames ∨ (s'.store.joined? p.2).isSome
  accessors : ∀ p ∈ s'.accessors,
    (∃ q ∈ s.accessors, q.2.engine = p.2.engine ∧ q.2.accessor = p.2.accessor) ∨
      (p.2.engine = E →
        E < s'.store.next ∧ ∀ e, s'.store.engine? E = some e → p.2.accessor.IsCurrent (s'.store.moment e unnoticed'))

variable {customTypes : List CustomType} {E : EngineId} {unnoticed unnoticed' : Bool} {s s' s'' : Session}

theorem Coherent.start (files : FileTree) (vars : Entries) :
    (start customTypes files vars).Coherent customTypes E false :=
  ⟨⟨by simp [Session.start, Store.empty, Store.joined?], by simp [Session.start, Store.empty, Store.engine?]⟩, rfl,
    by simp [Session.start], by simp [Session.start]⟩

/-- Being in order passes on. -/
theorem Coherent.leads (hs : s.Coherent customTypes E unnoticed) (h : s.Leads E unnoticed unnoticed' s') :
    s'.Coherent customTypes E unnoticed' := by
  refine ⟨h.store.sound, h.store.customTypes.trans hs.customTypes, fun p hp => ?_, fun p hp => ?_⟩
  · rcases h.sources p hp with hold | hnew
    · exact h.store.kept p.2 (hs.sources p hold)
    · exact hnew
  · rcases h.accessors p hp with ⟨q, hq, hengine, haccessor⟩ | hnew
    · rw [← hengine, ← haccessor]
      intro hE
      obtain ⟨hlt, hcurrent⟩ := hs.accessors q hq hE
      refine ⟨Nat.lt_of_lt_of_le hlt h.store.next_le, fun e' he' => ?_⟩
      obtain ⟨e, he, hprecedes⟩ := h.store.precedes hlt e' he'
      exact (hcurrent e he).later hprecedes (hs.store.engine e he).registry (h.store.sound.engine e' he').registry
    · exact hnew

/-- A step that touches neither the names of sources nor the accessors. -/
theorem leads_of_store (h : s.store.Leads E unnoticed unnoticed' s'.store) (hsources : s'.sourceNames = s.sourceNames)
    (haccessors : s'.accessors = s.accessors) : s.Leads E unnoticed unnoticed' s' := by
  refine ⟨h, fun p hp => .inl ?_, fun p hp => .inl ⟨p, ?_, rfl, rfl⟩⟩
  · rwa [hsources] at hp
  · rwa [haccessors] at hp

theorem Coherent.leads_self (hs : s.Coherent customTypes E unnoticed) : s.Leads E unnoticed unnoticed s :=
  leads_of_store (.refl hs.store) rfl rfl

/-- It is always safe to take values for changed. -/
theorem Coherent.slips (hs : s.Coherent customTypes E unnoticed) : s.Coherent customTypes E true :=
  hs.leads (leads_of_store (Store.Leads.refl hs.store).slips rfl rfl)

end LayeredConfig.Session
