import LayeredConfig.Proofs.Accessor.Caching
import LayeredConfig.Proofs.Store.Access

/-!
# Changes of a store, as one engine sees them

Everything that happens to a store is, for one engine, of one of three kinds: its marker moves on; or nothing changes
for its readers but the time and what was discovered; or values may change without notice.  `Leads` says so of two
stores, together with what the engine relies on: its sources exist, those in memory report to it, and its registry is
in order.  Every operation on a store leads to its result (`leads_setValue` and so on).
-/

namespace LayeredConfig.Store

/-- What the readers of an engine depend on. -/
def moment (st : Store) (e : Engine) (unnoticed : Bool) : Moment := ⟨st.view e, e.registry, unnoticed⟩

/-- A source of a store that reports its changes to an engine, if it is one in memory. -/
def ReportsTo (st : Store) (E : EngineId) (id : SourceId) : Prop :=
  ∃ j, st.joined? id = some j ∧ (j.source.backing = .memory → j.reporter = some E)

/-- An engine of a store and what it relies on. -/
structure EngineSound (st : Store) (E : EngineId) (e : Engine) : Prop where
  id_lt : E < st.next
  registry : e.registry.WellFormed
  customTypes : e.registry.customTypes = st.customTypes
  sources : ∀ id ∈ e.sources, st.ReportsTo E id

/-- A store in which the engine `E`, if it exists, has what it relies on. -/
structure Sound (E : EngineId) (st : Store) : Prop where
  source_lt : ∀ id, (st.joined? id).isSome → id < st.next
  engine : ∀ e, st.engine? E = some e → st.EngineSound E e

/-- One store leads to another: all that is relied on stays, and the moment of the engine `E` is a later one, with
`unnoticed` before and `unnoticed'` after it. -/
structure Leads (st : Store) (E : EngineId) (unnoticed : Bool) (unnoticed' : Bool) (st' : Store) : Prop where
  sound : st'.Sound E
  next_le : st.next ≤ st'.next
  customTypes : st'.customTypes = st.customTypes
  kept : ∀ id, (st.joined? id).isSome → (st'.joined? id).isSome
  precedes : E < st.next → ∀ e', st'.engine? E = some e' →
    ∃ e, st.engine? E = some e ∧ (st.moment e unnoticed).Precedes (st'.moment e' unnoticed')

variable {E F : EngineId} {st st' st'' : Store} {unnoticed unnoticed' unnoticed'' : Bool} {e e' : Engine}

theorem Leads.trans (h : st.Leads E unnoticed unnoticed' st') (h' : st'.Leads E unnoticed' unnoticed'' st'') :
    st.Leads E unnoticed unnoticed'' st'' := by
  refine ⟨h'.sound, Nat.le_trans h.next_le h'.next_le, h'.customTypes.trans h.customTypes,
    fun id hid => h'.kept id (h.kept id hid), fun hE e'' he'' => ?_⟩
  obtain ⟨e', he', hprecedes'⟩ := h'.precedes (Nat.lt_of_lt_of_le hE h.next_le) e'' he''
  obtain ⟨e, he, hprecedes⟩ := h.precedes hE e' he'
  exact ⟨e, he, hprecedes.trans hprecedes'⟩

/-- The sources and the engine `E` stay, or the engine goes. -/
theorem leads_of_kept (h : st.Sound E) (hsources : st'.sources = st.sources) (hnext : st.next ≤ st'.next)
    (hcustom : st'.customTypes = st.customTypes)
    (hengine : ∀ e, st'.engine? E = some e → st.engine? E = some e) : st.Leads E unnoticed unnoticed st' := by
  have hjoined (id : SourceId) : st'.joined? id = st.joined? id := by
    rw [joined?, hsources, joined?]
  have hvalue (id : SourceId) (key : String) : st'.valueIn id key = st.valueIn id key := by
    rw [valueIn, hjoined, valueIn]
  have hreports (id : SourceId) (hid : st.ReportsTo E id) : st'.ReportsTo E id := by
    obtain ⟨j, hj, hreporter⟩ := hid
    exact ⟨j, (hjoined id).trans hj, hreporter⟩
  refine ⟨⟨fun id hid => ?_, fun e he => ?_⟩, hnext, hcustom, fun id hid => ?_, fun _ e he => ?_⟩
  · rw [hjoined] at hid
    exact Nat.lt_of_lt_of_le (h.source_lt id hid) hnext
  · obtain ⟨hlt, hregistry, htypes, hids⟩ := h.engine e (hengine e he)
    exact ⟨Nat.lt_of_lt_of_le hlt hnext, hregistry, htypes.trans hcustom.symm, fun id hid => hreports id (hids id hid)⟩
  · rwa [hjoined]
  · exact ⟨e, hengine e he, Nat.le_refl _, fun hnoticed _ =>
      ⟨hnoticed, find_congr rfl fun id _ => hvalue id, .refl _⟩⟩

theorem Leads.refl (h : st.Sound E) : st.Leads E unnoticed unnoticed st :=
  leads_of_kept h rfl (Nat.le_refl _) rfl fun _ he => he

/-- A new source is none of an engine that is there. -/
theorem leads_addSource (h : st.Sound E) (source : Source) :
    st.Leads E unnoticed unnoticed (st.addSource source).2 := by
  have hold {id : SourceId} (hid : (st.joined? id).isSome) : (st.addSource source).2.joined? id = st.joined? id := by
    rw [joined?_addSource, if_neg (Nat.ne_of_lt (h.source_lt id hid))]
  refine ⟨⟨fun id hid => ?_, fun e he => ?_⟩, Nat.le_succ _, rfl, fun id hid => ?_, fun _ e he => ?_⟩
  · rw [joined?_addSource] at hid
    split at hid
    · rename_i heq
      exact heq ▸ Nat.lt_succ_self _
    · exact Nat.lt_succ_of_lt (h.source_lt id hid)
  · obtain ⟨hlt, hregistry, htypes, hids⟩ := h.engine e he
    refine ⟨Nat.lt_succ_of_lt hlt, hregistry, htypes, fun id hid => ?_⟩
    obtain ⟨j, hj, hreporter⟩ := hids id hid
    exact ⟨j, (hold (by simp [hj])).trans hj, hreporter⟩
  · rwa [hold hid]
  · refine ⟨e, he, Nat.le_refl _, fun hnoticed _ => ⟨hnoticed, find_congr rfl fun id hid key => ?_, .refl _⟩⟩
    obtain ⟨j, hj, -⟩ := (h.engine e he).sources id hid
    rw [valueIn, hold (by simp [hj]), valueIn]

/-- Putting a source in the place of one that is there.  Values may have changed without notice, unless the source
is none of the engine or has the same values. -/
theorem leads_setJoined (h : st.Sound E) {id : SourceId} {j j' : Joined} (hj : st.joined? id = some j)
    (hreports : ∀ e, st.engine? E = some e → id ∈ e.sources → j'.source.backing = .memory → j'.reporter = some E)
    (hvalues : unnoticed' = false → unnoticed = false ∧ ∀ e, st.engine? E = some e → id ∈ e.sources →
      ∀ key, j'.source.get? key = j.source.get? key) :
    st.Leads E unnoticed unnoticed' (st.setJoined id j') := by
  have hisSome (x : SourceId) : ((st.setJoined id j').joined? x).isSome = (st.joined? x).isSome := by
    rw [joined?_setJoined]
    split
    · rename_i hx
      simp [hx, hj]
    · rfl
  refine ⟨⟨fun x hx => ?_, fun e he => ?_⟩, Nat.le_refl _, rfl, fun x hx => ?_, fun _ e he => ?_⟩
  · rw [hisSome] at hx
    exact h.source_lt x hx
  · obtain ⟨hlt, hregistry, htypes, hids⟩ := h.engine e he
    refine ⟨hlt, hregistry, htypes, fun x hx => ?_⟩
    obtain ⟨i, hi, hreporter⟩ := hids x hx
    by_cases hxid : x = id
    · subst hxid
      exact ⟨j', by simp, hreports e he hx⟩
    · exact ⟨i, by rw [joined?_setJoined, if_neg hxid, hi], hreporter⟩
  · rwa [hisSome]
  -- The marker did not move, so the values have to be the same unless something slips through.
  · refine ⟨e, he, Nat.le_refl _, fun hnoticed _ => ⟨(hvalues hnoticed).1, find_congr rfl fun x hx key => ?_, .refl _⟩⟩
    rw [valueIn, valueIn, joined?_setJoined]
    split
    · rename_i hxid
      subst hxid
      rw [hj]
      exact (hvalues hnoticed).2 e he hx key
    · rfl

/-- Putting another engine in its place. -/
theorem leads_setEngine_of_ne (h : st.Sound E) (hne : E ≠ F) (e : Engine) :
    st.Leads E unnoticed unnoticed (st.setEngine F e) := by
  refine leads_of_kept h rfl (Nat.le_refl _) rfl fun e' he' => ?_
  rwa [engine?_setEngine, if_neg hne] at he'

/-- Putting the engine itself in its place, as it is at a later moment. -/
theorem leads_setEngine (h : st.Sound E) (he : st.engine? E = some e) (hext : e.registry.Extends e'.registry)
    (hregistry : e'.registry.WellFormed) (hsources : ∀ id ∈ e'.sources, st.ReportsTo E id)
    (hprecedes : (st.moment e unnoticed).Precedes (st.moment e' unnoticed')) :
    st.Leads E unnoticed unnoticed' (st.setEngine E e') := by
  obtain ⟨hlt, -, htypes, -⟩ := h.engine e he
  refine ⟨⟨h.source_lt, fun f hf => ?_⟩, Nat.le_refl _, rfl, fun id hid => hid, fun _ f hf => ?_⟩
  · rw [engine?_setEngine, if_pos rfl] at hf
    obtain rfl := Option.some.inj hf
    exact ⟨hlt, hregistry, hext.customTypes.trans htypes, hsources⟩
  · rw [engine?_setEngine, if_pos rfl] at hf
    obtain rfl := Option.some.inj hf
    exact ⟨e, he, hprecedes⟩

/-! ### Reported changes -/

/-- The marker of the engine `E` is below its limit. -/
def BelowLimit (E : EngineId) (st : Store) : Prop := ∀ e, st.engine? E = some e → e.marker < Marker.limit

instance (E : EngineId) (st : Store) : Decidable (st.BelowLimit E) :=
  match h : st.engine? E with
  | none => isTrue fun e he => by simp [h] at he
  | some e => decidable_of_iff (e.marker < Marker.limit)
      ⟨fun hlt e' he' => Option.some.inj (h.symm.trans he') ▸ hlt, fun hall => hall e h⟩

theorem precedes_of_marker_lt (h : e.marker < e'.marker) :
    (st.moment e unnoticed).Precedes (st'.moment e' unnoticed') :=
  ⟨Nat.le_of_lt h, fun _ heq => absurd heq (Nat.ne_of_gt h)⟩

/-- After a reported change nothing has gone unnoticed. -/
theorem leads_reportTo_self (h : st.Sound E) (hlimit : st.BelowLimit E) :
    st.Leads E unnoticed unnoticed' (st.reportTo E) := by
  unfold reportTo
  cases he : st.engine? E with
  | none => exact ⟨h, Nat.le_refl _, rfl, fun _ hid => hid, fun _ e' he' => by simp [he] at he'⟩
  | some e =>
    have hsound := h.engine e he
    exact leads_setEngine h he (.refl _) hsound.registry hsound.sources
      (precedes_of_marker_lt (Marker.lt_advance (hlimit e he)))

theorem leads_reportTo (h : st.Sound E) (hlimit : st.BelowLimit E) (F : EngineId) :
    st.Leads E unnoticed unnoticed (st.reportTo F) := by
  by_cases hne : E = F
  · subst hne
    exact leads_reportTo_self h hlimit
  · unfold reportTo
    cases st.engine? F with
    | none => exact .refl h
    | some f => exact leads_setEngine_of_ne h hne _

theorem leads_report (h : st.Sound E) (hlimit : st.BelowLimit E) (j : Joined) :
    st.Leads E unnoticed unnoticed (st.report j) := by
  unfold report
  cases j.reporter with
  | none => exact .refl h
  | some F => exact leads_reportTo h hlimit F

end LayeredConfig.Store
