import LayeredConfig.Proofs.SourceSet
import LayeredConfig.Proofs.Store.Moments

/-!
# Operations on a store, as one engine sees them

Setting or removing a value in memory moves the marker of the engine that the source belongs to, and so does adding
sources.  Adding sources to another engine changes nothing for it, as long as they are not its own ones in memory.
-/

namespace LayeredConfig.Store

variable {E F : EngineId} {st st' : Store} {unnoticed unnoticed' : Bool} {e e' : Engine}

/-- It is always safe to take values for changed. -/
theorem Leads.slips (h : st.Leads E unnoticed unnoticed' st') : st.Leads E unnoticed true st' := by
  refine ⟨h.sound, h.next_le, h.customTypes, h.kept, fun hE e' he' => ?_⟩
  obtain ⟨e, he, hprecedes⟩ := h.precedes hE e' he'
  exact ⟨e, he, hprecedes.marker_le, by simp [moment]⟩

/-- Putting an engine in its place that has discovered more at most. -/
theorem leads_setEngine_of_extends (h : st.Sound E) (he : st.engine? F = some e)
    (hregistry : F = E → e.registry.Extends e'.registry ∧ e'.registry.WellFormed) (hsources : e'.sources = e.sources)
    (hmarker : e'.marker = e.marker) : st.Leads E unnoticed unnoticed (st.setEngine F e') := by
  by_cases hne : E = F
  · subst hne
    obtain ⟨hext, hwf⟩ := hregistry rfl
    refine leads_setEngine h he hext hwf (hsources ▸ (h.engine e he).sources) ⟨Nat.le_of_eq hmarker.symm, ?_⟩
    exact fun hnoticed _ => ⟨hnoticed, find_congr hsources fun _ _ _ => rfl, hext⟩
  · exact leads_setEngine_of_ne h hne e'

/-! ### Values -/

section

variable {id : SourceId} {j : Joined}

/-- Changing what a source holds, without a report. -/
theorem leads_setSource (h : st.Sound E) (hj : st.joined? id = some j) {source : Source}
    (hbacking : source.backing = .memory → j.source.backing = .memory) :
    st.Leads E unnoticed true (st.setJoined id { j with source }) := by
  refine leads_setJoined h hj (fun e he hid hmemory => ?_) (by simp)
  obtain ⟨j', hj', hreporter⟩ := (h.engine e he).sources id hid
  obtain rfl := Option.some.inj (hj.symm.trans hj')
  exact hreporter (hbacking hmemory)

/-- Changing what a source in memory holds, and reporting it. -/
private theorem leads_setSource_report (h : st.Sound E) (hlimit : st.BelowLimit E) (hj : st.joined? id = some j)
    (hmemory : j.source.backing = .memory) {source : Source} :
    st.Leads E unnoticed unnoticed ((st.setJoined id { j with source }).report j) := by
  have hset : st.Leads E unnoticed true (st.setJoined id { j with source }) := leads_setSource h hj fun _ => hmemory
  -- A source of the engine reports to it; of any other source it does not see the values.
  by_cases hid : ∃ e, st.engine? E = some e ∧ id ∈ e.sources
  · obtain ⟨e, he, hid⟩ := hid
    obtain ⟨j', hj', hreporter⟩ := (h.engine e he).sources id hid
    obtain rfl := Option.some.inj (hj.symm.trans hj')
    have hreport (st : Store) : st.report j = st.reportTo E := by rw [report, hreporter hmemory]
    rw [hreport]
    exact hset.trans (leads_reportTo_self hset.sound hlimit)
  · have hset : st.Leads E unnoticed unnoticed (st.setJoined id { j with source }) := by
      refine leads_setJoined h hj (fun e he hin => absurd ⟨e, he, hin⟩ hid) fun hnoticed => ⟨hnoticed, ?_⟩
      exact fun e he hin => absurd ⟨e, he, hin⟩ hid
    exact hset.trans (leads_report hset.sound hlimit j)

theorem isScript_of_memory {source : Source} (h : source.backing = .memory) : isScript source = false := by
  rw [isScript, h]

theorem leads_setValue (h : st.Sound E) (hlimit : st.BelowLimit E) (hj : st.joined? id = some j)
    (hmemory : j.source.backing = .memory) (key value : String) :
    st.Leads E unnoticed unnoticed (st.setValue id j key value) := by
  rw [setValue, isScript_of_memory hmemory]
  exact leads_setSource_report h hlimit hj hmemory

theorem leads_removeKey (h : st.Sound E) (hlimit : st.BelowLimit E) (hj : st.joined? id = some j)
    (hmemory : j.source.backing = .memory) (key : String) :
    st.Leads E unnoticed unnoticed (st.removeKey id j key) := by
  unfold removeKey
  rw [isScript_of_memory hmemory]
  dsimp only
  split
  · rename_i habsent
    -- Without the key, removing it leaves every value as it was.
    have hnone : j.source.entries.get? key = none := by simpa using habsent
    have hsame (k : String) : (j.source.remove key).get? k = j.source.get? k := by
      have hmemory' : (j.source.remove key).backing = .memory := hmemory
      rw [Source.get?, Source.get?, hmemory, hmemory']
      show (j.source.entries.erase key).get? k = j.source.entries.get? k
      rw [Entries.get?_erase]
      split
      · rename_i heq
        rw [heq, hnone]
      · rfl
    refine leads_setJoined h hj (fun e he hid _ => ?_) fun hnoticed => ⟨hnoticed, fun _ _ _ => hsame⟩
    obtain ⟨j', hj', hreporter⟩ := (h.engine e he).sources id hid
    obtain rfl := Option.some.inj (hj.symm.trans hj')
    exact hreporter hmemory
  · exact leads_setSource_report h hlimit hj hmemory

end

/-! ### Sources of engines -/

/-- Joining a source either leaves the store as it is or makes the source report to the engine that it joined. -/
theorem attach_cases (F : EngineId) (n : Noticed) (id : SourceId) :
    (attach F n id).store = n.store ∧
        (∀ j, n.store.joined? id = some j → j.source.backing ≠ .memory) ∨
      ∃ j, n.store.joined? id = some j ∧
        (attach F n id).store = n.store.setJoined id { j with reporter := some F } := by
  unfold attach
  cases hj : n.store.joined? id with
  | none => exact .inl ⟨rfl, by simp⟩
  | some j =>
    dsimp only
    split
    · exact .inr ⟨j, rfl, rfl⟩
    · rename_i hkeeps
      refine .inl ⟨rfl, fun j' hj' hmemory => hkeeps ?_⟩
      obtain rfl := Option.some.inj hj'
      rw [keepsReporter, hmemory]

private theorem engine?_attach (F : EngineId) (n : Noticed) (id : SourceId) :
    (attach F n id).store.engine? E = n.store.engine? E := by
  rcases attach_cases F n id with ⟨hstore, -⟩ | ⟨j, -, hstore⟩
  · rw [hstore]
  · rw [hstore, engine?_setJoined]

theorem engine?_foldl_attach (F : EngineId) (n : Noticed) (ids : List SourceId) :
    (ids.foldl (attach F) n).store.engine? E = n.store.engine? E := by
  induction ids generalizing n with
  | nil => rfl
  | cons id ids ih => exact (ih _).trans (engine?_attach F n id)

/-- Of the sources `ids`, those in memory are none of the engine `E`. -/
def SparesMemory (st : Store) (E : EngineId) (ids : List SourceId) : Prop :=
  ∀ e, st.engine? E = some e → ∀ id ∈ ids, id ∈ e.sources →
    ∀ j, st.joined? id = some j → j.source.backing ≠ .memory

private theorem SparesMemory.attach {n : Noticed} {id : SourceId} {ids : List SourceId}
    (h : n.store.SparesMemory E ids) : (attach F n id).store.SparesMemory E ids := by
  intro e he x hx hxe j hj
  rw [engine?_attach] at he
  rcases attach_cases F n id with ⟨hstore, -⟩ | ⟨i, hi, hstore⟩
  · rw [hstore] at hj
    exact h e he x hx hxe j hj
  · rw [hstore, joined?_setJoined] at hj
    split at hj
    · rename_i hxid
      subst hxid
      obtain rfl := Option.some.inj hj
      exact h e he x hx hxe i hi
    · exact h e he x hx hxe j hj

/-- Joining a source to an engine.  If it is another one, it must not take a source in memory away from `E`. -/
private theorem leads_attach {n : Noticed} {id : SourceId} (h : n.store.Sound E)
    (hF : F = E ∨ n.store.SparesMemory E [id]) : n.store.Leads E unnoticed unnoticed (attach F n id).store := by
  rcases attach_cases F n id with ⟨hstore, -⟩ | ⟨j, hj, hstore⟩
  · rw [hstore]
    exact .refl h
  · rw [hstore]
    refine leads_setJoined h hj (fun e he hid hmemory => ?_) fun hnoticed => ⟨hnoticed, fun _ _ _ _ => rfl⟩
    rcases hF with rfl | hF
    · rfl
    · exact absurd hmemory (hF e he id List.mem_cons_self hid j hj)

private theorem leads_foldl_attach {n : Noticed} {ids : List SourceId} (h : n.store.Sound E)
    (hF : F = E ∨ n.store.SparesMemory E ids) :
    n.store.Leads E unnoticed unnoticed (ids.foldl (attach F) n).store := by
  induction ids generalizing n with
  | nil => exact .refl h
  | cons id ids ih =>
    have hfirst : n.store.Leads E unnoticed unnoticed (attach F n id).store :=
      leads_attach h (hF.imp_right fun hF e he x hx => hF e he x (List.mem_singleton.1 hx ▸ List.mem_cons_self))
    have hspares (hF : n.store.SparesMemory E (id :: ids)) : n.store.SparesMemory E ids :=
      fun e he x hx => hF e he x (List.mem_cons_of_mem id hx)
    exact hfirst.trans (ih hfirst.sound (hF.imp_right fun hF => (hspares hF).attach))

private theorem reportsTo_attach {n : Noticed} {id : SourceId} (hid : (n.store.joined? id).isSome) :
    (attach E n id).store.ReportsTo E id := by
  rcases attach_cases E n id with ⟨hstore, hmemory⟩ | ⟨j, hj, hstore⟩
  · obtain ⟨j, hj⟩ := Option.isSome_iff_exists.1 hid
    rw [hstore]
    exact ⟨j, hj, fun hbacking => absurd hbacking (hmemory j hj)⟩
  · rw [hstore]
    exact ⟨_, by rw [joined?_setJoined, if_pos rfl], fun _ => rfl⟩

private theorem ReportsTo.attach {n : Noticed} {id x : SourceId} (h : n.store.ReportsTo E x) :
    (attach E n id).store.ReportsTo E x := by
  obtain ⟨j, hj, hreporter⟩ := h
  rcases attach_cases E n id with ⟨hstore, -⟩ | ⟨i, hi, hstore⟩
  · rw [hstore]
    exact ⟨j, hj, hreporter⟩
  · rw [hstore, ReportsTo, joined?_setJoined]
    split
    · exact ⟨_, rfl, fun _ => rfl⟩
    · exact ⟨j, hj, hreporter⟩

/-- All sources that joined an engine report to it. -/
private theorem reportsTo_foldl_attach {n : Noticed} {ids : List SourceId}
    (hids : ∀ id ∈ ids, (n.store.joined? id).isSome) {x : SourceId} (hx : n.store.ReportsTo E x ∨ x ∈ ids) :
    (ids.foldl (attach E) n).store.ReportsTo E x := by
  induction ids generalizing n with
  | nil => simpa using hx
  | cons id ids ih =>
    have hkept (y : SourceId) (hy : (n.store.joined? y).isSome) : ((attach E n id).store.joined? y).isSome := by
      rcases attach_cases E n id with ⟨hstore, -⟩ | ⟨j, hj, hstore⟩
      · rwa [hstore]
      · rw [hstore, joined?_setJoined]
        split
        · rfl
        · exact hy
    refine ih (fun y hy => hkept y (hids y (List.mem_cons_of_mem id hy))) ?_
    rcases hx with hx | hx
    · exact .inl hx.attach
    · rcases List.mem_cons.1 hx with rfl | hx
      · exact .inl (reportsTo_attach (hids x List.mem_cons_self))
      · exact .inr hx

theorem leads_addSources (h : st.Sound E) (hlimit : st.BelowLimit E) {ids : List SourceId}
    (hids : ∀ id ∈ ids, (st.joined? id).isSome)
    (hF : F = E ∨ st.SparesMemory E ids) : st.Leads E unnoticed unnoticed (st.addSources F ids).store := by
  unfold addSources
  split
  · exact .refl h
  · have hattached : st.Leads E unnoticed unnoticed (ids.foldl (attach F) ⟨st, []⟩).store :=
      leads_foldl_attach (n := ⟨st, []⟩) h hF
    have hengine : (ids.foldl (attach F) ⟨st, []⟩).store.engine? E = st.engine? E := engine?_foldl_attach F _ ids
    dsimp only
    -- For the engine itself the marker moves on, and the sources of another one do not matter to it.
    by_cases hne : F = E
    · subst hne
      cases he : (ids.foldl (attach F) ⟨st, []⟩).store.engine? F with
      | none => exact hattached
      | some e =>
        have hsound := hattached.sound.engine e he
        have hold : st.engine? F = some e := hengine.symm.trans he
        refine hattached.trans (leads_setEngine hattached.sound he (.refl _) hsound.registry (fun id hid => ?_)
          (precedes_of_marker_lt (Marker.lt_advance (hlimit e hold))))
        apply reportsTo_foldl_attach hids
        rcases SourceSet.mem_merge.1 hid with hid | hid
        · exact .inl ((h.engine e hold).sources id hid)
        · exact .inr hid
    · cases (ids.foldl (attach F) ⟨st, []⟩).store.engine? F with
      | none => exact hattached
      | some f => exact hattached.trans (leads_setEngine_of_ne hattached.sound (Ne.symm hne) _)

end LayeredConfig.Store
