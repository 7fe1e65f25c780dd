import LayeredConfig.Proofs.Store.Changes

/-!
# Changes without a report, and the life of engines

Reading sources again, or changing one that is not in memory, may change values of an engine that is not told
(`Admits`).  Building engines and closing them changes nothing for the others.
-/

namespace LayeredConfig.Store

variable {E F : EngineId} {st st' : Store} {unnoticed unnoticed' : Bool} {e : Engine}

/-- The sources of the engine `E` have the same values in both stores. -/
def SameValues (st : Store) (E : EngineId) (st' : Store) : Prop :=
  ∀ e, st.engine? E = some e → ∀ id ∈ e.sources, ∀ key, st'.valueIn id key = st.valueIn id key

/-- Values that changed are taken for unnoticed. -/
def Admits (st : Store) (E : EngineId) (unnoticed unnoticed' : Bool) (st' : Store) : Prop :=
  unnoticed' = true ∨ unnoticed' = unnoticed ∧ st.SameValues E st'

/-- If the engine and the values of its sources are the same, nothing can have gone unnoticed. -/
theorem Leads.of_admits (h : st.Leads E unnoticed true st') (hengine : st'.engine? E = st.engine? E)
    (hadmits : st.Admits E unnoticed unnoticed' st') : st.Leads E unnoticed unnoticed' st' := by
  rcases hadmits with rfl | ⟨rfl, hvalues⟩
  · exact h
  · refine ⟨h.sound, h.next_le, h.customTypes, h.kept, fun _ e he => ?_⟩
    have hold : st.engine? E = some e := hengine.symm.trans he
    exact ⟨e, hold, Nat.le_refl _, fun hnoticed _ => ⟨hnoticed, find_congr rfl (hvalues e hold), .refl _⟩⟩

private theorem BelowLimit.congr (h : st.BelowLimit E) (hengine : st'.engine? E = st.engine? E) : st'.BelowLimit E :=
  fun e he => h e (hengine.symm.trans he)

@[simp] theorem valueIn_reportTo (F : EngineId) (id : SourceId) (key : String) :
    (st.reportTo F).valueIn id key = st.valueIn id key := by
  unfold reportTo
  cases st.engine? F with
  | none => rfl
  | some f => rfl

@[simp] theorem valueIn_report (j : Joined) (id : SourceId) (key : String) :
    (st.report j).valueIn id key = st.valueIn id key := by
  unfold report
  cases j.reporter with
  | none => rfl
  | some F => exact valueIn_reportTo F id key

/-! ### Reading sources again -/

theorem memory_of_reload {read : FileReader} {vars : Entries} {source : Source}
    (h : (source.reload read vars).backing = .memory) : source.backing = .memory := by
  unfold Source.reload at h
  split at h
  · assumption
  · exact h
  · split at h <;> exact h
  · split at h
    · exact h
    · simp at h

theorem leads_reloadSource {n : Noticed} (h : n.store.Sound E) (id : SourceId) :
    n.store.Leads E unnoticed true (reloadSource n id).store := by
  unfold reloadSource
  cases hj : n.store.joined? id with
  | none => exact (Leads.refl h).slips
  | some j => exact leads_setSource h hj memory_of_reload

theorem engine?_reloadSource (n : Noticed) (id : SourceId) :
    (reloadSource n id).store.engine? E = n.store.engine? E := by
  unfold reloadSource
  cases n.store.joined? id with
  | none => rfl
  | some j => rfl

private theorem leads_foldl_reloadSource {n : Noticed} (h : n.store.Sound E) (ids : List SourceId) :
    n.store.Leads E unnoticed true (ids.foldl reloadSource n).store := by
  induction ids generalizing n unnoticed with
  | nil => exact (Leads.refl h).slips
  | cons id ids ih =>
    have hfirst : n.store.Leads E unnoticed true (reloadSource n id).store := leads_reloadSource h id
    exact hfirst.trans (ih hfirst.sound)

private theorem engine?_foldl_reloadSource (n : Noticed) (ids : List SourceId) :
    (ids.foldl reloadSource n).store.engine? E = n.store.engine? E := by
  induction ids generalizing n with
  | nil => rfl
  | cons id ids ih => exact (ih _).trans (engine?_reloadSource n id)

/-- When the engine itself reads its sources again, everything is noticed. -/
theorem leads_reload_self (h : st.Sound E) (hlimit : st.BelowLimit E) (e : Engine) :
    st.Leads E unnoticed unnoticed' (st.reload E e).store := by
  have hread : st.Leads E unnoticed true (e.sources.foldl reloadSource ⟨st, []⟩).store :=
    leads_foldl_reloadSource (n := ⟨st, []⟩) h e.sources
  exact hread.trans (leads_reportTo_self hread.sound (hlimit.congr (engine?_foldl_reloadSource _ _)))

/-- When another engine reads its sources again, what it shares with the engine `E` may change. -/
theorem leads_reload (h : st.Sound E) (hlimit : st.BelowLimit E) (F : EngineId) (e : Engine)
    (hadmits : st.Admits E unnoticed unnoticed' (st.reload F e).store) :
    st.Leads E unnoticed unnoticed' (st.reload F e).store := by
  have hengine := engine?_foldl_reloadSource (E := E) ⟨st, []⟩ e.sources
  have hread : st.Leads E unnoticed unnoticed' (e.sources.foldl reloadSource ⟨st, []⟩).store := by
    refine (leads_foldl_reloadSource (n := ⟨st, []⟩) h e.sources).of_admits hengine ?_
    exact hadmits.imp_right fun ⟨heq, hvalues⟩ => ⟨heq, fun e' he' id hid key =>
      (valueIn_reportTo F id key).symm.trans (hvalues e' he' id hid key)⟩
  exact hread.trans (leads_reportTo hread.sound (hlimit.congr hengine) F)

/-! ### Changing single sources -/

section

variable {id : SourceId} {j : Joined}

/-- Changing what a source holds, which may be reported. -/
private theorem leads_changeSource (h : st.Sound E) (hlimit : st.BelowLimit E) (hj : st.joined? id = some j)
    {source : Source} (hbacking : source.backing = .memory → j.source.backing = .memory) {silent : Prop}
    [Decidable silent]
    (hadmits : st.Admits E unnoticed unnoticed' (if silent then st.setJoined id { j with source }
      else (st.setJoined id { j with source }).report j)) :
    st.Leads E unnoticed unnoticed' (if silent then st.setJoined id { j with source }
      else (st.setJoined id { j with source }).report j) := by
  have hset : st.Leads E unnoticed true (st.setJoined id { j with source }) := leads_setSource h hj hbacking
  split at hadmits
  · rename_i hsilent
    rw [if_pos hsilent]
    exact hset.of_admits rfl hadmits
  · rename_i hsilent
    rw [if_neg hsilent]
    have hset' : st.Leads E unnoticed unnoticed' (st.setJoined id { j with source }) := by
      refine hset.of_admits rfl (hadmits.imp_right fun ⟨heq, hvalues⟩ => ⟨heq, fun e he x hx key => ?_⟩)
      rw [← hvalues e he x hx key, valueIn_report]
    exact hset'.trans (leads_report hset'.sound hlimit j)

theorem leads_setValue_of_admits (h : st.Sound E) (hlimit : st.BelowLimit E) (hj : st.joined? id = some j)
    {key value : String} (hadmits : st.Admits E unnoticed unnoticed' (st.setValue id j key value)) :
    st.Leads E unnoticed unnoticed' (st.setValue id j key value) := by
  have hbacking : (j.source.set key value).backing = .memory → j.source.backing = .memory := fun hmemory => hmemory
  exact leads_changeSource h hlimit hj hbacking hadmits

theorem leads_removeKey_of_admits (h : st.Sound E) (hlimit : st.BelowLimit E) (hj : st.joined? id = some j)
    {key : String} (hadmits : st.Admits E unnoticed unnoticed' (st.removeKey id j key)) :
    st.Leads E unnoticed unnoticed' (st.removeKey id j key) := by
  have hbacking : (j.source.remove key).backing = .memory → j.source.backing = .memory := fun hmemory => hmemory
  exact leads_changeSource h hlimit hj hbacking hadmits

end

/-! ### Building and closing engines -/

theorem leads_close (h : st.Sound E) (he : st.engine? F = some e) :
    st.Leads E unnoticed unnoticed (st.close F e).2.store := by
  unfold close
  split
  · exact .refl h
  · refine leads_setEngine_of_extends h he (fun hF => ⟨.refl _, ?_⟩) rfl rfl
    subst hF
    exact (h.engine e he).registry

/-- A new engine has no sources yet, and nobody has read it. -/
private theorem leads_newEngine (h : st.Sound E) {r : Registry} (hr : r.Fresh st.customTypes) :
    st.Leads E unnoticed unnoticed ({ st with next := st.next + 1 }.setEngine st.next ⟨[], r, 0, st.now, false⟩) := by
  -- If the engine itself is the new one, nothing that was kept before can be about it.
  by_cases hE : E = st.next
  · refine ⟨⟨fun id hid => Nat.lt_succ_of_lt (h.source_lt id hid), fun e he => ?_⟩, Nat.le_succ _, rfl,
      fun id hid => hid, fun hlt => absurd hlt (hE ▸ Nat.lt_irrefl _)⟩
    rw [engine?_setEngine, if_pos hE] at he
    obtain rfl := Option.some.inj he
    exact ⟨hE ▸ Nat.lt_succ_self _, hr.wellFormed, hr.customTypes, by simp⟩
  · refine leads_of_kept h rfl (Nat.le_succ _) rfl fun e he => ?_
    rwa [engine?_setEngine, if_neg hE] at he

/-- Giving a new engine its sources. -/
private theorem leads_populate (h : st.Sound E) (hlimit : st.BelowLimit E) {r : Registry} (hr : r.Fresh st.customTypes)
    (ids : List SourceId) (hids : ∀ id ∈ ids, (st.joined? id).isSome) (hspares : st.SparesMemory E ids) :
    st.Leads E unnoticed unnoticed
      (({ st with next := st.next + 1 }.setEngine st.next ⟨[], r, 0, st.now, false⟩).addSources st.next ids).store := by
  have hnew : st.Leads E unnoticed unnoticed _ := leads_newEngine h hr
  refine hnew.trans (leads_addSources hnew.sound (fun e he => ?_) hids ?_)
  · rw [engine?_setEngine] at he
    split at he
    · obtain rfl := Option.some.inj he
      exact (by decide : 0 < Marker.limit)
    · exact hlimit e he
  · by_cases hE : st.next = E
    · exact .inl hE
    · refine .inr fun e he => hspares e ?_
      rwa [engine?_setEngine, if_neg (Ne.symm hE)] at he

theorem leads_build (h : st.Sound E) (hlimit : st.BelowLimit E) (hapart : ValueType.NamesApart st.customTypes)
    {pending : List Pending} (hpending : ∀ p ∈ pending, p.1.IsKnown st.customTypes) {ids : List SourceId}
    (hids : ∀ id ∈ ids, (st.joined? id).isSome) (hspares : st.SparesMemory E ids) {environment : Bool} {n : Noticed}
    (hbuild : st.build ids environment pending = .ok (F, n)) : st.Leads E unnoticed unnoticed n.store := by
  unfold build at hbuild
  split at hbuild
  · nomatch hbuild
  · rename_i r hregistry
    have hr := Registry.Fresh.registryOf hapart hpending hregistry
    cases environment with
    | false =>
      obtain ⟨-, rfl⟩ := Prod.mk.inj (Except.ok.inj hbuild)
      refine leads_populate h hlimit hr (ids ++ []) ?_ ?_
      · simpa using hids
      · simpa using hspares
    | true =>
      obtain ⟨-, rfl⟩ := Prod.mk.inj (Except.ok.inj hbuild)
      have hadded : st.Leads E unnoticed unnoticed (st.addSource (Source.ofEnvironment st.vars)).2 :=
        leads_addSource h _
      have hold {id : SourceId} (hid : id ∈ ids) : id ≠ st.next := Nat.ne_of_lt (h.source_lt id (hids id hid))
      -- The source of the environment is new, so it takes no source in memory away.
      refine hadded.trans (leads_populate hadded.sound hlimit hr (ids ++ [st.next]) ?_ ?_)
      · intro id hid
        rw [joined?_addSource]
        rcases List.mem_append.1 hid with hid | hid
        · rw [if_neg (hold hid)]
          exact hids id hid
        · simp [List.mem_singleton.1 hid]
      · intro e he id hid hide j hj
        rw [joined?_addSource] at hj
        rcases List.mem_append.1 hid with hid | hid
        · rw [if_neg (hold hid)] at hj
          exact hspares e he id hid hide j hj
        · rw [if_pos (List.mem_singleton.1 hid)] at hj
          obtain rfl := Option.some.inj hj
          simp [Source.ofEnvironment]

end LayeredConfig.Store
