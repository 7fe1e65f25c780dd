import LayeredConfig.Proofs.Store.Engines
import LayeredConfig.Proofs.Store.Markers

/-!
# Who a source reports to

A source in memory keeps one engine to report to, and joining another one puts that in its place.  `Joins` says of two
stores which engine one source joined in between: it reports to this one afterwards, or if it joined none to the one
that it reported to before.
-/

namespace LayeredConfig.Store

/-- The engine that a source reports to. -/
def reporter? (st : Store) (id : SourceId) : Option EngineId := (st.joined? id).bind Joined.reporter

/-- A source that is in memory, if it is there at all. -/
def OnlyInMemory (st : Store) (id : SourceId) : Prop := ∀ j, st.joined? id = some j → j.source.backing = .memory

/-- From one store to another the source `id`, if it is one in memory, joins the engine for which `joins` holds, if
there is one. -/
structure Joins (st : Store) (id : SourceId) (joins : EngineId → Prop) (st' : Store) : Prop where
  memory : st'.OnlyInMemory id → st.OnlyInMemory id
  reporter : st'.OnlyInMemory id → ∀ F, st'.reporter? id = some F ↔
    joins F ∨ st.reporter? id = some F ∧ ∀ G, ¬ joins G

variable {st st' st'' : Store} {id x : SourceId} {joins joins' : EngineId → Prop} {F G : EngineId} {e : Engine}
  {ids : List SourceId}

/-- The later of two engines counts. -/
theorem Joins.trans (h : st.Joins id joins st') (h' : st'.Joins id joins' st'') :
    st.Joins id (fun F => joins' F ∨ joins F ∧ ∀ G, ¬ joins' G) st'' := by
  refine ⟨fun hmemory => h.memory (h'.memory hmemory), fun hmemory F => ?_⟩
  rw [h'.reporter hmemory, h.reporter (h'.memory hmemory)]
  by_cases hlater : ∃ G, joins' G
  · obtain ⟨G, hG⟩ := hlater
    have hnone : ¬ ∀ G, ¬ joins' G := fun hall => hall G hG
    have hsome : ¬ ∀ H, ¬ (joins' H ∨ joins H ∧ ∀ G, ¬ joins' G) := fun hall => hall G (.inl hG)
    constructor
    · rintro (hF | ⟨-, hall⟩)
      · exact .inl (.inl hF)
      · exact absurd hall hnone
    · rintro ((hF | ⟨-, hall⟩) | ⟨-, hall⟩)
      · exact .inl hF
      · exact absurd hall hnone
      · exact absurd hall hsome
  · have hnone : ∀ G, ¬ joins' G := not_exists.1 hlater
    simp [hnone]

theorem Joins.congr (h : st.Joins id joins st') (hiff : ∀ F, joins F ↔ joins' F) : st.Joins id joins' st' := by
  obtain rfl : joins = joins' := funext fun F => propext (hiff F)
  exact h

/-- Nobody is joined while the source stays or changes what it holds. -/
private theorem joins_of_kept (hmemory : st'.OnlyInMemory id → st.OnlyInMemory id)
    (hreporter : st'.reporter? id = st.reporter? id) : st.Joins id (fun _ => False) st' := by
  refine ⟨hmemory, fun _ F => ?_⟩
  rw [hreporter]
  simp

private theorem joins_of_joined? (h : st'.joined? id = st.joined? id) : st.Joins id (fun _ => False) st' := by
  apply joins_of_kept
  · rw [OnlyInMemory, h]
    exact fun hmemory => hmemory
  · rw [reporter?, h, reporter?]

theorem joins_of_sources (h : st'.sources = st.sources) : st.Joins id (fun _ => False) st' := by
  apply joins_of_joined?
  rw [joined?, h, joined?]

theorem Joins.refl (st : Store) (id : SourceId) : st.Joins id (fun _ => False) st := joins_of_sources rfl

/-- Nothing is joined first. -/
theorem Joins.after (h' : st'.Joins id joins st'') (h : st.Joins id (fun _ => False) st') : st.Joins id joins st'' :=
  (h.trans h').congr fun F => by simp

/-- Nothing is joined afterwards. -/
private theorem Joins.before (h : st.Joins id joins st') (h' : st'.Joins id (fun _ => False) st'') :
    st.Joins id joins st'' :=
  (h.trans h').congr fun F => by simp

/-! ### Changing what sources hold -/

theorem joins_reportTo (st : Store) (id : SourceId) (G : EngineId) :
    st.Joins id (fun _ => False) (st.reportTo G) := by
  unfold reportTo
  split
  · exact joins_of_sources rfl
  · exact .refl st id

theorem joins_report (st : Store) (id : SourceId) (j : Joined) : st.Joins id (fun _ => False) (st.report j) := by
  unfold report
  split
  · exact joins_reportTo st id _
  · exact .refl st id

private theorem joins_setSource {j : Joined} (hj : st.joined? x = some j) {source : Source}
    (hbacking : source.backing = .memory → j.source.backing = .memory) :
    st.Joins id (fun _ => False) (st.setJoined x { j with source }) := by
  by_cases hid : id = x
  · subst hid
    apply joins_of_kept
    · intro hmemory i hi
      obtain rfl := Option.some.inj (hj.symm.trans hi)
      exact hbacking (hmemory { j with source } (by rw [joined?_setJoined, if_pos rfl]))
    · rw [reporter?, reporter?, joined?_setJoined, if_pos rfl, hj]
      rfl
  · apply joins_of_joined?
    rw [joined?_setJoined, if_neg hid]

theorem joins_setValue {j : Joined} (hj : st.joined? x = some j) (key value : String) :
    st.Joins id (fun _ => False) (st.setValue x j key value) := by
  have hset : st.Joins id (fun _ => False) (st.setJoined x { j with source := j.source.set key value }) :=
    joins_setSource hj fun hmemory => hmemory
  unfold setValue
  dsimp only
  split
  · exact hset
  · exact hset.before (joins_report _ id j)

theorem joins_removeKey {j : Joined} (hj : st.joined? x = some j) (key : String) :
    st.Joins id (fun _ => False) (st.removeKey x j key) := by
  have hset : st.Joins id (fun _ => False) (st.setJoined x { j with source := j.source.remove key }) :=
    joins_setSource hj fun hmemory => hmemory
  unfold removeKey
  dsimp only
  split
  · exact hset
  · exact hset.before (joins_report _ id j)

theorem joins_reloadSource (n : Noticed) (id x : SourceId) :
    n.store.Joins id (fun _ => False) (reloadSource n x).store := by
  unfold reloadSource
  cases hj : n.store.joined? x with
  | none => exact .refl n.store id
  | some j => exact joins_setSource hj memory_of_reload

private theorem joins_foldl_reloadSource (n : Noticed) (id : SourceId) (ids : List SourceId) :
    n.store.Joins id (fun _ => False) (ids.foldl reloadSource n).store := by
  induction ids generalizing n with
  | nil => exact .refl n.store id
  | cons x ids ih => exact (ih _).after (joins_reloadSource n id x)

theorem joins_reload (st : Store) (id : SourceId) (G : EngineId) (e : Engine) :
    st.Joins id (fun _ => False) (st.reload G e).store :=
  (joins_reportTo _ id G).after (joins_foldl_reloadSource ⟨st, []⟩ id e.sources)

theorem joins_close (st : Store) (id : SourceId) (G : EngineId) (e : Engine) :
    st.Joins id (fun _ => False) (st.close G e).2.store := by
  unfold close
  split
  · exact .refl st id
  · exact joins_of_sources rfl

/-- A new source reports to nobody. -/
theorem joins_addSource (hlt : ∀ id, (st.joined? id).isSome → id < st.next) (source : Source) :
    st.Joins id (fun _ => False) (st.addSource source).2 := by
  by_cases hid : id = st.next
  · have hnone : st.joined? id = none := by
      rw [← Option.not_isSome_iff_eq_none]
      intro hsome
      exact Nat.lt_irrefl _ (hid ▸ hlt id hsome)
    apply joins_of_kept
    · intro _ j hj
      rw [hnone] at hj
      nomatch hj
    · rw [reporter?, reporter?, joined?_addSource, if_pos hid, hnone]
      rfl
  · apply joins_of_joined?
    rw [joined?_addSource, if_neg hid]

/-! ### Joining engines -/

private theorem isSome_joined?_attach {n : Noticed} (h : (n.store.joined? id).isSome) (G : EngineId) (x : SourceId) :
    ((attach G n x).store.joined? id).isSome := by
  rcases attach_cases G n x with ⟨hstore, -⟩ | ⟨j, -, hstore⟩
  · rwa [hstore]
  · rw [hstore, joined?_setJoined]
    split
    · rfl
    · exact h

private theorem joins_attach {n : Noticed} (hx : (n.store.joined? x).isSome) (id : SourceId) (G : EngineId) :
    n.store.Joins id (fun F => F = G ∧ id = x) (attach G n x).store := by
  rcases attach_cases G n x with ⟨hstore, hother⟩ | ⟨j, hj, hstore⟩
  · rw [hstore]
    by_cases hid : id = x
    · -- A source of another kind stays as it is.
      subst hid
      obtain ⟨j, hj⟩ := Option.isSome_iff_exists.1 hx
      exact ⟨fun hmemory => hmemory, fun hmemory => absurd (hmemory j hj) (hother j hj)⟩
    · exact (Joins.refl n.store id).congr fun F => by simp [hid]
  · rw [hstore]
    by_cases hid : id = x
    · subst hid
      have hjoined : (n.store.setJoined id { j with reporter := some G }).joined? id =
          some { j with reporter := some G } := by
        rw [joined?_setJoined, if_pos rfl]
      refine ⟨fun hmemory i hi => ?_, fun _ F => ?_⟩
      · have hbacking : j.source.backing = .memory := hmemory { j with reporter := some G } hjoined
        obtain rfl := Option.some.inj (hj.symm.trans hi)
        exact hbacking
      · rw [reporter?, hjoined]
        simp [eq_comm]
    · have hkept : n.store.Joins id (fun _ => False) (n.store.setJoined x { j with reporter := some G }) := by
        apply joins_of_joined?
        rw [joined?_setJoined, if_neg hid]
      exact hkept.congr fun F => by simp [hid]

private theorem joins_foldl_attach {n : Noticed} (hids : ∀ x ∈ ids, (n.store.joined? x).isSome) (id : SourceId)
    (G : EngineId) : n.store.Joins id (fun F => F = G ∧ id ∈ ids) (ids.foldl (attach G) n).store := by
  induction ids generalizing n with
  | nil => exact (Joins.refl n.store id).congr fun F => by simp
  | cons x ids ih =>
    rw [List.forall_mem_cons] at hids
    have hfirst : n.store.Joins id (fun F => F = G ∧ id = x) (attach G n x).store := joins_attach hids.1 id G
    have hrest := ih fun y hy => isSome_joined?_attach (hids.2 y hy) G x
    refine (hfirst.trans hrest).congr fun F => ?_
    by_cases hmem : id ∈ ids
    · simp [hmem]
    · simp [hmem]

theorem joins_addSources (hids : ∀ x ∈ ids, (st.joined? x).isSome) (id : SourceId) (G : EngineId) :
    st.Joins id (fun F => F = G ∧ id ∈ ids) (st.addSources G ids).store := by
  unfold addSources
  split
  · rename_i hempty
    obtain rfl : ids = [] := List.isEmpty_iff.1 hempty
    exact (Joins.refl st id).congr fun F => by simp
  · have hattached : st.Joins id (fun F => F = G ∧ id ∈ ids) (ids.foldl (attach G) ⟨st, []⟩).store :=
      joins_foldl_attach (n := ⟨st, []⟩) hids id G
    dsimp only
    split
    · exact hattached
    · exact hattached.before (joins_of_sources rfl)

private theorem joins_populate (hids : ∀ x ∈ ids, (st.joined? x).isSome) (id : SourceId) (registry : Registry) :
    st.Joins id (fun F => F = st.next ∧ id ∈ ids)
      (({ st with next := st.next + 1 }.setEngine st.next ⟨[], registry, 0, st.now, false⟩).addSources
        st.next ids).store := by
  let made : Store := { st with next := st.next + 1 }.setEngine st.next ⟨[], registry, 0, st.now, false⟩
  have hnew : st.Joins id (fun _ => False) made := joins_of_sources rfl
  have hids' : ∀ x ∈ ids, (made.joined? x).isSome := hids
  exact (joins_addSources hids' id st.next).after hnew

/-- The sources that an engine is built with join it. -/
theorem joins_build (hlt : ∀ id, (st.joined? id).isSome → id < st.next) (hids : ∀ x ∈ ids, (st.joined? x).isSome)
    (id : SourceId) {environment : Bool} {pending : List Pending} {n : Noticed}
    (h : st.build ids environment pending = .ok (G, n)) :
    st.Joins id (fun F => F = G ∧ id ∈ ids ++ (if environment then [st.next] else [])) n.store := by
  unfold build at h
  split at h
  · nomatch h
  · rename_i registry hregistry
    cases environment with
    | false =>
      obtain ⟨rfl, rfl⟩ := Prod.mk.inj (Except.ok.inj h)
      have hids' : ∀ x ∈ ids ++ [], (st.joined? x).isSome := by simpa using hids
      exact joins_populate hids' id registry
    | true =>
      obtain ⟨rfl, rfl⟩ := Prod.mk.inj (Except.ok.inj h)
      have hadded : st.Joins id (fun _ => False) (st.addSource (Source.ofEnvironment st.vars)).2 :=
        joins_addSource hlt _
      have hids' : ∀ x ∈ ids ++ [st.next], ((st.addSource (Source.ofEnvironment st.vars)).2.joined? x).isSome := by
        intro x hx
        rw [joined?_addSource]
        split
        · rfl
        · rename_i hne
          rcases List.mem_append.1 hx with hx | hx
          · exact hids x hx
          · exact absurd (List.mem_singleton.1 hx) hne
      exact (joins_populate hids' id registry).after hadded

/-! ### Reports -/

/-- Setting a value in memory moves the marker of the engine that the source reports to, and leaves all engines as they
are otherwise. -/
theorem engine?_setValue {j : Joined} (hmemory : j.source.backing = .memory) (st : Store) (x : SourceId)
    (key value : String) (F : EngineId) :
    (st.setValue x j key value).engine? F =
      if j.reporter = some F then (st.engine? F).map fun e => { e with marker := st.nextMarker e } else st.engine? F := by
  let changed : Store := st.setJoined x { j with source := j.source.set key value }
  have hset : st.setValue x j key value = changed.report j := by
    rw [setValue, isScript_of_memory hmemory]
    rfl
  have hsame : st.SameEngines changed := ⟨rfl, rfl, rfl⟩
  rw [hset, report]
  cases hreporter : j.reporter with
  | none => exact hsame.engine? F
  | some G =>
    dsimp only
    by_cases hFG : G = F
    · subst hFG
      rw [if_pos rfl]
      cases he : st.engine? G with
      | none =>
        have hnone : changed.engine? G = none := he
        rw [reportTo, hnone]
        exact hnone
      | some e => exact engine?_reportTo_self hsame he
    · rw [if_neg (by simpa using hFG), reportTo]
      split
      · rw [engine?_setEngine, if_neg (Ne.symm hFG)]
        rfl
      · rfl

/-- Who joins does not depend on the engines that are there. -/
theorem Joins.filter (h : st.Joins id joins st') (keep : EngineId → Bool) :
    st.Joins id joins { st' with engines := st'.engines.filter fun p => keep p.1 } :=
  ⟨h.memory, h.reporter⟩

end LayeredConfig.Store
