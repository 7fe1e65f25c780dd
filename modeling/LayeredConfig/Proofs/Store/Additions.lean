import LayeredConfig.Proofs.SourceSet
import LayeredConfig.Proofs.Store.Changes

/-!
# Sources that an engine is given

`Gives` says of two stores which sources an engine was given in between: its sources are then the old ones and these,
in the order of their ranks.  No operation changes the rank of a source, whatever happens to its entries.
-/

namespace LayeredConfig.Store

/-- The rank of a source that is there. -/
def rank? (st : Store) (id : SourceId) : Option Rank := (st.joined? id).map fun j => j.source.rank

/-- Ordered sources and further ones, if there are any. -/
def gain (rank : SourceId → Rank) (old given : List SourceId) : List SourceId :=
  if given.isEmpty then old else SourceSet.merge rank old given

/-- The sources of the engine `F` are `old`, where an engine that is yet to be made has none. -/
def HasSources (st : Store) (F : EngineId) (old : List SourceId) : Prop :=
  (∃ e, st.engine? F = some e ∧ e.sources = old) ∨ st.next ≤ F ∧ old = []

/-- From one store to another the engine `F` is given the sources `given`. -/
structure Gives (st : Store) (F : EngineId) (given : List SourceId) (st' : Store) : Prop where
  next_le : st.next ≤ st'.next
  source_lt : ∀ id, (st'.joined? id).isSome → (st.joined? id).isSome ∨ id < st'.next
  ranks : ∀ id r, st.rank? id = some r → st'.rank? id = some r
  joined : ∀ id ∈ given, (st'.joined? id).isSome
  given_lt : given ≠ [] → F < st'.next
  engine_lt : ∀ e', st'.engine? F = some e' → (st.engine? F).isSome ∨ F < st'.next
  engine : ∀ e', st'.engine? F = some e' → ∃ old, st.HasSources F old ∧ e'.sources = gain st'.rankOf old given

theorem perm_gain (rank : SourceId → Rank) (old given : List SourceId) : (gain rank old given).Perm (old ++ given) := by
  unfold gain
  split
  · rename_i hgiven
    rw [List.isEmpty_iff.1 hgiven, List.append_nil]
  · exact SourceSet.perm_merge rank old given

theorem pairwise_gain {rank : SourceId → Rank} {old : List SourceId}
    (h : old.Pairwise fun a b => (rank a).before (rank b)) (given : List SourceId) :
    (gain rank old given).Pairwise fun a b => (rank a).before (rank b) := by
  unfold gain
  split
  · exact h
  · exact SourceSet.pairwise_merge rank old given

variable {F G : EngineId} {st st' st'' : Store} {e e' : Engine} {given : List SourceId}

theorem rankOf_of_rank? {id : SourceId} {r : Rank} (h : st.rank? id = some r) : st.rankOf id = r := by
  unfold rank? at h
  unfold rankOf
  cases hj : st.joined? id with
  | none => simp [hj] at h
  | some j => simpa [hj] using h

theorem rank?_isSome {id : SourceId} : (st.rank? id).isSome = (st.joined? id).isSome := by
  rw [rank?, Option.isSome_map]

/-- No source goes away. -/
theorem Gives.joined_of_joined (h : st.Gives F given st') {id : SourceId} (hid : (st.joined? id).isSome) :
    (st'.joined? id).isSome := by
  rw [← rank?_isSome] at hid
  obtain ⟨r, hr⟩ := Option.isSome_iff_exists.1 hid
  rw [← rank?_isSome, h.ranks id r hr]
  rfl

/-- First nothing is given, and then something. -/
private theorem Gives.trans (h : st.Gives F [] st') (h' : st'.Gives F given st'') : st.Gives F given st'' := by
  refine ⟨Nat.le_trans h.next_le h'.next_le, fun id hid => ?_, fun id r hr => h'.ranks id r (h.ranks id r hr),
    h'.joined, h'.given_lt, fun e'' he'' => ?_, fun e'' he'' => ?_⟩
  · rcases h'.source_lt id hid with hid | hid
    · exact (h.source_lt id hid).imp_right fun hlt => Nat.lt_of_lt_of_le hlt h'.next_le
    · exact .inr hid
  · rcases h'.engine_lt e'' he'' with hsome | hlt
    · obtain ⟨e', he'⟩ := Option.isSome_iff_exists.1 hsome
      exact (h.engine_lt e' he').imp_right fun hlt => Nat.lt_of_lt_of_le hlt h'.next_le
    · exact .inr hlt
  · obtain ⟨old, hold, hsources⟩ := h'.engine e'' he''
    refine ⟨old, ?_, hsources⟩
    -- The engine had the same sources before the first part, or it did not exist.
    rcases hold with ⟨e', he', rfl⟩ | ⟨hle, rfl⟩
    · obtain ⟨old, hold, heq⟩ := h.engine e' he'
      have heq : e'.sources = old := heq
      rwa [heq]
    · exact .inr ⟨Nat.le_trans h.next_le hle, rfl⟩

/-- The sources stay as they are, and so do those of the engine, unless it goes. -/
theorem gives_of_kept (hsources : st'.sources = st.sources) (hnext : st'.next = st.next)
    (hengine : ∀ e', st'.engine? F = some e' → ∃ e, st.engine? F = some e ∧ e'.sources = e.sources) :
    st.Gives F [] st' := by
  have hjoined (id : SourceId) : st'.joined? id = st.joined? id := by
    rw [joined?, hsources, joined?]
  refine ⟨Nat.le_of_eq hnext.symm, fun id hid => .inl ?_, fun id r hr => ?_, by simp, by simp,
    fun e' he' => .inl ?_, fun e' he' => ?_⟩
  · rwa [hjoined] at hid
  · rwa [rank?, hjoined]
  · obtain ⟨e, he, -⟩ := hengine e' he'
    rw [he]
    rfl
  · obtain ⟨e, he, heq⟩ := hengine e' he'
    exact ⟨e.sources, .inl ⟨e, he, rfl⟩, heq⟩

theorem Gives.refl (st : Store) (F : EngineId) : st.Gives F [] st := gives_of_kept rfl rfl fun e he => ⟨e, he, rfl⟩

theorem gives_setEngine (he : st.engine? G = some e) (hsources : e'.sources = e.sources) :
    st.Gives F [] (st.setEngine G e') := by
  refine gives_of_kept rfl rfl fun f hf => ?_
  rw [engine?_setEngine] at hf
  split at hf
  · rename_i hFG
    subst hFG
    obtain rfl := Option.some.inj hf
    exact ⟨e, he, hsources⟩
  · exact ⟨f, hf, rfl⟩

theorem gives_reportTo (st : Store) (F G : EngineId) : st.Gives F [] (st.reportTo G) := by
  unfold reportTo
  cases he : st.engine? G with
  | none => exact .refl st F
  | some e => exact gives_setEngine he rfl

theorem gives_report (st : Store) (F : EngineId) (j : Joined) : st.Gives F [] (st.report j) := by
  unfold report
  cases j.reporter with
  | none => exact .refl st F
  | some G => exact gives_reportTo st F G

/-! ### Sources keep their ranks -/

section

variable {id : SourceId} {j j' : Joined}

private theorem gives_setJoined (hj : st.joined? id = some j) (hrank : j'.source.rank = j.source.rank) :
    st.Gives F [] (st.setJoined id j') := by
  refine ⟨Nat.le_refl _, fun x hx => .inl ?_, fun x r hr => ?_, by simp, by simp, fun e' he' => .inl ?_,
    fun e' he' => ?_⟩
  · rw [joined?_setJoined] at hx
    split at hx
    · rename_i hxid
      rw [hxid, hj]
      rfl
    · exact hx
  · rw [rank?, joined?_setJoined]
    split
    · rename_i hxid
      rw [hxid, rank?, hj] at hr
      exact (congrArg some hrank).trans hr
    · exact hr
  · rw [engine?_setJoined] at he'
    rw [he']
    rfl
  · exact ⟨e'.sources, .inl ⟨e', he', rfl⟩, rfl⟩

private theorem rank_reload (read : FileReader) (vars : Entries) (source : Source) :
    (source.reload read vars).rank = source.rank := by
  unfold Source.reload
  split
  · rfl
  · rfl
  · split <;> rfl
  · split <;> rfl

theorem gives_setValue (hj : st.joined? id = some j) (key value : String) :
    st.Gives F [] (st.setValue id j key value) := by
  have hset : st.Gives F [] (st.setJoined id { j with source := j.source.set key value }) := gives_setJoined hj rfl
  unfold setValue
  dsimp only
  split
  · exact hset
  · exact hset.trans (gives_report _ F j)

theorem gives_removeKey (hj : st.joined? id = some j) (key : String) : st.Gives F [] (st.removeKey id j key) := by
  have hset : st.Gives F [] (st.setJoined id { j with source := j.source.remove key }) := gives_setJoined hj rfl
  unfold removeKey
  dsimp only
  split
  · exact hset
  · exact hset.trans (gives_report _ F j)

end

theorem gives_reloadSource (n : Noticed) (F : EngineId) (id : SourceId) :
    n.store.Gives F [] (reloadSource n id).store := by
  unfold reloadSource
  cases hj : n.store.joined? id with
  | none => exact .refl n.store F
  | some j => exact gives_setJoined hj (rank_reload _ _ _)

private theorem gives_foldl_reloadSource (n : Noticed) (F : EngineId) (ids : List SourceId) :
    n.store.Gives F [] (ids.foldl reloadSource n).store := by
  induction ids generalizing n with
  | nil => exact .refl n.store F
  | cons id ids ih => exact (gives_reloadSource n F id).trans (ih _)

theorem gives_reload (st : Store) (F G : EngineId) (e : Engine) : st.Gives F [] (st.reload G e).store :=
  (gives_foldl_reloadSource ⟨st, []⟩ F e.sources).trans (gives_reportTo _ F G)

theorem gives_close (he : st.engine? G = some e) : st.Gives F [] (st.close G e).2.store := by
  unfold close
  split
  · exact .refl st F
  · exact gives_setEngine he rfl

/-! ### New sources and engines -/

/-- A new source has a number of its own. -/
theorem gives_addSource (hlt : ∀ id, (st.joined? id).isSome → id < st.next) (source : Source) :
    st.Gives F [] (st.addSource source).2 := by
  refine ⟨Nat.le_succ _, fun id hid => ?_, fun id r hr => ?_, by simp, by simp, fun e' he' => .inl ?_,
    fun e' he' => ?_⟩
  · rw [joined?_addSource] at hid
    split at hid
    · rename_i heq
      exact .inr (heq ▸ Nat.lt_succ_self _)
    · exact .inl hid
  · have hne : id ≠ st.next := by
      intro heq
      rw [rank?] at hr
      obtain ⟨j, hj, -⟩ := Option.map_eq_some_iff.1 hr
      have := hlt id (by rw [hj]; rfl)
      rw [heq] at this
      exact Nat.lt_irrefl _ this
    rw [rank?, joined?_addSource, if_neg hne]
    exact hr
  · have he : st.engine? F = some e' := he'
    rw [he]
    rfl
  · exact ⟨e'.sources, .inl ⟨e', he', rfl⟩, rfl⟩

private theorem gives_newEngine (st : Store) (F : EngineId) (r : Registry) :
    st.Gives F [] ({ st with next := st.next + 1 }.setEngine st.next ⟨[], r, 0, st.now, false⟩) := by
  refine ⟨Nat.le_succ _, fun id hid => .inl hid, fun id r hr => hr, by simp, by simp, fun e' he' => ?_,
    fun e' he' => ?_⟩
  · rw [engine?_setEngine] at he'
    split at he'
    · rename_i heq
      exact .inr (heq ▸ Nat.lt_succ_self _)
    · left
      have he : st.engine? F = some e' := he'
      rw [he]
      rfl
  · rw [engine?_setEngine] at he'
    split at he'
    · rename_i heq
      obtain rfl := Option.some.inj he'
      exact ⟨[], .inr ⟨Nat.le_of_eq heq.symm, rfl⟩, rfl⟩
    · exact ⟨e'.sources, .inl ⟨e', he', rfl⟩, rfl⟩

private theorem gives_attach (n : Noticed) (F G : EngineId) (id : SourceId) :
    n.store.Gives F [] (attach G n id).store := by
  rcases attach_cases G n id with ⟨hstore, -⟩ | ⟨j, hj, hstore⟩
  · rw [hstore]
    exact .refl n.store F
  · rw [hstore]
    exact gives_setJoined hj rfl

private theorem gives_foldl_attach (n : Noticed) (F G : EngineId) (ids : List SourceId) :
    n.store.Gives F [] (ids.foldl (attach G) n).store := by
  induction ids generalizing n with
  | nil => exact .refl n.store F
  | cons id ids ih => exact (gives_attach n F G id).trans (ih _)

section

variable {ids : List SourceId} (hids : ∀ id ∈ ids, (st.joined? id).isSome)

include hids

private theorem gives_merge (he : st.engine? G = some e) (hG : F = G → G < st.next) (hne : ids.isEmpty = false) :
    st.Gives F (if F = G then ids else [])
      (st.setEngine G (st.advanced { e with sources := SourceSet.merge st.rankOf e.sources ids })) := by
  by_cases hFG : F = G
  · subst hFG
    rw [if_pos rfl]
    refine ⟨Nat.le_refl _, fun id hid => .inl hid, fun id r hr => hr, hids, fun _ => hG rfl,
      fun e' _ => .inl ?_, fun e' he' => ?_⟩
    · rw [he]
      rfl
    · rw [engine?_setEngine, if_pos rfl] at he'
      obtain rfl := Option.some.inj he'
      refine ⟨e.sources, .inl ⟨e, he, rfl⟩, ?_⟩
      rw [gain, hne]
      rfl
  · rw [if_neg hFG]
    refine gives_of_kept rfl rfl fun e' he' => ⟨e', ?_, rfl⟩
    rwa [engine?_setEngine, if_neg hFG] at he'

/-- Adding sources to an engine gives them to it, and none to others. -/
theorem gives_addSources (he : st.engine? G = some e) (hG : F = G → G < st.next) :
    st.Gives F (if F = G then ids else []) (st.addSources G ids).store := by
  by_cases hne : ids.isEmpty
  · rw [addSources, if_pos hne, List.isEmpty_iff.1 hne, ite_self]
    exact .refl st F
  · have hattached : st.Gives F [] (ids.foldl (attach G) ⟨st, []⟩).store := gives_foldl_attach ⟨st, []⟩ F G ids
    have hengine : (ids.foldl (attach G) ⟨st, []⟩).store.engine? G = some e :=
      (engine?_foldl_attach G ⟨st, []⟩ ids).trans he
    rw [addSources, if_neg hne]
    simp only [hengine]
    exact hattached.trans (gives_merge (fun id hid => hattached.joined_of_joined (hids id hid)) hengine
      (fun hFG => Nat.lt_of_lt_of_le (hG hFG) hattached.next_le) (by simpa using hne))

private theorem gives_populate (F : EngineId) (r : Registry) :
    st.Gives F (if F = st.next then ids else [])
      (({ st with next := st.next + 1 }.setEngine st.next ⟨[], r, 0, st.now, false⟩).addSources st.next ids).store := by
  have hnew := gives_newEngine st F r
  have hengine : ({ st with next := st.next + 1 }.setEngine st.next ⟨[], r, 0, st.now, false⟩).engine? st.next =
      some ⟨[], r, 0, st.now, false⟩ := by
    rw [engine?_setEngine, if_pos rfl]
  exact hnew.trans (gives_addSources (fun id hid => hnew.joined_of_joined (hids id hid)) hengine
    fun _ => Nat.lt_succ_self _)

/-- The sources that an engine is built with are given to it. -/
theorem gives_build (hlt : ∀ id, (st.joined? id).isSome → id < st.next) (F : EngineId)
    {environment : Bool} {pending : List Pending} {n : Noticed}
    (h : st.build ids environment pending = .ok (G, n)) :
    st.Gives F (if F = G then ids ++ (if environment then [st.next] else []) else []) n.store := by
  unfold build at h
  split at h
  · nomatch h
  · rename_i r hregistry
    cases environment with
    | false =>
      obtain ⟨rfl, rfl⟩ := Prod.mk.inj (Except.ok.inj h)
      have hids' : ∀ id ∈ ids ++ [], (st.joined? id).isSome := by simpa using hids
      exact gives_populate hids' F r
    | true =>
      obtain ⟨rfl, rfl⟩ := Prod.mk.inj (Except.ok.inj h)
      have hadded : st.Gives F [] (st.addSource (Source.ofEnvironment st.vars)).2 := gives_addSource hlt _
      have hids' : ∀ id ∈ ids ++ [st.next], ((st.addSource (Source.ofEnvironment st.vars)).2.joined? id).isSome := by
        intro id hid
        rcases List.mem_append.1 hid with hid | hid
        · exact hadded.joined_of_joined (hids id hid)
        · rw [joined?_addSource, if_pos (List.mem_singleton.1 hid)]
          rfl
      exact hadded.trans (gives_populate hids' F r)

end

/-- Engines may go afterwards. -/
theorem Gives.filter (h : st.Gives F given st') (keep : EngineId → Bool) :
    st.Gives F given { st' with engines := st'.engines.filter fun p => keep p.1 } :=
  ⟨h.next_le, h.source_lt, h.ranks, h.joined, h.given_lt, fun e he => h.engine_lt e (engine?_of_filter st' he),
    fun e he => h.engine e (engine?_of_filter st' he)⟩

end LayeredConfig.Store
