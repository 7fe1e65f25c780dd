import LayeredConfig.Proofs.Store.Additions
import Mathlib.Data.List.Basic

/-!
# What a new engine holds

Adding sources to an engine leaves every source as it is and puts its number where the rank belongs.  So an engine
that was built holds the sources it was built of and, if asked for, the environment, in the order of their ranks
(`exists_build`).
-/

namespace LayeredConfig.Store

/-- The source under a number. -/
def source? (st : Store) (id : SourceId) : Option Source := (st.joined? id).map Joined.source

variable {F : EngineId} {st : Store} {e : Engine} {id : SourceId} {source : Source} {ids : List SourceId}

theorem source?_addSource (st : Store) (source : Source) (x : SourceId) :
    (st.addSource source).2.source? x = if x = st.next then some source else st.source? x := by
  rw [source?, joined?_addSource]
  split <;> rfl

private theorem source?_attach (F : EngineId) (n : Noticed) (id x : SourceId) :
    (attach F n id).store.source? x = n.store.source? x := by
  rcases attach_cases F n id with ⟨hstore, -⟩ | ⟨j, hj, hstore⟩
  · rw [hstore]
  · rw [hstore, source?, joined?_setJoined]
    split
    · rename_i heq
      rw [heq, source?, hj]
      rfl
    · rfl

private theorem source?_foldl_attach (F : EngineId) (n : Noticed) (ids : List SourceId) (x : SourceId) :
    (ids.foldl (attach F) n).store.source? x = n.store.source? x := by
  induction ids generalizing n with
  | nil => rfl
  | cons id ids ih => exact (ih _).trans (source?_attach F n id x)

theorem source?_addSources (st : Store) (F : EngineId) (ids : List SourceId) (x : SourceId) :
    (st.addSources F ids).store.source? x = st.source? x := by
  unfold addSources
  split
  · rfl
  · have hattached := source?_foldl_attach F ⟨st, []⟩ ids x
    dsimp only
    split
    · exact hattached
    · exact hattached

/-- The engine that sources are added to has them among its own ones. -/
private theorem engine?_addSources (he : st.engine? F = some e) (ids : List SourceId) :
    ∃ e', (st.addSources F ids).store.engine? F = some e' ∧
      e'.sources = gain (st.addSources F ids).store.rankOf e.sources ids := by
  unfold addSources
  split
  · rename_i hempty
    refine ⟨e, he, ?_⟩
    rw [gain, if_pos hempty]
  · rename_i hne
    have hengine : (ids.foldl (attach F) ⟨st, []⟩).store.engine? F = some e :=
      (engine?_foldl_attach F ⟨st, []⟩ ids).trans he
    simp only [hengine]
    refine ⟨_, by rw [engine?_setEngine, if_pos rfl], ?_⟩
    rw [gain, if_neg hne]
    rfl

private theorem rankOf_of_source? (h : st.source? id = some source) : st.rankOf id = source.rank := by
  obtain ⟨j, hj, rfl⟩ := Option.map_eq_some_iff.1 h
  rw [rankOf, hj]

private theorem map_sourcesOf (st : Store) (e : Engine) :
    (st.sourcesOf e).map Prod.snd = e.sources.filterMap st.source? := by
  rw [sourcesOf, List.map_filterMap]
  congr 1
  funext id
  rw [source?, Option.map_map]
  rfl

/-- Sources in the order of their numbers' ranks are in the order of their ranks. -/
private theorem pairwise_sourcesOf (h : e.sources.Pairwise fun a b => (st.rankOf a).before (st.rankOf b)) :
    ((st.sourcesOf e).map Prod.snd).Pairwise fun a b => a.rank.before b.rank := by
  rw [map_sourcesOf, List.pairwise_filterMap]
  refine h.imp fun hbefore s hs t ht => ?_
  rwa [rankOf_of_source? hs, rankOf_of_source? ht] at hbefore

/-- An engine of a store holds these sources, in the order of their ranks. -/
structure HoldsExactly (st : Store) (F : EngineId) (sources : List Source) (e : Engine) : Prop where
  engine : st.engine? F = some e
  perm : ((st.sourcesOf e).map Prod.snd).Perm sources
  ordered : ((st.sourcesOf e).map Prod.snd).Pairwise fun a b => a.rank.before b.rank

/-- A new engine holds the sources that are added to it. -/
private theorem holdsExactly_populate (st : Store) (r : Registry) (ids : List SourceId) :
    ∃ e, HoldsExactly
      (({ st with next := st.next + 1 }.setEngine st.next ⟨[], r, 0, st.now, false⟩).addSources st.next ids).store
      st.next (ids.filterMap st.source?) e := by
  have hnew : ({ st with next := st.next + 1 }.setEngine st.next ⟨[], r, 0, st.now, false⟩).engine? st.next =
      some ⟨[], r, 0, st.now, false⟩ := by
    rw [engine?_setEngine, if_pos rfl]
  obtain ⟨e, he, hsources⟩ := engine?_addSources hnew ids
  refine ⟨e, he, ?_, ?_⟩
  · rw [map_sourcesOf, hsources, funext (source?_addSources _ st.next ids)]
    exact (perm_gain _ [] ids).filterMap _
  · apply pairwise_sourcesOf
    rw [hsources]
    exact pairwise_gain .nil ids

/-- The source of the environment, if it is asked for. -/
def environmentSources (vars : Entries) (environment : Bool) : List Source :=
  if environment then [Source.ofEnvironment vars] else []

/-- Building an engine of sources that are there succeeds, and the engine holds them and the environment. -/
theorem exists_build (hids : ∀ id ∈ ids, id < st.next) (environment : Bool) :
    ∃ F n e, st.build ids environment [] = .ok (F, n) ∧
      n.store.HoldsExactly F (ids.filterMap st.source? ++ environmentSources st.vars environment) e := by
  cases environment with
  | false =>
    obtain ⟨e, he⟩ := holdsExactly_populate st (Registry.standard st.customTypes) (ids ++ [])
    refine ⟨_, _, e, rfl, ?_⟩
    rwa [List.filterMap_append] at he
  | true =>
    obtain ⟨e, he⟩ := holdsExactly_populate (st.addSource (Source.ofEnvironment st.vars)).2
      (Registry.standard st.customTypes) (ids ++ [st.next])
    refine ⟨_, _, e, rfl, ?_⟩
    -- The environment gets a number of its own.
    have hfirst : ids.filterMap (st.addSource (Source.ofEnvironment st.vars)).2.source? = ids.filterMap st.source? := by
      apply List.filterMap_congr
      intro id hid
      rw [source?_addSource, if_neg (Nat.ne_of_lt (hids id hid))]
    have hlast : (st.addSource (Source.ofEnvironment st.vars)).2.source? st.next =
        some (Source.ofEnvironment st.vars) := by
      rw [source?_addSource, if_pos rfl]
    rw [List.filterMap_append, hfirst, List.filterMap_cons, hlast] at he
    exact he

end LayeredConfig.Store
