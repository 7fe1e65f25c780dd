import LayeredConfig.Proofs.Session.Effects
import LayeredConfig.Proofs.Store.Additions

/-!
# Engines hold the sources that they were given

Whatever happens in a session, the sources of an engine are those that it was given, in the order of the ranks that
they were made with.  A key gets its value from the first of them in this order that defines it.
-/

namespace LayeredConfig.Session

/-- The sources that several steps give to the engine `F`, with their ranks when they are given. -/
def gathered (F : EngineId) : Session → List Step → List (SourceId × Rank)
  | _, [] => []
  | s, taken :: rest =>
    let after := (s.step taken).2
    (s.given F taken).map (fun id => (id, after.store.rankOf id)) ++ gathered F after rest

/-- What every session keeps while the engine `F` is given the sources `added`. -/
structure Holds (F : EngineId) (added : List (SourceId × Rank)) (s : Session) : Prop where
  source_lt : ∀ id, (s.store.joined? id).isSome → id < s.store.next
  engine_lt : ∀ e, s.store.engine? F = some e → F < s.store.next
  named : ∀ p ∈ s.sourceNames, (s.store.joined? p.2).isSome
  unmade : s.store.next ≤ F → added = []
  ranks : ∀ p ∈ added, s.store.rank? p.1 = some p.2
  perm : ∀ e, s.store.engine? F = some e → e.sources.Perm (added.map Prod.fst)
  ordered : ∀ e, s.store.engine? F = some e →
    e.sources.Pairwise fun a b => (s.store.rankOf a).before (s.store.rankOf b)

variable {F : EngineId} {s : Session} {taken : Step} {st : Store} {names : List (String × SourceId)}
  {added : List (SourceId × Rank)}

theorem Holds.start (customTypes : List CustomType) (files : FileTree) (vars : Entries) :
    (start customTypes files vars).Holds F [] :=
  ⟨by simp [Session.start, Store.empty, Store.joined?], by simp [Session.start, Store.empty, Store.engine?],
    by simp [Session.start], fun _ => rfl, by simp, by simp [Session.start, Store.empty, Store.engine?],
    by simp [Session.start, Store.empty, Store.engine?]⟩

/-! ### One step -/

/-- Every step gives the engine what it is said to give. -/
private theorem Holds.gives (h : s.Holds F added) (heffect : Effect s taken st names) :
    s.store.Gives F (s.given F taken) st := by
  cases heffect with
  | nothing hidle =>
    rw [hidle.given F]
    exact .refl s.store F
  | world hidle files vars now =>
    rw [hidle.given F]
    exact Store.gives_of_kept rfl rfl fun e he => ⟨e, he, rfl⟩
  | source hsource => exact Store.gives_addSource h.source_lt _
  | set hid hj => exact Store.gives_setValue hj _ _
  | remove hid hj => exact Store.gives_removeKey hj _
  | report hid hj => exact Store.gives_report s.store F _
  | sourceReload hid hj => exact Store.gives_reloadSource ⟨s.store, []⟩ F _
  | build hbuild =>
    rw [given, builtWith, hbuild]
    exact Store.gives_build (joined_of_mem_named h.named) h.source_lt F hbuild
  | defaultEngine hdefault hbuild =>
    rw [given, hdefault, builtWith, hbuild]
    exact Store.gives_build (by simp) h.source_lt F hbuild
  | registry hidle he hr =>
    rw [hidle.given F]
    exact Store.gives_setEngine he rfl
  | register hG he => exact Store.gives_setEngine he rfl
  | @addSources name sources G e hG he =>
    have hgiven : s.given F (.addSources name sources) = if F = G then s.named sources else [] := by
      rw [given, hG]
      by_cases hFG : F = G
      · subst hFG
        rw [if_pos ⟨rfl, by rw [he]; rfl⟩, if_pos rfl]
      · rw [if_neg hFG, if_neg fun hand => hFG (Option.some.inj hand.1).symm]
    rw [hgiven]
    refine Store.gives_addSources (joined_of_mem_named h.named) he fun hFG => ?_
    subst hFG
    exact h.engine_lt e he
  | externalChange hG he => exact Store.gives_reportTo s.store F _
  | reload hG he => exact Store.gives_reload s.store F _ _
  | close hG he => exact Store.gives_close he
  | releaseDefault hdefault he => exact Store.gives_close he

/-- The named sources exist after a step, too. -/
private theorem Holds.named_effect (h : s.Holds F added) (heffect : Effect s taken st names) :
    ∀ p ∈ names, (st.joined? p.2).isSome := by
  have hgives := h.gives heffect
  have hold (p : String × SourceId) (hp : p ∈ s.sourceNames) : (st.joined? p.2).isSome :=
    hgives.joined_of_joined (h.named p hp)
  cases heffect with
  | source hsource =>
    intro p hp
    rcases mem_bind hp with rfl | hp
    · rw [Store.joined?_addSource, if_pos rfl]
      rfl
    · exact hold p hp
  | _ => exact hold

/-- The ranks of the sources that an engine was given stay. -/
private theorem Holds.rankOf_eq (h : s.Holds F added) (hgives : s.store.Gives F (s.given F taken) st) {id : SourceId}
    (hid : id ∈ added.map Prod.fst) : st.rankOf id = s.store.rankOf id := by
  obtain ⟨p, hp, rfl⟩ := List.mem_map.1 hid
  have hrank := h.ranks p hp
  rw [Store.rankOf_of_rank? hrank, Store.rankOf_of_rank? (hgives.ranks _ _ hrank)]

/-- The sources that an engine had are those that it was given before. -/
private theorem Holds.of_hasSources (h : s.Holds F added) {old : List SourceId} (hold : s.store.HasSources F old) :
    old.Perm (added.map Prod.fst) ∧ old.Pairwise fun a b => (s.store.rankOf a).before (s.store.rankOf b) := by
  rcases hold with ⟨e, he, rfl⟩ | ⟨hle, rfl⟩
  · exact ⟨h.perm e he, h.ordered e he⟩
  · rw [h.unmade hle]
    exact ⟨.refl _, .nil⟩

/-- The ranks of the sources that an engine had are those of before, so they are still in order. -/
theorem Holds.ordered_of_gives (h : s.Holds F added) (hgives : s.store.Gives F (s.given F taken) st)
    {old : List SourceId} (hold : s.store.HasSources F old) :
    old.Pairwise fun a b => (st.rankOf a).before (st.rankOf b) := by
  obtain ⟨hperm, hordered⟩ := h.of_hasSources hold
  refine hordered.imp_of_mem fun {a b} ha hb hab => ?_
  rwa [h.rankOf_eq hgives (hperm.mem_iff.1 ha), h.rankOf_eq hgives (hperm.mem_iff.1 hb)]

theorem Holds.gives_step (h : s.Holds F added) (taken : Step) :
    s.store.Gives F (s.given F taken) (s.step taken).2.store :=
  (h.gives (shows_perform s taken)).filter _

theorem Holds.step (h : s.Holds F added) (taken : Step) :
    (s.step taken).2.Holds F
      (added ++ (s.given F taken).map fun id => (id, (s.step taken).2.store.rankOf id)) := by
  have hgives := h.gives_step taken
  have hnamed : ∀ p ∈ (perform s taken).session.sourceNames, ((perform s taken).session.store.joined? p.2).isSome :=
    h.named_effect (shows_perform s taken)
  refine ⟨fun id hid => ?_, fun e he => ?_, hnamed, fun hle => ?_, fun p hp => ?_,
    fun e he => ?_, fun e he => ?_⟩
  · rcases hgives.source_lt id hid with hid | hlt
    · exact Nat.lt_of_lt_of_le (h.source_lt id hid) hgives.next_le
    · exact hlt
  · rcases hgives.engine_lt e he with hsome | hlt
    · obtain ⟨e', he'⟩ := Option.isSome_iff_exists.1 hsome
      exact Nat.lt_of_lt_of_le (h.engine_lt e' he') hgives.next_le
    · exact hlt
  -- An engine that is still to be made was given nothing.
  · have hnone : s.given F taken = [] := by
      by_cases hne : s.given F taken = []
      · exact hne
      · exact absurd (hgives.given_lt hne) (Nat.not_lt_of_le hle)
    rw [hnone, h.unmade (Nat.le_trans hgives.next_le hle)]
    rfl
  · rcases List.mem_append.1 hp with hp | hp
    · exact hgives.ranks _ _ (h.ranks p hp)
    · obtain ⟨id, hid, rfl⟩ := List.mem_map.1 hp
      have hjoined := hgives.joined id hid
      rw [← Store.rank?_isSome] at hjoined
      obtain ⟨r, hr⟩ := Option.isSome_iff_exists.1 hjoined
      rw [Store.rankOf_of_rank? hr, hr]
  · obtain ⟨old, hold, heq⟩ := hgives.engine e he
    have hperm := (h.of_hasSources hold).1
    have hadded : (added ++ (s.given F taken).map fun id => (id, (s.step taken).2.store.rankOf id)).map Prod.fst =
        added.map Prod.fst ++ s.given F taken := by
      rw [List.map_append, List.map_map]
      simp [Function.comp_def]
    rw [heq, hadded]
    exact (Store.perm_gain _ _ _).trans (hperm.append_right _)
  · obtain ⟨old, hold, heq⟩ := hgives.engine e he
    rw [heq]
    exact Store.pairwise_gain (h.ordered_of_gives hgives hold) _

/-! ### Runs -/

theorem Holds.after (h : s.Holds F added) (steps : List Step) :
    (s.after steps).Holds F (added ++ gathered F s steps) := by
  induction steps generalizing s added with
  | nil => simpa [Session.after, gathered] using h
  | cons taken rest ih =>
    have hrest := ih (h.step taken)
    rw [List.append_assoc] at hrest
    exact hrest

/-! ### Merged sources -/

/-- Ordered sources, which are those that were added, and which answer for their keys in this order. -/
structure Merged (sources : List (SourceId × Source)) (added : List (SourceId × Rank)) : Prop where
  perm : (sources.map fun p => (p.1, p.2.rank)).Perm added
  ordered : sources.Pairwise fun p q =>
    q.2.ordinal < p.2.ordinal ∨ p.2.ordinal = q.2.ordinal ∧ p.2.name ≤ q.2.name
  absent : ∀ key, SourceSet.lookup? (sources.map Prod.snd) key = none ↔ ∀ p ∈ sources, p.2.get? key = none
  present : ∀ key value source, SourceSet.lookup? (sources.map Prod.snd) key = some (value, source) →
    source ∈ sources.map Prod.snd ∧ source.get? key = some value ∧
      ∀ p ∈ sources, (p.2.get? key).isSome →
        p.2.ordinal < source.ordinal ∨ source.ordinal = p.2.ordinal ∧ source.name ≤ p.2.name

/-- Sources in the order of their ranks answer in this order. -/
private theorem merged_of_pairwise {sources : List (SourceId × Source)}
    (hperm : (sources.map fun p => (p.1, p.2.rank)).Perm added)
    (hordered : sources.Pairwise fun p q => p.2.rank.before q.2.rank) : Merged sources added := by
  refine ⟨hperm, hordered.imp fun hpq => Rank.before_iff.1 hpq, fun key => ?_, fun key value source hfound => ?_⟩
  · rw [SourceSet.lookup?_eq_none_iff, List.forall_mem_map]
  · obtain ⟨hmem, hvalue⟩ := SourceSet.mem_of_lookup? hfound
    refine ⟨hmem, hvalue, fun p hp hkey => ?_⟩
    have hordered' : (sources.map Prod.snd).Pairwise fun s t => s.rank.before t.rank := List.pairwise_map.2 hordered
    exact Rank.before_iff.1 (SourceSet.before_of_lookup? hordered' hfound (List.mem_map_of_mem hp) hkey)

private theorem filterMap_rank?_eq (h : ∀ p ∈ added, st.rank? p.1 = some p.2) :
    (added.map Prod.fst).filterMap (fun id => (st.rank? id).map fun r => (id, r)) = added := by
  induction added with
  | nil => rfl
  | cons p added ih =>
    rw [List.forall_mem_cons] at h
    rw [List.map_cons, List.filterMap_cons, h.1, ih h.2]
    rfl

/-- The sources of an engine with their ranks. -/
private theorem map_sourcesOf (st : Store) (e : Engine) :
    (st.sourcesOf e).map (fun p => (p.1, p.2.rank)) =
      e.sources.filterMap fun id => (st.rank? id).map fun r => (id, r) := by
  rw [Store.sourcesOf, List.map_filterMap]
  congr 1
  funext id
  rw [Store.rank?, Option.map_map, Option.map_map]
  rfl

theorem Holds.merged (h : s.Holds F added) {e : Engine} (he : s.store.engine? F = some e) :
    Merged (s.store.sourcesOf e) added := by
  apply merged_of_pairwise
  · rw [map_sourcesOf]
    have hperm := (h.perm e he).filterMap fun id => (s.store.rank? id).map fun r => (id, r)
    rwa [filterMap_rank?_eq h.ranks] at hperm
  · rw [Store.sourcesOf, List.pairwise_filterMap]
    refine (h.ordered e he).imp fun {a b} hab p hp q hq => ?_
    obtain ⟨i, hi, rfl⟩ := Option.map_eq_some_iff.1 hp
    obtain ⟨j, hj, rfl⟩ := Option.map_eq_some_iff.1 hq
    rwa [Store.rankOf, hi, Store.rankOf, hj] at hab

/-- Whatever steps a session takes, the sources of an engine are merged of those that it was given. -/
theorem merged_after (customTypes : List CustomType) (files : FileTree) (vars : Entries) (steps : List Step)
    {e : Engine} (he : ((start customTypes files vars).after steps).store.engine? F = some e) :
    Merged (((start customTypes files vars).after steps).store.sourcesOf e)
      (gathered F (start customTypes files vars) steps) := by
  have hstart : (start customTypes files vars).Holds F [] := .start customTypes files vars
  exact (hstart.after steps).merged he

/-- A source is added to an engine that has one already, and both change what they say about their ranks. -/
def reranking : List Step :=
  [.source "low" (.map "low" 100 (Entries.ofPairs [("key", "low")])),
   .source "high" (.map "high" 200 (Entries.ofPairs [("config_ordinal", "400"), ("key", "")])),
   .build "engine" ["low"] false [],
   .addSources "engine" ["high"],
   .set "low" "config_ordinal" "900",
   .remove "high" "config_ordinal"]

theorem merged_after_reranking :
    ∃ e, ((start [] FileTree.empty Entries.empty).after reranking).store.engine? 2 = some e ∧
      Merged (((start [] FileTree.empty Entries.empty).after reranking).store.sourcesOf e)
        [(0, ⟨100, "low"⟩), (1, ⟨400, "high"⟩)] := by
  have hgathered : gathered 2 (start [] FileTree.empty Entries.empty) reranking =
      [(0, ⟨100, "low"⟩), (1, ⟨400, "high"⟩)] := by decide +kernel
  rw [← hgathered]
  exact ⟨_, rfl, merged_after [] FileTree.empty Entries.empty reranking rfl⟩

end LayeredConfig.Session
