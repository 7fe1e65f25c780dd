import LayeredConfig.Proofs.Accessor.Nesting
import LayeredConfig.Proofs.Session.Handling
import LayeredConfig.Proofs.Session.Markers
import LayeredConfig.Proofs.Session.Merging
import LayeredConfig.Proofs.Store.Reporters

/-!
# Whom a change in memory reaches

Sources are shared between engines, but a source in memory reports to one engine only: the one that it joined last
(`joins_clocked`), even after that one is gone.  A change reaches this engine, and makes its accessors work out their
results again; the other engines that hold the source are not told, and go on with what they kept (`set_reaches`).
-/

namespace LayeredConfig.Session

open Accessor (kept?)

/-- Whether the engine `F` is the one that the source `id` joined last: some step gave it the source, and no later step
gave the source to any engine. -/
def JoinsLast (id : SourceId) (F : EngineId) : Session → List (Nat × Step) → Prop
  | _, [] => False
  | s, p :: rest =>
    let after := ((s.atClock p.1).step p.2).2
    JoinsLast id F after rest ∨ id ∈ (s.atClock p.1).given F p.2 ∧ ∀ G, ¬ JoinsLast id G after rest

/-- From one session to another a change reaches the engine `F`: its marker grows, and none of its accessors, nor of
those that their suffixes come from, answers from what it kept. -/
structure Reaches (s : Session) (F : EngineId) (t : Session) : Prop where
  marker : ∀ e e', s.store.engine? F = some e → t.store.engine? F = some e' → e.marker < e'.marker
  forgets : ∀ e', t.store.engine? F = some e' → ∀ p ∈ t.accessors, p.2.engine = F →
    ∀ a ∈ p.2.accessor.all, kept? (t.store.view e') a.settings a.memory = none

variable {s : Session} {F : EngineId} {id : SourceId} {taken : Step} {st : Store} {names : List (String × SourceId)}
  {added : List (SourceId × Rank)} {e e' : Engine}

/-! ### Who a source reports to -/

private theorem mem_builtWith {ids : List SourceId} {environment : Bool} {pending : List Store.Pending} {G : EngineId}
    {n : Store.Noticed} (h : s.store.build ids environment pending = .ok (G, n)) :
    id ∈ builtWith s.store F ids environment pending ↔
      F = G ∧ id ∈ ids ++ (if environment then [s.store.next] else []) := by
  rw [builtWith, h]
  dsimp only
  by_cases hFG : F = G
  · simp [hFG]
  · simp [hFG]

/-- A source joins the engine that a step gives it to. -/
private theorem Holds.joins (h : s.Holds F added) (heffect : Effect s taken st names) (id : SourceId) :
    s.store.Joins id (fun G => id ∈ s.given G taken) st := by
  have hnone {taken : Step} {st : Store} (hgiven : ∀ G, s.given G taken = [])
      (hjoins : s.store.Joins id (fun _ => False) st) : s.store.Joins id (fun G => id ∈ s.given G taken) st := by
    refine hjoins.congr fun G => ?_
    rw [hgiven G]
    simp
  cases heffect with
  | nothing h' => exact hnone h'.given (.refl s.store id)
  | world h' files vars now => exact hnone h'.given (Store.joins_of_sources rfl)
  | source hsource => exact hnone (fun _ => rfl) (Store.joins_addSource h.source_lt _)
  | set hid hj => exact hnone (fun _ => rfl) (Store.joins_setValue hj _ _)
  | remove hid hj => exact hnone (fun _ => rfl) (Store.joins_removeKey hj _)
  | report hid hj => exact hnone (fun _ => rfl) (Store.joins_report s.store id _)
  | sourceReload hid hj => exact hnone (fun _ => rfl) (Store.joins_reloadSource ⟨s.store, []⟩ id _)
  | build hbuild =>
    refine (Store.joins_build h.source_lt (joined_of_mem_named h.named) id hbuild).congr fun G => ?_
    exact (mem_builtWith hbuild).symm
  | defaultEngine hdefault hbuild =>
    refine (Store.joins_build h.source_lt (by simp) id hbuild).congr fun G => ?_
    rw [given, hdefault]
    exact (mem_builtWith hbuild).symm
  | registry h' he hr => exact hnone h'.given (Store.joins_of_sources rfl)
  | register hG he => exact hnone (fun _ => rfl) (Store.joins_of_sources rfl)
  | @addSources name sources G e hG he =>
    refine (Store.joins_addSources (joined_of_mem_named h.named) id G).congr fun H => ?_
    rw [given, hG]
    by_cases hHG : H = G
    · subst hHG
      simp [he]
    · simp [hHG, Ne.symm hHG]
  | externalChange hG he => exact hnone (fun _ => rfl) (Store.joins_reportTo s.store id _)
  | reload hG he => exact hnone (fun _ => rfl) (Store.joins_reload s.store id _ _)
  | close hG he => exact hnone (fun _ => rfl) (Store.joins_close s.store id _ _)
  | releaseDefault hdefault he => exact hnone (fun _ => rfl) (Store.joins_close s.store id _ _)

/-! ### What every history keeps -/

/-- What holds of every session that started without objects. -/
structure Tended (s : Session) : Prop where
  holds : ∀ F, ∃ added, s.Holds F added
  watched : ∀ F, ∃ past, s.Watched F past
  alive : ∀ F e, s.store.engine? F = some e → s.isAlive F
  held_lt : ∀ p ∈ s.accessors, p.2.engine < s.store.next
  remembers : ∀ p ∈ s.accessors, ∀ e, s.store.engine? p.2.engine = some e → p.2.accessor.RemembersUpTo e.marker

private theorem Tended.start (customTypes : List CustomType) (files : FileTree) (vars : Entries) :
    (start customTypes files vars).Tended :=
  ⟨fun _ => ⟨[], .start customTypes files vars⟩, fun _ => ⟨[], .start customTypes files vars⟩,
    by simp [engine?_start], by simp [Session.start], by simp [Session.start]⟩

private theorem Holds.atClock (h : s.Holds F added) (now : Nat) : (s.atClock now).Holds F added :=
  ⟨h.source_lt, h.engine_lt, h.named, h.unmade, h.ranks, h.perm, h.ordered⟩

private theorem Tended.atClock (h : s.Tended) (now : Nat) : (s.atClock now).Tended := by
  refine ⟨fun F => ?_, fun F => ?_, h.alive, h.held_lt, h.remembers⟩
  · obtain ⟨added, hadded⟩ := h.holds F
    exact ⟨added, hadded.atClock now⟩
  · obtain ⟨past, hpast⟩ := h.watched F
    exact ⟨past, hpast.atClock now⟩

/-- The marker of an engine that was there before a step has not fallen. -/
private theorem Tended.marker_le (h : s.Tended) (hlt : F < s.store.next)
    (he' : (s.step taken).2.store.engine? F = some e') : ∃ e, s.store.engine? F = some e ∧ e.marker ≤ e'.marker := by
  obtain ⟨past, hpast⟩ := h.watched F
  obtain ⟨reported, hmoves, -⟩ := moves_effect (F := F) (shows_perform s taken)
  rcases (hmoves.filter _).engine e' he' with ⟨e, he, hmoved, hkept⟩ | ⟨hle, -⟩
  · refine ⟨e, he, ?_⟩
    by_cases hreported : reported
    · rw [hmoved hreported]
      exact Marker.le_advance (hpast.limit e he)
    · exact Nat.le_of_eq (hkept hreported).symm
  · exact absurd hlt (Nat.not_lt_of_le hle)

private theorem Tended.step (h : s.Tended) (taken : Step) : (s.step taken).2.Tended := by
  have hnext : s.store.next ≤ (s.step taken).2.store.next := by
    obtain ⟨reported, hmoves, -⟩ := moves_effect (F := 0) (shows_perform s taken)
    exact hmoves.next_le
  -- An accessor reads an engine that was there before it.
  have hheld (p : String × Held) (hp : p ∈ (s.step taken).2.accessors) : p.2.engine < s.store.next := by
    obtain ⟨past, hpast⟩ := h.watched p.2.engine
    cases (handles_perform s taken).comesFrom p hp with
    | built he _ _ => exact hpast.engine_lt _ he
    | kept hq hengine _ _ => exact hengine ▸ h.held_lt _ hq
    | read hq hengine _ _ _ => exact hengine ▸ h.held_lt _ hq
    | rawRead hq hengine _ _ _ => exact hengine ▸ h.held_lt _ hq
  refine ⟨fun F => ?_, fun F => ?_, fun F e he => ?_, fun p hp => Nat.lt_of_lt_of_le (hheld p hp) hnext,
    fun p hp e' he' => ?_⟩
  · obtain ⟨added, hadded⟩ := h.holds F
    exact ⟨_, hadded.step taken⟩
  · obtain ⟨past, hpast⟩ := h.watched F
    exact ⟨_, hpast.step taken⟩
  · have hcollect : (s.step taken).2.store.engine? F = _ := engine?_collect_eq (perform s taken).session F
    rw [hcollect] at he
    split at he
    · rename_i halive
      exact halive
    · nomatch he
  · obtain ⟨e, he, hle⟩ := h.marker_le (hheld p hp) he'
    cases (handles_perform s taken).comesFrom p hp with
    | built _ _ ha => exact Accessor.remembersUpTo_of_build ha e'.marker
    | kept hq hengine _ ha =>
      rw [ha]
      exact (h.remembers _ hq e (hengine ▸ he)).mono hle
    | read hq hengine hf _ ha =>
      obtain rfl := Option.some.inj ((hengine ▸ he).symm.trans hf)
      have hread := (h.remembers _ hq e hf).optionalValue (v := s.store.view e) e.registry
      rw [ha]
      exact hread.mono hle
    | rawRead hq hengine hf _ ha =>
      obtain rfl := Option.some.inj ((hengine ▸ he).symm.trans hf)
      have hread := (h.remembers _ hq e hf).rawValue (v := s.store.view e) e.registry
      rw [ha]
      exact hread.mono hle

private theorem Tended.clocked (h : s.Tended) (history : List (Nat × Step)) : (s.clocked history).Tended :=
  clocked_induction (P := Tended) (fun _ now hs => hs.atClock now) (fun _ taken hs => hs.step taken) h history

/-- Along every history a source joins the engine that it joined last. -/
theorem Tended.joins_clocked (h : s.Tended) (id : SourceId) (history : List (Nat × Step)) :
    s.store.Joins id (fun G => JoinsLast id G s history) (s.clocked history).store := by
  induction history generalizing s with
  | nil => exact .refl s.store id
  | cons p rest ih =>
    have hclock := h.atClock p.1
    obtain ⟨added, hadded⟩ := hclock.holds 0
    have hstep : (s.atClock p.1).store.Joins id _ ((s.atClock p.1).step p.2).2.store :=
      (hadded.joins (shows_perform _ p.2) id).filter _
    have hnow : s.store.Joins id (fun _ => False) (s.atClock p.1).store := Store.joins_of_sources rfl
    exact (hstep.after hnow).trans (ih (hclock.step p.2))

/-- After a history from the start, a source in memory reports to the engine that it joined last. -/
private theorem reporter_iff_joinsLast (customTypes : List CustomType) (files : FileTree) (vars : Entries)
    (history : List (Nat × Step)) {j : Joined}
    (hj : ((start customTypes files vars).clocked history).store.joined? id = some j)
    (hmemory : j.source.backing = .memory) (F : EngineId) :
    j.reporter = some F ↔ JoinsLast id F (start customTypes files vars) history := by
  have hjoins := (Tended.start customTypes files vars).joins_clocked id history
  have honly : ((start customTypes files vars).clocked history).store.OnlyInMemory id := by
    intro i hi
    obtain rfl := Option.some.inj (hj.symm.trans hi)
    exact hmemory
  have hiff := hjoins.reporter honly F
  rw [Store.reporter?, hj] at hiff
  refine hiff.trans (or_iff_left ?_)
  rintro ⟨hstart, -⟩
  cases hstart

/-! ### Setting a value -/

/-- The session after setting a value of a source. -/
private theorem step_set {name : String} {j : Joined} (hid : s.sourceNames.lookup name = some id)
    (hj : s.store.joined? id = some j) (key value : String) :
    (s.step (.set name key value)).2 = (withStore s (s.store.setValue id j key value)).collect := by
  show (perform s (.set name key value)).session.collect = _
  rw [perform, withSource, hid]
  dsimp only
  rw [hj]
  rfl

section

variable {name : String} {j : Joined} (h : s.Tended) (hid : s.sourceNames.lookup name = some id)
  (hj : s.store.joined? id = some j) (hmemory : j.source.backing = .memory) (he : s.store.engine? F = some e)

include h hid hj hmemory he

/-- Setting a value tells one engine, and leaves the others as they are. -/
private theorem Tended.engine?_step_set (key value : String) :
    (s.step (.set name key value)).2.store.engine? F =
      if j.reporter = some F then some { e with marker := s.store.nextMarker e } else some e := by
  have halive : (withStore s (s.store.setValue id j key value)).isAlive F := h.alive F e he
  rw [step_set hid hj, engine?_collect_eq, if_pos halive]
  refine (Store.engine?_setValue hmemory s.store id key value F).trans ?_
  rw [he]
  rfl

private theorem Tended.reaches (hreporter : j.reporter = some F) (hlimit : e.marker < Marker.limit)
    (key value : String) : s.Reaches F (s.step (.set name key value)).2 := by
  have hengine := h.engine?_step_set hid hj hmemory he key value
  rw [if_pos hreporter] at hengine
  have hlt : e.marker < s.store.nextMarker e := Marker.lt_advance hlimit
  constructor
  · intro f f' hf hf'
    obtain rfl := Option.some.inj (he.symm.trans hf)
    obtain rfl := Option.some.inj (hengine.symm.trans hf')
    exact hlt
  · intro f' hf' p hp hpF
    obtain rfl := Option.some.inj (hengine.symm.trans hf')
    -- The accessors are those of before, and what they remember is from before the change.
    have hp' : p ∈ s.accessors := by
      rw [step_set hid hj] at hp
      exact hp
    have hremembers : p.2.accessor.RemembersUpTo e.marker := h.remembers p hp' e (by rw [hpF, he])
    exact hremembers.kept?_eq_none hlt

private theorem Tended.not_reaches (hreporter : j.reporter ≠ some F) (key value : String) :
    ¬ s.Reaches F (s.step (.set name key value)).2 := by
  have hengine := h.engine?_step_set hid hj hmemory he key value
  rw [if_neg hreporter] at hengine
  intro hreaches
  exact Nat.lt_irrefl _ (hreaches.marker e e he hengine)

end

/-- After any history, setting a value of a source in memory reaches the engine that the source joined last, and leaves
every other engine as it is.  So it reaches all engines that hold the source if and only if the source joined none of
them but the last. -/
theorem set_reaches (customTypes : List CustomType) (files : FileTree) (vars : Entries) (history : List (Nat × Step))
    (now : Nat) (name key value : String) (id : SourceId) (j : Joined) :
    let s := ((start customTypes files vars).clocked history).atClock now
    let t := (s.step (.set name key value)).2
    s.sourceNames.lookup name = some id → s.store.joined? id = some j → j.source.backing = .memory →
    (∀ F e, s.store.engine? F = some e → e.marker < Marker.limit) →
      (∀ F e, s.store.engine? F = some e → (t.store.engine? F).isSome ∧
        (JoinsLast id F (start customTypes files vars) history → s.Reaches F t) ∧
        (¬ JoinsLast id F (start customTypes files vars) history → t.store.engine? F = some e)) ∧
      ((∀ F e, s.store.engine? F = some e → id ∈ e.sources → s.Reaches F t) ↔
        ∀ F e, s.store.engine? F = some e → id ∈ e.sources →
          JoinsLast id F (start customTypes files vars) history) := by
  intro s t hid hj hmemory hlimit
  have htended : s.Tended := ((Tended.start customTypes files vars).clocked history).atClock now
  have hreporter (F : EngineId) : j.reporter = some F ↔ JoinsLast id F (start customTypes files vars) history :=
    reporter_iff_joinsLast customTypes files vars history hj hmemory F
  have hreaches (F : EngineId) (e : Engine) (he : s.store.engine? F = some e) :
      s.Reaches F t ↔ JoinsLast id F (start customTypes files vars) history := by
    rw [← hreporter F]
    by_cases hF : j.reporter = some F
    · exact iff_of_true (htended.reaches hid hj hmemory he hF (hlimit F e he) key value) hF
    · exact iff_of_false (htended.not_reaches hid hj hmemory he hF key value) hF
  constructor
  · intro F e he
    have hengine := htended.engine?_step_set hid hj hmemory he key value
    refine ⟨?_, (hreaches F e he).2, fun hlast => ?_⟩
    · rw [hengine]
      split
      · rfl
      · rfl
    · rw [hengine, if_neg fun hF => hlast ((hreporter F).1 hF)]
  · exact forall₂_congr fun F e => imp_congr_right fun he => imp_congr_right fun _ => hreaches F e he

/-- Two engines hold a source in memory, and an accessor of the first keeps a value of it for half a second. -/
def shared : List (Nat × Step) :=
  [(0, .source "memory" (.map "memory" 100 (Entries.ofPairs [("key", "old")]))),
   (0, .build "first" ["memory"] false []),
   (0, .build "second" ["memory"] false []),
   (0, .accessor "keeping" "first" "key" [.expands false, .lifetime ⟨0, 500000000, by decide, by decide⟩]),
   (0, .read "keeping" .value)]

/-- The first engine is not told of a change, and its accessor answers from what it kept. -/
theorem not_reaches_shared :
    let s := (start [] FileTree.empty Entries.empty).clocked shared
    let t := (s.step (.set "memory" "key" "new")).2
    ∃ e, s.store.engine? 1 = some e ∧ 0 ∈ e.sources ∧ t.store.engine? 1 = some e ∧
      (t.step (.rawValue "first" "key")).1.result = .ok (.text "new") ∧
      (t.step (.read "keeping" .value)).1.result = .ok (.value (.text "old")) := by
  refine ⟨_, rfl, by decide +kernel, rfl, ?_, ?_⟩
  · with_unfolding_all rfl
  · with_unfolding_all rfl

/-- The source of a single engine. -/
theorem set_reaches_single :
    let s := ((start [] FileTree.empty Entries.empty).clocked (shared.take 2)).atClock 0
    s.Reaches 1 (s.step (.set "memory" "key" "new")).2 := by
  intro s
  have hlimit : ∀ p ∈ s.store.engines, p.2.marker < Marker.limit := by decide +kernel
  have hset := set_reaches [] FileTree.empty Entries.empty (shared.take 2) 0 "memory" "key" "new" 0 _ rfl rfl rfl
    fun F e he => hlimit (F, e) (mem_of_lookup he)
  exact (hset.1 1 _ rfl).2.1 (.inl (.inr ⟨by decide +kernel, fun _ h => h⟩))

end LayeredConfig.Session
