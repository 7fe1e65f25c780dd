import LayeredConfig.Proofs.Session.Effects
import LayeredConfig.Proofs.Store.Markers

/-!
# The law of change markers

The marker of an engine tells its readers whether anything changed since they looked.  So every change that is reported
to the engine has to leave it with a marker that nobody has seen yet, whatever the clock does, and everything else has
to leave the marker alone, or nothing could ever be kept.  `Marks` says which steps report a change.  The key facts:
what one step does to the marker (`moves_step`), that markers never fall (`le_of_mem_seen`), and the law for every
history (`marker_law`).
-/

namespace LayeredConfig.Session

/-- The session when the clock reads `now`. -/
def atClock (s : Session) (now : Nat) : Session := { s with store := { s.store with now } }

/-- The session after steps that are taken at readings of the clock, which may stand still or go back. -/
def clocked (s : Session) (history : List (Nat × Step)) : Session :=
  history.foldl (fun s p => ((s.atClock p.1).step p.2).2) s

/-- What the clock does not change, and every step keeps, holds after every history. -/
theorem clocked_induction {P : Session → Prop} (hclock : ∀ s now, P s → P (s.atClock now))
    (hstep : ∀ s taken, P s → P (s.step taken).2) {s : Session} (hs : P s) (history : List (Nat × Step)) :
    P (s.clocked history) := by
  induction history generalizing s with
  | nil => exact hs
  | cons p rest ih => exact ih (hstep _ p.2 (hclock s p.1 hs))

/-- The marker of the engine `F`, while it exists. -/
def markers (s : Session) (F : EngineId) : List Nat := ((s.store.engine? F).map Engine.marker).toList

/-- The markers of the engine `F` that can be seen along a history, from its start to its end. -/
def seen (F : EngineId) : Session → List (Nat × Step) → List Nat
  | s, [] => s.markers F
  | s, p :: rest => s.markers F ++ seen F ((s.atClock p.1).step p.2).2 rest

/-- The source that a name stands for. -/
def sourceNamed? (s : Session) (name : String) : Option Joined :=
  (s.sourceNames.lookup name).bind s.store.joined?

/-- Whether a step is a change for the engine `F`: one that its owner reports, or one of a source that reports to it. -/
def Marks (s : Session) (F : EngineId) : Step → Prop
  | .addSources name sources => s.engineNames.lookup name = some F ∧ s.named sources ≠ []
  | .externalChange name | .reload name => s.engineNames.lookup name = some F
  | .set name _ _ => ∃ j, s.sourceNamed? name = some j ∧ Store.isScript j.source = false ∧ j.reporter = some F
  | .remove name key =>
    ∃ j, s.sourceNamed? name = some j ∧ (Store.isScript j.source = false ∧ (j.source.entries.get? key).isSome) ∧
      j.reporter = some F
  | .report name => ∃ j, s.sourceNamed? name = some j ∧ j.reporter = some F
  | _ => False

/-- Whether a step hands the new marker of the engine `F` back. -/
def HandsBack (s : Session) (F : EngineId) : Step → Prop
  | .externalChange name | .reload name => s.engineNames.lookup name = some F
  | _ => False

variable {s : Session} {F : EngineId} {taken : Step} {st : Store} {names : List (String × SourceId)} {e e' : Engine}

/-! ### One step -/

private theorem sourceNamed?_eq {name : String} {id : SourceId} {j : Joined} (hid : s.sourceNames.lookup name = some id)
    (hj : s.store.joined? id = some j) : s.sourceNamed? name = some j := by
  rw [sourceNamed?, hid, Option.bind_some, hj]

/-- The marker moves only when a step reports a change. -/
theorem moves_effect (heffect : Effect s taken st names) :
    ∃ reported, s.store.Moves F reported st ∧ (reported → s.Marks F taken) := by
  cases heffect with
  | nothing => exact ⟨False, .refl s.store F, False.elim⟩
  | world hidle files vars now =>
    exact ⟨False, Store.moves_of_kept (Nat.le_refl _) fun e he => ⟨e, he, rfl⟩, False.elim⟩
  | source hsource => exact ⟨False, Store.moves_of_kept (Nat.le_succ _) fun e he => ⟨e, he, rfl⟩, False.elim⟩
  | set hid hj =>
    exact ⟨_, Store.moves_setValue s.store F _ _ _ _, fun hreports => ⟨_, sourceNamed?_eq hid hj, hreports⟩⟩
  | remove hid hj =>
    exact ⟨_, Store.moves_removeKey s.store F _ _ _, fun hreports => ⟨_, sourceNamed?_eq hid hj, hreports⟩⟩
  | report hid hj =>
    exact ⟨_, Store.moves_report s.store F _, fun hreporter => ⟨_, sourceNamed?_eq hid hj, hreporter⟩⟩
  | @sourceReload name id j hid hj =>
    exact ⟨False, (Store.sameEngines_reloadSource ⟨s.store, []⟩ id).moves (.refl _ F), False.elim⟩
  | build hbuild => exact ⟨False, Store.moves_build hbuild, False.elim⟩
  | defaultEngine hdefault hbuild => exact ⟨False, Store.moves_build hbuild, False.elim⟩
  | registry hidle he hr => exact ⟨False, Store.moves_setEngine_of_marker he rfl, False.elim⟩
  | register hG he => exact ⟨False, Store.moves_setEngine_of_marker he rfl, False.elim⟩
  | addSources hG he =>
    refine ⟨_, Store.moves_addSources s.store F he, fun hadds => ?_⟩
    obtain ⟨rfl, hne⟩ := hadds
    exact ⟨hG, hne⟩
  | externalChange hG he =>
    refine ⟨_, Store.moves_reportTo s.store F _, fun hFG => ?_⟩
    subst hFG
    exact hG
  | reload hG he =>
    refine ⟨_, Store.moves_reload s.store F _ _, fun hFG => ?_⟩
    subst hFG
    exact hG
  | close hG he => exact ⟨False, Store.moves_close he, False.elim⟩
  | releaseDefault hdefault he => exact ⟨False, Store.moves_close he, False.elim⟩

private theorem withSource_of_named {name : String} {j : Joined} (h : s.sourceNamed? name = some j)
    (f : SourceId → Joined → Stepped) : ∃ id, withSource s name f = f id j := by
  obtain ⟨id, hid, hj⟩ := Option.bind_eq_some_iff.1 h
  refine ⟨id, ?_⟩
  rw [withSource, hid]
  dsimp only
  rw [hj]

theorem withEngine_of_named {name : String} (hF : s.engineNames.lookup name = some F)
    (he : s.store.engine? F = some e) (f : EngineId → Engine → Stepped) : withEngine s name f = f F e := by
  rw [withEngine, hF]
  dsimp only
  rw [he]

/-- A step that reports a change to an engine moves its marker on. -/
private theorem moves_of_marks (he : s.store.engine? F = some e) (h : s.Marks F taken) :
    s.store.Moves F True (perform s taken).session.store := by
  cases taken with
  | addSources name sources =>
    obtain ⟨hF, hne⟩ := h
    rw [perform, withEngine_of_named hF he]
    exact (Store.moves_addSources s.store F he).congr (iff_true_intro ⟨rfl, hne⟩)
  | externalChange name =>
    rw [perform, withEngine_of_named h he]
    exact (Store.moves_reportTo s.store F F).congr (iff_true_intro rfl)
  | reload name =>
    rw [perform, withEngine_of_named h he]
    exact (Store.moves_reload s.store F F e).congr (iff_true_intro rfl)
  | set name key value =>
    obtain ⟨j, hj, hreports⟩ := h
    obtain ⟨id, hfound⟩ := withSource_of_named hj fun id j => stepOfSource s id j (.set name key value)
    rw [perform, hfound]
    exact (Store.moves_setValue s.store F id j key value).congr (iff_true_intro hreports)
  | remove name key =>
    obtain ⟨j, hj, hreports⟩ := h
    obtain ⟨id, hfound⟩ := withSource_of_named hj fun id j => stepOfSource s id j (.remove name key)
    rw [perform, hfound]
    exact (Store.moves_removeKey s.store F id j key).congr (iff_true_intro hreports)
  | report name =>
    obtain ⟨j, hj, hreporter⟩ := h
    obtain ⟨id, hfound⟩ := withSource_of_named hj fun id j => stepOfSource s id j (.report name)
    have hreporting : isReporting s j = some true := by
      rw [isReporting, hreporter, Option.map_some, he]
      rfl
    rw [perform, hfound, stepOfSource, hreporting]
    exact (Store.moves_report s.store F j).congr (iff_true_intro hreporter)
  | _ => exact h.elim

/-- A step moves the marker of an engine on if it reports a change to it, and leaves it alone otherwise. -/
theorem moves_step (he : s.store.engine? F = some e) (taken : Step) :
    s.store.Moves F (s.Marks F taken) (s.step taken).2.store := by
  by_cases h : s.Marks F taken
  · exact ((moves_of_marks he h).congr (iff_of_true trivial h)).filter _
  · obtain ⟨reported, hmoves, hmarks⟩ := moves_effect (F := F) (shows_perform s taken)
    exact (hmoves.congr (iff_of_false (fun hreported => h (hmarks hreported)) h)).filter _

/-- Whoever reports a change to an engine is handed the marker that the engine has from then on. -/
private theorem handed_back (he : s.store.engine? F = some e) (h : s.HandsBack F taken) :
    (s.step taken).1.result = .ok (.flag true) := by
  cases taken with
  | externalChange name =>
    have hafter := Store.engine?_reportTo_self (.refl s.store) he
    show (perform s (.externalChange name)).result = _
    rw [perform, withEngine_of_named h he, stepOfEngine]
    have hmarker : markerOf (withStore s (s.store.reportTo F)) F = s.store.nextMarker e := by
      rw [markerOf, withStore, hafter]
    simp [answer, hmarker]
  | reload name =>
    have hread : s.store.SameEngines (e.sources.foldl Store.reloadSource ⟨s.store, []⟩).store :=
      Store.sameEngines_foldl Store.sameEngines_reloadSource e.sources ⟨s.store, []⟩
    have hafter := Store.engine?_reportTo_self hread he
    show (perform s (.reload name)).result = _
    rw [perform, withEngine_of_named h he, stepOfEngine]
    have hmarker : markerOf (withStore s (s.store.reload F e).store) F = s.store.nextMarker e := by
      rw [markerOf, withStore, Store.reload, hafter]
    simp [noticed, hmarker]
  | _ => exact h.elim

/-! ### Histories -/

/-- A session in which the marker of the engine `F` is at least as great as its markers in the `past`; before the engine
is made it has none. -/
structure Watched (F : EngineId) (past : List Nat) (s : Session) : Prop where
  unmade : s.store.next ≤ F → past = []
  engine_lt : ∀ e, s.store.engine? F = some e → F < s.store.next
  limit : ∀ e, s.store.engine? F = some e → e.marker ≤ Marker.limit
  past : ∀ e, s.store.engine? F = some e → ∀ m ∈ past, m ≤ e.marker

variable {past : List Nat}

theorem Watched.start (customTypes : List CustomType) (files : FileTree) (vars : Entries) :
    (start customTypes files vars).Watched F [] :=
  ⟨fun _ => rfl, by simp [engine?_start], by simp [engine?_start], by simp⟩

theorem Watched.atClock (h : s.Watched F past) (now : Nat) : (s.atClock now).Watched F past :=
  ⟨h.unmade, h.engine_lt, h.limit, h.past⟩

private theorem mem_markers {m : Nat} : m ∈ s.markers F ↔ ∃ e, s.store.engine? F = some e ∧ e.marker = m := by
  simp [markers]

/-- Markers never fall. -/
theorem Watched.step (h : s.Watched F past) (taken : Step) :
    (s.step taken).2.Watched F (past ++ (s.step taken).2.markers F) := by
  obtain ⟨reported, hmoves, -⟩ := moves_effect (F := F) (shows_perform s taken)
  have hstep : s.store.Moves F reported (s.step taken).2.store := hmoves.filter _
  have hlt : ∀ e', (s.step taken).2.store.engine? F = some e' → F < (s.step taken).2.store.next := by
    intro e' he'
    rcases hstep.engine e' he' with ⟨e, he, -⟩ | ⟨-, hlt, -⟩
    · exact Nat.lt_of_lt_of_le (h.engine_lt e he) hstep.next_le
    · exact hlt
  have hmarker : ∀ e', (s.step taken).2.store.engine? F = some e' →
      e'.marker ≤ Marker.limit ∧ ∀ m ∈ past, m ≤ e'.marker := by
    intro e' he'
    rcases hstep.engine e' he' with ⟨e, he, hmoved, hkept⟩ | ⟨hle, -, hlimit⟩
    · by_cases hreported : reported
      · rw [hmoved hreported]
        refine ⟨Marker.advance_le_limit _ _, fun m hm => ?_⟩
        exact Nat.le_trans (h.past e he m hm) (Marker.le_advance (h.limit e he))
      · rw [hkept hreported]
        exact ⟨h.limit e he, h.past e he⟩
    · rw [h.unmade hle]
      exact ⟨hlimit, by simp⟩
  refine ⟨fun hle => ?_, hlt, fun e' he' => (hmarker e' he').1, fun e' he' m hm => ?_⟩
  · have hnone : (s.step taken).2.markers F = [] := by
      rw [List.eq_nil_iff_forall_not_mem]
      intro m hm
      obtain ⟨e', he', -⟩ := mem_markers.1 hm
      exact absurd (hlt e' he') (Nat.not_lt_of_le hle)
    rw [h.unmade (Nat.le_trans hstep.next_le hle), hnone]
    rfl
  · rcases List.mem_append.1 hm with hm | hm
    · exact (hmarker e' he').2 m hm
    · obtain ⟨e'', he'', rfl⟩ := mem_markers.1 hm
      obtain rfl := Option.some.inj (he''.symm.trans he')
      exact Nat.le_refl _

private theorem Watched.clocked (h : s.Watched F (past ++ s.markers F)) (history : List (Nat × Step)) :
    (s.clocked history).Watched F (past ++ seen F s history) := by
  induction history generalizing s past with
  | nil => exact h
  | cons p rest ih =>
    have hstep := (h.atClock p.1).step p.2
    have hrest := ih hstep
    rw [List.append_assoc] at hrest
    exact hrest

/-- Whatever steps a session takes and whatever the clock reads, a change that is reported to an engine leaves it with a
marker greater than all that could be seen before, as long as the limit is not reached.  Who reports it from outside is
handed this marker.  All other steps leave the marker as it is. -/
theorem marker_law (customTypes : List CustomType) (files : FileTree) (vars : Entries) (history : List (Nat × Step))
    (now : Nat) (taken : Step) (F : EngineId) (e e' : Engine) :
    let s := ((start customTypes files vars).clocked history).atClock now
    s.store.engine? F = some e → (s.step taken).2.store.engine? F = some e' →
      (s.Marks F taken → e.marker < Marker.limit → ∀ m ∈ seen F (start customTypes files vars) history, m < e'.marker) ∧
      (s.HandsBack F taken → (s.step taken).1.result = .ok (.flag true) ∧ s.store.nextMarker e = e'.marker) ∧
      (¬ s.Marks F taken → e'.marker = e.marker) := by
  intro s he he'
  have hstart : (start customTypes files vars).Watched F ([] ++ (start customTypes files vars).markers F) :=
    .start customTypes files vars
  have hwatched : s.Watched F (seen F (start customTypes files vars) history) := (hstart.clocked history).atClock now
  rcases (moves_step he taken).engine e' he' with ⟨f, hf, hmoved, hkept⟩ | ⟨hle, -⟩
  · obtain rfl := Option.some.inj (he.symm.trans hf)
    refine ⟨fun hmarks hlimit m hm => ?_, fun hback => ?_, hkept⟩
    · rw [hmoved hmarks]
      exact Nat.lt_of_le_of_lt (hwatched.past e he m hm) (Marker.lt_advance hlimit)
    · have hmarks : s.Marks F taken := by
        cases taken with
        | externalChange | reload => exact hback
        | _ => exact hback.elim
      exact ⟨handed_back he hback, (hmoved hmarks).symm⟩
  · exact absurd (hwatched.engine_lt e he) (Nat.not_lt_of_le hle)

/-- The clock is set back while a source in memory reports its changes. -/
def setBack : List (Nat × Step) :=
  [(0, .source "memory" (.map "memory" 100 (Entries.ofPairs [("key", "old")]))),
   (5, .build "engine" ["memory"] false []),
   (9, .set "memory" "key" "new"),
   (2, .remove "memory" "key")]

theorem marker_law_setBack :
    let s := ((start [] FileTree.empty Entries.empty).clocked setBack).atClock 0
    ∃ e', (s.step (.externalChange "engine")).2.store.engine? 1 = some e' ∧ e'.marker = 6 ∧
      ∀ m ∈ seen 1 (start [] FileTree.empty Entries.empty) setBack, m < e'.marker := by
  intro s
  have hlaw := marker_law [] FileTree.empty Entries.empty setBack 0 (.externalChange "engine") 1 _ _ rfl rfl
  exact ⟨_, rfl, rfl, hlaw.1 rfl (by decide +kernel)⟩

end LayeredConfig.Session
