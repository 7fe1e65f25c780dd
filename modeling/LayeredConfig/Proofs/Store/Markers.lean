import LayeredConfig.Proofs.Store.Access

/-!
# Markers of engines

What the operations on a store do to the marker of one engine.  `Moves` says of two stores that the marker moves on
once, or that it stays; an operation on sources alone leaves all markers as they are (`SameEngines`).
-/

namespace LayeredConfig.Store

/-- From one store to another the marker of the engine `F` moves on once if a change is `reported` to it, and stays
otherwise; or the engine is a new one. -/
structure Moves (st : Store) (F : EngineId) (reported : Prop) (st' : Store) : Prop where
  next_le : st.next ≤ st'.next
  engine : ∀ e', st'.engine? F = some e' →
    (∃ e, st.engine? F = some e ∧ (reported → e'.marker = st.nextMarker e) ∧ (¬ reported → e'.marker = e.marker)) ∨
      st.next ≤ F ∧ F < st'.next ∧ e'.marker ≤ Marker.limit

/-- Two stores with the same engines at the same time. -/
structure SameEngines (st st' : Store) : Prop where
  engines : st'.engines = st.engines
  now : st'.now = st.now
  next : st'.next = st.next

variable {st st' st'' : Store} {F G : EngineId} {e e' : Engine} {reported reported' : Prop}

/-! ### Operations that leave engines alone -/

theorem SameEngines.refl (st : Store) : st.SameEngines st := ⟨rfl, rfl, rfl⟩

private theorem SameEngines.trans (h : st.SameEngines st') (h' : st'.SameEngines st'') : st.SameEngines st'' :=
  ⟨h'.engines.trans h.engines, h'.now.trans h.now, h'.next.trans h.next⟩

theorem SameEngines.engine? (h : st.SameEngines st') (F : EngineId) : st'.engine? F = st.engine? F := by
  rw [Store.engine?, h.engines, Store.engine?]

private theorem SameEngines.nextMarker (h : st.SameEngines st') (e : Engine) : st'.nextMarker e = st.nextMarker e := by
  rw [Store.nextMarker, h.now, Store.nextMarker]

theorem sameEngines_foldl {f : Noticed → SourceId → Noticed}
    (hf : ∀ (n : Noticed) (id : SourceId), n.store.SameEngines (f n id).store) (ids : List SourceId) (n : Noticed) :
    n.store.SameEngines (ids.foldl f n).store := by
  induction ids generalizing n with
  | nil => exact .refl n.store
  | cons id ids ih => exact (hf n id).trans (ih (f n id))

private theorem sameEngines_attach (G : EngineId) (n : Noticed) (id : SourceId) :
    n.store.SameEngines (attach G n id).store := by
  unfold attach
  split
  · exact .refl n.store
  · dsimp only
    split
    · exact ⟨rfl, rfl, rfl⟩
    · exact .refl n.store

theorem sameEngines_reloadSource (n : Noticed) (id : SourceId) :
    n.store.SameEngines (reloadSource n id).store := by
  unfold reloadSource
  split
  · exact .refl n.store
  · exact ⟨rfl, rfl, rfl⟩

/-! ### Moving markers -/

theorem Moves.congr (h : st.Moves F reported st') (hiff : reported ↔ reported') : st.Moves F reported' st' := by
  rwa [← propext hiff]

/-- No marker moves as long as the engines keep theirs. -/
theorem moves_of_kept (hnext : st.next ≤ st'.next)
    (hengine : ∀ e', st'.engine? F = some e' → ∃ e, st.engine? F = some e ∧ e'.marker = e.marker) :
    st.Moves F False st' := by
  refine ⟨hnext, fun e' he' => ?_⟩
  obtain ⟨e, he, hmarker⟩ := hengine e' he'
  exact .inl ⟨e, he, False.elim, fun _ => hmarker⟩

theorem Moves.refl (st : Store) (F : EngineId) : st.Moves F False st :=
  moves_of_kept (Nat.le_refl _) fun e he => ⟨e, he, rfl⟩

/-- Taking engines away moves no marker. -/
theorem Moves.filter (h : st.Moves F reported st') (keep : EngineId → Bool) :
    st.Moves F reported { st' with engines := st'.engines.filter fun p => keep p.1 } :=
  ⟨h.next_le, fun e' he' => h.engine e' (engine?_of_filter st' he')⟩

/-- What happens before to the sources alone does not matter. -/
theorem SameEngines.moves (h : st.SameEngines st') (h' : st'.Moves F reported st'') : st.Moves F reported st'' := by
  refine ⟨?_, fun e he => ?_⟩
  · rw [← h.next]
    exact h'.next_le
  · rcases h'.engine e he with ⟨f, hf, hmoved, hkept⟩ | hnew
    · rw [h.engine?] at hf
      rw [h.nextMarker] at hmoved
      exact .inl ⟨f, hf, hmoved, hkept⟩
    · rw [h.next] at hnew
      exact .inr hnew

theorem moves_setEngine_of_marker (he : st.engine? G = some e) (hmarker : e'.marker = e.marker) :
    st.Moves F False (st.setEngine G e') := by
  refine moves_of_kept (Nat.le_refl _) fun f hf => ?_
  rw [engine?_setEngine] at hf
  split at hf
  · rename_i hFG
    subst hFG
    obtain rfl := Option.some.inj hf
    exact ⟨e, he, hmarker⟩
  · exact ⟨f, hf, rfl⟩

/-- A report moves the marker of the engine that it goes to, and no other. -/
private theorem moves_setEngine_of_report (he : st.engine? G = some e) (hmarker : e'.marker = st.nextMarker e) :
    st.Moves F (F = G) (st.setEngine G e') := by
  refine ⟨Nat.le_refl _, fun f hf => .inl ?_⟩
  rw [engine?_setEngine] at hf
  split at hf
  · rename_i hFG
    subst hFG
    obtain rfl := Option.some.inj hf
    exact ⟨e, he, fun _ => hmarker, fun hne => absurd rfl hne⟩
  · rename_i hFG
    exact ⟨f, hf, fun heq => absurd heq hFG, fun _ => rfl⟩

theorem moves_reportTo (st : Store) (F G : EngineId) : st.Moves F (F = G) (st.reportTo G) := by
  unfold reportTo
  cases he : st.engine? G with
  | none =>
    -- Nobody is told, and there is no marker that could have moved.
    refine ⟨Nat.le_refl _, fun f hf => .inl ⟨f, hf, fun hFG => ?_, fun _ => rfl⟩⟩
    rw [hFG, he] at hf
    nomatch hf
  | some e => exact moves_setEngine_of_report he rfl

/-- The engine that a change is reported to has the next marker from then on. -/
theorem engine?_reportTo_self (h : st.SameEngines st') (he : st.engine? F = some e) :
    (st'.reportTo F).engine? F = some { e with marker := st.nextMarker e } := by
  have he' : st'.engine? F = some e := (h.engine? F).trans he
  rw [reportTo, he', ← h.nextMarker]
  exact (engine?_setEngine st' F F _).trans (if_pos rfl)

theorem moves_report (st : Store) (F : EngineId) (j : Joined) : st.Moves F (j.reporter = some F) (st.report j) := by
  unfold report
  cases hreporter : j.reporter with
  | none => exact (Moves.refl st F).congr (by simp)
  | some G => exact (moves_reportTo st F G).congr (by simp [eq_comm])

/-- Changing what a source holds, which it may report. -/
private theorem moves_changeSource (st : Store) (F : EngineId) (id : SourceId) (j i : Joined) (silent : Prop)
    [Decidable silent] :
    st.Moves F (¬ silent ∧ j.reporter = some F)
      (if silent then st.setJoined id i else (st.setJoined id i).report j) := by
  have hset : st.SameEngines (st.setJoined id i) := ⟨rfl, rfl, rfl⟩
  split
  · rename_i hsilent
    exact (hset.moves (.refl _ F)).congr (by simp [hsilent])
  · rename_i hsilent
    exact (hset.moves (moves_report _ F j)).congr (by simp [hsilent])

theorem moves_setValue (st : Store) (F : EngineId) (id : SourceId) (j : Joined) (key value : String) :
    st.Moves F (isScript j.source = false ∧ j.reporter = some F) (st.setValue id j key value) :=
  (moves_changeSource st F id j _ _).congr (by simp)

theorem moves_removeKey (st : Store) (F : EngineId) (id : SourceId) (j : Joined) (key : String) :
    st.Moves F ((isScript j.source = false ∧ (j.source.entries.get? key).isSome) ∧ j.reporter = some F)
      (st.removeKey id j key) :=
  (moves_changeSource st F id j _ _).congr (by simp [Option.isSome_iff_ne_none])

theorem moves_reload (st : Store) (F G : EngineId) (e : Engine) : st.Moves F (F = G) (st.reload G e).store :=
  (sameEngines_foldl sameEngines_reloadSource e.sources ⟨st, []⟩).moves (moves_reportTo _ F G)

/-- Adding any sources is one change for the engine that they are added to. -/
theorem moves_addSources (st : Store) (F : EngineId) {ids : List SourceId} (he : st.engine? G = some e) :
    st.Moves F (F = G ∧ ids ≠ []) (st.addSources G ids).store := by
  unfold addSources
  split
  · rename_i hids
    exact (Moves.refl st F).congr (by simp_all)
  · rename_i hids
    have hsame : st.SameEngines (ids.foldl (attach G) ⟨st, []⟩).store :=
      sameEngines_foldl (sameEngines_attach G) ids ⟨st, []⟩
    have he' : (ids.foldl (attach G) ⟨st, []⟩).store.engine? G = some e := (hsame.engine? G).trans he
    dsimp only
    rw [he']
    exact (hsame.moves (moves_setEngine_of_report he' rfl)).congr (by simp_all)

theorem moves_close (he : st.engine? G = some e) : st.Moves F False (st.close G e).2.store := by
  unfold close
  split
  · exact .refl st F
  · exact moves_setEngine_of_marker he rfl

/-- The engine that is built is a new one, and the others are left alone. -/
private theorem moves_newEngine (st : Store) (F : EngineId) (registry : Registry) (ids : List SourceId) :
    st.Moves F False
      (({ st with next := st.next + 1 }.setEngine st.next ⟨[], registry, 0, st.now, false⟩).addSources
        st.next ids).store := by
  let made : Engine := ⟨[], registry, 0, st.now, false⟩
  have hmade : ({ st with next := st.next + 1 }.setEngine st.next made).engine? st.next = some made := by
    rw [engine?_setEngine, if_pos rfl]
  have hadded : ({ st with next := st.next + 1 }.setEngine st.next made).Moves F (F = st.next ∧ ids ≠ [])
      (({ st with next := st.next + 1 }.setEngine st.next made).addSources st.next ids).store :=
    moves_addSources _ F hmade
  refine ⟨Nat.le_of_succ_le hadded.next_le, fun e' he' => ?_⟩
  rcases hadded.engine e' he' with ⟨e, he, hmoved, hkept⟩ | ⟨hle, hlt, hlimit⟩
  · rw [engine?_setEngine] at he
    split at he
    · rename_i hF
      obtain rfl := Option.some.inj he
      refine .inr ⟨Nat.le_of_eq hF.symm, ?_, ?_⟩
      · rw [hF]
        exact hadded.next_le
      · by_cases hids : F = st.next ∧ ids ≠ []
        · rw [hmoved hids]
          exact Marker.advance_le_limit _ _
        · rw [hkept hids]
          exact Nat.zero_le _
    · rename_i hF
      exact .inl ⟨e, he, False.elim, fun _ => hkept fun hand => hF hand.1⟩
  · exact .inr ⟨Nat.le_of_succ_le hle, hlt, hlimit⟩

theorem moves_build {ids : List SourceId} {environment : Bool} {pending : List Pending} {n : Noticed}
    (h : st.build ids environment pending = .ok (G, n)) : st.Moves F False n.store := by
  unfold build at h
  split at h
  · nomatch h
  · rename_i registry hregistry
    cases environment with
    | false =>
      obtain ⟨-, rfl⟩ := Prod.mk.inj (Except.ok.inj h)
      exact moves_newEngine st F registry (ids ++ [])
    | true =>
      obtain ⟨-, rfl⟩ := Prod.mk.inj (Except.ok.inj h)
      have hbuilt := moves_newEngine (st.addSource (Source.ofEnvironment st.vars)).2 F registry (ids ++ [st.next])
      -- The source of the environment has a number of its own.
      refine ⟨Nat.le_of_succ_le hbuilt.next_le, fun e' he' => ?_⟩
      rcases hbuilt.engine e' he' with hold | ⟨hle, hnew⟩
      · exact .inl hold
      · exact .inr ⟨Nat.le_of_succ_le hle, hnew⟩

end LayeredConfig.Store
