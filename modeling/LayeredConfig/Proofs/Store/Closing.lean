import LayeredConfig.Proofs.Registry.Providers
import LayeredConfig.Proofs.Store.Changes

/-!
# The providers of an engine, and its closing

`Entrusts` says of two stores which providers an engine was given in between, and whether it was closed.  Only making
an engine, registering converters with it and closing it do any of this.  All other operations leave it alone
(`LeavesAlone`), whatever happens to its sources and its marker.
-/

namespace LayeredConfig.Store

/-- From one store to another the engine `F` is at most asked for converters, and stays open or closed, unless it
goes. -/
structure LeavesAlone (st : Store) (F : EngineId) (st' : Store) : Prop where
  next_le : st.next ≤ st'.next
  customTypes : st'.customTypes = st.customTypes
  engine : ∀ e', st'.engine? F = some e' →
    ∃ e, st.engine? F = some e ∧ e.registry.Asked e'.registry ∧ e'.closed = e.closed

/-- The engine `F` has a registry, and is closed or not; one that is yet to be made is open and has no providers. -/
def HasRegistry (st : Store) (F : EngineId) (r : Registry) (closed : Bool) : Prop :=
  (∃ e, st.engine? F = some e ∧ e.registry = r ∧ e.closed = closed) ∨ st.next ≤ F ∧ r.Plain ∧ closed = false

/-- From one store to another the engine `F` is given providers, and closed if `closes` holds. -/
structure Entrusts (st : Store) (F : EngineId) (providers : List (ValueType × Closing)) (closes : Prop)
    (st' : Store) : Prop where
  next_le : st.next ≤ st'.next
  engine_lt : ∀ e', st'.engine? F = some e' → (st.engine? F).isSome ∨ F < st'.next
  providers_lt : providers ≠ [] → F < st'.next
  engine : ∀ e', st'.engine? F = some e' → ∃ r closed, st.HasRegistry F r closed ∧
    r.Gains providers e'.registry ∧ (e'.closed = true ↔ closed = true ∨ closes)

/-- All that is left in the second store was in the first one, and no source has changed. -/
structure Untouched (st st' : Store) : Prop where
  sources : st'.sources = st.sources
  engines : ∀ F e, st'.engine? F = some e → st.engine? F = some e

variable {F G : EngineId} {st st' st'' : Store} {e e' : Engine} {providers : List (ValueType × Closing)} {closes : Prop}

/-! ### Operations that leave engines alone -/

theorem LeavesAlone.refl (st : Store) (F : EngineId) : st.LeavesAlone F st :=
  ⟨Nat.le_refl _, rfl, fun e he => ⟨e, he, .refl, rfl⟩⟩

private theorem LeavesAlone.trans (h : st.LeavesAlone F st') (h' : st'.LeavesAlone F st'') : st.LeavesAlone F st'' := by
  refine ⟨Nat.le_trans h.next_le h'.next_le, h'.customTypes.trans h.customTypes, fun e'' he'' => ?_⟩
  obtain ⟨e', he', hasked', hclosed'⟩ := h'.engine e'' he''
  obtain ⟨e, he, hasked, hclosed⟩ := h.engine e' he'
  exact ⟨e, he, hasked.trans hasked', hclosed'.trans hclosed⟩

theorem leavesAlone_of_engine (hnext : st'.next = st.next) (htypes : st'.customTypes = st.customTypes)
    (hengine : st'.engine? F = st.engine? F) : st.LeavesAlone F st' :=
  ⟨Nat.le_of_eq hnext.symm, htypes, fun e he => ⟨e, hengine ▸ he, .refl, rfl⟩⟩

private theorem leavesAlone_setJoined (st : Store) (F : EngineId) (id : SourceId) (j : Joined) :
    st.LeavesAlone F (st.setJoined id j) :=
  leavesAlone_of_engine rfl rfl rfl

private theorem leavesAlone_setEngine_of_ne (st : Store) (hne : F ≠ G) (e : Engine) :
    st.LeavesAlone F (st.setEngine G e) :=
  leavesAlone_of_engine rfl rfl (by rw [engine?_setEngine, if_neg hne])

theorem leavesAlone_setEngine (he : st.engine? G = some e)
    (hasked : e.registry.Asked e'.registry) (hclosed : e'.closed = e.closed) :
    st.LeavesAlone F (st.setEngine G e') := by
  refine ⟨Nat.le_refl _, rfl, fun f hf => ?_⟩
  rw [engine?_setEngine] at hf
  split at hf
  · rename_i hFG
    subst hFG
    obtain rfl := Option.some.inj hf
    exact ⟨e, he, hasked, hclosed⟩
  · exact ⟨f, hf, .refl, rfl⟩

theorem leavesAlone_reportTo (st : Store) (F G : EngineId) : st.LeavesAlone F (st.reportTo G) := by
  unfold reportTo
  cases he : st.engine? G with
  | none => exact .refl st F
  | some e => exact leavesAlone_setEngine he .refl rfl

theorem leavesAlone_report (st : Store) (F : EngineId) (j : Joined) : st.LeavesAlone F (st.report j) := by
  unfold report
  cases j.reporter with
  | none => exact .refl st F
  | some G => exact leavesAlone_reportTo st F G

theorem leavesAlone_setValue (st : Store) (F : EngineId) (id : SourceId) (j : Joined) (key value : String) :
    st.LeavesAlone F (st.setValue id j key value) := by
  have hset := leavesAlone_setJoined st F id { j with source := j.source.set key value }
  unfold setValue
  dsimp only
  split
  · exact hset
  · exact hset.trans (leavesAlone_report _ F j)

theorem leavesAlone_removeKey (st : Store) (F : EngineId) (id : SourceId) (j : Joined) (key : String) :
    st.LeavesAlone F (st.removeKey id j key) := by
  have hset := leavesAlone_setJoined st F id { j with source := j.source.remove key }
  unfold removeKey
  dsimp only
  split
  · exact hset
  · exact hset.trans (leavesAlone_report _ F j)

private theorem next_reloadSource (n : Noticed) (id : SourceId) : (reloadSource n id).store.next = n.store.next := by
  unfold reloadSource
  split <;> rfl

private theorem customTypes_reloadSource (n : Noticed) (id : SourceId) :
    (reloadSource n id).store.customTypes = n.store.customTypes := by
  unfold reloadSource
  split <;> rfl

theorem leavesAlone_reloadSource (n : Noticed) (F : EngineId) (id : SourceId) :
    n.store.LeavesAlone F (reloadSource n id).store := by
  refine leavesAlone_of_engine (next_reloadSource n id) (customTypes_reloadSource n id) ?_
  unfold reloadSource
  split <;> rfl

theorem leavesAlone_reload (st : Store) (F G : EngineId) (e : Engine) : st.LeavesAlone F (st.reload G e).store := by
  have hread (n : Noticed) (ids : List SourceId) : n.store.LeavesAlone F (ids.foldl reloadSource n).store := by
    induction ids generalizing n with
    | nil => exact .refl n.store F
    | cons id ids ih => exact (leavesAlone_reloadSource n F id).trans (ih _)
  exact (hread ⟨st, []⟩ e.sources).trans (leavesAlone_reportTo _ F G)

theorem leavesAlone_addSource (st : Store) (F : EngineId) (source : Source) :
    st.LeavesAlone F (st.addSource source).2 :=
  ⟨Nat.le_succ _, rfl, fun e he => ⟨e, he, .refl, rfl⟩⟩

private theorem leavesAlone_attach (n : Noticed) (F G : EngineId) (id : SourceId) :
    n.store.LeavesAlone F (attach G n id).store := by
  rcases attach_cases G n id with ⟨hstore, -⟩ | ⟨j, -, hstore⟩
  · rw [hstore]
    exact .refl n.store F
  · rw [hstore]
    exact leavesAlone_setJoined n.store F id _

theorem leavesAlone_addSources (st : Store) (F G : EngineId) (ids : List SourceId) :
    st.LeavesAlone F (st.addSources G ids).store := by
  have hattached (n : Noticed) (ids : List SourceId) : n.store.LeavesAlone F (ids.foldl (attach G) n).store := by
    induction ids generalizing n with
    | nil => exact .refl n.store F
    | cons id ids ih => exact (leavesAlone_attach n F G id).trans (ih _)
  unfold addSources
  split
  · exact .refl st F
  · dsimp only
    split
    · exact hattached ⟨st, []⟩ ids
    · rename_i e he
      exact (hattached ⟨st, []⟩ ids).trans (leavesAlone_setEngine he .refl rfl)

/-! ### What an engine is given -/

theorem LeavesAlone.entrusts (h : st.LeavesAlone F st') : st.Entrusts F [] False st' := by
  refine ⟨h.next_le, fun e' he' => .inl ?_, by simp, fun e' he' => ?_⟩
  · obtain ⟨e, he, -⟩ := h.engine e' he'
    rw [he]
    rfl
  · obtain ⟨e, he, hasked, hclosed⟩ := h.engine e' he'
    have hgains := Registry.gains_of_registered hasked.extends.registered
    exact ⟨e.registry, e.closed, .inl ⟨e, he, rfl, rfl⟩, hgains, by simp [hclosed]⟩

/-- An engine may be left alone before it is given something. -/
private theorem LeavesAlone.trans_entrusts (h : st.LeavesAlone F st') (h' : st'.Entrusts F providers closes st'') :
    st.Entrusts F providers closes st'' := by
  refine ⟨Nat.le_trans h.next_le h'.next_le, fun e'' he'' => ?_, h'.providers_lt, fun e'' he'' => ?_⟩
  · refine (h'.engine_lt e'' he'').imp_left fun hsome => ?_
    obtain ⟨e', he'⟩ := Option.isSome_iff_exists.1 hsome
    obtain ⟨e, he, -⟩ := h.engine e' he'
    rw [he]
    rfl
  · obtain ⟨r, closed, hold, hgains, hclosed⟩ := h'.engine e'' he''
    rcases hold with ⟨e', he', rfl, rfl⟩ | ⟨hle, hplain⟩
    · obtain ⟨e, he, hasked, hsame⟩ := h.engine e' he'
      have hearlier := Registry.gains_of_registered hasked.extends.registered
      exact ⟨e.registry, e.closed, .inl ⟨e, he, rfl, rfl⟩, hearlier.trans hgains, hsame ▸ hclosed⟩
    · exact ⟨r, closed, .inr ⟨Nat.le_trans h.next_le hle, hplain⟩, hgains, hclosed⟩

/-- An engine may be left alone after it was given something. -/
private theorem Entrusts.trans_leavesAlone (h : st.Entrusts F providers closes st') (h' : st'.LeavesAlone F st'') :
    st.Entrusts F providers closes st'' := by
  refine ⟨Nat.le_trans h.next_le h'.next_le, fun e'' he'' => ?_, fun hne => ?_, fun e'' he'' => ?_⟩
  · obtain ⟨e', he', -⟩ := h'.engine e'' he''
    exact (h.engine_lt e' he').imp_right fun hlt => Nat.lt_of_lt_of_le hlt h'.next_le
  · exact Nat.lt_of_lt_of_le (h.providers_lt hne) h'.next_le
  · obtain ⟨e', he', hasked, hsame⟩ := h'.engine e'' he''
    obtain ⟨r, closed, hold, hgains, hclosed⟩ := h.engine e' he'
    have hlater := hgains.trans (Registry.gains_of_registered hasked.extends.registered)
    rw [List.append_nil] at hlater
    exact ⟨r, closed, hold, hlater, hsame ▸ hclosed⟩

/-- A registry of an engine that has gained providers. -/
theorem entrusts_setRegistry (he : st.engine? G = some e) (hG : F = G → G < st.next) {r : Registry}
    (hr : e.registry.Gains providers r) :
    st.Entrusts F (if F = G then providers else []) False (st.setEngine G { e with registry := r }) := by
  by_cases hFG : F = G
  · subst hFG
    rw [if_pos rfl]
    refine ⟨Nat.le_refl _, fun _ _ => .inl (by rw [he]; rfl), fun _ => hG rfl, fun e' he' => ?_⟩
    rw [engine?_setEngine, if_pos rfl] at he'
    obtain rfl := Option.some.inj he'
    exact ⟨e.registry, e.closed, .inl ⟨e, he, rfl, rfl⟩, hr, by simp⟩
  · rw [if_neg hFG]
    exact (leavesAlone_setEngine_of_ne st hFG _).entrusts

theorem entrusts_close (he : st.engine? G = some e) : st.Entrusts F [] (F = G) (st.close G e).2.store := by
  by_cases hFG : F = G
  · subst hFG
    unfold close
    split
    · rename_i hclosed
      refine ⟨Nat.le_refl _, fun _ _ => .inl (by rw [he]; rfl), by simp, fun e' he' => ?_⟩
      obtain rfl := Option.some.inj (he.symm.trans he')
      exact ⟨e.registry, e.closed, .inl ⟨e, he, rfl, rfl⟩, Registry.gains_of_registered rfl, by simp [hclosed]⟩
    · refine ⟨Nat.le_refl _, fun _ _ => .inl (by rw [he]; rfl), by simp, fun e' he' => ?_⟩
      have he' : (st.setEngine F { e with closed := true }).engine? F = some e' := he'
      rw [engine?_setEngine, if_pos rfl] at he'
      obtain rfl := Option.some.inj he'
      exact ⟨e.registry, e.closed, .inl ⟨e, he, rfl, rfl⟩, Registry.gains_of_registered rfl, by simp⟩
  · have hother : st.LeavesAlone F (st.close G e).2.store := by
      unfold close
      split
      · exact .refl st F
      · exact leavesAlone_setEngine_of_ne st hFG _
    have hentrusts := hother.entrusts
    simpa [hFG] using hentrusts

/-- What an open engine lets happen when it is closed. -/
theorem close_of_open (st : Store) (F : EngineId) (hopen : e.closed = false) :
    st.close F e =
      let providers := e.registry.closings.mergeSort fun a b => a.1.label ≤ b.1.label
      let failures := converterFailures providers ++ sourceFailures (st.sourcesOf e)
      (if failures.isEmpty then .ok () else .error (.shutdown failures),
        ⟨st.setEngine F { e with closed := true },
          providers.map (fun p => Notice.converterClosed p.1) ++ closeNotices (st.sourcesOf e)⟩) := by
  rw [close, if_neg (by rw [hopen]; exact Bool.false_ne_true)]

/-! ### New engines -/

private theorem entrusts_newEngine (st : Store) (F : EngineId) {r r' : Registry} (hr : r.Plain)
    (hgains : r.Gains providers r') :
    st.Entrusts F (if F = st.next then providers else []) False
      ({ st with next := st.next + 1 }.setEngine st.next ⟨[], r', 0, st.now, false⟩) := by
  by_cases hF : F = st.next
  · rw [if_pos hF]
    refine ⟨Nat.le_succ _, fun _ _ => .inr (hF ▸ Nat.lt_succ_self _), fun _ => hF ▸ Nat.lt_succ_self _,
      fun e' he' => ?_⟩
    rw [engine?_setEngine, if_pos hF] at he'
    obtain rfl := Option.some.inj he'
    exact ⟨r, false, .inr ⟨Nat.le_of_eq hF.symm, hr, rfl⟩, hgains, by simp⟩
  · rw [if_neg hF]
    refine LeavesAlone.entrusts ⟨Nat.le_succ _, rfl, fun e' he' => ⟨e', ?_, .refl, rfl⟩⟩
    rwa [engine?_setEngine, if_neg hF] at he'

/-- The providers that an engine is built with are given to it. -/
theorem entrusts_build (F : EngineId) {ids : List SourceId} {environment : Bool} {pending : List Pending}
    {n : Noticed} (h : st.build ids environment pending = .ok (G, n)) :
    st.Entrusts F (if F = G then Registry.providersOf pending else []) False n.store := by
  unfold build at h
  split at h
  · nomatch h
  · rename_i r hregistry
    have hplain := Registry.plain_standard st.customTypes
    have hgains := Registry.gains_foldlM_register hregistry
    cases environment with
    | false =>
      obtain ⟨rfl, rfl⟩ := Prod.mk.inj (Except.ok.inj h)
      exact (entrusts_newEngine st F hplain hgains).trans_leavesAlone (leavesAlone_addSources _ F _ _)
    | true =>
      obtain ⟨rfl, rfl⟩ := Prod.mk.inj (Except.ok.inj h)
      refine (leavesAlone_addSource st F (Source.ofEnvironment st.vars)).trans_entrusts ?_
      exact (entrusts_newEngine _ F hplain hgains).trans_leavesAlone (leavesAlone_addSources _ F _ _)

/-- Engines may go afterwards. -/
theorem Entrusts.filter (h : st.Entrusts F providers closes st') (keep : EngineId → Bool) :
    st.Entrusts F providers closes { st' with engines := st'.engines.filter fun p => keep p.1 } :=
  ⟨h.next_le, fun e he => h.engine_lt e (engine?_of_filter st' he), h.providers_lt,
    fun e he => h.engine e (engine?_of_filter st' he)⟩

end LayeredConfig.Store
