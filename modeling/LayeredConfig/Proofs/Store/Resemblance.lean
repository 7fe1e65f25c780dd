import LayeredConfig.Proofs.Store.Access

/-!
# Stores whose engines have other registries

Two stores may differ in the registries of their engines only (`Resembles`).  Whatever happens to sources and engines
happens to both of them in the same way, since it depends on no registry.
-/

namespace LayeredConfig

/-- An engine that is in both stores, with registries that are related, or in neither of them. -/
inductive Engine.Resembles (P : Registry → Registry → Prop) : Option Engine → Option Engine → Prop
  | absent : Resembles P none none
  | present {e : Engine} {r : Registry} (h : P e.registry r) : Resembles P (some e) (some { e with registry := r })

namespace Store

/-- Stores that differ at most in the registries of their engines, which are related. -/
inductive Resembles (P : EngineId → Registry → Registry → Prop) (st : Store) : Store → Prop
  | mk {engines : List (EngineId × Engine)} (h : ∀ G, Engine.Resembles (P G) (st.engine? G) (engines.lookup G)) :
    Resembles P st { st with engines }

variable {P : EngineId → Registry → Registry → Prop} {st st' : Store} {G : EngineId} {e : Engine} {r : Registry}
  {id : SourceId} {j : Joined} {n n' : Noticed}

theorem Resembles.engine? (h : st.Resembles P st') (G : EngineId) :
    Engine.Resembles (P G) (st.engine? G) (st'.engine? G) := by
  cases h with
  | mk h => exact h G

theorem Resembles.joined? (h : st.Resembles P st') (id : SourceId) : st'.joined? id = st.joined? id := by
  cases h with
  | mk h => rfl

private theorem Resembles.now (h : st.Resembles P st') : st'.now = st.now := by
  cases h with
  | mk h => rfl

/-- What is seen of an engine does not depend on its registry. -/
theorem Resembles.view (h : st.Resembles P st') (e : Engine) (r : Registry) :
    st'.view { e with registry := r } = st.view e := by
  cases h with
  | mk h => rfl

theorem Resembles.notices (h : st.Resembles P st') (e : Engine) (r : Registry) :
    st'.notices { e with registry := r } = st.notices e := by
  cases h with
  | mk h => rfl

/-! ### Putting something in -/

/-- The world around the engines changes in the same way. -/
theorem Resembles.world (h : st.Resembles P st') (files : FileTree → FileTree) (vars : Entries → Entries)
    (now : Nat → Nat) :
    Resembles P { st with files := files st.files, vars := vars st.vars, now := now st.now }
      { st' with files := files st'.files, vars := vars st'.vars, now := now st'.now } := by
  cases h with
  | mk h => exact .mk h

private theorem Resembles.setJoined (h : st.Resembles P st') (id : SourceId) (j : Joined) :
    (st.setJoined id j).Resembles P (st'.setJoined id j) := by
  cases h with
  | mk h => exact .mk h

theorem Resembles.addSource (h : st.Resembles P st') (source : Source) :
    (st.addSource source).2.Resembles P (st'.addSource source).2 := by
  cases h with
  | mk h => exact .mk h

/-- The new source has the same number in both stores. -/
theorem Resembles.id_addSource (h : st.Resembles P st') (source : Source) :
    (st'.addSource source).1 = (st.addSource source).1 := by
  cases h with
  | mk h => rfl

/-- An engine gets registries that may be related in another way. -/
theorem Resembles.setEngine_of_imp {Q : EngineId → Registry → Registry → Prop} (h : st.Resembles P st')
    (hothers : ∀ x, x ≠ G → ∀ q q', P x q q' → Q x q q') (hQ : Q G e.registry r) :
    (st.setEngine G e).Resembles Q (st'.setEngine G { e with registry := r }) := by
  cases h with
  | mk h =>
    refine .mk fun x => ?_
    rw [engine?_setEngine, update, lookup_put]
    split
    · rename_i hx
      exact hx ▸ .present hQ
    · rename_i engines hx
      have hengine := h x
      generalize st.engine? x = o, engines.lookup x = o' at hengine
      cases hengine with
      | absent => exact .absent
      | present hP => exact .present (hothers x hx _ _ hP)

theorem Resembles.setEngine (h : st.Resembles P st') (hP : P G e.registry r) :
    (st.setEngine G e).Resembles P (st'.setEngine G { e with registry := r }) :=
  h.setEngine_of_imp (fun _ _ _ _ hx => hx) hP

/-- Engines are taken away in both stores. -/
theorem Resembles.filter (h : st.Resembles P st') (keep : EngineId → Bool) :
    Resembles P { st with engines := st.engines.filter fun p => keep p.1 }
      { st' with engines := st'.engines.filter fun p => keep p.1 } := by
  cases h with
  | mk h =>
    refine .mk fun x => ?_
    rw [Store.engine?, lookup_filter_key, lookup_filter_key]
    split
    · exact h x
    · exact .absent

/-! ### Reports -/

theorem Resembles.reportTo (h : st.Resembles P st') (G : EngineId) :
    (st.reportTo G).Resembles P (st'.reportTo G) := by
  have hengine := h.engine? G
  unfold Store.reportTo
  generalize hst : st.engine? G = o, hst' : st'.engine? G = o' at hengine
  cases hengine with
  | absent => exact h
  | @present e r hP =>
    have hadvanced : st'.advanced { e with registry := r } = { st.advanced e with registry := r } := by
      rw [advanced, advanced, nextMarker, nextMarker, h.now]
    dsimp only
    rw [hadvanced]
    exact h.setEngine hP

theorem Resembles.report (h : st.Resembles P st') (j : Joined) : (st.report j).Resembles P (st'.report j) := by
  unfold Store.report
  split
  · exact h.reportTo _
  · exact h

theorem Resembles.setValue (h : st.Resembles P st') (id : SourceId) (j : Joined) (key value : String) :
    (st.setValue id j key value).Resembles P (st'.setValue id j key value) := by
  have hset := h.setJoined id { j with source := j.source.set key value }
  unfold Store.setValue
  dsimp only
  split
  · exact hset
  · exact hset.report j

theorem Resembles.removeKey (h : st.Resembles P st') (id : SourceId) (j : Joined) (key : String) :
    (st.removeKey id j key).Resembles P (st'.removeKey id j key) := by
  have hset := h.setJoined id { j with source := j.source.remove key }
  unfold Store.removeKey
  dsimp only
  split
  · exact hset
  · exact hset.report j

/-! ### Reloading and adding sources -/

theorem Resembles.reloadSource (h : n.store.Resembles P n'.store) (id : SourceId) :
    (Store.reloadSource n id).store.Resembles P (Store.reloadSource n' id).store := by
  have hset (j : Joined) := h.setJoined id j
  unfold Store.reloadSource
  rw [h.joined?]
  cases hj : n.store.joined? id with
  | none => exact h
  | some j =>
    dsimp only
    obtain ⟨st', notices⟩ := n'
    dsimp only at h hset ⊢
    cases h with
    | mk h => exact hset _

private theorem Resembles.foldl {f : Noticed → SourceId → Noticed}
    (hf : ∀ n n' id, n.store.Resembles P n'.store → (f n id).store.Resembles P (f n' id).store)
    (h : n.store.Resembles P n'.store) (ids : List SourceId) :
    (ids.foldl f n).store.Resembles P (ids.foldl f n').store := by
  induction ids generalizing n n' with
  | nil => exact h
  | cons id ids ih => exact ih (hf n n' id h)

theorem Resembles.reload (h : st.Resembles P st') (G : EngineId) (e : Engine) (r : Registry) :
    (st.reload G e).store.Resembles P (st'.reload G { e with registry := r }).store := by
  have hstart : (Noticed.mk st []).store.Resembles P (Noticed.mk st' []).store := h
  exact (Resembles.foldl (fun _ _ id h => h.reloadSource id) hstart e.sources).reportTo G

private theorem Resembles.attach (h : n.store.Resembles P n'.store) (G : EngineId) (id : SourceId) :
    (Store.attach G n id).store.Resembles P (Store.attach G n' id).store := by
  unfold Store.attach
  rw [h.joined?]
  cases n.store.joined? id with
  | none => exact h
  | some j =>
    dsimp only
    split
    · exact h.setJoined id _
    · exact h

theorem Resembles.addSources (h : st.Resembles P st') (G : EngineId) (ids : List SourceId) :
    (st.addSources G ids).store.Resembles P (st'.addSources G ids).store := by
  have hstart : (Noticed.mk st []).store.Resembles P (Noticed.mk st' []).store := h
  have hattached := Resembles.foldl (fun _ _ id h => h.attach G id) hstart ids
  unfold Store.addSources
  split
  · exact h
  · generalize ids.foldl (Store.attach G) ⟨st, []⟩ = n, ids.foldl (Store.attach G) ⟨st', []⟩ = n' at hattached
    have hengine := hattached.engine? G
    dsimp only
    generalize n.store.engine? G = o, n'.store.engine? G = o' at hengine
    cases hengine with
    | absent => exact hattached
    | @present e r hP =>
      have hrank : n'.store.rankOf = n.store.rankOf := by
        funext id
        rw [rankOf, hattached.joined?, rankOf]
      have hadvanced (sources : List SourceId) :
          n'.store.advanced { { e with registry := r } with sources } =
            { n.store.advanced { e with sources } with registry := r } := by
        rw [advanced, advanced, nextMarker, nextMarker, hattached.now]
      dsimp only
      rw [hrank, hadvanced]
      exact hattached.setEngine hP

/-! ### Closing -/

theorem Resembles.close (h : st.Resembles P st') (hP : P G e.registry r) :
    (st.close G e).2.store.Resembles P (st'.close G { e with registry := r }).2.store := by
  unfold Store.close
  dsimp only
  split
  · exact h
  · exact h.setEngine hP

end Store

end LayeredConfig
