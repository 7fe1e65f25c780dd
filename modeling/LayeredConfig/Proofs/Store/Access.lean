import LayeredConfig.Engine
import LayeredConfig.Proofs.Lookup

/-!
# Reading a store

Which sources and engines a store holds after one of its parts was put in, and what an engine finds in it
(`find_eq`).
-/

namespace LayeredConfig.Store

variable (st : Store)

@[simp] theorem joined?_setJoined (id x : SourceId) (j : Joined) :
    (st.setJoined id j).joined? x = if x = id then some j else st.joined? x :=
  lookup_put st.sources id x j

@[simp] theorem engine?_setJoined (id : SourceId) (j : Joined) (F : EngineId) :
    (st.setJoined id j).engine? F = st.engine? F := rfl

@[simp] theorem engine?_setEngine (F x : EngineId) (e : Engine) :
    (st.setEngine F e).engine? x = if x = F then some e else st.engine? x :=
  lookup_put st.engines F x e

/-- Taking engines away leaves the others. -/
theorem engine?_of_filter {keep : EngineId → Bool} {F : EngineId} {e : Engine}
    (h : engine? { st with engines := st.engines.filter fun p => keep p.1 } F = some e) : st.engine? F = some e := by
  rw [engine?, lookup_filter_key] at h
  split at h
  · exact h
  · nomatch h

/-- The new source has the next number. -/
theorem joined?_addSource (source : Source) (x : SourceId) :
    (st.addSource source).2.joined? x = if x = st.next then some ⟨source, none⟩ else st.joined? x := by
  unfold joined? addSource
  rw [List.lookup_cons]
  by_cases hx : x = st.next
  · simp [hx]
  · have : (x == st.next) = false := by simpa using hx
    simp [this, hx]

/-- The value of a key in one of the sources of a store. -/
def valueIn (id : SourceId) (key : String) : Option String := (st.joined? id).bind fun j => j.source.get? key

/-- An engine finds the value of the first of its sources that has one. -/
theorem find_eq (e : Engine) (key : String) : st.find e key = e.sources.findSome? fun id => st.valueIn id key := by
  unfold find sourcesOf
  induction e.sources with
  | nil => rfl
  | cons id ids ih =>
    rw [List.findSome?_cons, ← ih]
    cases hj : st.joined? id with
    | none => simp [hj, valueIn]
    | some j =>
      simp only [List.filterMap_cons, hj, Option.map_some, List.map_cons, SourceSet.lookup?, List.findSome?_cons,
        valueIn, Option.bind_some]
      cases j.source.get? key with
      | none => rfl
      | some value => rfl

theorem find_congr {st st' : Store} {e e' : Engine} (hsources : e'.sources = e.sources)
    (h : ∀ id ∈ e.sources, ∀ key, st'.valueIn id key = st.valueIn id key) : st'.find e' = st.find e := by
  funext key
  rw [find_eq, find_eq, hsources]
  generalize e.sources = ids at h
  induction ids with
  | nil => rfl
  | cons id ids ih =>
    rw [List.forall_mem_cons] at h
    rw [List.findSome?_cons, List.findSome?_cons, h.1 key, ih h.2]

end LayeredConfig.Store
