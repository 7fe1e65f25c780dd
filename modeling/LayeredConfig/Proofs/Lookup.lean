/-!
# Pairs under keys

Sources, engines, converters and the objects of a session are kept as lists of pairs.  Putting a pair in front and
taking the other pairs of its key away changes what that key reads and nothing else (`lookup_put`).
-/

namespace LayeredConfig

section

variable {α β : Type} [DecidableEq α]

theorem mem_of_lookup {l : List (α × β)} {a : α} {b : β} (h : l.lookup a = some b) : (a, b) ∈ l := by
  obtain ⟨start, rest, rfl, -⟩ := List.lookup_eq_some_iff.1 h
  simp

/-- Under different keys, every pair is read. -/
theorem lookup_eq_some_of_mem {l : List (α × β)} (h : (l.map Prod.fst).Nodup) {a : α} {b : β}
    (hmem : (a, b) ∈ l) : l.lookup a = some b := by
  induction l with
  | nil => cases hmem
  | cons p l ih =>
    rw [List.map_cons, List.nodup_cons] at h
    rcases List.mem_cons.1 hmem with rfl | hmem
    · exact List.lookup_cons_self
    · have hne : (a == p.1) = false := by
        rw [beq_eq_false_iff_ne]
        rintro rfl
        exact h.1 (List.mem_map.2 ⟨_, hmem, rfl⟩)
      rw [List.lookup_cons, hne]
      exact ih h.2 hmem

/-- Choosing pairs by their keys hides the others. -/
theorem lookup_filter_key (l : List (α × β)) (keep : α → Bool) (x : α) :
    (l.filter fun p => keep p.1).lookup x = if keep x then l.lookup x else none := by
  induction l with
  | nil => simp
  | cons p l ih =>
    obtain ⟨a, b⟩ := p
    by_cases ha : keep a
    · rw [List.filter_cons_of_pos (by simpa using ha), List.lookup_cons, List.lookup_cons, ih]
      by_cases hx : x = a
      · simp [hx, ha]
      · have : (x == a) = false := by simpa using hx
        simp [this]
    · rw [List.filter_cons_of_neg (by simpa using ha), ih, List.lookup_cons]
      by_cases hx : x = a
      · simp [hx, ha]
      · have : (x == a) = false := by simpa using hx
        simp [this]

theorem lookup_filter_ne (l : List (α × β)) (a x : α) :
    (l.filter fun p => p.1 ≠ a).lookup x = if x = a then none else l.lookup x := by
  rw [lookup_filter_key l (fun b => decide (b ≠ a)) x]
  by_cases hx : x = a
  · simp [hx]
  · simp [hx]

theorem lookup_put (l : List (α × β)) (a x : α) (b : β) :
    ((a, b) :: l.filter fun p => p.1 ≠ a).lookup x = if x = a then some b else l.lookup x := by
  rw [List.lookup_cons, lookup_filter_ne]
  by_cases hx : x = a
  · simp [hx]
  · have : (x == a) = false := by simpa using hx
    simp [this, hx]

/-- Changing what stands under the keys. -/
theorem lookup_map_snd {γ : Type} (l : List (α × β)) (f : β → γ) (x : α) :
    (l.map fun p => (p.1, f p.2)).lookup x = (l.lookup x).map f := by
  induction l with
  | nil => rfl
  | cons p l ih =>
    rw [List.map_cons, List.lookup_cons, List.lookup_cons, ih]
    cases x == p.1 with
    | true => rfl
    | false => rfl

end

end LayeredConfig
