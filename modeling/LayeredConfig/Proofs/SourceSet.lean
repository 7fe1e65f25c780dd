import LayeredConfig.SourceSet

/-!
# The order of sources

Ranks are ordered by ordinal, downwards, and then by name, upwards.  Merging puts all sources in this order, and the
first of them that defines a key goes before every other one that does (`before_of_lookup?`).
-/

namespace LayeredConfig

namespace Rank

variable {a b c : Rank}

theorem before_iff : a.before b ↔ b.ordinal < a.ordinal ∨ a.ordinal = b.ordinal ∧ a.name ≤ b.name := by
  simp [before]

theorem before_refl (a : Rank) : a.before a := by
  rw [before_iff]
  exact .inr ⟨rfl, String.le_refl _⟩

theorem before_trans (hab : a.before b) (hbc : b.before c) : a.before c := by
  rw [before_iff] at hab hbc ⊢
  rcases hab with hab | ⟨hab, hname⟩ <;> rcases hbc with hbc | ⟨hbc, hname'⟩
  · left
    omega
  · left
    omega
  · left
    omega
  · right
    constructor
    · omega
    · exact String.le_trans hname hname'

theorem before_total (a b : Rank) : a.before b ∨ b.before a := by
  rw [before_iff, before_iff]
  by_cases hlt : b.ordinal < a.ordinal
  · exact .inl (.inl hlt)
  · by_cases hgt : a.ordinal < b.ordinal
    · exact .inr (.inl hgt)
    · have heq : a.ordinal = b.ordinal := by omega
      rcases String.le_total a.name b.name with hname | hname
      · exact .inl (.inr ⟨heq, hname⟩)
      · exact .inr (.inr ⟨heq.symm, hname⟩)

/-- Only equal ranks may stand in either order. -/
theorem before_antisymm (hab : a.before b) (hba : b.before a) : a = b := by
  rw [before_iff] at hab hba
  have hordinal : a.ordinal = b.ordinal := by omega
  have hname : a.name = b.name := String.le_antisymm (by grind) (by grind)
  obtain ⟨x, name⟩ := a
  exact Rank.mk.injEq .. ▸ ⟨hordinal, hname⟩

end Rank

namespace SourceSet

section

variable {α : Type} {rank : α → Rank} {ordered new : List α}

theorem perm_merge (rank : α → Rank) (ordered new : List α) : (merge rank ordered new).Perm (ordered ++ new) :=
  List.mergeSort_perm _ _

theorem mem_merge {a : α} : a ∈ merge rank ordered new ↔ a ∈ ordered ∨ a ∈ new := by
  rw [(perm_merge rank ordered new).mem_iff, List.mem_append]

theorem pairwise_merge (rank : α → Rank) (ordered new : List α) :
    (merge rank ordered new).Pairwise fun a b => (rank a).before (rank b) := by
  unfold merge
  apply List.pairwise_mergeSort
  · intro a b c hab hbc
    exact Rank.before_trans hab hbc
  · intro a b
    simpa using Rank.before_total (rank a) (rank b)

/-- Merging is stable: what is in order already stays in this order. -/
theorem sublist_merge (h : ordered.Pairwise fun a b => (rank a).before (rank b)) (new : List α) :
    ordered.Sublist (merge rank ordered new) := by
  have htotal (a b : α) : ((rank a).before (rank b) || (rank b).before (rank a)) = true := by
    simpa using Rank.before_total (rank a) (rank b)
  have htrans (a b c : α) : (rank a).before (rank b) → (rank b).before (rank c) → (rank a).before (rank c) :=
    Rank.before_trans
  exact List.sublist_mergeSort htrans htotal h (List.sublist_append_left ordered new)

end

variable {sources : List Source} {key value : String} {s : Source}

theorem lookup?_eq_none_iff : lookup? sources key = none ↔ ∀ s ∈ sources, s.get? key = none := by
  simp [lookup?]

private theorem lookup?_cons_of_none (h : s.get? key = none) : lookup? (s :: sources) key = lookup? sources key := by
  simp [lookup?, h]

private theorem lookup?_cons_of_some (h : s.get? key = some value) : lookup? (s :: sources) key = some (value, s) := by
  simp [lookup?, h]

/-- Without its source, the value is that of the first source that has one. -/
theorem map_fst_lookup? (sources : List Source) (key : String) :
    (lookup? sources key).map Prod.fst = sources.findSome? fun s => s.get? key := by
  induction sources with
  | nil => rfl
  | cons s sources ih =>
    cases hvalue : s.get? key with
    | none => rw [lookup?_cons_of_none hvalue, ih, List.findSome?_cons, hvalue]
    | some value =>
      rw [lookup?_cons_of_some hvalue, List.findSome?_cons, hvalue]
      rfl

/-- A value comes from the source that it is said to come from. -/
theorem mem_of_lookup? (h : lookup? sources key = some (value, s)) : s ∈ sources ∧ s.get? key = some value := by
  obtain ⟨t, ht, hvalue⟩ := List.exists_of_findSome?_eq_some h
  obtain ⟨v, hv, heq⟩ := Option.map_eq_some_iff.1 hvalue
  obtain ⟨rfl, rfl⟩ := Prod.mk.inj heq
  exact ⟨ht, hv⟩

/-- Among ordered sources, the one that answers goes before every other one that defines the key, be it with an empty
value. -/
theorem before_of_lookup? (hordered : sources.Pairwise fun s t => s.rank.before t.rank)
    (h : lookup? sources key = some (value, s)) {t : Source} (ht : t ∈ sources) (hkey : (t.get? key).isSome) :
    s.rank.before t.rank := by
  induction sources with
  | nil => nomatch ht
  | cons first rest ih =>
    obtain ⟨hfirst, hrest⟩ := List.pairwise_cons.1 hordered
    cases hv : first.get? key with
    | none =>
      rw [lookup?_cons_of_none hv] at h
      rcases List.mem_cons.1 ht with rfl | ht
      · simp [hv] at hkey
      · exact ih hrest h ht
    | some v =>
      rw [lookup?_cons_of_some hv] at h
      obtain ⟨rfl, rfl⟩ := Prod.mk.inj (Option.some.inj h)
      rcases List.mem_cons.1 ht with rfl | ht
      · exact Rank.before_refl _
      · exact hfirst t ht

end SourceSet

end LayeredConfig
