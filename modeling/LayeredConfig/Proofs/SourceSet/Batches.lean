import LayeredConfig.Proofs.SourceSet

/-!
# Adding sources in batches

However sources are cut into batches, and although all of them are sorted again with every batch, the result is that
of a single stable sort (`IsStableSort.published`, `IsStableSort.unique`).  When no two sources share a rank, it does
not depend on the order in which they come either (`published_independent`).
-/

namespace LayeredConfig.SourceSet

/-- What is published after batches were added to an empty set, one after the other. -/
def published {α : Type} (rank : α → Rank) (batches : List (List α)) : List α := batches.foldl (merge rank) []

/-- The items of a list from the highest ordinal to the lowest, those of one ordinal by name, and those of one rank in
the order in which they come in the list. -/
structure IsStableSort {α : Type} (rank : α → Rank) (items sorted : List α) : Prop where
  perm : sorted.Perm items
  ordered : sorted.Pairwise fun a b =>
    (rank b).ordinal < (rank a).ordinal ∨ (rank a).ordinal = (rank b).ordinal ∧ (rank a).name ≤ (rank b).name
  stable : ∀ r, sorted.filter (fun a => rank a = r) = items.filter (fun a => rank a = r)

section

variable {α : Type} {rank : α → Rank} {items items' sorted sorted' new : List α} {batches : List (List α)}

/-- Items of one rank keep their order when they are merged. -/
private theorem filter_merge (rank : α → Rank) (ordered new : List α) (r : Rank) :
    (merge rank ordered new).filter (fun a => rank a = r) = (ordered ++ new).filter (fun a => rank a = r) := by
  have hequal : ((ordered ++ new).filter fun a => rank a = r).Pairwise fun a b => (rank a).before (rank b) := by
    refine List.pairwise_of_forall_mem_list fun a ha b hb => ?_
    have ha : rank a = r := by simpa using (List.mem_filter.1 ha).2
    have hb : rank b = r := by simpa using (List.mem_filter.1 hb).2
    rw [ha, hb]
    exact Rank.before_refl r
  have hsublist : ((ordered ++ new).filter fun a => rank a = r).Sublist (merge rank ordered new) := by
    refine List.sublist_mergeSort ?_ ?_ hequal List.filter_sublist
    · intro a b c hab hbc
      exact Rank.before_trans hab hbc
    · intro a b
      simpa using Rank.before_total (rank a) (rank b)
  have hsublist' := hsublist.filter fun a => rank a = r
  rw [List.filter_filter] at hsublist'
  simp only [Bool.and_self] at hsublist'
  exact (hsublist'.eq_of_length ((perm_merge rank ordered new).filter _).length_eq.symm).symm

/-- One more batch. -/
private theorem IsStableSort.merge (h : IsStableSort rank items sorted) (new : List α) :
    IsStableSort rank (items ++ new) (merge rank sorted new) := by
  refine ⟨(perm_merge rank sorted new).trans (h.perm.append_right new), ?_, fun r => ?_⟩
  · exact (pairwise_merge rank sorted new).imp fun hab => Rank.before_iff.1 hab
  · rw [filter_merge, List.filter_append, List.filter_append, h.stable]

private theorem IsStableSort.foldl_merge (h : IsStableSort rank items sorted) (batches : List (List α)) :
    IsStableSort rank (items ++ batches.flatten) (batches.foldl (SourceSet.merge rank) sorted) := by
  induction batches generalizing items sorted with
  | nil => simpa using h
  | cons new batches ih =>
    rw [List.flatten_cons, ← List.append_assoc, List.foldl_cons]
    exact ih (h.merge new)

/-- What is published are all items that were added, sorted once. -/
theorem IsStableSort.published (rank : α → Rank) (batches : List (List α)) :
    IsStableSort rank batches.flatten (published rank batches) := by
  have hempty : IsStableSort rank ([] : List α) [] := ⟨.refl [], .nil, fun _ => rfl⟩
  exact hempty.foldl_merge batches

/-- Ordered lists are equal when they have the same items of each rank in the same order. -/
private theorem eq_of_filter_eq (hsorted : sorted.Pairwise fun a b => (rank a).before (rank b))
    (hsorted' : sorted'.Pairwise fun a b => (rank a).before (rank b))
    (h : ∀ r, sorted.filter (fun a => rank a = r) = sorted'.filter (fun a => rank a = r)) : sorted = sorted' := by
  have hmem (a : α) : a ∈ sorted ↔ a ∈ sorted' := by
    have hfilter := congrArg (a ∈ ·) (h (rank a))
    simpa using hfilter
  induction sorted generalizing sorted' with
  | nil =>
    symm
    rw [List.eq_nil_iff_forall_not_mem]
    intro a ha
    nomatch (hmem a).2 ha
  | cons a sorted ih =>
    cases sorted' with
    | nil => nomatch (hmem a).1 List.mem_cons_self
    | cons b sorted' =>
      rw [List.pairwise_cons] at hsorted hsorted'
      -- Each of the two heads is in the other list, so neither may stand before the other.
      have hab : (rank a).before (rank b) := by
        rcases List.mem_cons.1 ((hmem b).2 List.mem_cons_self) with rfl | hb
        · exact Rank.before_refl _
        · exact hsorted.1 b hb
      have hba : (rank b).before (rank a) := by
        rcases List.mem_cons.1 ((hmem a).1 List.mem_cons_self) with rfl | ha
        · exact Rank.before_refl _
        · exact hsorted'.1 a ha
      have hrank : rank a = rank b := Rank.before_antisymm hab hba
      have hheads := h (rank a)
      rw [List.filter_cons_of_pos (by simp), List.filter_cons_of_pos (by simp [hrank])] at hheads
      obtain ⟨rfl, -⟩ := List.cons.inj hheads
      have hrest (r : Rank) : sorted.filter (fun a => rank a = r) = sorted'.filter (fun a => rank a = r) := by
        have hr := h r
        rw [List.filter_cons, List.filter_cons] at hr
        split at hr
        · exact (List.cons.inj hr).2
        · exact hr
      rw [ih hsorted.2 hsorted'.2 hrest fun c => ?_]
      have hfilter := congrArg (c ∈ ·) (hrest (rank c))
      simpa using hfilter

theorem IsStableSort.unique (h : IsStableSort rank items sorted) (h' : IsStableSort rank items sorted') :
    sorted = sorted' := by
  refine eq_of_filter_eq ?_ ?_ fun r => (h.stable r).trans (h'.stable r).symm
  · exact h.ordered.imp fun hab => Rank.before_iff.2 hab
  · exact h'.ordered.imp fun hab => Rank.before_iff.2 hab

/-- Items with different ranks may come in any order. -/
private theorem IsStableSort.of_perm (h : IsStableSort rank items sorted) (hperm : items.Perm items')
    (hnodup : (items'.map rank).Nodup) : IsStableSort rank items' sorted := by
  refine ⟨h.perm.trans hperm, h.ordered, fun r => (h.stable r).trans ?_⟩
  have hdistinct' : items'.Pairwise fun a b => rank a ≠ rank b := List.pairwise_map.1 hnodup
  have hdistinct : items.Pairwise fun a b => rank a ≠ rank b :=
    List.pairwise_map.1 ((hperm.map rank).nodup_iff.2 hnodup)
  refine List.Perm.eq_of_pairwise (fun a b ha hb hab _ => ?_) (hdistinct.filter _) (hdistinct'.filter _)
    (hperm.filter _)
  have ha : rank a = r := by simpa using (List.mem_filter.1 ha).2
  have hb : rank b = r := by simpa using (List.mem_filter.1 hb).2
  exact absurd (ha.trans hb.symm) hab

end

/-- There is one stable sort of all sources that were added, and it is what is published, however they were cut into
batches.  When no two of them have the same rank, they may also come in any other order: what is published is the
same, and so is the value of every key. -/
theorem published_independent {α : Type} (source : α → Source) (batches : List (List α)) :
    (∀ sorted, IsStableSort (Source.rank ∘ source) batches.flatten sorted ↔
      sorted = published (Source.rank ∘ source) batches) ∧
    ∀ batches' : List (List α),
      (batches'.flatten = batches.flatten →
        published (Source.rank ∘ source) batches' = published (Source.rank ∘ source) batches) ∧
      (batches'.flatten.Perm batches.flatten → (batches.flatten.map (Source.rank ∘ source)).Nodup →
        published (Source.rank ∘ source) batches' = published (Source.rank ∘ source) batches ∧
        ∀ key, (lookup? ((published (Source.rank ∘ source) batches').map source) key).map Prod.fst =
          (lookup? ((published (Source.rank ∘ source) batches).map source) key).map Prod.fst) := by
  have hsort := IsStableSort.published (Source.rank ∘ source) batches
  refine ⟨fun sorted => ⟨fun h => h.unique hsort, fun h => h ▸ hsort⟩, fun batches' => ⟨fun hflatten => ?_,
    fun hperm hnodup => ?_⟩⟩
  · have hsort' := IsStableSort.published (Source.rank ∘ source) batches'
    rw [hflatten] at hsort'
    exact hsort'.unique hsort
  · have hsort' := IsStableSort.published (Source.rank ∘ source) batches'
    have heq := (hsort'.of_perm hperm hnodup).unique hsort
    exact ⟨heq, fun key => by rw [heq]⟩

/-- Three sources of one key, two of them with the same ordinal. -/
def trio : List Source :=
  [.ofEntries "a" 1 (Entries.ofPairs [("key", "low")]), .ofEntries "b" 2 (Entries.ofPairs [("key", "high")]),
    .ofEntries "c" 2 (Entries.ofPairs [("key", "behind")])]

/-- One after the other from the back is the same as all at once. -/
theorem published_independent_trio :
    published Source.rank (trio.reverse.map fun s => [s]) = published Source.rank [trio] ∧
      (lookup? (published Source.rank (trio.reverse.map fun s => [s])) "key").map Prod.fst = some "high" := by
  have hperm : (trio.reverse.map fun s => [s]).flatten.Perm [trio].flatten := List.reverse_perm trio
  have hnodup : ([trio].flatten.map (Source.rank ∘ id)).Nodup := by decide +kernel
  have hsort : IsStableSort (Source.rank ∘ id) (trio.tail ++ trio.take 1) (trio.tail ++ trio.take 1) :=
    ⟨.refl _, by decide +kernel, fun _ => rfl⟩
  have hsort := hsort.of_perm List.perm_append_comm hnodup
  obtain ⟨hpublished, hvalue⟩ := ((published_independent id [trio]).2 _).2 hperm hnodup
  refine ⟨hpublished, ?_⟩
  have hkey := hvalue "key"
  rw [List.map_id, List.map_id, ← ((published_independent id [trio]).1 _).1 hsort] at hkey
  exact hkey

end LayeredConfig.SourceSet
