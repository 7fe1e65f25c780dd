import LayeredConfig.ListText
import LayeredConfig.Proofs.Text.Trim

/-!
# Reading written lists

Whatever the items of a list hold, commas, backslashes and blanks included, reading the text that is written for them
gives them back, trimmed and without the empty ones.  Items that were read from a text have nothing to trim
(`trimmed_of_mem_split`), so they come back as they are (`split_join`).  A text that is written for such items is one
itself (`isSolid_join`), so lists of lists can be written in the same way.
-/

namespace LayeredConfig.ListText

open Text (trim trimmed IsSolid)

private theorem isEmpty_ofList (cs : List Char) : (String.ofList cs).isEmpty = cs.isEmpty := by
  rw [Bool.eq_iff_iff, String.isEmpty_iff, List.isEmpty_iff, ← String.toList_eq_nil_iff, String.toList_ofList]

/-- The items of a text are its trimmed fields without the empty ones. -/
theorem split_of_fields {raw : String} {fs : List (List Char)} (h : fields raw.toList = some fs) :
    split raw = some ((fs.map fun field => String.ofList (trim field)).filter fun item => !item.isEmpty) := by
  have hempty : ((fun item : String => !item.isEmpty) ∘ String.ofList) = fun cs : List Char => !cs.isEmpty := by
    funext cs
    exact congrArg not (isEmpty_ofList cs)
  have hmap : (fs.map fun field => String.ofList (trim field)) = (fs.map trim).map String.ofList := by
    rw [List.map_map]
    rfl
  rw [split, tokens, h, hmap, List.filter_map, hempty]
  rfl

/-- Every item that is read is trimmed, and not empty. -/
theorem trimmed_of_mem_split {raw item : String} {items : List String} (h : split raw = some items)
    (hitem : item ∈ items) : trimmed item = item ∧ item.isEmpty = false := by
  cases hfields : fields raw.toList with
  | none =>
    rw [split, tokens, hfields] at h
    nomatch h
  | some fs =>
    rw [split_of_fields hfields] at h
    obtain rfl := Option.some.inj h
    obtain ⟨hmem, hne⟩ := List.mem_filter.1 hitem
    obtain ⟨field, -, rfl⟩ := List.mem_map.1 hmem
    refine ⟨?_, by simpa using hne⟩
    rw [trimmed, String.toList_ofList, Text.trim_trim]

theorem split_join_trimmed (items : List String) :
    split (join items) = some ((items.map trimmed).filter fun item => !item.isEmpty) := by
  rw [split_of_fields (fields_join items)]
  cases items with
  | nil => rfl
  | cons item items =>
    rw [List.isEmpty_cons, if_neg Bool.false_ne_true, List.map_map]
    rfl

/-- Reading a written list gives its items in their order, trimmed and without the empty ones.  Items that were read
from some text are written and read again without a change. -/
theorem split_join (items : List String) :
    split (join items) = some ((items.map trimmed).filter fun item => !item.isEmpty) ∧
      ∀ raw, split raw = some items → split (join items) = some items := by
  refine ⟨split_join_trimmed items, fun raw h => ?_⟩
  have htrimmed : items.map trimmed = items :=
    (List.map_congr_left fun item hitem => (trimmed_of_mem_split h hitem).1).trans (List.map_id' items)
  have hnonempty : items.filter (fun item => !item.isEmpty) = items := by
    rw [List.filter_eq_self]
    intro item hitem
    rw [(trimmed_of_mem_split h hitem).2]
    rfl
  rw [split_join_trimmed, htrimmed, hnonempty]

/-! ### Written lists as items -/

private theorem isSolid_escape {item : List Char} (h : IsSolid item) : IsSolid (escape item) := by
  obtain ⟨⟨first, hfirst, hfirstBlank⟩, ⟨last, hlast, hlastBlank⟩⟩ := h
  constructor
  · obtain ⟨rest, rfl⟩ := List.head?_eq_some_iff.1 hfirst
    rw [escape]
    split
    · exact ⟨'\\', rfl, by decide⟩
    · exact ⟨first, rfl, hfirstBlank⟩
  · obtain ⟨front, rfl⟩ := List.getLast?_eq_some_iff.1 hlast
    refine ⟨last, ?_, hlastBlank⟩
    rw [escape_append, escape, escape]
    split
    · simp
    · simp

/-- A text written for such items starts and ends with something other than a blank, as its items do. -/
theorem isSolid_join {items : List String} (hne : items ≠ []) (h : ∀ item ∈ items, IsSolid item.toList) :
    IsSolid (join items).toList := by
  induction items with
  | nil => exact absurd rfl hne
  | cons item items ih =>
    rw [List.forall_mem_cons] at h
    obtain ⟨hitem, hitems⟩ := h
    cases items with
    | nil =>
      rw [toList_join_singleton]
      exact isSolid_escape hitem
    | cons next items =>
      have hrest : IsSolid (join (next :: items)).toList := ih (List.cons_ne_nil next items) hitems
      have happend := (isSolid_escape hitem).append [','] hrest
      rw [toList_join_cons_cons]
      simpa using happend

/-- Items with a comma, a backslash and blanks inside. -/
theorem split_join_paths :
    split " x\\, y ,,c:\\\\tmp" = some ["x, y", "c:\\tmp"] ∧
      split (join ["x, y", "c:\\tmp"]) = some ["x, y", "c:\\tmp"] := by
  have hread : split " x\\, y ,,c:\\\\tmp" = some ["x, y", "c:\\tmp"] := by decide +kernel
  exact ⟨hread, (split_join ["x, y", "c:\\tmp"]).2 _ hread⟩

end LayeredConfig.ListText
