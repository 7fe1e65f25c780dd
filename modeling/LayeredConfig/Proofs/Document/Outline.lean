import LayeredConfig.KeyPath
import LayeredConfig.Proofs.Entries
import Mathlib.Data.List.Forall2

/-!
# Outlines of documents

A document is a tree of tables in any format, and its outline keeps the tables alone, with everything else at the
leaves.  When the keys of each table are different and no key is empty or has a dot in it, no two leaves have the same
path (`nodup_paths`), and no two paths are the same when they are joined by dots (`dotted_injective`).  So putting the
leaves into entries one after the other overwrites nothing (`Entries.perm_ofPairs`, `WellKeyed.flattens`).
-/

namespace LayeredConfig

/-! ### Paths of keys -/

namespace KeyPath

/-- The keys of a path, joined by dots. -/
def dotted (path : List String) : String := ".".intercalate path

/-- A key that can be told apart from the others when keys are joined by dots. -/
def IsPlain (key : String) : Prop := key ≠ "" ∧ '.' ∉ key.toList

instance (key : String) : Decidable (IsPlain key) := inferInstanceAs (Decidable (_ ∧ _))

private theorem toList_dotted (path : List String) :
    (dotted path).toList = ['.'].intercalate (path.map String.toList) :=
  String.toList_intercalate

private theorem dotted_ne_empty {key : String} (hkey : key ≠ "") (path : List String) : dotted (key :: path) ≠ "" := by
  intro h
  cases path with
  | nil => exact hkey h
  | cons next path =>
    rw [dotted, String.intercalate_cons_cons] at h
    simp at h

/-- Paths of plain keys are told apart by their dotted forms. -/
theorem dotted_injective {path path' : List String} (hpath : ∀ key ∈ path, IsPlain key)
    (hpath' : ∀ key ∈ path', IsPlain key) (h : dotted path = dotted path') : path = path' := by
  have hsplit {path : List String} (hpath : ∀ key ∈ path, IsPlain key) (hne : path ≠ []) :
      (dotted path).toList.splitOn '.' = path.map String.toList := by
    rw [toList_dotted]
    refine List.splitOn_intercalate '.' (fun cs hcs => ?_) (by simpa using hne)
    obtain ⟨key, hkey, rfl⟩ := List.mem_map.1 hcs
    exact (hpath key hkey).2
  cases path with
  | nil =>
    cases path' with
    | nil => rfl
    | cons key path' => exact absurd h.symm (dotted_ne_empty (hpath' key List.mem_cons_self).1 path')
  | cons key path =>
    cases path' with
    | nil => exact absurd h (dotted_ne_empty (hpath key List.mem_cons_self).1 path)
    | cons key' path' =>
      have hchars := hsplit hpath (List.cons_ne_nil _ _)
      rw [h, hsplit hpath' (List.cons_ne_nil _ _)] at hchars
      exact (List.map_injective_iff.2 (fun a b hab => String.ext hab) hchars).symm

private theorem foldl_join_of_ne_empty {key : String} (hkey : key ≠ "") (path : List String) :
    path.foldl join key = dotted (key :: path) := by
  induction path generalizing key with
  | nil => rfl
  | cons next path ih =>
    have hjoin : join key next = key ++ "." ++ next := by
      rw [join, if_neg (by simpa using hkey)]
    have hne : key ++ "." ++ next ≠ "" := by simp
    rw [List.foldl_cons, hjoin, ih hne]
    rfl

/-- Joining plain keys one by one, from the top. -/
private theorem foldl_join {path : List String} (hpath : ∀ key ∈ path, IsPlain key) :
    path.foldl join "" = dotted path := by
  cases path with
  | nil => rfl
  | cons key path => exact foldl_join_of_ne_empty (hpath key List.mem_cons_self).1 path

end KeyPath

/-! ### Outlines -/

/-- The tables of a document; whatever is no table is a leaf. -/
inductive Outline (α : Type) where
  | leaf (node : α)
  | table (members : List (String × Outline α))

namespace Outline

open KeyPath (dotted IsPlain)

variable {α : Type}

mutual

/-- The leaves with the paths of their keys. -/
def leaves : Outline α → List (List String × α)
  | leaf node => [([], node)]
  | table members => memberLeaves members

/-- The leaves of the members of a table. -/
def memberLeaves : List (String × Outline α) → List (List String × α)
  | [] => []
  | (key, value) :: rest => value.leaves.map (fun l => (key :: l.1, l.2)) ++ memberLeaves rest

end

mutual

/-- The keys of each table are different, none is empty, and none has a dot in it. -/
def WellKeyed : Outline α → Prop
  | leaf _ => True
  | table members => (members.map Prod.fst).Nodup ∧ MembersWellKeyed members

/-- The keys of members are plain, and those of their tables are in order. -/
def MembersWellKeyed : List (String × Outline α) → Prop
  | [] => True
  | (key, value) :: rest => IsPlain key ∧ value.WellKeyed ∧ MembersWellKeyed rest

end

theorem memberLeaves_append (members rest : List (String × Outline α)) :
    memberLeaves (members ++ rest) = memberLeaves members ++ memberLeaves rest := by
  induction members with
  | nil => rfl
  | cons p members ih =>
    obtain ⟨key, value⟩ := p
    rw [List.cons_append, memberLeaves, memberLeaves, ih, List.append_assoc]

mutual

private theorem WellKeyed.isPlain_of_mem {o : Outline α} (h : o.WellKeyed) :
    ∀ l ∈ o.leaves, ∀ key ∈ l.1, IsPlain key := by
  cases o with
  | leaf node => simp [leaves]
  | table members => exact MembersWellKeyed.isPlain_of_mem h.2

private theorem MembersWellKeyed.isPlain_of_mem {members : List (String × Outline α)} (h : MembersWellKeyed members) :
    ∀ l ∈ memberLeaves members, ∀ key ∈ l.1, IsPlain key := by
  cases members with
  | nil => simp [memberLeaves]
  | cons p rest =>
    obtain ⟨key, value⟩ := p
    obtain ⟨hkey, hvalue, hrest⟩ := h
    intro l hl
    rcases List.mem_append.1 hl with hl | hl
    · obtain ⟨inner, hinner, rfl⟩ := List.mem_map.1 hl
      exact List.forall_mem_cons.2 ⟨hkey, WellKeyed.isPlain_of_mem hvalue inner hinner⟩
    · exact MembersWellKeyed.isPlain_of_mem hrest l hl

end

/-- The path of a leaf starts with the key of a member. -/
private theorem exists_key_of_mem_memberLeaves {members : List (String × Outline α)} {l : List String × α}
    (h : l ∈ memberLeaves members) : ∃ key ∈ members.map Prod.fst, l.1.head? = some key := by
  induction members with
  | nil => nomatch h
  | cons p rest ih =>
    obtain ⟨key, value⟩ := p
    rcases List.mem_append.1 h with h | h
    · obtain ⟨inner, -, rfl⟩ := List.mem_map.1 h
      exact ⟨key, List.mem_cons_self, rfl⟩
    · obtain ⟨key', hkey', hhead⟩ := ih h
      exact ⟨key', List.mem_cons_of_mem _ hkey', hhead⟩

mutual

/-- No two leaves have the same path. -/
theorem WellKeyed.nodup_paths {o : Outline α} (h : o.WellKeyed) : (o.leaves.map Prod.fst).Nodup := by
  cases o with
  | leaf node => exact List.nodup_singleton _
  | table members => exact MembersWellKeyed.nodup_paths h.2 h.1

theorem MembersWellKeyed.nodup_paths {members : List (String × Outline α)} (h : MembersWellKeyed members)
    (hnodup : (members.map Prod.fst).Nodup) : ((memberLeaves members).map Prod.fst).Nodup := by
  cases members with
  | nil => exact List.nodup_nil
  | cons p rest =>
    obtain ⟨key, value⟩ := p
    obtain ⟨-, hvalue, hrest⟩ := h
    obtain ⟨hkey, hnodup⟩ := List.nodup_cons.1 hnodup
    have hfirst : (value.leaves.map fun l => (key :: l.1, l.2)).map Prod.fst =
        (value.leaves.map Prod.fst).map (key :: ·) := by
      rw [List.map_map, List.map_map]
      rfl
    rw [memberLeaves, List.map_append, hfirst, List.nodup_append]
    refine ⟨(WellKeyed.nodup_paths hvalue).map fun _ _ heq => (List.cons.inj heq).2,
      MembersWellKeyed.nodup_paths hrest hnodup, ?_⟩
    -- A path below another member starts with another key.
    rintro path hpath path' hpath' rfl
    obtain ⟨inner, -, rfl⟩ := List.mem_map.1 hpath
    obtain ⟨l, hl, heq⟩ := List.mem_map.1 hpath'
    obtain ⟨key', hkey', hhead⟩ := exists_key_of_mem_memberLeaves hl
    rw [heq] at hhead
    obtain rfl := Option.some.inj hhead
    exact hkey hkey'

end

/-- What is put into entries for the leaves: each has its text under its path. -/
def rows (text : α → String) (leaves : List (List String × α)) (path : String) : List (String × String) :=
  leaves.map fun l => (l.1.foldl KeyPath.join path, text l.2)

theorem rows_append (text : α → String) (leaves more : List (List String × α)) (path : String) :
    rows text (leaves ++ more) path = rows text leaves path ++ rows text more path := List.map_append

theorem rows_below (text : α → String) (leaves : List (List String × α)) (path key : String) :
    rows text (leaves.map fun l => (key :: l.1, l.2)) path = rows text leaves (KeyPath.join path key) := by
  rw [rows, rows, List.map_map]
  rfl

/-- The paths of the leaves, joined by dots. -/
theorem WellKeyed.map_fst_rows {o : Outline α} (h : o.WellKeyed) (text : α → String) :
    (rows text o.leaves "").map Prod.fst = o.leaves.map fun l => dotted l.1 := by
  rw [rows, List.map_map]
  exact List.map_congr_left fun l hl => KeyPath.foldl_join (h.isPlain_of_mem l hl)

theorem WellKeyed.nodup_dotted {o : Outline α} (h : o.WellKeyed) : (o.leaves.map fun l => dotted l.1).Nodup := by
  have hpaths : (o.leaves.map fun l => dotted l.1) = (o.leaves.map Prod.fst).map dotted := by
    rw [List.map_map]
    rfl
  rw [hpaths]
  refine h.nodup_paths.map_on fun path hpath path' hpath' heq => ?_
  obtain ⟨l, hl, rfl⟩ := List.mem_map.1 hpath
  obtain ⟨l', hl', rfl⟩ := List.mem_map.1 hpath'
  exact KeyPath.dotted_injective (h.isPlain_of_mem l hl) (h.isPlain_of_mem l' hl') heq

end Outline

/-- The texts of the scalars among some values, in the same order. -/
inductive Scalars {α : Type} (IsText : α → String → Prop) : List α → List String → Prop
  | nil : Scalars IsText [] []
  | scalar {a : α} {text : String} {as : List α} {texts : List String} (h : IsText a text)
    (hrest : Scalars IsText as texts) : Scalars IsText (a :: as) (text :: texts)
  | other {a : α} {as : List α} {texts : List String} (h : ∀ text, ¬ IsText a text)
    (hrest : Scalars IsText as texts) : Scalars IsText (a :: as) texts

theorem scalars_filterMap {α : Type} {IsText : α → String → Prop} {text? : α → Option String}
    (h : ∀ a text, text? a = some text ↔ IsText a text) (as : List α) : Scalars IsText as (as.filterMap text?) := by
  induction as with
  | nil => exact .nil
  | cons a as ih =>
    rw [List.filterMap_cons]
    cases ha : text? a with
    | none =>
      refine .other (fun text htext => ?_) ih
      rw [← h, ha] at htext
      nomatch htext
    | some text => exact .scalar ((h a text).1 ha) ih

/-- The entries hold each node once, under the dotted path of its keys with a text that shows it, and nothing else. -/
structure Flattens {α : Type} (nodes : List (List String × α)) (Shows : α → String → Prop) (e : Entries) : Prop where
  apart : (nodes.map fun node => KeyPath.dotted node.1).Nodup
  entries : ∃ pairs, e.pairs.Perm pairs ∧
    List.Forall₂ (fun node pair => pair.1 = KeyPath.dotted node.1 ∧ Shows node.2 pair.2) nodes pairs

theorem Outline.WellKeyed.flattens {α : Type} {o : Outline α} (h : o.WellKeyed) {text : α → String}
    {Shows : α → String → Prop} (hshows : ∀ l ∈ o.leaves, Shows l.2 (text l.2)) :
    Flattens o.leaves Shows (Entries.ofPairs (rows text o.leaves "")) := by
  refine ⟨h.nodup_dotted, _, Entries.perm_ofPairs ?_, ?_⟩
  · rw [h.map_fst_rows]
    exact h.nodup_dotted
  · rw [rows, List.forall₂_map_right_iff, List.forall₂_same]
    exact fun l hl => ⟨KeyPath.foldl_join (h.isPlain_of_mem l hl), hshows l hl⟩

end LayeredConfig
