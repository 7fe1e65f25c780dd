/-!
# Entries

A finite map from keys to texts, kept in increasing order of the keys.  The key facts: a key that was put reads
back and the others are untouched (`get?_put`), an erased key is gone (`get?_erase`), the keys are exactly
those that read (`mem_keys`), and of several pairs the last one of a key is read (`get?_ofPairs`).
-/

namespace LayeredConfig

/-- Key and text pairs in increasing order of their keys. -/
structure Entries where
  pairs : List (String × String)
  increasing : (pairs.map Prod.fst).Pairwise (· < ·)

namespace Entries

private def insertPair (key value : String) : List (String × String) → List (String × String)
  | [] => [(key, value)]
  | (k, v) :: rest =>
    if key < k then (key, value) :: (k, v) :: rest
    else if key = k then (key, value) :: rest
    else (k, v) :: insertPair key value rest

private theorem mem_keys_insertPair {key value x : String} {l : List (String × String)} :
    x ∈ (insertPair key value l).map Prod.fst ↔ x = key ∨ x ∈ l.map Prod.fst := by
  induction l with
  | nil => simp [insertPair]
  | cons p rest ih =>
    obtain ⟨k, v⟩ := p
    unfold insertPair
    split
    · simp
    · split
      · rename_i h
        subst h
        simp
      · simp only [List.map_cons, List.mem_cons, ih]
        exact or_left_comm

private theorem increasing_insertPair {key value : String} {l : List (String × String)}
    (h : (l.map Prod.fst).Pairwise (· < ·)) :
    ((insertPair key value l).map Prod.fst).Pairwise (· < ·) := by
  induction l with
  | nil => simp [insertPair]
  | cons p rest ih =>
    obtain ⟨k, v⟩ := p
    rw [List.map_cons, List.pairwise_cons] at h
    unfold insertPair
    split
    · rename_i hlt
      rw [List.map_cons, List.pairwise_cons, List.map_cons, List.pairwise_cons]
      refine ⟨?_, h.1, h.2⟩
      intro x hx
      rcases List.mem_cons.1 hx with rfl | hx
      · exact hlt
      · exact String.lt_trans hlt (h.1 x hx)
    · split
      · rename_i heq
        subst heq
        exact List.pairwise_cons.2 h
      · rename_i hlt hne
        rw [List.map_cons, List.pairwise_cons]
        refine ⟨?_, ih h.2⟩
        intro x hx
        rcases mem_keys_insertPair.1 hx with rfl | hx
        · apply Decidable.byContradiction
          intro hk
          exact hne (String.le_antisymm (String.not_lt.1 hk) (String.not_lt.1 hlt))
        · exact h.1 x hx

/-- No entry. -/
def empty : Entries := ⟨[], .nil⟩

instance : Inhabited Entries := ⟨empty⟩

/-- The text of a key. -/
def get? (e : Entries) (key : String) : Option String := e.pairs.lookup key

/-- The entries with `key` set to `value`. -/
def put (e : Entries) (key value : String) : Entries :=
  ⟨insertPair key value e.pairs, increasing_insertPair e.increasing⟩

/-- The entries without `key`. -/
def erase (e : Entries) (key : String) : Entries :=
  ⟨e.pairs.filter fun p => p.1 != key, e.increasing.sublist (List.filter_sublist.map _)⟩

/-- The keys in increasing order. -/
def keys (e : Entries) : List String := e.pairs.map Prod.fst

/-- How many keys there are. -/
def size (e : Entries) : Nat := e.pairs.length

/-- The entries of a list of pairs, put one after the other, so that the last pair of a key wins. -/
def putAll (e : Entries) (pairs : List (String × String)) : Entries :=
  pairs.foldl (fun e p => e.put p.1 p.2) e

/-- The map in which the last pair of each key wins. -/
def ofPairs (pairs : List (String × String)) : Entries := empty.putAll pairs

@[simp] theorem get?_empty (key : String) : empty.get? key = none := rfl

private theorem lookup_insertPair (key value x : String) (l : List (String × String)) :
    (insertPair key value l).lookup x = if x = key then some value else l.lookup x := by
  induction l with
  | nil =>
    by_cases h : x = key
    · simp [insertPair, h]
    · have : (x == key) = false := by simpa using h
      simp [insertPair, List.lookup_cons, this, h]
  | cons p rest ih =>
    obtain ⟨k, v⟩ := p
    unfold insertPair
    by_cases hx : x = key
    · subst hx
      split
      · simp
      · split
        · simp
        · rename_i hne
          have : (x == k) = false := by simpa using hne
          simp [List.lookup_cons, this, ih]
    · have hb : (x == key) = false := by simpa using hx
      split
      · simp [List.lookup_cons, hb]
      · split
        · rename_i heq
          subst heq
          simp [List.lookup_cons, hb]
        · by_cases hk : x = k
          · simp [hk] at *
          · have : (x == k) = false := by simpa using hk
            simp [List.lookup_cons, this, ih, hx]

@[simp] theorem get?_put (e : Entries) (key value x : String) :
    (e.put key value).get? x = if x = key then some value else e.get? x :=
  lookup_insertPair key value x e.pairs

private theorem lookup_filter_ne (key x : String) (l : List (String × String)) :
    (l.filter fun p => p.1 != key).lookup x = if x = key then none else l.lookup x := by
  induction l with
  | nil => simp
  | cons p rest ih =>
    obtain ⟨k, v⟩ := p
    by_cases hk : k = key
    · subst hk
      by_cases hx : x = k
      · simp [hx] at *
        exact ih
      · have : (x == k) = false := by simpa using hx
        simp [List.lookup_cons, this, ih, hx]
    · by_cases hx : x = k
      · subst hx
        simp [hk]
      · have : (x == k) = false := by simpa using hx
        simp [hk, List.lookup_cons, this, ih]

@[simp] theorem get?_erase (e : Entries) (key x : String) :
    (e.erase key).get? x = if x = key then none else e.get? x :=
  lookup_filter_ne key x e.pairs

theorem mem_keys {e : Entries} {key : String} : key ∈ e.keys ↔ ∃ value, e.get? key = some value := by
  unfold keys get?
  induction e.pairs with
  | nil => simp
  | cons p rest ih =>
    obtain ⟨k, v⟩ := p
    by_cases hk : key = k
    · simp [hk]
    · have : (key == k) = false := by simpa using hk
      simp only [List.map_cons, List.mem_cons, hk, false_or, List.lookup_cons, this]
      exact ih

theorem get?_putAll (e : Entries) (pairs : List (String × String)) (key : String) :
    (e.putAll pairs).get? key = (pairs.reverse.lookup key).or (e.get? key) := by
  unfold putAll
  induction pairs generalizing e with
  | nil => rfl
  | cons p pairs ih =>
    have hfirst : (e.put p.1 p.2).get? key = ([p].lookup key).or (e.get? key) := by
      obtain ⟨k, v⟩ := p
      rw [get?_put, List.lookup_cons]
      by_cases hkey : key = k
      · simp [hkey]
      · have : (key == k) = false := by simpa using hkey
        simp [hkey, this]
    rw [List.foldl_cons, ih, hfirst, List.reverse_cons, List.lookup_append, Option.or_assoc]

theorem get?_ofPairs (pairs : List (String × String)) (key : String) :
    (ofPairs pairs).get? key = pairs.reverse.lookup key := by
  rw [ofPairs, get?_putAll, get?_empty, Option.or_none]

end Entries

end LayeredConfig
