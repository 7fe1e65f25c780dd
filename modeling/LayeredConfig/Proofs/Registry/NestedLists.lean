import LayeredConfig.Proofs.Accessor.ListReads

/-!
# Lists of lists

Texts in lists, and those in lists again, to any depth.  Each list is written as the text of its items, so the commas
and backslashes of every level are escaped again by the level above it; and the converter of each level is discovered
from the one below.  The key facts: what is written for an inner value can stand as an item (`IsInner.isItem_encode`),
and a new registry reads every such value from its text (`Registry.convert_encode`).
-/

namespace LayeredConfig

open Text (trimmed IsSolid)

private theorem ListText.isItem_iff {token : String} : IsItem token ↔ IsSolid token.toList := by
  rw [IsItem, Text.isSolid_iff, trimmed, ← String.toList_inj, String.toList_ofList, ne_eq, ← String.toList_eq_nil_iff]

instance (token : String) : Decidable (ListText.IsItem token) :=
  inferInstanceAs (Decidable (trimmed token = token ∧ token ≠ ""))

/-- Texts in lists, `n` lists deep. -/
abbrev Nested : Nat → Type
  | 0 => String
  | n + 1 => List (Nested n)

namespace Nested

/-- The type of these values. -/
def type : Nat → ValueType
  | 0 => .text
  | n + 1 => .list (type n)

def value : (n : Nat) → Nested n → Value
  | 0, (text : String) => .text text
  | n + 1, (items : List (Nested n)) => .list (items.map (value n))

/-- A text stands for itself, and a list is the text of its items. -/
def encode : (n : Nat) → Nested n → String
  | 0, (text : String) => text
  | n + 1, (items : List (Nested n)) => ListText.join (items.map (encode n))

/-- No text in the value is empty or has something to trim, and no list is empty. -/
def IsInner : (n : Nat) → Nested n → Prop
  | 0, (text : String) => ListText.IsItem text
  | n + 1, (items : List (Nested n)) => items ≠ [] ∧ ∀ item ∈ items, IsInner n item

/-- The same, but the outermost list may be empty. -/
def IsOuter : (n : Nat) → Nested n → Prop
  | 0, (text : String) => ListText.IsItem text
  | n + 1, (items : List (Nested n)) => ∀ item ∈ items, IsInner n item

instance decidableIsInner : (n : Nat) → (x : Nested n) → Decidable (IsInner n x)
  | 0, (text : String) => inferInstanceAs (Decidable (ListText.IsItem text))
  | n + 1, (items : List (Nested n)) =>
    have (item : Nested n) : Decidable (IsInner n item) := decidableIsInner n item
    inferInstanceAs (Decidable (items ≠ [] ∧ ∀ item ∈ items, IsInner n item))

instance decidableIsOuter : (n : Nat) → (x : Nested n) → Decidable (IsOuter n x)
  | 0, (text : String) => inferInstanceAs (Decidable (ListText.IsItem text))
  | n + 1, (items : List (Nested n)) => inferInstanceAs (Decidable (∀ item ∈ items, IsInner n item))

variable {n : Nat} {x : Nested n}

private theorem IsInner.isOuter (h : IsInner n x) : IsOuter n x := by
  cases n with
  | zero => exact h
  | succ n => exact h.2

/-- What is written for an inner value is neither empty nor trimmed away in part, so it can be an item again. -/
theorem IsInner.isItem_encode (h : IsInner n x) : ListText.IsItem (encode n x) := by
  induction n with
  | zero => exact h
  | succ n ih =>
    obtain ⟨hne, hitems⟩ := h
    rw [ListText.isItem_iff]
    apply ListText.isSolid_join
    · intro hnil
      exact hne (List.map_eq_nil_iff.1 hnil)
    · intro token htoken
      obtain ⟨item, hitem, rfl⟩ := List.mem_map.1 htoken
      exact ListText.isItem_iff.1 (ih (hitems item hitem))

/-- A list of inner values is read as what was written for each of them. -/
private theorem split_encode {items : List (Nested n)} (h : ∀ item ∈ items, IsInner n item) :
    ListText.split (encode (n + 1) items) = some (items.map (encode n)) := by
  have hitem : ∀ token ∈ items.map (encode n), ListText.IsItem token := by
    intro token htoken
    obtain ⟨item, hitem, rfl⟩ := List.mem_map.1 htoken
    exact (h item hitem).isItem_encode
  have htrimmed : (items.map (encode n)).map trimmed = items.map (encode n) :=
    (List.map_congr_left fun token htoken => (hitem token htoken).1).trans (List.map_id' _)
  have hnonempty : (items.map (encode n)).filter (fun token => !token.isEmpty) = items.map (encode n) := by
    rw [List.filter_eq_self]
    intro token htoken
    simpa using (hitem token htoken).2
  rw [encode, ListText.split_join_trimmed, htrimmed, hnonempty]

/-! ### The converters of all levels -/

/-- The converter that is discovered at a depth. -/
def converter : Nat → Converter
  | 0 => .reading .text fun raw => .ok (.text raw)
  | n + 1 => .list (type n) (converter n)

private theorem target_converter (n : Nat) : (converter n).target = type n := by
  cases n with
  | zero => rfl
  | succ n => rfl

/-- The converter of a depth reads what is written for a value of that depth. -/
private theorem run_converter (names : TypeNames) (h : IsOuter n x) :
    (converter n).run names (encode n x) = .ok (value n x) := by
  induction n with
  | zero => rfl
  | succ n ih =>
    have hitem : ∀ item ∈ x, Converter.settle (converter n).target (type n) (encode n item)
        ((converter n).run names (encode n item)) = pure (value n item) := by
      intro item hitem
      have hread := ih (h item hitem).isOuter
      rw [hread, target_converter]
      exact if_pos rfl
    have hitems : ((x.map (encode n)).mapM fun token =>
        Converter.settle (converter n).target (type n) token ((converter n).run names token)) =
          Except.ok (x.map (value n)) := by
      rw [List.mapM_map]
      exact (mapM_congr_mem hitem).trans List.mapM_pure
    rw [converter, Converter.run, split_encode h]
    dsimp only
    rw [hitems]
    rfl

private theorem value_injective (n : Nat) : Function.Injective (value n) := by
  induction n with
  | zero => exact fun x y h => Value.text.inj h
  | succ n ih => exact fun x y h => ih.list_map (Value.list.inj h)

/-- Different values are written differently. -/
theorem eq_of_encode_eq {y : Nested n} (hx : IsOuter n x) (hy : IsOuter n y) (h : encode n x = encode n y) : x = y := by
  have hread : (converter n).run [] (encode n x) = .ok (value n x) := run_converter [] hx
  rw [h, run_converter [] hy] at hread
  exact (value_injective n (Except.ok.inj hread)).symm

end Nested

namespace Registry

open Nested (type encode value converter IsOuter)

/-- In a new registry the converter of each depth comes from the depth below, down to the built-in one for texts. -/
private theorem current?_nested (customTypes : List CustomType) (n : Nat) :
    (standard customTypes).current? (type n) = some (converter n) := by
  have hactive (t : ValueType) : (standard customTypes).active? t = builtin? true t := active?_initial customTypes true t
  have hdiscovered : (standard customTypes).discovered = [] := discovered_initial customTypes true
  induction n with
  | zero =>
    rw [current?_eq, hactive]
    rfl
  | succ n ih =>
    rw [type, current?_eq, hactive, hdiscovered]
    show ((standard customTypes).current? (type n)).map (Converter.list (type n)) = _
    rw [ih]
    rfl

private theorem convert_of_current? {r : Registry} {t : ValueType} {c : Converter} (h : r.current? t = some c)
    (raw : String) : (r.convert t (some raw)).1 = (c.convert (r.resolve t).2.names t raw).map some := by
  rw [current?] at h
  rw [convert]
  generalize r.resolve t = p at h ⊢
  obtain ⟨e | c', r'⟩ := p
  · cases h
  · obtain rfl := Option.some.inj h
    rfl

/-- A new registry with the built-in converters reads texts in lists of any depth from what is written for them. -/
theorem convert_encode (customTypes : List CustomType) (n : Nat) (x : Nested n) (hx : IsOuter n x) :
    ((standard customTypes).convert (type n) (some (encode n x))).1 = .ok (some (value n x)) := by
  rw [convert_of_current? (current?_nested customTypes n), Converter.convert, Nested.run_converter _ hx,
    Nested.target_converter, Converter.settle, if_pos rfl]
  rfl

/-- Two lists of texts with commas, backslashes and blanks inside. -/
theorem convert_encode_routes :
    ((standard []).convert (type 2) (some "a\\\\\\, b\\,c:\\\\\\\\tmp,x")).1 =
      .ok (some (.list [.list [.text "a, b", .text "c:\\tmp"], .list [.text "x"]])) :=
  convert_encode [] 2 [["a, b", "c:\\tmp"], ["x"]] (by decide +kernel)

end Registry

end LayeredConfig
