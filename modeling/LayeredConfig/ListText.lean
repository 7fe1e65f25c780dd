import LayeredConfig.Text.Blank

/-!
# Lists written as text

Several values in one text: items are separated by commas, and a backslash takes the next character as it
stands.  Reading trims every item and drops the empty ones; writing puts a backslash before each comma and
backslash of an item.  The key fact: the fields of a written text are its items (`fields_join`).
-/

namespace LayeredConfig.ListText

open Text (trim)

private def attach (c : Char) : List (List Char) → List (List Char)
  | [] => [[c]]
  | field :: rest => (c :: field) :: rest

/-- The fields between unescaped commas, with escapes resolved; `none` when the last escape has no character. -/
def fields : List Char → Option (List (List Char))
  | [] => some [[]]
  | ['\\'] => none
  | '\\' :: c :: cs => (fields cs).map (attach c)
  | c :: cs => if c = ',' then (fields cs).map ([] :: ·) else (fields cs).map (attach c)

/-- The trimmed, non-empty fields. -/
def tokens (cs : List Char) : Option (List (List Char)) :=
  (fields cs).map fun fs => (fs.map trim).filter fun t => !t.isEmpty

/-- The items of a list text; `none` when the text ends in an escape that escapes nothing. -/
def split (raw : String) : Option (List String) :=
  (tokens raw.toList).map fun ts => ts.map String.ofList

/-- An item with a backslash before each comma and backslash. -/
def escape : List Char → List Char
  | [] => []
  | c :: cs => if c = ',' ∨ c = '\\' then '\\' :: c :: escape cs else c :: escape cs

private def joined : List (List Char) → List Char
  | [] => []
  | [item] => escape item
  | item :: items => escape item ++ ',' :: joined items

/-- The text whose items are the given ones. -/
def join (items : List String) : String :=
  String.ofList (joined (items.map String.toList))

@[simp] theorem toList_join_nil : (join []).toList = [] := rfl

@[simp] theorem toList_join_singleton (item : String) : (join [item]).toList = escape item.toList :=
  String.toList_ofList

@[simp] theorem toList_join_cons_cons (item next : String) (items : List String) :
    (join (item :: next :: items)).toList = escape item.toList ++ ',' :: (join (next :: items)).toList := by
  rw [join, join, String.toList_ofList, String.toList_ofList]
  rfl

theorem escape_append (cs ds : List Char) : escape (cs ++ ds) = escape cs ++ escape ds := by
  induction cs with
  | nil => rfl
  | cons c cs ih =>
    rw [List.cons_append, escape, escape, ih]
    split
    · rfl
    · rfl

variable {cs : List Char} {field : List Char} {rest : List (List Char)}

theorem fields_escaped (c : Char) (h : fields cs = some (field :: rest)) :
    fields ('\\' :: c :: cs) = some ((c :: field) :: rest) := by
  simp [fields, h, attach]

theorem fields_comma (h : fields cs = some rest) : fields (',' :: cs) = some ([] :: rest) := by
  simp [fields, h]

theorem fields_plain {c : Char} (hc : ¬ (c = ',' ∨ c = '\\')) (h : fields cs = some (field :: rest)) :
    fields (c :: cs) = some ((c :: field) :: rest) := by
  obtain ⟨hcomma, hbackslash⟩ := not_or.1 hc
  simp [fields, h, hcomma, hbackslash, attach]

/-- An item that is written in front of a text goes in front of its first field. -/
theorem fields_escape_append (item : List Char) (h : fields cs = some (field :: rest)) :
    fields (escape item ++ cs) = some ((item ++ field) :: rest) := by
  induction item with
  | nil => exact h
  | cons c item ih =>
    unfold escape
    split
    · exact fields_escaped c ih
    · rename_i hc
      exact fields_plain hc ih

private theorem fields_escape (item : List Char) : fields (escape item) = some [item] := by
  have hnone : fields [] = some [[]] := rfl
  have happend := fields_escape_append item hnone
  rwa [List.append_nil, List.append_nil] at happend

private theorem fields_joined (items : List (List Char)) :
    fields (joined items) = some (if items.isEmpty then [[]] else items) := by
  induction items with
  | nil => rfl
  | cons item items ih =>
    cases items with
    | nil => exact fields_escape item
    | cons next items =>
      have happend := fields_escape_append item (fields_comma ih)
      rwa [List.append_nil] at happend

/-- The fields of a written text are its items; without items it has one empty field. -/
theorem fields_join (items : List String) :
    fields (join items).toList = some (if items.isEmpty then [[]] else items.map String.toList) := by
  rw [join, String.toList_ofList, fields_joined, List.isEmpty_map]

end LayeredConfig.ListText
