import LayeredConfig.Toml

/-!
# TOML tables under construction

Tables arise in three ways: defined by a header, implied by a longer header, or implied by a dotted key.  A table
is defined by a header once, and a dotted key never extends a table that a header defined.  The members are kept
in increasing order of their keys.
-/

namespace LayeredConfig.Toml

/-- How a table arose. -/
inductive TableKind where
  | defined
  | implied
  | dotted
  deriving DecidableEq, Repr

/-- A member of a table under construction. -/
inductive Part where
  | fixed (value : Toml)
  | table (kind : TableKind) (members : List (String × Part))
  /-- An array of tables, the last one first. -/
  | tables (items : List (List (String × Part)))

/-- A table under construction. -/
structure Table where
  kind : TableKind
  members : List (String × Part)

namespace Table

/-- A table without members that a header defines, or the whole document. -/
def fresh : Table := ⟨.defined, []⟩

private def putIn (key : String) (part : Part) : List (String × Part) → List (String × Part)
  | [] => [(key, part)]
  | (k, p) :: rest =>
    if key < k then (key, part) :: (k, p) :: rest
    else if key = k then (key, part) :: rest
    else (k, p) :: putIn key part rest

def get? (t : Table) (key : String) : Option Part := t.members.lookup key

def put (t : Table) (key : String) (part : Part) : Table := ⟨t.kind, putIn key part t.members⟩

/-- The table with the one that a path leads to changed.  Missing tables on the way are made; in an array of
tables the way leads through the last one. -/
def modify (dotted : Bool) (change : Table → Option Table) : List String → Table → Option Table
  | [], t => change t
  | key :: path, t =>
    match t.get? key with
    | none =>
      (modify dotted change path ⟨if dotted then .dotted else .implied, []⟩).map fun s =>
        t.put key (.table s.kind s.members)
    | some (.table kind members) =>
      if dotted && kind == .defined then none
      else (modify dotted change path ⟨kind, members⟩).map fun s => t.put key (.table s.kind s.members)
    | some (.tables (last :: others)) =>
      (modify dotted change path ⟨.defined, last⟩).map fun s => t.put key (.tables (s.members :: others))
    | some (.tables []) => none
    | some (.fixed _) => none

/-- The table with a value under a key, which a path of tables leads to. -/
def assign (path : List String) (key : String) (value : Toml) (t : Table) : Option Table :=
  t.modify true
    (fun s =>
      if (s.kind == .dotted) == path.isEmpty || (s.get? key).isSome then none else some (s.put key (.fixed value)))
    path

/-- The table with another one that a header defines. -/
def define (path : List String) (key : String) (t : Table) : Option Table :=
  t.modify false
    (fun s =>
      match s.get? key with
      | none => some (s.put key (.table .defined []))
      | some (.table .implied members) => some (s.put key (.table .defined members))
      | some _ => none)
    path

/-- The table with one more in an array of tables. -/
def append (path : List String) (key : String) (t : Table) : Option Table :=
  t.modify false
    (fun s =>
      match s.get? key with
      | none => some (s.put key (.tables [[]]))
      | some (.tables items) => some (s.put key (.tables ([] :: items)))
      | some _ => none)
    path

end Table

mutual

/-- The value that a member stands for. -/
def Part.value : Part → Toml
  | .fixed v => v
  | .table _ members => .table (partValues members)
  | .tables items => .array (tableValues items).reverse

/-- The values of the members of a table. -/
def partValues : List (String × Part) → List (String × Toml)
  | [] => []
  | (key, part) :: rest => (key, part.value) :: partValues rest

/-- The values of several tables. -/
def tableValues : List (List (String × Part)) → List Toml
  | [] => []
  | members :: rest => .table (partValues members) :: tableValues rest

end

/-- The value that a table stands for. -/
def Table.value (t : Table) : Toml := .table (partValues t.members)

end LayeredConfig.Toml
