/-!
# Paths

A path is a text whose parts are separated by slashes.  Two paths are the same when their components agree:
repeated and closing slashes do not count, nor does a dot, unless the path starts with it.
-/

namespace LayeredConfig.Path

/-- The texts between the slashes. -/
def pieces : List Char → List (List Char)
  | [] => [[]]
  | c :: cs =>
    if c = '/' then [] :: pieces cs
    else
      match pieces cs with
      | [] => [[c]]
      | piece :: rest => (c :: piece) :: rest

/-- A step of a path. -/
inductive Component where
  | root
  | here
  | up
  | name (text : List Char)
  deriving DecidableEq, Repr

private def component? (piece : List Char) : Option Component :=
  if piece = [] ∨ piece = ['.'] then none
  else if piece = ['.', '.'] then some .up
  else some (.name piece)

/-- The components of a path. -/
def components (path : String) : List Component :=
  let cs := path.toList
  let parts := pieces cs
  let start : List Component :=
    if cs.head? = some '/' then [.root] else if parts.head? = some ['.'] then [.here] else []
  start ++ parts.filterMap component?

/-- Whether two paths have the same components. -/
def same (p q : String) : Bool := components p == components q

/-- The name of the file a path leads to: its last component, if that is a name. -/
def fileName? (path : String) : Option (List Char) :=
  match (components path).getLast? with
  | some (.name text) => some text
  | _ => none

/-- What follows the last dot of the file name; a dot that starts the name does not count. -/
def extension? (path : String) : Option (List Char) :=
  (fileName? path).bind fun name =>
    let ending := (name.reverse.takeWhile (· ≠ '.')).reverse
    if ending.length + 1 < name.length then some ending else none

theorem same_refl (p : String) : same p p = true := by simp [same]

theorem same_comm (p q : String) : same p q = same q p := by
  unfold same
  exact BEq.comm

end LayeredConfig.Path
