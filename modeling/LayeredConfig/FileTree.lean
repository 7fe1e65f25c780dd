import LayeredConfig.Path

/-!
# Files

A tree of files and directories below one directory, in which relative paths are followed part by part.  What is
outside of that directory is not there.
-/

namespace LayeredConfig

/-- What stands at a place of a tree. -/
inductive FileNode where
  | file (contents : ByteArray)
  | directory

/-- Why a file cannot be read. -/
inductive ReadFault where
  | missing
  | notDirectory
  | isDirectory
  | nameTooLong
  /-- The path holds the character with the code zero, which no name has. -/
  | nulInPath
  | denied
  | notText
  deriving DecidableEq, Repr

/-- How the text of a file is got from its path. -/
abbrev FileReader := String → Except ReadFault String

/-- The nodes below a directory, each with the names that lead to it. -/
structure FileTree where
  nodes : List (List (List Char) × FileNode)

namespace FileTree

/-- The tree of an empty directory. -/
def empty : FileTree := ⟨[]⟩

/-- What stands at a place; the directory itself is at the empty place. -/
def node? (t : FileTree) (place : List (List Char)) : Option FileNode :=
  if place = [] then some .directory else t.nodes.lookup place

/-- How many bytes a name may have. -/
def maxNameSize : Nat := 255

/-- How many bytes a path may have. -/
def maxPathSize : Nat := 4095

/-- The place that parts of a path lead to from `place`; every part but the last must lead to a directory. -/
def follow (t : FileTree) (place : List (List Char)) : List (List Char) → Except ReadFault (List (List Char))
  | [] => .ok place
  | part :: parts =>
    match t.node? place with
    | none => .error .missing
    | some (.file _) => .error .notDirectory
    | some .directory =>
      if part = [] ∨ part = ['.'] then t.follow place parts
      else if part = ['.', '.'] then
        if place = [] then .error .missing else t.follow place.dropLast parts
      else if maxNameSize < (String.ofList part).utf8ByteSize then .error .nameTooLong
      else t.follow (place ++ [part]) parts

/-- The text of the file at a path. -/
def read (t : FileTree) : FileReader := fun path =>
  match path.toList with
  | [] => .error .missing
  | '/' :: _ => .error .missing
  | cs =>
    if '\x00' ∈ cs then .error .nulInPath
    else if maxPathSize < path.utf8ByteSize then .error .nameTooLong
    else match t.follow [] (Path.pieces cs) with
    | .error e => .error e
    | .ok place =>
      match t.node? place with
      | none => .error .missing
      | some .directory => .error .isDirectory
      | some (.file bytes) =>
        match String.fromUTF8? bytes with
        | some text => .ok text
        | none => .error .notText

/-- The place one part further, if that is in the tree. -/
private def stepTo? (place : List (List Char)) (part : List Char) : Option (List (List Char)) :=
  if part = [] ∨ part = ['.'] then some place
  else if part = ['.', '.'] then if place = [] then none else some place.dropLast
  else some (place ++ [part])

/-- The place a path names in a tree that has all its directories.  The tree itself is none, and a path that leads out
of the tree names none: nothing is read there, and nothing is put there. -/
def placeOf? (path : String) : Option (List (List Char)) :=
  match path.toList with
  | '/' :: _ => none
  | cs => ((Path.pieces cs).foldlM stepTo? []).filter (· ≠ [])

private def without (t : FileTree) (place : List (List Char)) : List (List (List Char) × FileNode) :=
  t.nodes.filter fun entry => !place.isPrefixOf entry.1

/-- The tree without what stands at a path and below it. -/
def erase (t : FileTree) (path : String) : FileTree :=
  match placeOf? path with
  | none => t
  | some place => ⟨t.without place⟩

private def parents (place : List (List Char)) : List (List (List Char)) :=
  (List.range place.length).map place.take

/-- The tree with a node at a path and the directories that lead there. -/
def put (t : FileTree) (path : String) (node : FileNode) : FileTree :=
  match placeOf? path with
  | none => t
  | some place =>
    let kept := t.without place
    let missing := (parents place).filter fun p => p ≠ [] ∧ (kept.lookup p).isNone
    ⟨(place, node) :: missing.map (·, .directory) ++ kept⟩

end FileTree

end LayeredConfig
