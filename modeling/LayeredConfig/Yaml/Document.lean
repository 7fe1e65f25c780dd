import LayeredConfig.Yaml.Node
import LayeredConfig.Yaml.Scalar
import LayeredConfig.Yaml.Token.Stream

/-!
# YAML documents

The value of a text: its nodes with aliases replaced and scalars read.  Collections nest up to a limit, which also
ends an alias inside its own anchor, and the number of aliases that are replaced is limited by the size of the
text.  The keys of a mapping are distinct.
-/

namespace LayeredConfig.Yaml

/-- How deep collections nest. -/
def depthLimit : Nat := 128

/-- So many aliases may be replaced for each start and end of a node. -/
def aliasLimit : Nat := 100

private def sameFloat : Binary → Binary → Bool
  | .nan, .nan => true
  | x, y => Binary.same x y

mutual

/-- Whether two keys are the same; the members of a mapping may come in any order. -/
def sameKey : Yaml → Yaml → Bool
  | null, null => true
  | boolean a, boolean b => a == b
  | integer m, integer n => m == n
  | float x, float y => sameFloat x y
  | string s, string t => s == t
  | sequence xs, sequence ys => sameKeys xs ys
  | mapping xs, mapping ys => xs.length == ys.length && sameMembers xs ys
  | tagged s x, tagged t y => s == t && sameKey x y
  | _, _ => false

def sameKeys : List Yaml → List Yaml → Bool
  | [], [] => true
  | x :: xs, y :: ys => sameKey x y && sameKeys xs ys
  | _, _ => false

/-- Whether each of some members has its like among others. -/
def sameMembers : List (Yaml × Yaml) → List (Yaml × Yaml) → Bool
  | [], _ => true
  | (k, v) :: rest, ys => ys.any (fun p => sameKey k p.1 && sameKey v p.2) && sameMembers rest ys

end

/-- A value, and how many aliases have been replaced. -/
private abbrev Counted (α : Type) := Option (α × Nat)

private def valuesOf (f : Node → Nat → Counted Yaml) : List Node → Nat → Counted (List Yaml)
  | [], jumps => some ([], jumps)
  | n :: rest, jumps =>
    match f n jumps with
    | none => none
    | some (y, jumps) => (valuesOf f rest jumps).map fun p => (y :: p.1, p.2)

/-- The members of a mapping; `members` are those before. -/
private def membersOf (key value : Node → Nat → Counted Yaml) (members : List (Yaml × Yaml)) :
    List (Node × Node) → Nat → Counted (List (Yaml × Yaml))
  | [], jumps => some (members, jumps)
  | (k, v) :: rest, jumps =>
    match key k jumps with
    | none => none
    | some (k, jumps) =>
      if members.any fun p => sameKey p.1 k then none
      else
        match value v jumps with
        | none => none
        | some (v, jumps) => membersOf key value (members ++ [(k, v)]) rest jumps

/-- The tag of an application: one that starts with the sign of tags, without it. -/
private def ownTag? (tag : Option String) : Option String :=
  match tag with
  | none => none
  | some tag => if tag.toList.head? = some '!' then some (String.ofList (tag.toList.drop 1)) else none

private def withTag (tag : Option String) (y : Counted Yaml) : Counted Yaml :=
  match tag with
  | none => y
  | some "" => none
  | some tag => y.map fun p => (.tagged tag p.1, p.2)

/-- The value of a node that is no alias.  `tagged` holds when a tag of the application counts already. -/
private def contentValue (children : Bool → Node → Nat → Counted Yaml) (tagged : Bool) (n : Node) (jumps : Nat) :
    Counted Yaml :=
  let own := fun tag => if tagged then none else ownTag? tag
  match n with
  | .alias _ => none
  | .scalar tag w =>
    let t := own tag
    withTag t ((resolve (if tagged ∨ t.isSome then none else tag) w).map (·, jumps))
  | .sequence tag items =>
    withTag (own tag) ((valuesOf (children false) items jumps).map fun p => (.sequence p.1, p.2))
  | .mapping tag members =>
    let t := own tag
    withTag t ((membersOf (children (tagged || t.isSome)) (children false) [] members jumps).map fun p =>
      (.mapping p.1, p.2))

private def nothing : Bool → Node → Nat → Counted Yaml
  | _, _, _ => none

private def isCollection : Node → Bool
  | .sequence _ _ => true
  | .mapping _ _ => true
  | _ => false

/-- The value of a node inside of which collections may nest `depth` deep. -/
private def valueOf (d : Document) (limit : Nat) (depth : Nat) (tagged : Bool) (n : Node) (jumps : Nat) : Counted Yaml :=
  let children := match depth with
    | 0 => nothing
    | depth + 1 => valueOf d limit depth
  let content := fun (tagged : Bool) (n : Node) (jumps : Nat) =>
    if isCollection n && depth == 0 then none else contentValue children tagged n jumps
  match n with
  | .alias number =>
    if limit < jumps + 1 then none
    else
      match d.anchors.node? number with
      | some n => content false n (jumps + 1)
      | none => none
  | n => content tagged n jumps

/-- The value of a text; `none` if the text is malformed. -/
def parse? (text : String) : Option Yaml := do
  let tokens ← tokens? text
  let d ← document? tokens
  let p ← valueOf d (aliasLimit * d.root.events) depthLimit false d.root 0
  return p.1

end LayeredConfig.Yaml
