import LayeredConfig.Yaml.Token

/-!
# YAML nodes

The tree that tokens spell, before aliases are replaced and scalars are read.  An anchor gets a number, which
aliases refer to; the number of a new anchor is the number of names that are in use, so a name that is used again
may share its number with a later one, and the later anchor then counts for both.
-/

namespace LayeredConfig.Yaml

/-- A node of a YAML text. -/
inductive Node where
  | alias (number : Nat)
  | scalar (tag : Option String) (s : Written)
  | sequence (tag : Option String) (items : List Node)
  | mapping (tag : Option String) (members : List (Node × Node))

mutual

/-- How many starts and ends of nodes there are in a tree. -/
def Node.events : Node → Nat
  | .alias _ => 1
  | .scalar _ _ => 1
  | .sequence _ items => itemEvents items + 2
  | .mapping _ members => memberEvents members + 2

def itemEvents : List Node → Nat
  | [] => 0
  | n :: rest => n.events + itemEvents rest

def memberEvents : List (Node × Node) → Nat
  | [] => 0
  | (k, v) :: rest => k.events + v.events + memberEvents rest

end

/-- The anchors of a text up to some place. -/
structure Anchors where
  /-- The numbers of names. -/
  names : List (String × Nat)
  /-- For each number, which anchored node it stands for, counted from the start of the text. -/
  targets : List (Nat × Nat)
  /-- The anchored nodes that are complete. -/
  nodes : List (Nat × Node)
  /-- How many anchored nodes have started. -/
  started : Nat

namespace Anchors

/-- No anchors. -/
def none : Anchors := ⟨[], [], [], 0⟩

/-- The anchors after a node with an anchor has started. -/
def start (a : Anchors) (name : String) : Anchors :=
  let number := a.names.length
  { a with names := (name, number) :: a.names.filter fun p => p.1 ≠ name,
           targets := (number, a.started) :: a.targets, started := a.started + 1 }

/-- The anchors after an anchored node is complete. -/
def complete (a : Anchors) (ordinal : Nat) (n : Node) : Anchors := { a with nodes := (ordinal, n) :: a.nodes }

/-- The node that a number stands for. -/
def node? (a : Anchors) (number : Nat) : Option Node :=
  (a.targets.lookup number).bind fun ordinal => a.nodes.lookup ordinal

end Anchors

/-- Some tokens that are read, and what is left of them. -/
structure Parsed (α : Type) where
  value : α
  rest : List Token
  anchors : Anchors

namespace Parsed

private def map {α β : Type} (p : Parsed α) (f : α → β) : Parsed β := ⟨f p.value, p.rest, p.anchors⟩

end Parsed

/-- The properties before a node. -/
private structure Properties where
  anchor : Option String
  tag : Option (String × String)
  rest : List Token

private def readProperties : List Token → Properties
  | .anchor a :: .tag handle suffix :: rest => ⟨some a, some (handle, suffix), rest⟩
  | .anchor a :: rest => ⟨some a, none, rest⟩
  | .tag handle suffix :: .anchor a :: rest => ⟨some a, some (handle, suffix), rest⟩
  | .tag handle suffix :: rest => ⟨none, some (handle, suffix), rest⟩
  | rest => ⟨none, none, rest⟩

/-- The whole tag; its handle must be known. -/
private def wholeTag (handles : List (String × String)) (handle suffix : String) : Option String :=
  if handle.isEmpty then some suffix else (handles.lookup handle).map (· ++ suffix)

/-- A node without any text. -/
private def emptyNode (tag : Option String) : Node := .scalar tag ⟨"", true⟩

private def scalarNode (tag : Option String) (s : Written) : Node := .scalar (if tag = some "!" then none else tag) s

/-- Whether a key or value of a block mapping is left out before a token. -/
private def endsBlockPart : List Token → Bool
  | .key :: _ => true
  | .value :: _ => true
  | .blockEnd :: _ => true
  | _ => false

/-- Whether an item of a block sequence is left out before a token. -/
private def endsBlockItem : List Token → Bool
  | .blockEntry :: _ => true
  | .blockEnd :: _ => true
  | _ => false

private def endsIndentlessItem (tokens : List Token) : Bool := endsBlockItem tokens || endsBlockPart tokens

private def endsFlowKey (isSequence : Bool) : List Token → Bool
  | .value :: _ => true
  | .flowEntry :: _ => true
  | .flowSequenceEnd :: _ => isSequence
  | .flowMappingEnd :: _ => !isSequence
  | _ => false

private def endsFlowValue (isSequence : Bool) : List Token → Bool
  | .flowEntry :: _ => true
  | .flowSequenceEnd :: _ => isSequence
  | .flowMappingEnd :: _ => !isSequence
  | _ => false

/-- The tokens after the comma that stands before every part of a flow collection but the first. -/
private def afterComma (first : Bool) (tokens : List Token) : Option (List Token) :=
  if first then some tokens
  else
    match tokens with
    | .flowEntry :: rest => some rest
    | _ => none

mutual

/-- Reads a node.  Blocks may start only if `block` holds, and a sequence without indentation only if
`indentless` does. -/
private def readNode (handles : List (String × String)) (block indentless : Bool) (anchors : Anchors)
    (tokens : List Token) : (fuel : Nat) → Option (Parsed Node)
  | 0 => none
  | fuel + 1 =>
    match tokens with
    | .alias name :: rest => (anchors.names.lookup name).map fun number => ⟨.alias number, rest, anchors⟩
    | _ =>
      let p := readProperties tokens
      let started := match p.anchor with
        | some name => anchors.start name
        | none => anchors
      let tag : Option (Option String) := match p.tag with
        | some (handle, suffix) => (wholeTag handles handle suffix).map some
        | none => some none
      match tag with
      | none => none
      | some tag =>
        match readContent handles block indentless (p.anchor.isSome || tag.isSome) tag started p.rest fuel with
        | none => none
        | some r =>
          match p.anchor with
          | some _ => some { r with anchors := r.anchors.complete anchors.started r.value }
          | none => some r

/-- Reads a node after its properties; it may be left out if it has any. -/
private def readContent (handles : List (String × String)) (block indentless hasProperties : Bool)
    (tag : Option String) (anchors : Anchors) (tokens : List Token) : (fuel : Nat) → Option (Parsed Node)
  | 0 => none
  | fuel + 1 =>
    let omitted := if hasProperties then some ⟨emptyNode tag, tokens, anchors⟩ else none
    match tokens with
    | .scalar s :: rest => some ⟨scalarNode tag s, rest, anchors⟩
    | .flowSequenceStart :: rest =>
      (readFlowItems handles true [] anchors rest fuel).map fun p => p.map (.sequence tag)
    | .flowMappingStart :: rest =>
      (readFlowMembers handles true [] anchors rest fuel).map fun p => p.map (.mapping tag)
    | .blockEntry :: _ =>
      if indentless then (readIndentlessItems handles [] anchors tokens fuel).map fun p => p.map (.sequence tag)
      else omitted
    | .blockSequenceStart :: rest =>
      if block then (readBlockItems handles [] anchors rest fuel).map fun p => p.map (.sequence tag) else omitted
    | .blockMappingStart :: rest =>
      if block then (readBlockMembers handles [] anchors rest fuel).map fun p => p.map (.mapping tag) else omitted
    | _ => omitted

/-- Reads the items of a block sequence; `items` are those before, the last one first. -/
private def readBlockItems (handles : List (String × String)) (items : List Node) (anchors : Anchors)
    (tokens : List Token) : (fuel : Nat) → Option (Parsed (List Node))
  | 0 => none
  | fuel + 1 =>
    match tokens with
    | .blockEnd :: rest => some ⟨items.reverse, rest, anchors⟩
    | .blockEntry :: rest =>
      if endsBlockItem rest then readBlockItems handles (emptyNode none :: items) anchors rest fuel
      else
        match readNode handles true false anchors rest fuel with
        | none => none
        | some p => readBlockItems handles (p.value :: items) p.anchors p.rest fuel
    | _ => none

/-- Reads the items of a block sequence that is not indented more than the mapping around it. -/
private def readIndentlessItems (handles : List (String × String)) (items : List Node) (anchors : Anchors)
    (tokens : List Token) : (fuel : Nat) → Option (Parsed (List Node))
  | 0 => none
  | fuel + 1 =>
    match tokens with
    | .blockEntry :: rest =>
      if endsIndentlessItem rest then readIndentlessItems handles (emptyNode none :: items) anchors rest fuel
      else
        match readNode handles true false anchors rest fuel with
        | none => none
        | some p => readIndentlessItems handles (p.value :: items) p.anchors p.rest fuel
    | _ => some ⟨items.reverse, tokens, anchors⟩

/-- Reads the members of a block mapping. -/
private def readBlockMembers (handles : List (String × String)) (members : List (Node × Node)) (anchors : Anchors)
    (tokens : List Token) : (fuel : Nat) → Option (Parsed (List (Node × Node)))
  | 0 => none
  | fuel + 1 =>
    match tokens with
    | .blockEnd :: rest => some ⟨members.reverse, rest, anchors⟩
    | .key :: rest =>
      match readBlockPart handles anchors rest fuel with
      | none => none
      | some k =>
        match readBlockValue handles k.anchors k.rest fuel with
        | none => none
        | some v => readBlockMembers handles ((k.value, v.value) :: members) v.anchors v.rest fuel
    | .value :: _ => none
    | _ => none

/-- Reads a key or a value of a block mapping after its sign. -/
private def readBlockPart (handles : List (String × String)) (anchors : Anchors) (tokens : List Token) :
    (fuel : Nat) → Option (Parsed Node)
  | 0 => none
  | fuel + 1 =>
    if endsBlockPart tokens then some ⟨emptyNode none, tokens, anchors⟩
    else readNode handles true true anchors tokens fuel

/-- Reads the value of a block mapping that belongs to the key before it. -/
private def readBlockValue (handles : List (String × String)) (anchors : Anchors) (tokens : List Token) :
    (fuel : Nat) → Option (Parsed Node)
  | 0 => none
  | fuel + 1 =>
    match tokens with
    | .value :: rest => readBlockPart handles anchors rest fuel
    | _ => some ⟨emptyNode none, tokens, anchors⟩

/-- Reads the items of a flow sequence; a key and a value make a mapping of their own. -/
private def readFlowItems (handles : List (String × String)) (first : Bool) (items : List Node) (anchors : Anchors)
    (tokens : List Token) : (fuel : Nat) → Option (Parsed (List Node))
  | 0 => none
  | fuel + 1 =>
    match tokens with
    | .flowSequenceEnd :: rest => some ⟨items.reverse, rest, anchors⟩
    | _ =>
      match afterComma first tokens with
      | none => none
      | some (.flowSequenceEnd :: rest) => some ⟨items.reverse, rest, anchors⟩
      | some (.key :: rest) =>
        match readPair handles anchors rest fuel with
        | none => none
        | some p => readFlowItems handles false (p.value :: items) p.anchors p.rest fuel
      | some rest =>
        match readNode handles false false anchors rest fuel with
        | none => none
        | some p => readFlowItems handles false (p.value :: items) p.anchors p.rest fuel

/-- Reads a mapping of one member inside a flow sequence.  A key that is left out takes the next token with it. -/
private def readPair (handles : List (String × String)) (anchors : Anchors) (tokens : List Token) :
    (fuel : Nat) → Option (Parsed Node)
  | 0 => none
  | fuel + 1 =>
    let key := if endsFlowKey true tokens then some ⟨emptyNode none, tokens.drop 1, anchors⟩
      else readNode handles false false anchors tokens fuel
    match key with
    | none => none
    | some k =>
      match readFlowValue handles true k.anchors k.rest fuel with
      | none => none
      | some v => some ⟨.mapping none [(k.value, v.value)], v.rest, v.anchors⟩

/-- Reads the value that belongs to the key before it in a flow collection. -/
private def readFlowValue (handles : List (String × String)) (isSequence : Bool) (anchors : Anchors)
    (tokens : List Token) : (fuel : Nat) → Option (Parsed Node)
  | 0 => none
  | fuel + 1 =>
    match tokens with
    | .value :: rest =>
      if endsFlowValue isSequence rest then some ⟨emptyNode none, rest, anchors⟩
      else readNode handles false false anchors rest fuel
    | _ => some ⟨emptyNode none, tokens, anchors⟩

/-- Reads the members of a flow mapping. -/
private def readFlowMembers (handles : List (String × String)) (first : Bool) (members : List (Node × Node))
    (anchors : Anchors) (tokens : List Token) : (fuel : Nat) → Option (Parsed (List (Node × Node)))
  | 0 => none
  | fuel + 1 =>
    match tokens with
    | .flowMappingEnd :: rest => some ⟨members.reverse, rest, anchors⟩
    | _ =>
      match afterComma first tokens with
      | none => none
      | some (.flowMappingEnd :: rest) => some ⟨members.reverse, rest, anchors⟩
      | some (.key :: rest) =>
        let key := if endsFlowKey false rest then some ⟨emptyNode none, rest, anchors⟩
          else readNode handles false false anchors rest fuel
        match key with
        | none => none
        | some k =>
          match readFlowValue handles false k.anchors k.rest fuel with
          | none => none
          | some v => readFlowMembers handles false ((k.value, v.value) :: members) v.anchors v.rest fuel
      | some rest =>
        match readNode handles false false anchors rest fuel with
        | none => none
        | some k => readFlowMembers handles false ((k.value, emptyNode none) :: members) k.anchors k.rest fuel

end

/-- The directives before a document. -/
private structure Directives where
  hasVersion : Bool
  handles : List (String × String)

private def readDirectives (d : Directives) : List Token → Option (Directives × List Token)
  | .version major minor :: rest =>
    if d.hasVersion ∨ major ≠ 1 ∨ (minor ≠ 1 ∧ minor ≠ 2) then none else readDirectives { d with hasVersion := true } rest
  | .tagHandle handle start :: rest =>
    if (d.handles.lookup handle).isSome then none
    else readDirectives { d with handles := (handle, start) :: d.handles } rest
  | tokens => some (d, tokens)

/-- The tag handles of every document. -/
private def standardHandles : List (String × String) := [("!", "!"), ("!!", "tag:yaml.org,2002:")]

/-- Whether the content of a document is left out before a token. -/
private def endsDocument : List Token → Bool
  | [] => true
  | .version _ _ :: _ => true
  | .tagHandle _ _ :: _ => true
  | .documentStart :: _ => true
  | .documentEnd :: _ => true
  | _ => false

/-- A document: its root and its anchors. -/
structure Document where
  root : Node
  anchors : Anchors

private def readRoot (tokens : List Token) : Option (Parsed Node) :=
  let fuel := 8 * tokens.length + 8
  match readDirectives ⟨false, []⟩ tokens with
  | none => none
  | some (d, .documentStart :: rest) =>
    if endsDocument rest then some ⟨emptyNode none, rest, .none⟩
    else readNode (d.handles ++ standardHandles) true false .none rest fuel
  | some (d, rest) =>
    if d.hasVersion || !d.handles.isEmpty then none else readNode standardHandles true false .none rest fuel

private def isDocumentEnd : Token → Bool
  | .documentEnd => true
  | _ => false

/-- The only document of a text; an empty text has an empty one. -/
def document? (tokens : List Token) : Option Document :=
  if tokens.isEmpty then some ⟨emptyNode none, .none⟩
  else
    match readRoot tokens with
    | none => none
    | some p => if (p.rest.dropWhile isDocumentEnd).isEmpty then some ⟨p.value, p.anchors⟩ else none

end LayeredConfig.Yaml
