import LayeredConfig.Yaml.Token.Block
import LayeredConfig.Yaml.Token.Plain
import LayeredConfig.Yaml.Token.Property
import LayeredConfig.Yaml.Token.Quoted

/-!
# Streams of tokens

Reads a text into its tokens.  Indentation opens and closes blocks.  A colon makes a key of the scalar or
collection before it, if that stands on the same line not too far away: the token for the key is then put in
before it, and where no block of that indentation is open, the start of one.
-/

namespace LayeredConfig.Yaml

/-- A place at which a key without question mark may start. -/
private structure KeyPlace where
  /-- Whether a colon must follow, since nothing else can stand here. -/
  required : Bool
  /-- How many tokens stand before it. -/
  tokens : Nat
  index : Nat
  line : Nat
  column : Nat

/-- A text that is partly read. -/
private structure Reader where
  cursor : Cursor
  /-- The indentation of the innermost open block, and of the blocks around it. -/
  indent : Int
  outer : List Int
  /-- Whether a key may start here. -/
  keyAllowed : Bool
  /-- The possible key of the innermost flow collection or, outside of them, of the blocks. -/
  place : Option KeyPlace
  /-- The possible keys around the open flow collections. -/
  places : List (Option KeyPlace)
  /-- The tokens, the last one first, and their number. -/
  tokens : List Token
  count : Nat

namespace Reader

private def start (text : List Char) : Reader := ⟨Cursor.start text, -1, [], true, none, [], [], 0⟩

private def inFlow (r : Reader) : Bool := !r.places.isEmpty

private def add (r : Reader) (t : Token) : Reader := { r with tokens := t :: r.tokens, count := r.count + 1 }

private def insert (r : Reader) (position : Nat) (t : Token) : Reader :=
  let later := r.count - position
  { r with tokens := r.tokens.take later ++ t :: r.tokens.drop later, count := r.count + 1 }

/-- Opens a block at a column that is indented more than the open ones; its start stands after `position` tokens. -/
private def openBlock (r : Reader) (column : Nat) (position : Nat) (t : Token) : Reader :=
  if r.inFlow ∨ (column : Int) ≤ r.indent then r
  else { r.insert position t with indent := column, outer := r.indent :: r.outer }

/-- Closes the blocks that are indented more than `column`. -/
private def closeBlocks (r : Reader) (column : Int) : Reader :=
  if r.inFlow then r
  else
    let closed := (r.indent :: r.outer).takeWhile (column < ·)
    let rest := (r.indent :: r.outer).drop closed.length
    { r with tokens := List.replicate closed.length .blockEnd ++ r.tokens, count := r.count + closed.length,
             indent := rest.headD (-1), outer := rest.drop 1 }

/-- Gives up the possible key; `none` if it is required. -/
private def forgetKey (r : Reader) : Option Reader :=
  match r.place with
  | some p => if p.required then none else some { r with place := none }
  | none => some r

/-- Notes that a key may start here. -/
private def noteKey (r : Reader) : Option Reader :=
  if r.keyAllowed then
    let c := r.cursor
    let required := !r.inFlow && r.indent == (c.column : Int)
    r.forgetKey.map fun r => { r with place := some ⟨required, r.count, c.index, c.line, c.column⟩ }
  else some r

/-- How many characters a key may have. -/
private def keyLimit : Nat := 1024

private def isStale (c : Cursor) : Option KeyPlace → Bool
  | some p => p.line < c.line || p.index + keyLimit < c.index
  | none => false

private def isRequired : Option KeyPlace → Bool
  | some p => p.required
  | none => false

/-- Gives up the possible keys that are too far away; `none` if one of them is required. -/
private def forgetStaleKeys (r : Reader) : Option Reader :=
  let stale := isStale r.cursor
  if (r.place :: r.places).any fun p => stale p && isRequired p then none
  else
    let fresh := fun p => if stale p then none else p
    some { r with place := fresh r.place, places := r.places.map fresh }

/-- Skips blanks, comments and line ends before a token. -/
private def skipToToken (r : Reader) : (fuel : Nat) → Reader
  | 0 => r
  | fuel + 1 =>
    let c := r.cursor
    let c := if c.index = 0 ∧ c.rest.head? = some '\ufeff' then c.drop 1 else c
    let tabs := r.inFlow || !r.keyAllowed
    let c := c.skipWhile fun ch => ch == ' ' || (tabs && ch == '\t')
    let c := if c.rest.head? = some '#' then c.skipWhile fun _ => true else c
    if !c.rest.isEmpty && startsBreak c.rest then
      skipToToken { r with cursor := c.readBreak.2, keyAllowed := r.keyAllowed || !r.inFlow } fuel
    else { r with cursor := c }

/-- The reader after a token of `n` characters. -/
private def punctuate (r : Reader) (t : Token) (n : Nat) (keyAllowed : Bool) : Reader :=
  { r.add t with cursor := r.cursor.drop n, keyAllowed }

private def readDocumentMark (r : Reader) (t : Token) : Option Reader :=
  (r.closeBlocks (-1)).forgetKey.map fun r => r.punctuate t 3 false

private def readDirectiveLine (r : Reader) : Option Reader := do
  let r ← (r.closeBlocks (-1)).forgetKey
  let (t, c) ← readDirective (r.cursor.drop 1)
  return { r.add t with cursor := c, keyAllowed := false }

private def openFlow (r : Reader) (t : Token) : Option Reader :=
  r.noteKey.map fun r => { r with places := r.place :: r.places, place := none }.punctuate t 1 true

private def closeFlow (r : Reader) (t : Token) : Option Reader :=
  r.forgetKey.map fun r => { r with place := r.places.headD none, places := r.places.drop 1 }.punctuate t 1 false

private def readBlockEntry (r : Reader) : Option Reader :=
  if !r.inFlow && !r.keyAllowed then none
  else
    (r.openBlock r.cursor.column r.count .blockSequenceStart).forgetKey.map fun r =>
      r.punctuate .blockEntry 1 true

private def readKeySign (r : Reader) : Option Reader :=
  if !r.inFlow && !r.keyAllowed then none
  else
    (r.openBlock r.cursor.column r.count .blockMappingStart).forgetKey.map fun r =>
      r.punctuate .key 1 (!r.inFlow)

private def readValueSign (r : Reader) : Option Reader :=
  match r.place with
  | some p =>
    let r := ((r.insert p.tokens .key).openBlock p.column p.tokens .blockMappingStart)
    some ({ r with place := none }.punctuate .value 1 false)
  | none =>
    if !r.inFlow && !r.keyAllowed then none
    else
      some ((r.openBlock r.cursor.column r.count .blockMappingStart).punctuate .value 1 (!r.inFlow))

private def readNamed (r : Reader) (toToken : String → Token) : Option Reader := do
  let r ← r.noteKey
  let (name, c) ← readName (r.cursor.drop 1)
  return { r.add (toToken name) with cursor := c, keyAllowed := false }

private def readTagToken (r : Reader) : Option Reader := do
  let r ← r.noteKey
  let (t, c) ← readTag r.inFlow r.cursor
  return { r.add t with cursor := c, keyAllowed := false }

private def readBlockScalar (r : Reader) (folded : Bool) : Option Reader := do
  let r ← r.forgetKey
  let (text, c) ← readBlock folded r.indent (r.cursor.drop 1)
  return { r.add (.scalar ⟨String.ofList text, false⟩) with cursor := c, keyAllowed := true }

private def readQuotedScalar (r : Reader) (single : Bool) : Option Reader := do
  let r ← r.noteKey
  let (text, c) ← readQuoted single [] (r.cursor.drop 1) (r.cursor.rest.length + 1)
  return { r.add (.scalar ⟨String.ofList text, false⟩) with cursor := c, keyAllowed := false }

private def readPlainScalar (r : Reader) : Option Reader := do
  let r ← r.noteKey
  let d ← readPlain r.inFlow (r.indent + 1) ⟨[], .none, r.cursor⟩ (r.cursor.rest.length + 1)
  return { r.add (.scalar ⟨String.ofList d.text, true⟩) with cursor := d.cursor, keyAllowed := d.gap.hasLines }

/-- The characters that start no plain scalar. -/
private def isIndicator (c : Char) : Bool :=
  ['-', '?', ':', ',', '[', ']', '\x7b', '\x7d', '#', '&', '*', '!', '|', '>', '\'', '"', '%', '@', '\x60'].contains c

private def startsPlain (flow : Bool) (c : Char) (cs : List Char) : Bool :=
  !(isBlank c || isBreak c || isIndicator c)
    || (c == '-' && !(match cs with | d :: _ => isBlank d | [] => false))
    || (!flow && (c == '?' || c == ':') && !startsBlank cs)

/-- The reader after the next token, which starts with `ch`. -/
private def readToken (r : Reader) (ch : Char) (cs : List Char) : Option Reader :=
  let flow := r.inFlow
  let column := r.cursor.column
  if column = 0 ∧ ch = '%' then r.readDirectiveLine
  else if r.cursor.atDocumentMark then r.readDocumentMark (if ch = '-' then .documentStart else .documentEnd)
  else if ch = '[' then r.openFlow .flowSequenceStart
  else if ch = '\x7b' then r.openFlow .flowMappingStart
  else if ch = ']' then r.closeFlow .flowSequenceEnd
  else if ch = '\x7d' then r.closeFlow .flowMappingEnd
  else if ch = ',' then r.forgetKey.map fun r => r.punctuate .flowEntry 1 true
  else if ch = '-' ∧ startsBlank cs then r.readBlockEntry
  else if ch = '?' ∧ (flow ∨ startsBlank cs) then r.readKeySign
  else if ch = ':' ∧ (flow ∨ startsBlank cs) then r.readValueSign
  else if ch = '*' then r.readNamed .alias
  else if ch = '&' then r.readNamed .anchor
  else if ch = '!' then r.readTagToken
  else if ch = '|' ∧ !flow then r.readBlockScalar false
  else if ch = '>' ∧ !flow then r.readBlockScalar true
  else if ch = '\'' then r.readQuotedScalar true
  else if ch = '"' then r.readQuotedScalar false
  else if startsPlain flow ch cs then r.readPlainScalar
  else none

/-- The reader at the end of the text. -/
private def finish (r : Reader) : Option Reader := (r.closeBlocks (-1)).forgetKey

private def readAll (r : Reader) : (fuel : Nat) → Option Reader
  | 0 => none
  | fuel + 1 =>
    match (r.skipToToken (r.cursor.rest.length + 1)).forgetStaleKeys with
    | none => none
    | some r =>
      let r := r.closeBlocks r.cursor.column
      match r.cursor.rest with
      | [] => r.finish
      | ch :: cs => (r.readToken ch cs).bind fun r => readAll r fuel

end Reader

/-- The tokens of a text; `none` if it is malformed. -/
def tokens? (text : String) : Option (List Token) :=
  let cs := text.toList
  if cs.all isAllowed then
    (Reader.readAll (Reader.start cs) (cs.length + 1)).map fun r => r.tokens.reverse
  else none

end LayeredConfig.Yaml
