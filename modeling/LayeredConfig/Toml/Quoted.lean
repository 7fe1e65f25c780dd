import LayeredConfig.Text.Hex
import LayeredConfig.Toml.Gap

/-!
# TOML strings

Texts in quotes, on one line or on several.  Double quotes resolve escapes, single quotes take everything as it
stands.  Each reader starts after the opening quotes and gives the text and what follows the closing quotes.
-/

namespace LayeredConfig.Toml

/-- The character of an escape after its backslash, and how many characters spell it. -/
def escape? : List Char → Option (Char × Nat)
  | [] => none
  | c :: cs =>
    match c with
    | 'b' => some ('\x08', 1)
    | 't' => some ('\t', 1)
    | 'n' => some ('\n', 1)
    | 'f' => some ('\x0c', 1)
    | 'r' => some ('\r', 1)
    | 'e' => some ('\x1b', 1)
    | '"' => some ('"', 1)
    | '\\' => some ('\\', 1)
    | 'x' => (Text.codeChar? 2 cs).map (·, 3)
    | 'u' => (Text.codeChar? 4 cs).map (·, 5)
    | 'U' => (Text.codeChar? 8 cs).map (·, 9)
    | _ => none

private def cons (c : Char) (p : List Char × List Char) : List Char × List Char := (c :: p.1, p.2)

/-- A text in double quotes on one line. -/
def readBasic (cs : List Char) : Option (List Char × List Char) :=
  match cs with
  | [] => none
  | c :: cs =>
    if c = '"' then some ([], cs)
    else if c = '\\' then
      match escape? cs with
      | some (e, n) => (readBasic (cs.drop n)).map (cons e)
      | none => none
    else if isControl c then none
    else (readBasic cs).map (cons c)
termination_by cs.length
decreasing_by all_goals simp only [List.length_drop, List.length_cons]; omega

/-- A text in single quotes on one line. -/
def readLiteral : List Char → Option (List Char × List Char)
  | [] => none
  | c :: cs =>
    if c = '\'' then some ([], cs)
    else if isControl c then none
    else (readLiteral cs).map (cons c)

/-- What a run of `count` quotes inside three quotes means: how many belong to the text, and whether the text
ends.  Up to two quotes stand before the closing ones. -/
def quoteRun (count : Nat) : Option (Nat × Bool) :=
  if count < 3 then some (count, false) else if count ≤ 5 then some (count - 3, true) else none

/-- The blanks and line ends after a backslash at the end of a line, or `none` if there is no line end. -/
def lineJoin? (cs : List Char) : Option (List Char) :=
  let isSpace := fun c : Char => isBlank c || c == '\n' || c == '\r'
  match skipBlanks cs with
  | '\n' :: _ => some (cs.dropWhile isSpace)
  | '\r' :: '\n' :: _ => some (cs.dropWhile isSpace)
  | _ => none

private theorem length_dropWhile_le (p : Char → Bool) (cs : List Char) : (cs.dropWhile p).length ≤ cs.length :=
  (List.dropWhile_suffix p).length_le

private theorem length_lineJoin_le {cs rest : List Char} (h : lineJoin? cs = some rest) :
    rest.length ≤ cs.length := by
  unfold lineJoin? at h
  split at h
  · obtain rfl := Option.some.inj h
    exact length_dropWhile_le _ _
  · obtain rfl := Option.some.inj h
    exact length_dropWhile_le _ _
  · simp at h

/-- A text in three quotes, which may have several lines. -/
def readLong (quote : Char) (escapes : Bool) (cs : List Char) : Option (List Char × List Char) :=
  match cs with
  | [] => none
  | '\r' :: '\n' :: cs => (readLong quote escapes cs).map fun p => ('\r' :: '\n' :: p.1, p.2)
  | c :: cs =>
    if c = quote then
      let count := (cs.takeWhile (· = quote)).length + 1
      match quoteRun count with
      | some (kept, true) => some (List.replicate kept quote, cs.drop (count - 1))
      | some (kept, false) =>
        (readLong quote escapes (cs.drop (count - 1))).map fun p => (List.replicate kept quote ++ p.1, p.2)
      | none => none
    else if c = '\\' ∧ escapes then
      match _ : lineJoin? cs with
      | some rest => readLong quote escapes rest
      | none =>
        match escape? cs with
        | some (e, n) => (readLong quote escapes (cs.drop n)).map (cons e)
        | none => none
    else if isControl c ∧ c ≠ '\n' then none
    else (readLong quote escapes cs).map (cons c)
termination_by cs.length
decreasing_by
  · simp only [List.length_cons]
    omega
  · simp only [List.length_drop, List.length_cons]
    omega
  · have := length_lineJoin_le ‹_›
    simp only [List.length_cons]
    omega
  · simp only [List.length_drop, List.length_cons]
    omega
  · simp only [List.length_cons]
    omega

/-- The text after a line end at its start. -/
def skipFirstNewline : List Char → List Char
  | '\n' :: cs => cs
  | '\r' :: '\n' :: cs => cs
  | cs => cs

/-- A quoted text and what follows it. -/
def readQuoted : List Char → Option (List Char × List Char)
  | '"' :: '"' :: '"' :: cs => readLong '"' true (skipFirstNewline cs)
  | '\'' :: '\'' :: '\'' :: cs => readLong '\'' false (skipFirstNewline cs)
  | '"' :: cs => readBasic cs
  | '\'' :: cs => readLiteral cs
  | _ => none

end LayeredConfig.Toml
