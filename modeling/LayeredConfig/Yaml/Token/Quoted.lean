import LayeredConfig.Text.Hex
import LayeredConfig.Yaml.Token.Fold

/-!
# Quoted scalars

Texts in single quotes, where two quotes stand for one, and in double quotes, where escapes are resolved and a
backslash at the end of a line joins it with the next.
-/

namespace LayeredConfig.Yaml

/-- The character of an escape after its backslash, and how many characters spell it. -/
def escape? : List Char → Option (Char × Nat)
  | [] => none
  | c :: cs =>
    match c with
    | '0' => some ('\x00', 1)
    | 'a' => some ('\x07', 1)
    | 'b' => some ('\x08', 1)
    | 't' => some ('\t', 1)
    | '\t' => some ('\t', 1)
    | 'n' => some ('\n', 1)
    | 'v' => some ('\x0b', 1)
    | 'f' => some ('\x0c', 1)
    | 'r' => some ('\r', 1)
    | 'e' => some ('\x1b', 1)
    | ' ' => some (' ', 1)
    | '"' => some ('"', 1)
    | '/' => some ('/', 1)
    | '\\' => some ('\\', 1)
    | 'N' => some ('\u0085', 1)
    | '_' => some ('\u00a0', 1)
    | 'L' => some ('\u2028', 1)
    | 'P' => some ('\u2029', 1)
    | 'x' => (Text.codeChar? 2 cs).map (·, 3)
    | 'u' => (Text.codeChar? 4 cs).map (·, 5)
    | 'U' => (Text.codeChar? 8 cs).map (·, 9)
    | _ => none

/-- What ends a run of characters of a quoted scalar. -/
inductive RunEnd where
  | quote
  | blank
  | escapedBreak
  deriving DecidableEq, Repr

/-- Characters of a quoted scalar without blanks between them, how many characters spell them, and what ends
them; the ending is not among the characters that are counted. -/
structure Run where
  text : List Char
  length : Nat
  ends : RunEnd

private def Run.cons (c : Char) (n : Nat) (r : Run) : Run := ⟨c :: r.text, r.length + n, r.ends⟩

/-- The run at the start of a text. -/
def readRun (single : Bool) (cs : List Char) : Option Run :=
  match cs with
  | [] => some ⟨[], 0, .blank⟩
  | '\'' :: '\'' :: cs =>
    if single then (readRun single cs).map (Run.cons '\'' 2)
    else (readRun single cs).map fun r => (r.cons '\'' 1).cons '\'' 1
  | c :: cs =>
    if isBlank c ∨ isBreak c then some ⟨[], 0, .blank⟩
    else if c = (if single then '\'' else '"') then some ⟨[], 0, .quote⟩
    else if c = '\\' ∧ !single then
      if !cs.isEmpty && startsBreak cs then some ⟨[], 0, .escapedBreak⟩
      else
        match escape? cs with
        | some (e, n) => (readRun single (cs.drop n)).map (Run.cons e (n + 1))
        | none => none
    else (readRun single cs).map (Run.cons c 1)
termination_by cs.length
decreasing_by all_goals simp only [List.length_drop, List.length_cons]; omega

/-- Reads on a quoted scalar whose text so far is `text`, and gives the cursor after the closing quote. -/
def readQuoted (single : Bool) (text : List Char) (c : Cursor) : (fuel : Nat) → Option (List Char × Cursor)
  | 0 => none
  | fuel + 1 =>
    if c.atDocumentMark ∨ c.rest.isEmpty then none
    else
      match readRun single c.rest with
      | none => none
      | some run =>
        let text := text ++ run.text
        let c := c.drop run.length
        match run.ends with
        | .quote => some (text, c.drop 1)
        | .blank => continueAfter single text .none c fuel
        | .escapedBreak =>
          let c := (c.drop 1).readBreak.2
          if c.rest.head? = some '"' then some (text, c.drop 1)
          else continueAfter single text (.lines [] []) c fuel
where
  /-- Reads a gap and then the rest of the scalar. -/
  continueAfter (single : Bool) (text : List Char) (gap : Gap) (c : Cursor) (fuel : Nat) :
      Option (List Char × Cursor) :=
    match Gap.read (-1) gap c (c.rest.length + 1) with
    | none => none
    | some (gap, c) => readQuoted single (text ++ gap.fold) c fuel

end LayeredConfig.Yaml
