import LayeredConfig.Yaml.Token.Fold

/-!
# Plain scalars

Words without quotes, up to a colon before a blank, a comment, a document mark, a line that is indented too
little, or in flow collections a bracket or comma.
-/

namespace LayeredConfig.Yaml

private def isFlowBracket (c : Char) : Bool := ['[', ']', '\x7b', '\x7d'].contains c

private def startsWith (p : Char → Bool) : List Char → Bool
  | [] => false
  | c :: _ => p c

/-- The word at the start of a text; `none` when in a flow collection a colon stands before a bracket, a comma or
a question mark. -/
def plainWord (flow : Bool) : List Char → Option (List Char)
  | [] => some []
  | c :: cs =>
    if isBlank c ∨ isBreak c then some []
    else if flow ∧ c = ':' ∧ startsWith (fun d => isFlowBracket d || d == ',' || d == '?') cs then none
    else if c = ':' ∧ startsBlank cs then some []
    else if flow ∧ (isFlowBracket c ∨ c = ',') then some []
    else (plainWord flow cs).map (c :: ·)

/-- A plain scalar that is read so far, and the gap after its last word. -/
structure PlainDraft where
  text : List Char
  gap : Gap
  cursor : Cursor

/-- Reads on a plain scalar whose lines are indented by at least `indent`. -/
def readPlain (flow : Bool) (indent : Int) (d : PlainDraft) : (fuel : Nat) → Option PlainDraft
  | 0 => some d
  | fuel + 1 =>
    if d.cursor.atDocumentMark ∨ d.cursor.rest.head? = some '#' then some d
    else
      match plainWord flow d.cursor.rest with
      | none => none
      | some word =>
        let d := if word.isEmpty then d else ⟨d.text ++ d.gap.fold ++ word, .none, d.cursor.drop word.length⟩
        if d.cursor.rest.isEmpty || !startsBlank d.cursor.rest then some d
        else
          match Gap.read indent d.gap d.cursor (d.cursor.rest.length + 1) with
          | none => none
          | some (gap, cursor) =>
            let d := ⟨d.text, gap, cursor⟩
            if !flow && (cursor.column : Int) < indent then some d else readPlain flow indent d fuel

end LayeredConfig.Yaml
