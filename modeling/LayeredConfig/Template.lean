/-!
# References inside values

A value may refer to others: `$` followed by a name in braces stands for the value of that name, and a colon
after the name introduces a fallback text.  Braces nest.  Expansion replaces the leftmost reference and looks
again at the place where it stood; a reference with neither a value nor a fallback is stepped over, and a
reference that is never closed or has no name ends the expansion.

A value behind a reference is expanded before it is put in, at most `maxDepth` values deep and with at most
`maxSubstitutions` replacements; what exceeds a limit stays unexpanded and ends the whole expansion.  The key
facts: what remains after the leftmost reference is shorter (`length_rest_lt`), and so each of the two limits is
a measure under which `expandValue` recurses.
-/

namespace LayeredConfig.Template

/-- How many values may refer to each other in a row. -/
def maxDepth : Nat := 32

/-- How many replacements the value behind one reference may take. -/
def maxSubstitutions : Nat := 64

/-- The text before the first opening and the text after it. -/
def splitOpen : List Char → Option (List Char × List Char)
  | [] => none
  | '$' :: '{' :: cs => some ([], cs)
  | c :: cs => (splitOpen cs).map fun p => (c :: p.1, p.2)

/-- The text before the brace that closes `depth` inner references and the outer one, and the text after it. -/
def splitClose (depth : Nat) : List Char → Option (List Char × List Char)
  | [] => none
  | '$' :: '{' :: cs => (splitClose (depth + 1) cs).map fun p => ('$' :: '{' :: p.1, p.2)
  | c :: cs =>
    if c = '}' then
      match depth with
      | 0 => some ([], cs)
      | depth + 1 => (splitClose depth cs).map fun p => (c :: p.1, p.2)
    else (splitClose depth cs).map fun p => (c :: p.1, p.2)

/-- A reference in a text: what stands before it, between its braces and after it. -/
structure Reference where
  before : List Char
  body : List Char
  rest : List Char

namespace Reference

/-- The name that is referred to: the body up to its first colon. -/
def name (r : Reference) : String := String.ofList (r.body.takeWhile (· ≠ ':'))

/-- The text to use when the name has no value: the body after its first colon. -/
def fallback? (r : Reference) : Option (List Char) :=
  match r.body.dropWhile (· ≠ ':') with
  | [] => none
  | _ :: text => some text

/-- The reference as it is written. -/
def source (r : Reference) : List Char := '$' :: '{' :: r.body ++ ['}']

/-- The whole text around the reference, with `replacement` in its place. -/
def replaceWith (r : Reference) (replacement : List Char) : List Char := r.before ++ replacement ++ r.rest

/-- The leftmost reference of a text; `none` when there is none, when it is not closed, or when it has no name. -/
def first? (text : List Char) : Option Reference :=
  (splitOpen text).bind fun opened =>
    (splitClose 0 opened.2).bind fun closed =>
      if (Reference.mk opened.1 closed.1 closed.2).name = "" then none
      else some ⟨opened.1, closed.1, closed.2⟩

end Reference

theorem splitOpen_eq_some {text before after : List Char} (h : splitOpen text = some (before, after)) :
    text = before ++ '$' :: '{' :: after := by
  fun_induction splitOpen text generalizing before with
  | case1 => simp at h
  | case2 cs => simp_all
  | case3 c cs _ ih =>
    obtain ⟨p, hp, heq⟩ := Option.map_eq_some_iff.1 h
    obtain ⟨rfl, rfl⟩ := Prod.mk.inj heq
    rw [ih hp, List.cons_append]

theorem splitClose_eq_some {depth : Nat} {text body rest : List Char}
    (h : splitClose depth text = some (body, rest)) : text = body ++ '}' :: rest := by
  fun_induction splitClose depth text generalizing body with
  | case1 => simp at h
  | case2 depth cs ih =>
    obtain ⟨p, hp, heq⟩ := Option.map_eq_some_iff.1 h
    obtain ⟨rfl, rfl⟩ := Prod.mk.inj heq
    rw [ih hp, List.cons_append, List.cons_append]
  | case3 => simp_all
  | case4 =>
    rename_i ih
    obtain ⟨p, hp, heq⟩ := Option.map_eq_some_iff.1 h
    obtain ⟨rfl, rfl⟩ := Prod.mk.inj heq
    rw [ih hp, List.cons_append]
  | case5 =>
    rename_i ih
    obtain ⟨p, hp, heq⟩ := Option.map_eq_some_iff.1 h
    obtain ⟨rfl, rfl⟩ := Prod.mk.inj heq
    rw [ih hp, List.cons_append]

/-- The leftmost reference stands in the text between what is before and after it. -/
theorem Reference.first?_eq_some {text : List Char} {r : Reference} (h : Reference.first? text = some r) :
    text = r.replaceWith r.source := by
  obtain ⟨⟨before, after⟩, ho, h⟩ := Option.bind_eq_some_iff.1 h
  obtain ⟨⟨body, rest⟩, hc, h⟩ := Option.bind_eq_some_iff.1 h
  dsimp only at ho hc h
  split at h
  · simp at h
  · obtain rfl := Option.some.inj h
    rw [splitOpen_eq_some ho, splitClose_eq_some hc]
    simp [Reference.replaceWith, Reference.source]

theorem Reference.length_rest_lt {text : List Char} {r : Reference} (h : Reference.first? text = some r) :
    r.rest.length < text.length := by
  rw [Reference.first?_eq_some h]
  simp [Reference.replaceWith, Reference.source]
  omega

/-- What takes the place of a reference. -/
inductive Replacement where
  | value (text : String)
  | fallback (text : List Char)

/-- The result of looking for the next reference that can be replaced. -/
structure Scan where
  /-- The text up to the end of the last reference that was stepped over. -/
  skipped : List Char
  /-- The names that were looked up, in order. -/
  asked : List String
  found : Option (Reference × Replacement)

/-- The leftmost reference that has a value or a fallback, past those that have neither. -/
def scan (lookup : String → Option String) (text : List Char) : Scan :=
  match _ : Reference.first? text with
  | none => ⟨[], [], none⟩
  | some r =>
    match lookup r.name, r.fallback? with
    | some v, _ => ⟨[], [r.name], some (r, .value v)⟩
    | none, some t => ⟨[], [r.name], some (r, .fallback t)⟩
    | none, none =>
      let s := scan lookup r.rest
      ⟨r.before ++ r.source ++ s.skipped, r.name :: s.asked, s.found⟩
termination_by text.length
decreasing_by exact Reference.length_rest_lt ‹_›

/-- What happens during an expansion, with the number of values between the text and the place. -/
inductive Event where
  | asked (depth : Nat) (name : String)
  | substituted (depth : Nat)
  deriving DecidableEq, Repr

/-- The name that was looked up, for the events that are lookups. -/
def Event.name? : Event → Option String
  | asked _ name => some name
  | substituted _ => none

/-- A value expanded with some of `budget` replacements. -/
structure ValueExpansion (budget : Nat) where
  text : List Char
  truncated : Bool
  /-- The replacements that were not used. -/
  left : Nat
  trace : List Event
  left_le : left ≤ budget := by omega

/-- Expands the value `text` behind a reference, `levels` values before the depth limit.  `done` is the part of
it that holds no further reference to replace. -/
def expandValue (lookup : String → Option String) (levels budget : Nat) (done text : List Char) :
    ValueExpansion budget :=
  match levels with
  | 0 => { text := done ++ text, truncated := true, left := budget, trace := [] }
  | levels + 1 =>
    let depth := maxDepth - levels
    let s := scan lookup text
    let asked := s.asked.map (Event.asked depth)
    match s.found with
    | none => { text := done ++ text, truncated := false, left := budget, trace := asked }
    | some (r, replacement) =>
      let inner : ValueExpansion budget :=
        match replacement with
        | .value v => expandValue lookup levels budget [] v.toList
        | .fallback t => { text := t, truncated := false, left := budget, trace := [] }
      let trace := asked ++ inner.trace
      if h : inner.left = 0 then { text := done ++ text, truncated := true, left := 0, trace := trace }
      else
        have : inner.left - 1 < budget := by have := inner.left_le; omega
        let done' := done ++ s.skipped
        let next := r.replaceWith inner.text
        let trace := trace ++ [Event.substituted depth]
        if inner.truncated || next == r.replaceWith r.source then
          { text := done' ++ next, truncated := inner.truncated, left := inner.left - 1, trace := trace }
        else
          let e := expandValue lookup (levels + 1) (inner.left - 1) done' next
          { text := e.text, truncated := e.truncated, left := e.left, trace := trace ++ e.trace,
            left_le := by have := e.left_le; omega }
termination_by (budget, levels)

/-- The outcome of an expansion. -/
structure Expansion where
  text : List Char
  /-- Whether a limit was reached. -/
  truncated : Bool
  trace : List Event

/-- The text that takes the place of a reference, `levels` values before the depth limit. -/
def Replacement.expanded (lookup : String → Option String) (levels budget : Nat) :
    Replacement → ValueExpansion budget
  | value v => expandValue lookup levels budget [] v.toList
  | fallback t => { text := t, truncated := false, left := budget, trace := [] }

/-- A text in the course of its expansion.  `done` is the part of it that was stepped over. -/
structure Progress where
  done : List Char
  text : List Char
  trace : List Event

/-- What one look at a text comes to. -/
inductive Turn where
  /-- The expansion is at its end. -/
  | last (e : Expansion)
  /-- One of the references in the text itself was replaced. -/
  | more (p : Progress)

namespace Progress

/-- A text of which nothing is expanded yet. -/
def start (raw : String) : Progress := ⟨[], raw.toList, []⟩

/-- Replaces the leftmost reference that has a value or a fallback. -/
def turn (lookup : String → Option String) (p : Progress) : Turn :=
  let s := scan lookup p.text
  let asked := p.trace ++ s.asked.map (Event.asked 0)
  match s.found with
  | none => .last ⟨p.done ++ p.text, false, asked⟩
  | some (r, replacement) =>
    let inner := replacement.expanded lookup maxDepth maxSubstitutions
    let done := p.done ++ s.skipped
    let next := r.replaceWith inner.text
    let trace := asked ++ inner.trace ++ [Event.substituted 0]
    if inner.truncated || next == r.replaceWith r.source then .last ⟨done ++ next, inner.truncated, trace⟩
    else .more ⟨done, next, trace⟩

/-- Replaces references until none is left or a limit is reached; `none` when that never happens. -/
def finish? (lookup : String → Option String) (p : Progress) : Option Expansion :=
  match p.turn lookup with
  | .last e => some e
  | .more p => p |>.finish? lookup
partial_fixpoint

end Progress

/-- Expands every reference of `raw`; `none` for a text whose own references never come to an end. -/
def expand? (lookup : String → Option String) (raw : String) : Option Expansion :=
  (Progress.start raw).finish? lookup

/-- Expands every reference of `raw`.  A text whose own references never come to an end has no expansion; where a
text has to be named all the same, it stands for itself. -/
def expand (lookup : String → Option String) (raw : String) : Expansion :=
  (expand? lookup raw).getD ⟨raw.toList, true, []⟩

end LayeredConfig.Template
