import LayeredConfig.Proofs.Template.Scan

/-!
# Templates and what they mean

A text that was written with care is a template: plain text and references one after the other, where a fallback is
a template again.  Its meaning is read off this structure alone, reference by reference (`Means`).  Nothing is
scanned and no limit is kept; a meaning carries instead what an expansion has to spend on it.
-/

namespace LayeredConfig.Template

/-- A text without a `$` and without braces. -/
structure Plain where
  chars : List Char
  plain : ∀ c ∈ chars, c ≠ '$' ∧ c ≠ '{' ∧ c ≠ '}'

/-- What may stand as a name: a plain text that is not empty and has no colon. -/
structure Name extends Plain where
  ne_nil : chars ≠ []
  no_colon : ':' ∉ chars

/-- The name as it is looked up. -/
def Name.string (name : Name) : String := String.ofList name.chars

/-- A template, from its first piece on. -/
inductive Pieces where
  | nil
  | literal (text : Plain) (rest : Pieces)
  | reference (name : Name) (rest : Pieces)
  | withFallback (name : Name) (fallback rest : Pieces)

/-- A reference with the text `body` between its braces. -/
def sourceOf (body : List Char) : List Char := '$' :: '{' :: body ++ ['}']

namespace Pieces

/-- The template as it is written. -/
def render : Pieces → List Char
  | nil => []
  | literal text rest => text.chars ++ rest.render
  | reference name rest => sourceOf name.chars ++ rest.render
  | withFallback name fallback rest => sourceOf (name.chars ++ ':' :: fallback.render) ++ rest.render

end Pieces

/-- The values of names, each written as a template. -/
abbrev Values := String → Option Pieces

/-- The values as texts. -/
def Values.lookup (values : Values) (name : String) : Option String :=
  (values name).map fun value => String.ofList value.render

/-- What a template stands for, and what it takes to expand it. -/
structure Meaning where
  text : List Char
  /-- The replacements of the template and of all values behind its references. -/
  replaced : Nat
  /-- The most replacements that the value behind a single reference takes. -/
  heaviest : Nat
  /-- The most values that refer to each other in a row. -/
  chain : Nat

namespace Meaning

/-- The meaning of no text. -/
def empty : Meaning := ⟨[], 0, 0, 0⟩

/-- A text that stands for itself, in front of `rest`. -/
def kept (text : List Char) (rest : Meaning) : Meaning :=
  ⟨text ++ rest.text, rest.replaced, rest.heaviest, rest.chain⟩

/-- A reference to a value, in front of `rest`. -/
def ofValue (value rest : Meaning) : Meaning :=
  ⟨value.text ++ rest.text, value.replaced + 1 + rest.replaced, max value.replaced rest.heaviest,
    max (value.chain + 1) rest.chain⟩

/-- A reference that stands for its fallback, in front of `rest`. -/
def ofFallback (fallback rest : Meaning) : Meaning :=
  ⟨fallback.text ++ rest.text, fallback.replaced + 1 + rest.replaced, max fallback.heaviest rest.heaviest,
    max fallback.chain rest.chain⟩

end Meaning

/-- The meaning of a template under `values`.  Values that refer to each other in a circle have none. -/
inductive Means (values : Values) : Pieces → Meaning → Prop where
  | nil : Means values .nil .empty
  | literal {text : Plain} {rest : Pieces} {m : Meaning} (hrest : Means values rest m) :
      Means values (.literal text rest) (.kept text.chars m)
  | resolved {name : Name} {value rest : Pieces} {v m : Meaning} (hname : values name.string = some value)
      (hvalue : Means values value v) (hrest : Means values rest m) :
      Means values (.reference name rest) (.ofValue v m)
  | unresolved {name : Name} {rest : Pieces} {m : Meaning} (hname : values name.string = none)
      (hrest : Means values rest m) :
      Means values (.reference name rest) (.kept (sourceOf name.chars) m)
  | overridden {name : Name} {value fallback rest : Pieces} {v m : Meaning}
      (hname : values name.string = some value) (hvalue : Means values value v) (hrest : Means values rest m) :
      Means values (.withFallback name fallback rest) (.ofValue v m)
  | fallback {name : Name} {fallback rest : Pieces} {f m : Meaning} (hname : values name.string = none)
      (hfallback : Means values fallback f) (hrest : Means values rest m) :
      Means values (.withFallback name fallback rest) (.ofFallback f m)

/-- A template has one meaning. -/
theorem Means.unique {values : Values} {t : Pieces} {m m' : Meaning} (h : Means values t m) (h' : Means values t m') :
    m = m' := by
  induction h generalizing m' with
  | nil =>
    cases h'
    rfl
  | literal _ ih =>
    cases h' with
    | literal hrest => rw [ih hrest]
  | resolved hname _ _ ihValue ihRest =>
    cases h' with
    | resolved hname' hvalue hrest =>
      obtain rfl := Option.some.inj (hname.symm.trans hname')
      rw [ihValue hvalue, ihRest hrest]
    | unresolved hname' => nomatch hname.symm.trans hname'
  | unresolved hname _ ih =>
    cases h' with
    | resolved hname' => nomatch hname.symm.trans hname'
    | unresolved _ hrest => rw [ih hrest]
  | overridden hname _ _ ihValue ihRest =>
    cases h' with
    | overridden hname' hvalue hrest =>
      obtain rfl := Option.some.inj (hname.symm.trans hname')
      rw [ihValue hvalue, ihRest hrest]
    | fallback hname' => nomatch hname.symm.trans hname'
  | fallback hname _ _ ihFallback ihRest =>
    cases h' with
    | overridden hname' => nomatch hname.symm.trans hname'
    | fallback _ hfallback hrest => rw [ihFallback hfallback, ihRest hrest]

/-- Where a text stops being a template: at its end, at a reference that is never closed, or at one without a name. -/
inductive Stops : List Char → Prop where
  | empty : Stops []
  | unclosed {after : List Char} (h : splitClose 0 after = none) : Stops ('$' :: '{' :: after)
  | unnamed {after body rest : List Char} (h : splitClose 0 after = some (body, rest))
      (hname : body = [] ∨ body.head? = some ':') : Stops ('$' :: '{' :: after)

end LayeredConfig.Template
