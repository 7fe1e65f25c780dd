import LayeredConfig.View

/-!
# Accessors

A reusable way from a key to its value.  The key is looked up together with suffixes, the most specific
combination first; references in the value are replaced; an absent or empty value gives way to a default; the
text is converted, item by item for lists and sets; and the result is kept for as long as nothing changes.  A
suffix may come from another accessor.
-/

namespace LayeredConfig

/-- How a text becomes the result of an accessor. -/
inductive Shape where
  | scalar
  | list
  | set
  deriving DecidableEq, Repr

namespace Shape

def name : Shape → String
  | scalar => "scalar"
  | list => "list"
  | set => "set"

/-- The result when there is neither a value nor a default. -/
def absent : Shape → Option Value
  | scalar => none
  | list => some (.list [])
  | set => some (.list [])

def tokens (key raw : String) : Except ConfigError (List String) :=
  match ListText.split raw with
  | some tokens => .ok tokens
  | none => .error (.malformedInput key raw Refusal.danglingEscape.message)

/-- The items of a list text, converted one by one. -/
def items {α : Type} (convert : String → Except ConfigError α) (key raw : String) : Except ConfigError (List α) := do
  (← tokens key raw).mapM convert

/-- Converts tokens, leaving out every value that is the same as one of `kept`. -/
def distinct {α : Type} (same : α → α → Bool) (convert : String → Except ConfigError α) (kept : List α) :
    List String → Except ConfigError (List α)
  | [] => .ok kept
  | token :: rest => do
    let v ← convert token
    distinct same convert (if kept.any (same · v) then kept else kept ++ [v]) rest

/-- The items of a list text, converted one by one, without those that are the same as an earlier one. -/
def distinctItems {α : Type} (same : α → α → Bool) (convert : String → Except ConfigError α) (key raw : String) :
    Except ConfigError (List α) := do
  distinct same convert [] (← tokens key raw)

/-- The result for a text. -/
def decode (shape : Shape) (key raw : String) (convert : String → Except ConfigError Value) :
    Except ConfigError Value :=
  match shape with
  | scalar => (convert raw).mapError (ConfigError.forKey key)
  | list => return .list (← items convert key raw)
  | set => return .list (← distinctItems Value.same convert key raw)

end Shape

namespace Accessor

/-- The part of an accessor that does not change by reading. -/
structure Settings where
  key : String
  type : ValueType
  shape : Shape
  /-- Whether references are replaced. -/
  expands : Bool
  /-- How long a result is kept. -/
  lifetime : Option Duration
  default : Option Value
  converter : Option Converter

/-- What an accessor remembers of its reads. -/
structure Memory where
  value : Option Value
  /-- The key that the last result was read from. -/
  resolvedKey : Option String
  /-- The time of the last result. -/
  readAt : Option Nat
  /-- The marker before the last result was worked out. -/
  marker : Nat

/-- The memory of an accessor that has not been read. -/
def Memory.fresh : Memory := ⟨none, none, none, 0⟩

/-- How many suffixes an accessor takes; it ignores further ones. -/
def maxSuffixes : Nat := 16

end Accessor

mutual

/-- A way from a key to its value. -/
inductive Accessor where
  | mk (settings : Accessor.Settings) (suffixes : Suffixes) (memory : Accessor.Memory)

/-- The suffixes of an accessor, in order.  An accessor among them has no listeners; an application that adds some
before it makes the accessor a suffix of another one, and so lets them hear of the reads for the suffix, is not
described. -/
inductive Suffixes where
  | nil
  | literal (text : String) (rest : Suffixes)
  | resolved (source : Accessor) (rest : Suffixes)

end

namespace Suffixes

/-- How many suffixes there are. -/
def size : Suffixes → Nat
  | nil => 0
  | literal _ rest => rest.size + 1
  | resolved _ rest => rest.size + 1

/-- The suffixes with a literal one at the end. -/
def addLiteral (text : String) : Suffixes → Suffixes
  | nil => literal text nil
  | literal t rest => literal t (rest.addLiteral text)
  | resolved a rest => resolved a (rest.addLiteral text)

/-- The suffixes with a resolved one at the end. -/
def addResolved (source : Accessor) : Suffixes → Suffixes
  | nil => resolved source nil
  | literal t rest => literal t (rest.addResolved source)
  | resolved a rest => resolved a (rest.addResolved source)

end Suffixes

namespace Accessor

def settings : Accessor → Settings
  | mk s _ _ => s

def suffixes : Accessor → Suffixes
  | mk _ s _ => s

def memory : Accessor → Memory
  | mk _ _ m => m

/-- The key and the suffixes whose bits are set in `mask`; the last suffix has the lowest bit. -/
def candidate (key : String) (mask : Nat) : List String → String
  | [] => key
  | suffix :: rest => candidate (if mask.testBit rest.length then key ++ "." ++ suffix else key) mask rest

/-- A key that was found with a value that is not empty, and the keys that were looked up. -/
structure Search where
  found : Option (String × String)
  asked : List String

/-- Looks up the combinations of a key with suffixes, from the mask `mask` down to a single suffix. -/
def search (v : View) (key : String) (suffixes : List String) : (mask : Nat) → Search
  | 0 => ⟨none, []⟩
  | mask + 1 =>
    let k := candidate key (mask + 1) suffixes
    match v.present? k with
    | some raw => ⟨some (k, raw), [k]⟩
    | none =>
      let s := search v key suffixes mask
      ⟨s.found, k :: s.asked⟩

/-- The key that answers, its text, and the keys that were looked up. -/
structure Lookup where
  key : String
  raw : Option String
  asked : List String

/-- The text with references replaced, if the accessor does so; an empty one counts as absent. -/
def process (v : View) (s : Settings) (raw : String) : View.Looked :=
  if s.expands then v.expand raw else ⟨raw, []⟩

def nonempty (text : String) : Option String := if text.isEmpty then none else some text

/-- Looks up the combinations of the key with suffixes, and at last the key alone. -/
def lookup (v : View) (s : Settings) (suffixes : List String) : Lookup :=
  let search := search v s.key suffixes (2 ^ suffixes.length - 1)
  match search.found with
  | some (key, raw) =>
    let p := process v s raw
    ⟨key, nonempty p.text, search.asked ++ p.asked⟩
  | none =>
    match v.find s.key with
    | some raw =>
      let p := process v s raw
      ⟨s.key, nonempty p.text, search.asked ++ s.key :: p.asked⟩
    | none => ⟨s.key, none, search.asked ++ [s.key]⟩

/-- Converts a text with the accessor's own converter or that of the registry. -/
def decode (s : Settings) (r : Registry) (raw : String) : Except ConfigError Value × Registry :=
  match s.converter with
  | some c => (s.shape.decode s.key raw (c.convert r.names s.type), r)
  | none =>
    match r.resolve s.type with
    | (.error e, r) => (.error e, r)
    | (.ok c, r) => (s.shape.decode s.key raw (c.convert r.names s.type), r)

/-- The result for a text that was looked up. -/
def result (s : Settings) (r : Registry) : Option String → Except ConfigError (Option Value) × Registry
  | some raw =>
    let p := decode s r raw
    (p.1.map some, p.2)
  | none => (.ok (s.default.or s.shape.absent), r)

/-- The result that is kept, if it still counts: nothing has changed and its lifetime is not over. -/
def kept? (v : View) (s : Settings) (m : Memory) : Option (Option Value) :=
  match s.lifetime, m.readAt with
  | some lifetime, some readAt =>
    if m.marker = v.marker ∧ v.now - readAt ≤ lifetime.totalNanos then some m.value else none
  | _, _ => none

/-- A result that differs from the one before it. -/
structure Change where
  old : Option Value
  new : Option Value

/-- What a read gives, and what it leaves behind. -/
structure Reading where
  outcome : Except ConfigError (Option Value)
  accessor : Accessor
  registry : Registry
  /-- The keys that were looked up, in order. -/
  asked : List String
  change : Option Change

/-- The suffixes that apply at one moment, and what getting them leaves behind. -/
structure Present where
  outcome : Except ConfigError (List String)
  suffixes : Suffixes
  registry : Registry
  asked : List String

/-- Keeps a result that was read from `key`. -/
def remember (v : View) (key : String) (value : Option Value) : Memory :=
  ⟨value, some key, some v.now, v.marker⟩

def changeFrom (m : Memory) (value : Option Value) : Option Change :=
  if Value.sameOptional m.value value then none else some ⟨m.value, value⟩

/-- The suffixes with one more in front, unless it is empty. -/
def consPresent (text : Option String) (rest : List String) : List String :=
  match text with
  | some text => if text.isEmpty then rest else text :: rest
  | none => rest

mutual

/-- The result of an accessor: the value of its key, its default, or nothing. -/
def optionalValue (v : View) (r : Registry) : Accessor → Reading
  | mk s suffixes m =>
    match kept? v s m with
    | some value => ⟨.ok value, mk s suffixes m, r, [], none⟩
    | none =>
      let p := presentSuffixes v r suffixes
      match p.outcome with
      | .error e => ⟨.error e, mk s p.suffixes m, p.registry, p.asked, none⟩
      | .ok texts =>
        let l := lookup v s texts
        match result s p.registry l.raw with
        | (.error e, r) => ⟨.error e, mk s p.suffixes m, r, p.asked ++ l.asked, none⟩
        | (.ok value, r) =>
          ⟨.ok value, mk s p.suffixes (remember v l.key value), r, p.asked ++ l.asked, changeFrom m value⟩

/-- The suffixes that are not empty; a resolved one is absent when it has no value. -/
def presentSuffixes (v : View) (r : Registry) : Suffixes → Present
  | .nil => ⟨.ok [], .nil, r, []⟩
  | .literal text rest =>
    let p := presentSuffixes v r rest
    ⟨p.outcome.map (consPresent (some text)), .literal text p.suffixes, p.registry, p.asked⟩
  | .resolved source rest =>
    let read := optionalValue v r source
    match read.outcome with
    | .error e => ⟨.error e, .resolved read.accessor rest, read.registry, read.asked⟩
    | .ok value =>
      let p := presentSuffixes v read.registry rest
      ⟨p.outcome.map (consPresent (value.map Value.render)), .resolved read.accessor p.suffixes, p.registry,
        read.asked ++ p.asked⟩

end

/-- The value of an accessor, which must have one. -/
def value (v : View) (r : Registry) (a : Accessor) : Except ConfigError Value × Reading :=
  let reading := a.optionalValue v r
  (View.require a.settings.key reading.outcome, reading)

/-- What a read without conversion gives, and what it leaves behind. -/
structure RawReading where
  outcome : Except ConfigError (Option String)
  accessor : Accessor
  registry : Registry
  asked : List String

/-- The text of an accessor's key, with references replaced.  It is not kept, but its key is. -/
def rawValue (v : View) (r : Registry) : Accessor → RawReading
  | mk s suffixes m =>
    let p := presentSuffixes v r suffixes
    match p.outcome with
    | .error e => ⟨.error e, mk s p.suffixes m, p.registry, p.asked⟩
    | .ok texts =>
      let l := lookup v s texts
      ⟨.ok l.raw, mk s p.suffixes { m with resolvedKey := some l.key }, p.registry, p.asked ++ l.asked⟩

def optional (o : Option String) : String :=
  match o with
  | none => "None"
  | some s => "Some(" ++ s ++ ")"

/-- The listing of an accessor's settings. -/
def inspect (a : Accessor) : String :=
  let s := a.settings
  "ValueAccessor \x7b key: " ++ Text.quoted s.key
    ++ ", type: " ++ Text.quoted s.type.fullName
    ++ ", shape: " ++ Text.quoted s.shape.name
    ++ ", suffixes: " ++ toString a.suffixes.size
    ++ ", evaluate_variables: " ++ toString s.expands
    ++ ", cache_ttl: " ++ optional (s.lifetime.map Duration.render)
    ++ ", default: " ++ optional (s.default.map Value.inspect) ++ ", .. \x7d"

end Accessor

end LayeredConfig
