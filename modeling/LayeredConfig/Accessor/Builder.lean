import LayeredConfig.Accessor
import LayeredConfig.Converter.Recipe

/-!
# Building accessors

An accessor starts as a plain text of its key and is changed by steps.  Another type takes away the default, the
converter and what was read; another shape leaves the converter.
-/

namespace LayeredConfig

mutual

/-- A step of building an accessor. -/
inductive BuildStep where
  | type (t : ValueType)
  | list
  | set
  /-- The default in texts: one for a scalar, the items for a list or a set. -/
  | default (texts : List String)
  /-- The default as it would be configured. -/
  | textDefault (raw : String)
  | converter (recipe : Recipe)
  | lifetime (d : Duration)
  | expands (on : Bool)
  | suffix (text : String)
  | suffixFrom (key : String) (steps : BuildSteps)

/-- Steps of building an accessor, in order. -/
inductive BuildSteps where
  | nil
  | cons (step : BuildStep) (rest : BuildSteps)

end

/-- The steps of a list. -/
def BuildSteps.ofList : List BuildStep → BuildSteps
  | [] => nil
  | step :: rest => cons step (ofList rest)

namespace Accessor

/-- The accessor of a key before any step. -/
def start (key : String) : Accessor :=
  mk { key, type := .text, shape := .scalar, expands := true, lifetime := none, default := none, converter := none }
    .nil .fresh

def reshape (a : Accessor) (t : ValueType) (shape : Shape) (converter : Option Converter) : Accessor :=
  mk { a.settings with type := t, shape, default := none, converter } a.suffixes .fresh

def modifySettings (a : Accessor) (f : Settings → Settings) : Accessor := mk (f a.settings) a.suffixes a.memory

/-- What building gives, and the keys that it looked up. -/
structure Built where
  outcome : Except ConfigError Accessor
  registry : Registry
  asked : List String

def makeDefault (customTypes : List CustomType) (s : Settings) (texts : List String) : Option Value :=
  match s.shape, texts with
  | .scalar, text :: _ => (Recipe.make customTypes s.type text).toOption
  | .scalar, [] => none
  | _, texts => (texts.mapM (Recipe.make customTypes s.type)).toOption.map .list

/-- An accessor with the default that a text gives when it is read like a configured value. -/
def withTextDefault (v : View) (r : Registry) (a : Accessor) (raw : String) : Built :=
  if raw.isEmpty then ⟨.error (.invalidDefault a.settings.key), r, []⟩
  else
    let p := process v a.settings raw
    match decode a.settings r p.text with
    | (.error e, r) => ⟨.error e, r, p.asked⟩
    | (.ok value, r) => ⟨.ok (a.modifySettings fun s => { s with default := some value }), r, p.asked⟩

/-- An accessor with one more suffix, if it has room for it. -/
def addSuffix (a : Accessor) (add : Suffixes → Suffixes) : Accessor :=
  if maxSuffixes ≤ a.suffixes.size then a else mk a.settings (add a.suffixes) a.memory

/-- Whether an accessor gives plain texts. -/
def isText (a : Accessor) : Bool := a.settings.type == .text && a.settings.shape == .scalar

/-- An accessor with one more suffix that comes from another one, which has to give plain texts. -/
def addSource (a source : Accessor) : Accessor :=
  if source.isText then a.addSuffix (Suffixes.addResolved source) else a

mutual

/-- An accessor after a step. -/
def step (v : View) (r : Registry) (a : Accessor) : BuildStep → Built
  | .type t => ⟨.ok (a.reshape t a.settings.shape none), r, []⟩
  | .list => ⟨.ok (a.reshape a.settings.type .list a.settings.converter), r, []⟩
  | .set => ⟨.ok (a.reshape a.settings.type .set a.settings.converter), r, []⟩
  | .default texts =>
    ⟨.ok (a.modifySettings fun s => { s with default := makeDefault r.customTypes s texts }), r, []⟩
  | .textDefault raw => a.withTextDefault v r raw
  | .converter recipe =>
    ⟨.ok (a.modifySettings fun s => { s with converter := some (recipe.converter r.customTypes s.type) }), r, []⟩
  | .lifetime d => ⟨.ok (a.modifySettings fun s => { s with lifetime := some d }), r, []⟩
  | .expands on => ⟨.ok (a.modifySettings fun s => { s with expands := on }), r, []⟩
  | .suffix text => ⟨.ok (a.addSuffix (Suffixes.addLiteral text)), r, []⟩
  | .suffixFrom key steps =>
    let inner := applySteps v r (start key) steps
    match inner.outcome with
    | .error e => ⟨.error e, inner.registry, inner.asked⟩
    | .ok source => ⟨.ok (a.addSource source), inner.registry, inner.asked⟩

/-- An accessor after several steps. -/
def applySteps (v : View) (r : Registry) (a : Accessor) : BuildSteps → Built
  | .nil => ⟨.ok a, r, []⟩
  | .cons s rest =>
    let first := step v r a s
    match first.outcome with
    | .error e => ⟨.error e, first.registry, first.asked⟩
    | .ok a =>
      let later := applySteps v first.registry a rest
      ⟨later.outcome, later.registry, first.asked ++ later.asked⟩

end

/-- The accessor of a key after some steps. -/
def build (v : View) (r : Registry) (key : String) (steps : List BuildStep) : Built :=
  applySteps v r (start key) (.ofList steps)

end Accessor

end LayeredConfig
