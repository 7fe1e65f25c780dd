import LayeredConfig.Accessor.Builder
import LayeredConfig.Engine

/-!
# Sessions

A session keeps sources, engines, accessors and subscriptions under names and takes one step after the other.
An engine lives as long as a name, an accessor or the default place holds it.

Every step gives an outcome, also one that expands a text whose references never come to an end (`View.expand`).  So
what is proved about sessions speaks of steps that return.
-/

namespace LayeredConfig

namespace Session

/-- An accessor, the engine it reads, and those who listen to it in the order in which they came. -/
structure Held where
  serial : Nat
  engine : EngineId
  accessor : Accessor
  listeners : List (Nat × String)
  /-- The number of the next listener. -/
  nextListener : Nat

/-- A listener of an accessor. -/
structure Subscription where
  accessor : Nat
  number : Nat
  deriving DecidableEq, Repr

/-- What happens during a step. -/
inductive Event where
  | attached (source : String)
  | reloaded (source : String)
  | closed (source : String)
  | asked (source key : String)
  | converterClosed (target : ValueType)
  | changed (subscription key : String) (old new : Option Value)

/-- What a step answers. -/
inductive Answer where
  | nothing
  | flag (b : Bool)
  | text (s : String)
  | value (v : Value)
  | texts (l : List String)
  | source (name : String) (ordinal : Int) (keys : List String) (path : Option String)
  | sources (l : List Source.Info)

/-- Why a step fails. -/
inductive Failure where
  | config (e : ConfigError)
  | file (e : FileError)
  | close (message : String)
  | unknown (what : String)

/-- How a source is made. -/
inductive SourceSpec where
  | map (name : String) (ordinal : Int) (entries : Entries)
  | environment
  | file (path : String) (ordinal : Int)
  | loadedFile (path : String)
  | script (name : String) (ordinal : Int) (entries : Entries) (s : SourceScript)

/-- A converter described by a recipe. -/
structure ConverterSpec where
  type : ValueType
  recipe : Recipe
  priority : Int
  closing : Option Closing

/-- A call on a registry. -/
inductive RegistryCall where
  | register (c : ConverterSpec)
  | convert (t : ValueType) (raw : Option String)
  | has (t : ValueType)

/-- What is read of an accessor. -/
inductive ReadKind where
  | value
  | optional
  | raw
  | default
  | key
  | listing
  | none

/-- A step of a session. -/
inductive Step where
  | source (name : String) (spec : SourceSpec)
  | set (source key value : String)
  | remove (source key : String)
  | report (source : String)
  | reporterListing (source : String)
  | sourceGet (source key : String)
  | sourceReload (source : String)
  | sourceClose (source : String)
  | sourceInfo (source : String)
  | writeFile (path : String) (node : FileNode)
  | deleteFile (path : String)
  /-- Sets variables, or removes those without a readable value. -/
  | environment (changes : List (String × Option String))
  | sleep (milliseconds : Nat)
  | build (name : String) (sources : List String) (environment : Bool) (converters : List ConverterSpec)
  | clone (engine name : String)
  | dropEngine (engine : String)
  | rawValue (engine key : String)
  | value (engine : String) (t : ValueType) (key : String)
  | optionalValue (engine : String) (t : ValueType) (key : String)
  | expand (engine raw : String)
  | propertyNames (engine : String)
  | engineSources (engine : String)
  | addSources (engine : String) (sources : List String)
  | externalChange (engine : String)
  | reload (engine : String)
  | close (engine : String)
  | isClosed (engine : String)
  | converters (engine : String) (call : RegistryCall)
  | defaultEngine (name : String)
  | registerDefault (engine : String) (name : Option String)
  | releaseDefault
  | accessor (name engine key : String) (steps : List BuildStep)
  | read (accessor : String) (kind : ReadKind)
  | subscribe (accessor name : String)
  | unsubscribe (subscription : String)
  | subscriptionListing (subscription : String)
  | dropAccessor (accessor : String)

/-- What a step gives. -/
structure Outcome where
  result : Except Failure Answer
  /-- After a read: the key that the accessor was read from last. -/
  resolvedKey : Option (Option String)
  events : List Event
  /-- The names of the engines that saw a change, in order. -/
  changed : List String

end Session

/-- The objects of a session by their names. -/
structure Session where
  store : Store
  sourceNames : List (String × SourceId)
  engineNames : List (String × EngineId)
  accessors : List (String × Session.Held)
  subscriptions : List (String × Session.Subscription)
  default : Option EngineId
  /-- The names that sources were made under. -/
  origins : List (SourceId × String)
  nextSerial : Nat

namespace Session

/-- A session without objects. -/
def start (customTypes : List CustomType) (files : FileTree) (vars : Entries) : Session :=
  ⟨Store.empty customTypes files vars, [], [], [], [], none, [], 0⟩

/-- The pairs with `a` under `name`. -/
def bind {α : Type} (name : String) (a : α) (l : List (String × α)) : List (String × α) :=
  (name, a) :: l.filter fun p => p.1 ≠ name

/-- The pairs without `name`. -/
def unbind {α : Type} (name : String) (l : List (String × α)) : List (String × α) :=
  l.filter fun p => p.1 ≠ name

/-- Whether something holds an engine. -/
def isAlive (s : Session) (id : EngineId) : Bool :=
  s.engineNames.any (fun p => p.2 == id) || s.accessors.any (fun p => p.2.engine == id) || s.default == some id

/-- The session without the engines that nothing holds. -/
def collect (s : Session) : Session :=
  { s with store := { s.store with engines := s.store.engines.filter fun p => s.isAlive p.1 } }

/-- What a step gives before the changes of engines are known, and the session after it. -/
structure Stepped where
  result : Except Failure Answer
  resolvedKey : Option (Option String)
  events : List Event
  session : Session

def origin (s : Session) (id : SourceId) : String := (s.origins.lookup id).getD ""

def eventOf (s : Session) : Notice → Event
  | .attached id => .attached (origin s id)
  | .reloaded id => .reloaded (origin s id)
  | .closed id => .closed (origin s id)
  | .asked id key => .asked (origin s id) key
  | .converterClosed t => .converterClosed t

def events (s : Session) (notices : List Notice) : List Event := notices.map (eventOf s)

def answer (s : Session) (a : Answer) : Stepped := ⟨.ok a, none, [], s⟩

def fail (s : Session) (f : Failure) : Stepped := ⟨.error f, none, [], s⟩

def noticed (s : Session) (n : Store.Noticed) (result : Except Failure Answer) : Stepped :=
  ⟨result, none, events s n.notices, { s with store := n.store }⟩

def optionalText : Option String → Answer
  | some text => .text text
  | none => .nothing

def optionalValue : Option Value → Answer
  | some v => .value v
  | none => .nothing

def settled {α : Type} (toAnswer : α → Answer) : Except ConfigError α → Except Failure Answer
  | .ok a => .ok (toAnswer a)
  | .error e => .error (.config e)

def withSource (s : Session) (name : String) (f : SourceId → Joined → Stepped) : Stepped :=
  match s.sourceNames.lookup name with
  | none => fail s (.unknown "source")
  | some id =>
    match s.store.joined? id with
    | none => fail s (.unknown "source")
    | some j => f id j

def withEngine (s : Session) (name : String) (f : EngineId → Engine → Stepped) : Stepped :=
  match s.engineNames.lookup name with
  | none => fail s (.unknown "engine")
  | some id =>
    match s.store.engine? id with
    | none => fail s (.unknown "engine")
    | some e => f id e

def withStore (s : Session) (store : Store) : Session := { s with store }

def keepRegistry (s : Session) (id : EngineId) (e : Engine) (r : Registry) : Session :=
  withStore s (s.store.setEngine id { e with registry := r })

def makeSource (store : Store) : SourceSpec → Except FileError Source
  | .map name ordinal entries => .ok (Source.ofEntries name ordinal entries)
  | .environment => .ok (Source.ofEnvironment store.vars)
  | .file path ordinal => .ok (Source.ofFile store.files.read path ordinal)
  | .loadedFile path => Source.load store.files.read path
  | .script name ordinal entries script => .ok (Source.ofScript name ordinal entries script)

def stepSource (s : Session) (name : String) (spec : SourceSpec) : Stepped :=
  match makeSource s.store spec with
  | .error e => fail s (.file e)
  | .ok source =>
    let (id, store) := s.store.addSource source
    answer { s with store, sourceNames := bind name id s.sourceNames, origins := (id, name) :: s.origins } .nothing

def sourcePath : Backing → Option String
  | .file path => some path
  | _ => none

def isReporting (s : Session) (j : Joined) : Option Bool :=
  j.reporter.map fun id => (s.store.engine? id).isSome

def stepOfSource (s : Session) (id : SourceId) (j : Joined) : Step → Stepped
  | .set _ key value => answer (withStore s (s.store.setValue id j key value)) .nothing
  | .remove _ key =>
    answer (withStore s (s.store.removeKey id j key)) (optionalText (j.source.entries.get? key))
  | .report _ =>
    match isReporting s j with
    | none => answer s .nothing
    | some alive => answer (withStore s (s.store.report j)) (.flag alive)
  | .reporterListing _ =>
    match isReporting s j with
    | none => answer s .nothing
    | some alive => answer s (.text ("ChangeReporter \x7b attached: " ++ toString alive ++ " \x7d"))
  | .sourceGet _ key =>
    ⟨.ok (optionalText (j.source.get? key)), none, events s (Store.noticesOfKey key [(id, j.source)]), s⟩
  | .sourceReload _ => noticed s (Store.reloadSource ⟨s.store, []⟩ id) (.ok .nothing)
  | .sourceClose _ =>
    ⟨match j.source.closeFailure? with
      | some message => .error (.close message)
      | none => .ok .nothing,
      none, events s (Store.closeNotices [(id, j.source)]), s⟩
  | _ => answer s (.source j.source.name j.source.ordinal j.source.entries.keys (sourcePath j.source.backing))

def setVariable (vars : Entries) (change : String × Option String) : Entries :=
  match change.2 with
  | some value => vars.put change.1 value
  | none => vars.erase change.1

def pending (customTypes : List CustomType) (c : ConverterSpec) : Store.Pending :=
  (c.type, ⟨c.recipe.converter customTypes c.type, c.priority, false, c.closing⟩)

def stepBuild (s : Session) (name : String) (sources : List String) (environment : Bool)
    (converters : List ConverterSpec) : Stepped :=
  let ids := sources.filterMap fun source => s.sourceNames.lookup source
  match s.store.build ids environment (converters.map (pending s.store.customTypes)) with
  | .error e => fail s (.config e)
  | .ok (id, n) => noticed { s with engineNames := bind name id s.engineNames } n (.ok .nothing)

/-- A call on a registry: what it answers and the registry after it. -/
def RegistryCall.run (r : Registry) : RegistryCall → Except ConfigError Answer × Registry
  | .register c =>
    let p := pending r.customTypes c
    match r.register p.1 p.2 with
    | .ok r => (.ok .nothing, r)
    | .error e => (.error e, r)
  | .convert t raw =>
    let p := r.convert t raw
    (p.1.map optionalValue, p.2)
  | .has t =>
    let p := r.hasConverter t
    (.ok (.flag p.1), p.2)

def markerOf (s : Session) (id : EngineId) : Nat :=
  match s.store.engine? id with
  | some e => e.marker
  | none => 0

def stepOfEngine (s : Session) (id : EngineId) (e : Engine) : Step → Stepped
  | .clone _ name => answer { s with engineNames := bind name id s.engineNames } .nothing
  | .rawValue _ key =>
    ⟨.ok (optionalText (s.store.find e key)), none, events s (s.store.notices e [key]), s⟩
  | .value _ t key =>
    let p := (s.store.view e).value e.registry t key
    ⟨settled .value p.1, none, events s (s.store.notices e [key]), keepRegistry s id e p.2⟩
  | .optionalValue _ t key =>
    let p := (s.store.view e).optionalValue e.registry t key
    ⟨settled optionalValue p.1, none, events s (s.store.notices e [key]), keepRegistry s id e p.2⟩
  | .expand _ raw =>
    let p := (s.store.view e).expand raw
    ⟨.ok (.text p.text), none, events s (s.store.notices e p.asked), s⟩
  | .propertyNames _ => answer s (.texts (SourceSet.propertyNames ((s.store.sourcesOf e).map Prod.snd)))
  | .engineSources _ => answer s (.sources ((s.store.sourcesOf e).map fun p => p.2.info))
  | .addSources _ sources =>
    noticed s (s.store.addSources id (sources.filterMap fun source => s.sourceNames.lookup source)) (.ok .nothing)
  -- Whoever reports a change is handed the new marker; the answer says whether the engine has it from then on.
  | .externalChange _ =>
    let after := withStore s (s.store.reportTo id)
    answer after (.flag (s.store.nextMarker e == markerOf after id))
  | .reload _ =>
    let n := s.store.reload id e
    noticed s n (.ok (.flag (s.store.nextMarker e == markerOf (withStore s n.store) id)))
  | .close _ =>
    let p := s.store.close id e
    noticed s p.2 (settled (fun _ => .nothing) p.1)
  | .converters _ call =>
    let p := call.run e.registry
    ⟨settled (fun a => a) p.1, none, [], keepRegistry s id e p.2⟩
  | .registerDefault _ name =>
    let names := match s.default, name with
      | some old, some name => bind name old s.engineNames
      | _, _ => s.engineNames
    answer { s with default := some id, engineNames := names } (.flag s.default.isSome)
  | _ => answer s (.flag e.closed)

def stepDefaultEngine (s : Session) (name : String) : Stepped :=
  match s.default with
  | some id => answer { s with engineNames := bind name id s.engineNames } .nothing
  | none =>
    match s.store.build [] true [] with
    | .error e => fail s (.config e)
    | .ok (id, n) =>
      noticed { s with engineNames := bind name id s.engineNames, default := some id } n (.ok .nothing)

def stepReleaseDefault (s : Session) : Stepped :=
  let released := { s with default := none }
  match s.default.bind fun id => (s.store.engine? id).map (id, ·) with
  | none => answer released .nothing
  | some (id, e) =>
    let p := s.store.close id e
    noticed released p.2 (settled (fun _ => .nothing) p.1)

def stepAccessor (s : Session) (name : String) (id : EngineId) (e : Engine) (key : String)
    (steps : List BuildStep) : Stepped :=
  let built := Accessor.build (s.store.view e) e.registry key steps
  let happened := events s (s.store.notices e built.asked)
  let s := keepRegistry s id e built.registry
  match built.outcome with
  | .error e => ⟨.error (.config e), none, happened, s⟩
  | .ok accessor =>
    let held : Held := ⟨s.nextSerial, id, accessor, [], 1⟩
    ⟨.ok .nothing, none, happened,
      { s with accessors := bind name held s.accessors, nextSerial := s.nextSerial + 1 }⟩

def changeEvents (held : Held) : Option Accessor.Change → List Event
  | some c => held.listeners.map fun l => .changed l.2 held.accessor.settings.key c.old c.new
  | none => []

def afterReading (s : Session) (name : String) (held : Held) (e : Engine) (accessor : Accessor)
    (registry : Registry) (asked : List String) (change : Option Accessor.Change)
    (result : Except Failure Answer) : Stepped :=
  let happened := events s (s.store.notices e asked) ++ changeEvents held change
  let s := keepRegistry s held.engine e registry
  ⟨result, some accessor.memory.resolvedKey, happened,
    { s with accessors := bind name { held with accessor } s.accessors }⟩

def stepRead (s : Session) (name : String) (held : Held) (e : Engine) (kind : ReadKind) : Stepped :=
  let v := s.store.view e
  let a := held.accessor
  let looked := fun answer : Answer => Stepped.mk (.ok answer) (some a.memory.resolvedKey) [] s
  match kind with
  | .value =>
    let p := a.value v e.registry
    afterReading s name held e p.2.accessor p.2.registry p.2.asked p.2.change (settled .value p.1)
  | .optional =>
    let r := a.optionalValue v e.registry
    afterReading s name held e r.accessor r.registry r.asked r.change (settled optionalValue r.outcome)
  | .raw =>
    let r := a.rawValue v e.registry
    afterReading s name held e r.accessor r.registry r.asked none (settled optionalText r.outcome)
  | .default => looked (optionalValue a.settings.default)
  | .key => looked (.text a.settings.key)
  | .listing => looked (.text a.inspect)
  | .none => looked .nothing

/-- The accessors without a listener. -/
def silence (subscription : Subscription) (accessors : List (String × Held)) : List (String × Held) :=
  accessors.map fun p =>
    if p.2.serial = subscription.accessor then
      (p.1, { p.2 with listeners := p.2.listeners.filter fun l => l.1 ≠ subscription.number })
    else p

def dropSubscription (s : Session) (name : String) : Session :=
  match s.subscriptions.lookup name with
  | none => s
  | some subscription =>
    { s with accessors := silence subscription s.accessors, subscriptions := unbind name s.subscriptions }

def stepSubscribe (s : Session) (name subscription : String) (held : Held) : Stepped :=
  let listening :=
    { held with listeners := held.listeners ++ [(held.nextListener, subscription)],
                nextListener := held.nextListener + 1 }
  let s := dropSubscription { s with accessors := bind name listening s.accessors } subscription
  answer { s with subscriptions := bind subscription ⟨held.serial, held.nextListener⟩ s.subscriptions } .nothing

def withAccessor (s : Session) (name : String) (f : Held → Engine → Stepped) : Stepped :=
  match s.accessors.lookup name with
  | none => fail s (.unknown "accessor")
  | some held =>
    match s.store.engine? held.engine with
    | none => fail s (.unknown "engine")
    | some e => f held e

def perform (s : Session) (step : Step) : Stepped :=
  match step with
  | .source name spec => stepSource s name spec
  | .set name _ _ | .remove name _ | .report name | .reporterListing name | .sourceGet name _ | .sourceReload name
  | .sourceClose name | .sourceInfo name => withSource s name fun id j => stepOfSource s id j step
  | .writeFile path node => answer (withStore s { s.store with files := s.store.files.put path node }) .nothing
  | .deleteFile path => answer (withStore s { s.store with files := s.store.files.erase path }) .nothing
  | .environment changes =>
    answer (withStore s { s.store with vars := changes.foldl setVariable s.store.vars }) .nothing
  | .sleep milliseconds =>
    answer (withStore s { s.store with now := s.store.now + milliseconds * 1000000 }) .nothing
  | .build name sources environment converters => stepBuild s name sources environment converters
  | .dropEngine name =>
    answer { s with engineNames := unbind name s.engineNames } (.flag (s.engineNames.lookup name).isSome)
  | .clone name _ | .rawValue name _ | .value name _ _ | .optionalValue name _ _ | .expand name _
  | .propertyNames name | .engineSources name | .addSources name _ | .externalChange name | .reload name
  | .close name | .isClosed name | .converters name _ | .registerDefault name _ =>
    withEngine s name fun id e => stepOfEngine s id e step
  | .defaultEngine name => stepDefaultEngine s name
  | .releaseDefault => stepReleaseDefault s
  | .accessor name engine key steps => withEngine s engine fun id e => stepAccessor s name id e key steps
  | .read name kind => withAccessor s name fun held e => stepRead s name held e kind
  | .subscribe name subscription => withAccessor s name fun held _ => stepSubscribe s name subscription held
  | .unsubscribe name => answer (dropSubscription s name) (.flag (s.subscriptions.lookup name).isSome)
  | .subscriptionListing name =>
    match s.subscriptions.lookup name with
    | none => answer s .nothing
    | some subscription =>
      answer s (.text ("ChangeSubscription \x7b id: " ++ toString subscription.number ++ " \x7d"))
  | .dropAccessor name =>
    answer { s with accessors := unbind name s.accessors } (.flag (s.accessors.lookup name).isSome)

/-- The names of the engines that exist before and after, and saw a change in between. -/
def changedBetween (before after : Session) : List String :=
  SourceSet.sortedNames <| (after.engineNames.filter fun p =>
    before.engineNames.lookup p.1 == some p.2 && markerOf before p.2 < markerOf after p.2).map Prod.fst

/-- A step of a session: what it gives and the session after it. -/
def step (s : Session) (taken : Step) : Outcome × Session :=
  let stepped := perform s taken
  let after := stepped.session.collect
  (⟨stepped.result, stepped.resolvedKey, stepped.events, changedBetween s after⟩, after)

/-- The outcomes of several steps. -/
def run (s : Session) : List Step → List Outcome
  | [] => []
  | taken :: rest =>
    let p := s.step taken
    p.1 :: run p.2 rest

end Session

end LayeredConfig
