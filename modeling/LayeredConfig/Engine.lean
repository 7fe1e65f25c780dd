import LayeredConfig.Marker
import LayeredConfig.SourceSet
import LayeredConfig.View

/-!
# Engines

An engine holds sources in the order of their ranks, converters, and the marker of its last change.  Sources are
shared between engines, so all of them live in one store, under numbers.  A source reports its changes to the
engine that it joined last.
-/

namespace LayeredConfig

/-- The number of a source in a store. -/
abbrev SourceId := Nat

/-- The number of an engine in a store. -/
abbrev EngineId := Nat

/-- An engine. -/
structure Engine where
  /-- In the order of their ranks. -/
  sources : List SourceId
  registry : Registry
  marker : Nat
  /-- The time at which the engine was made. -/
  epoch : Nat
  closed : Bool

/-- A source and the engine it reports to. -/
structure Joined where
  source : Source
  reporter : Option EngineId

/-- Sources and engines, and the world around them. -/
structure Store where
  files : FileTree
  /-- The environment variables. -/
  vars : Entries
  /-- Nanoseconds. -/
  now : Nat
  customTypes : List CustomType
  sources : List (SourceId × Joined)
  engines : List (EngineId × Engine)
  /-- The least number that is not in use. -/
  next : Nat

/-- What happens to the sources and converters of an application, in order. -/
inductive Notice where
  | attached (source : SourceId)
  | reloaded (source : SourceId)
  | closed (source : SourceId)
  | asked (source : SourceId) (key : String)
  | converterClosed (target : ValueType)
  deriving DecidableEq, Repr

namespace Store

/-- A store without sources and engines. -/
def empty (customTypes : List CustomType) (files : FileTree) (vars : Entries) : Store :=
  ⟨files, vars, 0, customTypes, [], [], 0⟩

def update {α : Type} (id : Nat) (a : α) (l : List (Nat × α)) : List (Nat × α) :=
  (id, a) :: l.filter fun p => p.1 ≠ id

def joined? (s : Store) (id : SourceId) : Option Joined := s.sources.lookup id

def engine? (s : Store) (id : EngineId) : Option Engine := s.engines.lookup id

def setJoined (s : Store) (id : SourceId) (j : Joined) : Store := { s with sources := update id j s.sources }

def setEngine (s : Store) (id : EngineId) (e : Engine) : Store := { s with engines := update id e s.engines }

/-- The store with one more source, and its number. -/
def addSource (s : Store) (source : Source) : SourceId × Store :=
  (s.next, { s with sources := (s.next, ⟨source, none⟩) :: s.sources, next := s.next + 1 })

/-- The sources of an engine in the order of their ranks. -/
def sourcesOf (s : Store) (e : Engine) : List (SourceId × Source) :=
  e.sources.filterMap fun id => (s.joined? id).map fun j => (id, j.source)

/-- The first value of a key in the sources of an engine. -/
def find (s : Store) (e : Engine) (key : String) : Option String :=
  (SourceSet.lookup? ((s.sourcesOf e).map Prod.snd) key).map Prod.fst

/-- What a reader sees of an engine. -/
def view (s : Store) (e : Engine) : View := ⟨s.find e, e.marker, s.now⟩

/-- Whether a source tells when it is asked for a key. -/
def reportsLookups (source : Source) : Bool :=
  match source.backing with
  | .script script => script.reportsLookups
  | _ => false

/-- What looking up a key in ordered sources lets their scripts notice. -/
def noticesOfKey (key : String) : List (SourceId × Source) → List Notice
  | [] => []
  | (id, source) :: rest =>
    let noticed := if reportsLookups source then [Notice.asked id key] else []
    if (source.get? key).isSome then noticed else noticed ++ noticesOfKey key rest

/-- What looking up keys in an engine lets the scripts of its sources notice. -/
def notices (s : Store) (e : Engine) (asked : List String) : List Notice :=
  asked.flatMap fun key => noticesOfKey key (s.sourcesOf e)

/-- The marker of an engine after one more reported change, as whoever reports it is told. -/
def nextMarker (s : Store) (e : Engine) : Nat := Marker.advance (s.now - e.epoch) e.marker

/-- The engine after one more reported change. -/
def advanced (s : Store) (e : Engine) : Engine := { e with marker := s.nextMarker e }

/-- Reports a change to an engine. -/
def reportTo (s : Store) (id : EngineId) : Store :=
  match s.engine? id with
  | some e => s.setEngine id (s.advanced e)
  | none => s

/-- Reports a change of a source to the engine that it joined last. -/
def report (s : Store) (j : Joined) : Store :=
  match j.reporter with
  | some id => s.reportTo id
  | none => s

def isScript (source : Source) : Bool :=
  match source.backing with
  | .script _ => true
  | _ => false

def keepsReporter (source : Source) : Bool :=
  match source.backing with
  | .memory | .script _ => true
  | _ => false

/-- A store and what the scripts of its sources have noticed. -/
structure Noticed where
  store : Store
  notices : List Notice

/-- Joins sources to an engine one after the other. -/
def attach (engine : EngineId) (n : Noticed) (id : SourceId) : Noticed :=
  match n.store.joined? id with
  | none => n
  | some j =>
    ⟨if keepsReporter j.source then n.store.setJoined id { j with reporter := some engine } else n.store,
      if isScript j.source then n.notices ++ [.attached id] else n.notices⟩

/-- The rank of a source in a store. -/
def rankOf (s : Store) (id : SourceId) : Rank :=
  match s.joined? id with
  | some j => j.source.rank
  | none => ⟨0, ""⟩

/-- Adds sources to an engine; adding any is a change. -/
def addSources (s : Store) (engine : EngineId) (ids : List SourceId) : Noticed :=
  if ids.isEmpty then ⟨s, []⟩
  else
    let n := ids.foldl (attach engine) ⟨s, []⟩
    match n.store.engine? engine with
    | none => n
    | some e =>
      let e := { e with sources := SourceSet.merge n.store.rankOf e.sources ids }
      ⟨n.store.setEngine engine (n.store.advanced e), n.notices⟩

/-- Reads the entries of a source again. -/
def reloadSource (n : Noticed) (id : SourceId) : Noticed :=
  match n.store.joined? id with
  | none => n
  | some j =>
    ⟨n.store.setJoined id { j with source := j.source.reload n.store.files.read n.store.vars },
      if isScript j.source then n.notices ++ [.reloaded id] else n.notices⟩

/-- Reads the entries of all sources of an engine again, which is one change. -/
def reload (s : Store) (engine : EngineId) (e : Engine) : Noticed :=
  let n := e.sources.foldl reloadSource ⟨s, []⟩
  ⟨n.store.reportTo engine, n.notices⟩

/-- Sets a value in a source, which a source in memory reports. -/
def setValue (s : Store) (id : SourceId) (j : Joined) (key value : String) : Store :=
  let s := s.setJoined id { j with source := j.source.set key value }
  if isScript j.source then s else s.report j

/-- Removes a key from a source, which a source in memory reports if it held the key. -/
def removeKey (s : Store) (id : SourceId) (j : Joined) (key : String) : Store :=
  let s' := s.setJoined id { j with source := j.source.remove key }
  if isScript j.source ∨ (j.source.entries.get? key).isNone then s' else s'.report j

/-- A converter to be registered when an engine is built. -/
abbrev Pending := ValueType × Registration

/-- The registry of a new engine. -/
def registryOf (customTypes : List CustomType) (pending : List Pending) : Except ConfigError Registry :=
  pending.foldlM (fun r p => r.register p.1 p.2) (Registry.standard customTypes)

/-- Builds an engine of sources and converters, with the environment if asked for. -/
def build (s : Store) (ids : List SourceId) (environment : Bool) (pending : List Pending) :
    Except ConfigError (EngineId × Noticed) :=
  match registryOf s.customTypes pending with
  | .error e => .error e
  | .ok registry =>
    let (extra, s) :=
      if environment then
        let (id, s) := s.addSource (Source.ofEnvironment s.vars)
        ([id], s)
      else ([], s)
    let id := s.next
    let s := { s with next := id + 1 }.setEngine id ⟨[], registry, 0, s.now, false⟩
    .ok (id, s.addSources id (ids ++ extra))

/-- The failures of closing converters, by component and message. -/
def converterFailures (closings : List (ValueType × Closing)) : List CloseFailure :=
  (closings.filterMap fun p =>
      p.2.failure.map fun message => CloseFailure.mk ("converter for " ++ p.1.fullName) message).mergeSort
    fun a b => a.component < b.component || (a.component == b.component && a.message ≤ b.message)

/-- The failures of closing sources, in their order. -/
def sourceFailures (sources : List (SourceId × Source)) : List CloseFailure :=
  sources.filterMap fun p => p.2.closeFailure?.map fun message => ⟨"source " ++ p.2.name, message⟩

/-- What the scripts of sources notice when they are closed. -/
def closeNotices (sources : List (SourceId × Source)) : List Notice :=
  sources.filterMap fun p => if isScript p.2 then some (.closed p.1) else none

/-- Closes the converters and the sources of an engine, all of them whatever fails.  Closing again does
nothing. -/
def close (s : Store) (engine : EngineId) (e : Engine) : Except ConfigError Unit × Noticed :=
  if e.closed then (.ok (), ⟨s, []⟩)
  else
    let sources := s.sourcesOf e
    let closings := e.registry.closings.mergeSort fun a b => a.1.label ≤ b.1.label
    let failures := converterFailures closings ++ sourceFailures sources
    (if failures.isEmpty then .ok () else .error (.shutdown failures),
      ⟨s.setEngine engine { e with closed := true },
        closings.map (fun p => Notice.converterClosed p.1) ++ closeNotices sources⟩)

end Store

end LayeredConfig
