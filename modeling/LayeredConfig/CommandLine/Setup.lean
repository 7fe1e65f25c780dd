import LayeredConfig.CommandLine.Invocation
import LayeredConfig.CommandLine.Problem
import LayeredConfig.Engine

/-!
# Setup

The engine that an invocation works on.  Values from the command line outrank the environment, which outranks files.
-/

namespace LayeredConfig.CommandLine

/-- What an invocation finds around it. -/
structure World where
  read : FileReader
  /-- The environment variables. -/
  vars : Entries
  palette : Palette

/-- The name of the source of values from the command line. -/
def definesName : String := "command-line"

/-- The rank of values from the command line. -/
def definesOrdinal : Int := 400

/-- An engine and the store that holds its sources. -/
structure Setup where
  store : Store
  engine : Engine

namespace Setup

/-- The sources of files, all of which must be loadable. -/
def fileSources (read : FileReader) : List String → Except Problem (List Source)
  | [] => .ok []
  | path :: rest =>
    match Source.load read path with
    | .error e => .error (.ofFileError path e)
    | .ok source => (fileSources read rest).map (source :: ·)

/-- The source of values from the command line, unless there are none. -/
def defineSources (defines : List (String × String)) : List Source :=
  if defines.isEmpty then [] else [Source.ofEntries definesName definesOrdinal (Entries.ofPairs defines)]

/-- The sources under numbers of a store, and the store that holds them, too. -/
def addAll (store : Store) : List Source → List SourceId × Store
  | [] => ([], store)
  | source :: rest =>
    let (id, store) := store.addSource source
    let (ids, store) := addAll store rest
    (id :: ids, store)

/-- The engine of some layers. -/
def ofLayers (w : World) (l : Layers) : Except Problem Setup := do
  let files ← fileSources w.read l.files
  let (ids, store) := addAll (Store.empty [] FileTree.empty w.vars) (files ++ defineSources l.defines)
  match store.build ids l.environment [] with
  | .error e => .error (.bare e.message)
  | .ok (id, n) =>
    match n.store.engine? id with
    | some engine => .ok ⟨n.store, engine⟩
    | none => .ok ⟨n.store, ⟨[], Registry.standard [], 0, 0, false⟩⟩

/-- What a reader sees of the engine. -/
def view (s : Setup) : View := s.store.view s.engine

/-- The sources in the order of their ranks. -/
def sources (s : Setup) : List Source := (s.store.sourcesOf s.engine).map Prod.snd

/-- The value of a key, as its source holds it. -/
def find (s : Setup) (key : String) : Option String := s.store.find s.engine key

end Setup

end LayeredConfig.CommandLine
