import LayeredConfig.ConfigFile
import LayeredConfig.Number.Whole

/-!
# Sources

A source is a named and ranked set of entries.  Its entries come from memory, from the environment, from a file,
or from a script of an application.  A source that holds an entry `config_ordinal` when it is made takes its rank
from it.
-/

namespace LayeredConfig

/-- What an application prescribes for a source of its own. -/
structure SourceScript where
  /-- Whether lookups are reported. -/
  reportsLookups : Bool
  /-- Why the source cannot be closed. -/
  closeFailure : Option String
  /-- The entries after each of the next reloads. -/
  reloads : List Entries

/-- Where the entries of a source come from. -/
inductive Backing where
  | memory
  | environment
  | file (path : String)
  | script (s : SourceScript)

/-- A named and ranked set of entries. -/
structure Source where
  name : String
  ordinal : Int
  entries : Entries
  backing : Backing

namespace Source

/-- The key of the entry that gives a source its rank. -/
def ordinalKey : String := "config_ordinal"

def rankIn (entries : Entries) (default : Int) : Int := ordinalOr (entries.get? ordinalKey) default

/-- A source in memory. -/
def ofEntries (name : String) (ordinal : Int) (entries : Entries) : Source :=
  ⟨name, rankIn entries ordinal, entries, .memory⟩

/-- The rank of the environment. -/
def environmentOrdinal : Int := 300

/-- The source of environment variables. -/
def ofEnvironment (vars : Entries) : Source :=
  ⟨"environment-variables", rankIn vars environmentOrdinal, vars, .environment⟩

/-- The rank of files. -/
def fileOrdinal : Int := 100

def ofFileEntries (path : String) (ordinal : Int) (entries : Entries) : Source :=
  ⟨path, rankIn entries ordinal, entries, .file path⟩

/-- The source of a file, which must be loadable. -/
def load (read : FileReader) (path : String) : Except FileError Source :=
  (ConfigFile.load read path).map (ofFileEntries path fileOrdinal)

/-- The source of a file, empty if the file cannot be loaded. -/
def ofFile (read : FileReader) (path : String) (ordinal : Int) : Source :=
  match ConfigFile.load read path with
  | .ok entries => ofFileEntries path ordinal entries
  | .error _ => ofFileEntries path ordinal Entries.empty

/-- A source of an application, with a fixed rank. -/
def ofScript (name : String) (ordinal : Int) (entries : Entries) (s : SourceScript) : Source :=
  ⟨name, ordinal, entries, .script s⟩

/-- A key with every character but letters and digits of the alphabet replaced by an underscore. -/
def sanitize (key : String) : String :=
  String.ofList (key.toList.map fun c => if c.isAlphanum then c else '_')

/-- A text in capital letters of the alphabet. -/
def capitals (key : String) : String := String.ofList (key.toList.map Char.toUpper)

/-- The value of a key.  The environment also answers for the sanitized key and its capital form. -/
def get? (s : Source) (key : String) : Option String :=
  match s.backing with
  | .environment =>
    (s.entries.get? key).or ((s.entries.get? (sanitize key)).or (s.entries.get? (capitals (sanitize key))))
  | _ => s.entries.get? key

/-- The source with a value set. -/
def set (s : Source) (key value : String) : Source := { s with entries := s.entries.put key value }

/-- The source without a key. -/
def remove (s : Source) (key : String) : Source := { s with entries := s.entries.erase key }

/-- The source with its entries read again.  A missing file empties its source, and one that cannot be loaded for
another reason leaves it as it is. -/
def reload (read : FileReader) (vars : Entries) (s : Source) : Source :=
  match s.backing with
  | .memory => s
  | .environment => { s with entries := vars }
  | .file path =>
    match ConfigFile.load read path with
    | .ok entries => { s with entries }
    | .error (.fileNotFound _) => { s with entries := Entries.empty }
    | .error _ => s
  | .script script =>
    match script.reloads with
    | [] => s
    | entries :: reloads => { s with entries, backing := .script { script with reloads } }

/-- Why the source cannot be closed, if it cannot. -/
def closeFailure? (s : Source) : Option String :=
  match s.backing with
  | .script script => script.closeFailure
  | _ => none

/-- The description of a source. -/
structure Info where
  name : String
  ordinal : Int
  propertyCount : Nat
  deriving DecidableEq, Repr

/-- The description of a source. -/
def info (s : Source) : Info := ⟨s.name, s.ordinal, s.entries.size⟩

end Source

end LayeredConfig
