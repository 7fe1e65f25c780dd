import LayeredConfig.CommandLine.Argument

/-!
# Invocations

What a list of arguments asks for: layers of configuration, and a command on them.  The options for layers may stand
before or after the name of the command; where one is given on both sides, only what stands behind it counts.
-/

namespace LayeredConfig.CommandLine

/-- The layers of a configuration. -/
structure Layers where
  /-- The paths of files. -/
  files : List String
  /-- Whether environment variables are a layer. -/
  environment : Bool
  /-- Keys and values from the command line. -/
  defines : List (String × String)
  deriving DecidableEq, Repr

/-- What is asked about a key. -/
structure GetRequest where
  key : String
  type : ValueType
  default : Option String
  suffixes : List String
  raw : Bool
  list : Bool
  json : Bool
  deriving DecidableEq, Repr

/-- What is asked about the names of keys. -/
structure NamesRequest where
  /-- What the names start with. -/
  start : String
  values : Bool
  json : Bool
  deriving DecidableEq, Repr

/-- A command. -/
inductive Command where
  | get (r : GetRequest)
  | names (r : NamesRequest)
  | sources (json : Bool)
  deriving DecidableEq, Repr

/-- Layers and the command on them. -/
structure Invocation where
  layers : Layers
  command : Command
  deriving DecidableEq, Repr

/-- The kinds of commands. -/
inductive CommandKind where
  | get
  | names
  | sources
  deriving DecidableEq, Repr

namespace CommandKind

/-- The commands by their names. -/
def named : List (String × CommandKind) := [("get", get), ("names", names), ("sources", sources)]

/-- The options of a command apart from those for layers. -/
def ownScope : CommandKind → List Switch
  | get => [.type, .default, .suffix, .raw, .list, .json]
  | names => [.start, .values, .json]
  | sources => [.json]

end CommandKind

namespace Invocation

/-- The options for layers. -/
def layerScope : List Switch := [.file, .noEnvironment, .define]

/-- The options before the name of a command. -/
def outerScope : List Switch := layerScope ++ [.help, .version]

/-- The options behind the name of a command. -/
def innerScope (kind : CommandKind) : List Switch := kind.ownScope ++ layerScope ++ [.help]

/-- The values of an option that count: those behind the name of a command take the place of all those before it. -/
def closest (outer inner : Given) (s : Switch) : List String :=
  if inner.has s then inner.values s else outer.values s

/-- The layers that options ask for. -/
def layersOf (outer inner : Given) : Layers :=
  ⟨closest outer inner .file, !(outer.has .noEnvironment || inner.has .noEnvironment),
    (closest outer inner .define).filterMap definition?⟩

/-- The type that options ask for. -/
def typeOf (g : Given) : ValueType := ((g.value? .type).bind fun name => namedTypes.lookup name).getD .text

/-- Arguments without any word left. -/
def finish : List String → Except Stop Unit
  | [] | ["--"] => .ok ()
  | "--" :: word :: _ => .error (.usage (.unexpected word))
  | word :: _ => .error (.usage (.unexpected word))

/-- Reads the options and the only word behind the name of a command that asks for a key. -/
def readKey (scope : List Switch) (arguments : List String) : Except Stop (Given × String) := do
  match ← Given.read scope [] arguments with
  | (_, []) | (_, ["--"]) => .error (.usage .missingKey)
  | (g, ["--", key]) => .ok (g, key)
  | (_, "--" :: _ :: word :: _) => .error (.usage (.unexpected word))
  | (g, key :: rest) =>
    let (g, rest) ← Given.read scope g rest
    finish rest
    return (g, key)

/-- Reads the options behind the name of a command. -/
private def readOptions (scope : List Switch) (arguments : List String) : Except Stop Given := do
  let (g, rest) ← Given.read scope [] arguments
  finish rest
  return g

/-- Reads the arguments behind the name of a command. -/
def readCommand (kind : CommandKind) (arguments : List String) : Except Stop (Given × Command) := do
  let scope := innerScope kind
  match kind with
  | .get =>
    let (g, key) ← readKey scope arguments
    let request : GetRequest :=
      { key, type := typeOf g, default := g.value? .default, suffixes := g.values .suffix, raw := g.has .raw,
        list := g.has .list, json := g.has .json }
    return (g, .get request)
  | .names =>
    let g ← readOptions scope arguments
    return (g, .names ⟨(g.value? .start).getD "", g.has .values, g.has .json⟩)
  | .sources =>
    let g ← readOptions scope arguments
    return (g, .sources (g.has .json))

/-- Reads the words behind the request for help, which may name a command. -/
private def readHelp : List String → Stop
  | [] => .help
  | [word] =>
    if word = "help" ∨ (CommandKind.named.lookup word).isSome then .help else .usage (.unexpected word)
  | _ :: word :: _ => .usage (.unexpected word)

/-- Reads all arguments. -/
def read (arguments : List String) : Except Stop Invocation := do
  match ← Given.read outerScope [] arguments with
  | (_, []) => .error (.usage .missingCommand)
  | (outer, word :: rest) =>
    match CommandKind.named.lookup word with
    | some kind =>
      let (inner, command) ← readCommand kind rest
      return ⟨layersOf outer inner, command⟩
    | none => .error (if word = "help" then readHelp rest else .usage (.unexpected word))

end Invocation

end LayeredConfig.CommandLine
