import LayeredConfig.CommandLine.Get
import LayeredConfig.CommandLine.Survey

/-!
# The command line

From arguments to what is printed and the exit code: zero for success, one for a problem with the configuration, two
for arguments that are not understood.
-/

namespace LayeredConfig.CommandLine

/-- What a run of the program leaves. -/
structure Outcome where
  code : Nat
  out : String
  err : String
  deriving DecidableEq, Repr

/-- The line that tells the version. -/
def versionLine : String := "strata 0.3.0\n"

/-- The text that tells how to use the program. -/
def helpText : String :=
  "Resolve configuration keys across layered sources.\n\n"
    ++ "Sources are merged by ordinal: -D overrides (400) > environment (300) > files (100, unless the file sets "
    ++ "config_ordinal).\n\n"
    ++ "Usage: strata [OPTIONS] <COMMAND>\n\n"
    ++ "Commands:\n"
    ++ "  get      Resolve the value of a key\n"
    ++ "  names    List every key defined by any source\n"
    ++ "  sources  List the sources in merge order\n\n"
    ++ "Options:\n"
    ++ "  -f, --file <PATH>      Add a .properties, .toml or .yaml file as a source (repeatable)\n"
    ++ "      --no-env           Do not use environment variables as a source\n"
    ++ "  -D <KEY=VALUE>         Override a key (repeatable)\n"
    ++ "  -h, --help             Print help\n"
    ++ "  -V, --version          Print version\n\n"
    ++ "Options of get <KEY>:\n"
    ++ "  -t, --type <TYPE>      One of string, bool, int, float, duration, url, path, datetime\n"
    ++ "      --default <VALUE>  Fallback in string form, converted like a configured value\n"
    ++ "  -s, --suffix <SUFFIX>  Lookup-chain suffix, most specific last (repeatable)\n"
    ++ "      --raw              Print the stored value without expansion or conversion\n"
    ++ "      --list             Split the value on unescaped commas\n"
    ++ "      --json             Output as JSON\n\n"
    ++ "Options of names:\n"
    ++ "      --prefix <PREFIX>  Only list keys starting with this prefix\n"
    ++ "      --values           Also print each key's effective raw value\n"
    ++ "      --json             Output as JSON\n\n"
    ++ "Options of sources:\n"
    ++ "      --json             Output as JSON\n"

/-- What a reason to stop leaves. -/
def Stop.outcome : Stop → Outcome
  | .help => ⟨0, helpText, ""⟩
  | .version => ⟨0, versionLine, ""⟩
  | .usage e => ⟨2, "", "error: " ++ e.message ++ "\n\nFor more information, try '--help'.\n"⟩

/-- What a command prints, or the problem it has. -/
def Command.run (palette : Palette) (s : Setup) : Command → Except Problem Printed
  | .get r => (r.run s).map fun out => ⟨out, ""⟩
  | .names r => .ok ⟨r.run palette s, ""⟩
  | .sources json => .ok (SourceList.run json palette s)

/-- What an invocation leaves. -/
def Invocation.run (w : World) (i : Invocation) : Outcome :=
  match (Setup.ofLayers w i.layers).bind fun s => i.command.run w.palette s with
  | .ok printed => ⟨0, printed.out, printed.err⟩
  | .error problem => ⟨1, "", problem.render w.palette⟩

/-- What arguments leave. -/
def run (w : World) (arguments : List String) : Outcome :=
  match Invocation.read arguments with
  | .error stop => stop.outcome
  | .ok invocation => invocation.run w

end LayeredConfig.CommandLine
