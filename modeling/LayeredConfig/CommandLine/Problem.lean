import LayeredConfig.CommandLine.Palette
import LayeredConfig.Error
import LayeredConfig.FileFormat

/-!
# Problems

What the command line tells about a failure: what failed and why, how to fix it, and a command to try.
-/

namespace LayeredConfig.CommandLine

/-- A failure as it is told to a user. -/
structure Problem where
  what : String
  why : Option String
  /-- Ways to fix it. -/
  fixes : List String
  /-- A command to try. -/
  suggestion : Option String
  deriving DecidableEq, Repr

namespace Problem

/-- A key without a value. -/
def keyNotFound (key : String) : Problem :=
  { what := "No configured value found for config key " ++ key
    why := some "No source defines the key and no default was given"
    fixes := ["Define the key in a config file or as an environment variable",
      "Or pass a fallback with --default"]
    suggestion := some ("strata get " ++ key ++ " --default <value>") }

/-- A value that is not of the wanted type. -/
def conversionFailed (key reason : String) : Problem :=
  { what := "Cannot convert value of " ++ key
    why := some reason
    fixes := ["Check the value in the highest-ordinal source that defines the key",
      "Or request a different --type"]
    suggestion := some ("strata get " ++ key ++ " --raw") }

/-- A list that is not escaped properly. -/
def malformedValue (key reason : String) : Problem :=
  { what := "Malformed list value for " ++ key
    why := some reason
    fixes := ["Escape literal commas as \\, and backslashes as \\\\"]
    suggestion := some ("strata get " ++ key ++ " --raw") }

/-- A file that cannot be loaded. -/
def unloadable (path reason : String) : Problem :=
  { what := "Cannot load config file '" ++ path ++ "'"
    why := some reason
    fixes := ["Check that the file exists and is readable",
      "Supported formats are .properties, .toml, .yaml and .yml"]
    suggestion := none }

/-- A failure of which nothing more is known. -/
def bare (what : String) : Problem := { what, why := none, fixes := [], suggestion := none }

/-- The problem of getting the value of a key. -/
def ofConfigError (key : String) (e : ConfigError) : Problem :=
  match e with
  | .notFound _ => keyNotFound key
  | .malformedInput _ _ _ => malformedValue key e.message
  | .conversionFailed _ _ _ | .noConverter _ => conversionFailed key e.message
  | _ => bare e.message

/-- The problem of loading a file. -/
def ofFileError (path : String) (e : FileError) : Problem := unloadable path e.message

private def numbered (number : Nat) : List String → String
  | [] => ""
  | line :: rest => "  " ++ toString number ++ ". " ++ line ++ "\n" ++ numbered (number + 1) rest

/-- The text of a problem. -/
def render (palette : Palette) (p : Problem) : String :=
  let why := match p.why with
    | some reason => "       " ++ palette.paint .faint reason ++ "\n"
    | none => ""
  let fixes :=
    if p.fixes.isEmpty then "" else "\n" ++ palette.paint .warning "How to fix:" ++ "\n" ++ numbered 1 p.fixes
  let suggestion := match p.suggestion with
    | some command =>
      "\n" ++ palette.paint .success "Try this:" ++ "\n  $ " ++ palette.paint .name command ++ "\n"
    | none => ""
  "\n" ++ palette.paint .failure "error:" ++ " " ++ palette.paint .strong p.what ++ "\n"
    ++ why ++ fixes ++ suggestion ++ "\n"

end Problem

end LayeredConfig.CommandLine
