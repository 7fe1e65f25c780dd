import LayeredConfig.Path
import LayeredConfig.Text.Lowercase

/-!
# File formats

The format of a configuration file, told by the ending of its name.
-/

namespace LayeredConfig

/-- The formats that configuration files are written in. -/
inductive FileFormat where
  | properties
  | toml
  | yaml
  deriving DecidableEq, Repr

/-- Why a configuration file cannot be loaded. -/
inductive FileError where
  | fileNotFound (path : String)
  | io (reason : String)
  | malformedToml
  | malformedYaml
  /-- The file is YAML, but not a mapping from keys to values. -/
  | notMapping
  | noExtension
  | unsupportedFormat (ending : String)
  deriving DecidableEq, Repr

namespace FileError

/-- The text shown for an error. -/
def message : FileError → String
  | fileNotFound path => "File not found: " ++ path
  | io reason => "IO error: " ++ reason
  | malformedToml => "Failed to parse TOML"
  | malformedYaml => "Failed to parse YAML"
  | notMapping => "Failed to parse YAML: top-level YAML value must be a mapping"
  | noExtension => "Config file has no extension"
  | unsupportedFormat ending => "Unsupported config file format: " ++ ending

end FileError

/-- The format of the file at a path. -/
def FileFormat.ofPath (path : String) : Except FileError FileFormat :=
  match Path.extension? path with
  | none => .error .noExtension
  | some ending =>
    let ending := String.ofList (Text.lower ending)
    if ending = "properties" then .ok .properties
    else if ending = "toml" then .ok .toml
    else if ending = "yaml" ∨ ending = "yml" then .ok .yaml
    else .error (.unsupportedFormat ending)

end LayeredConfig
