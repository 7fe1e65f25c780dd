import LayeredConfig.FileFormat
import LayeredConfig.FileTree
import LayeredConfig.Properties
import LayeredConfig.Toml.Document
import LayeredConfig.Yaml.Document

/-!
# Configuration files

A file of entries in the format that its name tells.
-/

namespace LayeredConfig.ConfigFile

private def fault (path : String) : ReadFault → FileError
  | .missing => .fileNotFound path
  | .notDirectory => .io "Not a directory (os error 20)"
  | .isDirectory => .io "Is a directory (os error 21)"
  | .nameTooLong => .io "File name too long (os error 36)"
  | .nulInPath => .io "file name contained an unexpected NUL byte"
  | .denied => .io "Permission denied (os error 13)"
  | .notText => .io "stream did not contain valid UTF-8"

/-- The entries of a text in some format. -/
def parse (format : FileFormat) (text : String) : Except FileError Entries :=
  match format with
  | .properties => .ok (Properties.parse text)
  | .toml =>
    match Toml.parse? text with
    | some document => .ok document.flatten
    | none => .error .malformedToml
  | .yaml =>
    match Yaml.parse? text with
    | none => .error .malformedYaml
    | some document =>
      match document.flatten? with
      | some entries => .ok entries
      | none => .error .notMapping

/-- The entries of the file at a path. -/
def load (read : FileReader) (path : String) : Except FileError Entries := do
  let format ← FileFormat.ofPath path
  match read path with
  | .error e => .error (fault path e)
  | .ok text => parse format text

end LayeredConfig.ConfigFile
