import LayeredConfig.CommandLine.Setup
import LayeredConfig.JsonValue
import LayeredConfig.Text.Column

/-!
# Surveys

The commands that list the keys of all sources and the sources themselves.
-/

namespace LayeredConfig.CommandLine

/-- What a command prints. -/
structure Printed where
  out : String
  err : String
  deriving DecidableEq, Repr

/-- A line with a hint. -/
def hint (palette : Palette) (text : String) : String :=
  palette.paint .advice "hint:" ++ " " ++ palette.paint .faint text ++ "\n"

/-- A line with a warning. -/
def warning (palette : Palette) (text : String) : String := palette.paint .warning "warning:" ++ " " ++ text ++ "\n"

namespace NamesRequest

/-- The names that are asked for, in increasing order. -/
def selected (r : NamesRequest) (s : Setup) : List String :=
  (SourceSet.propertyNames s.sources).filter fun name => r.start.toList.isPrefixOf name.toList

/-- The names as a document, with their values if asked for. -/
def document (r : NamesRequest) (s : Setup) (names : List String) : JsonValue :=
  if r.values then .object (names.map fun name => (name, .text ((s.find name).getD "")))
  else .array (names.map .text)

private def row (palette : Palette) (s : Setup) (width : Nat) (name : String) : String :=
  "  " ++ palette.paint .name (Text.padEnd width name) ++ "  " ++ (s.find name).getD "" ++ "\n"

/-- Lines of names and values; the longest name in bytes gives the width of the first column. -/
def table (palette : Palette) (s : Setup) (names : List String) : String :=
  let width := (names.map String.utf8ByteSize).foldl max 0
  String.join (names.map (row palette s width))

/-- What a request prints. -/
def run (r : NamesRequest) (palette : Palette) (s : Setup) : String :=
  let names := r.selected s
  if r.json then (r.document s names).render ++ "\n"
  else if names.isEmpty then hint palette "No keys defined. Add sources with --file or -D key=value"
  else if r.values then table palette s names
  else String.join (names.map (· ++ "\n"))

end NamesRequest

namespace SourceList

/-- A source as a document. -/
def document (i : Source.Info) : JsonValue :=
  .object [("name", .text i.name), ("ordinal", .number i.ordinal), ("property_count", .number i.propertyCount)]

/-- A row of three columns. -/
def row (ordinal name keys : String) : String :=
  "  " ++ Text.padStart 8 ordinal ++ "  " ++ Text.padEnd 32 name ++ "  " ++ keys ++ "\n"

private def rowOf (i : Source.Info) : String := row (toString i.ordinal) i.name (toString i.propertyCount)

/-- What a list of sources prints. -/
def run (json : Bool) (palette : Palette) (s : Setup) : Printed :=
  let sources := s.sources.map Source.info
  if json then ⟨(JsonValue.array (sources.map document)).render ++ "\n", ""⟩
  else
    let title := palette.paint .title "Configuration Sources" ++ "\n"
    if sources.isEmpty then
      ⟨title ++ hint palette "Drop --no-env or add --file <PATH>", warning palette "No sources configured"⟩
    else
      ⟨title ++ row "ORDINAL" "NAME" "KEYS" ++ String.join (sources.map rowOf) ++ "\n"
          ++ hint palette "Earlier sources win; \x60strata get <key>\x60 shows the effective value", ""⟩

end SourceList

end LayeredConfig.CommandLine
