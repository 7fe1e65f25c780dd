/-!
# Palettes

How words of the output stand out.  A plain palette leaves every text as it is; another one encloses it in terminal
sequences.
-/

namespace LayeredConfig.CommandLine

/-- Whether the output has colors. -/
inductive Palette where
  | plain
  | colored
  deriving DecidableEq, Repr

/-- The ways to stand out. -/
inductive Emphasis where
  | title
  | failure
  | warning
  | success
  | advice
  | strong
  | faint
  | name
  deriving DecidableEq, Repr

namespace Emphasis

/-- The sequence that starts an emphasis. -/
def start : Emphasis → String
  | title => "\x1b[1;4m"
  | failure => "\x1b[1;31m"
  | warning => "\x1b[1;33m"
  | success => "\x1b[1;32m"
  | advice => "\x1b[1;36m"
  | strong => "\x1b[1;37m"
  | faint => "\x1b[2m"
  | name => "\x1b[36m"

/-- The sequence that ends any emphasis. -/
def reset : String := "\x1b[0m"

end Emphasis

namespace Palette

/-- A text that stands out.  An end of emphasis inside the text does not end that of the text. -/
def paint (p : Palette) (e : Emphasis) (s : String) : String :=
  match p with
  | plain => s
  | colored => e.start ++ s.replace Emphasis.reset (Emphasis.reset ++ e.start) ++ Emphasis.reset

private def isOn (value : String) : Bool := value ≠ "0"

/-- The palette that environment variables ask for: colors may be forced or forbidden, and are otherwise for
terminals only. -/
def ofVariables (lookup? : String → Option String) (terminal : Bool) : Palette :=
  if (lookup? "CLICOLOR_FORCE").any isOn then colored
  else if (lookup? "NO_COLOR").isSome then plain
  else if terminal ∧ (lookup? "CLICOLOR").all isOn then colored
  else plain

end Palette

end LayeredConfig.CommandLine
