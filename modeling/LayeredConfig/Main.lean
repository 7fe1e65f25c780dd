import LayeredConfig.CommandLine

/-!
# The program

Reads the environment and the files that the arguments name, and prints what the command line makes of them.
-/

namespace LayeredConfig.Program

/-- The parts of a text between its zero bytes. -/
def chunks : List UInt8 → List (List UInt8)
  | [] => [[]]
  | byte :: rest =>
    match chunks rest with
    | [] => [[byte]]
    | chunk :: more => if byte = 0 then [] :: chunk :: more else (byte :: chunk) :: more

/-- A variable and its value around the first equals sign behind the first character, if both are readable. -/
def variableOf? (chunk : List UInt8) : Option (String × String) := do
  let text ← String.fromUTF8? ⟨chunk.toArray⟩
  match text.toList with
  | [] => none
  | first :: cs =>
    match cs.dropWhile (· ≠ '=') with
    | [] => none
    | _ :: value => some (String.ofList (first :: cs.takeWhile (· ≠ '=')), String.ofList value)

/-- The readable variables of an environment block. -/
def variablesOf (block : ByteArray) : Entries := Entries.ofPairs ((chunks block.toList).filterMap variableOf?)

private def faultOf : IO.Error → ReadFault
  | .permissionDenied _ _ _ => .denied
  | .inappropriateType none _ _ => .isDirectory
  | .inappropriateType (some _) _ _ => .notDirectory
  | .invalidArgument _ _ _ => .nameTooLong
  | _ => .missing

/-- The text of a file. -/
def readText (path : String) : IO (Except ReadFault String) := do
  try
    match String.fromUTF8? (← IO.FS.readBinFile path) with
    | some text => return .ok text
    | none => return .error .notText
  catch e => return .error (faultOf e)

/-- The environment variables. -/
def readVariables : IO Entries := do
  try return variablesOf (← IO.FS.readBinFile "/proc/self/environ")
  catch _ => return Entries.empty

/-- The paths that arguments name. -/
def pathsOf (arguments : List String) : List String :=
  match CommandLine.Invocation.read arguments with
  | .ok invocation => invocation.layers.files
  | .error _ => []

end LayeredConfig.Program

open LayeredConfig in
/-- Runs the command line and exits with its code. -/
def main (arguments : List String) : IO UInt32 := do
  let texts ← (Program.pathsOf arguments).mapM fun path => do return (path, ← Program.readText path)
  let vars ← Program.readVariables
  let out ← IO.getStdout
  let err ← IO.getStderr
  let palette := CommandLine.Palette.ofVariables vars.get? (← out.isTty)
  let outcome := CommandLine.run ⟨fun path => (texts.lookup path).getD (.error .missing), vars, palette⟩ arguments
  out.putStr outcome.out
  err.putStr outcome.err
  return UInt32.ofNat outcome.code
