import LayeredConfig.Text.Blank
import LayeredConfig.ValueType

/-!
# Arguments

The options of the command line and how arguments are read as options with their values.  An option has a long name,
a short one or both.  A value may be attached to its option, or follow as the next argument if that is a word.
-/

namespace LayeredConfig.CommandLine

/-- The options of all commands. -/
inductive Switch where
  | file
  | noEnvironment
  | define
  | type
  | default
  | suffix
  | raw
  | list
  | start
  | values
  | json
  | help
  | version
  deriving DecidableEq, Repr

/-- A name of an option. -/
inductive SwitchName where
  | long (text : String)
  | short (letter : Char)
  deriving DecidableEq, Repr

/-- What an argument is at first sight. -/
inductive Argument where
  /-- The argument after which all arguments are words. -/
  | separator
  | option (name : SwitchName) (attached : Option String)
  | word (text : String)
  deriving DecidableEq, Repr

namespace Argument

/-- A name and what follows the first equals sign, if there is one. -/
def splitAtEquals (cs : List Char) : List Char × Option String :=
  match cs.dropWhile (· ≠ '=') with
  | [] => (cs, none)
  | _ :: value => (cs.takeWhile (· ≠ '='), some (String.ofList value))

/-- What stands behind the letter of an option; an equals sign before it does not count. -/
def attachedToLetter : List Char → Option String
  | [] => none
  | '=' :: value => some (String.ofList value)
  | value => some (String.ofList value)

/-- Tells options from words.  A single dash is a word. -/
def of (text : String) : Argument :=
  match text.toList with
  | ['-', '-'] => separator
  | '-' :: '-' :: cs =>
    let p := splitAtEquals cs
    option (.long (String.ofList p.1)) p.2
  | '-' :: letter :: cs => option (.short letter) (attachedToLetter cs)
  | _ => word text

end Argument

namespace Switch

/-- The names of an option. -/
def names : Switch → List SwitchName
  | file => [.long "file", .short 'f']
  | noEnvironment => [.long "no-env"]
  | define => [.short 'D']
  | type => [.long "type", .short 't']
  | default => [.long "default"]
  | suffix => [.long "suffix", .short 's']
  | raw => [.long "raw"]
  | list => [.long "list"]
  | start => [.long "prefix"]
  | values => [.long "values"]
  | json => [.long "json"]
  | help => [.long "help", .short 'h']
  | version => [.long "version", .short 'V']

/-- Whether an option has a value. -/
def takesValue : Switch → Bool
  | file | define | type | default | suffix | start => true
  | _ => false

/-- Whether an option may be given more than once. -/
def isRepeatable : Switch → Bool
  | file | define | suffix => true
  | _ => false

end Switch

/-- A key and its value around the first equals sign.  The key is trimmed and must not be empty. -/
def definition? (text : String) : Option (String × String) :=
  let cs := text.toList
  let key := Text.trim (cs.takeWhile (· ≠ '='))
  match cs.dropWhile (· ≠ '=') with
  | [] => none
  | _ :: value => if key = [] then none else some (String.ofList key, String.ofList value)

/-- The types that values can be asked for, by the words for them. -/
def namedTypes : List (String × ValueType) :=
  [("string", .text), ("bool", .bool), ("int", .whole .i64), ("float", .float .double), ("duration", .duration),
   ("url", .url), ("path", .path), ("datetime", .instant)]

/-- Whether a text can be the value of an option. -/
def Switch.accepts (s : Switch) (value : String) : Bool :=
  match s with
  | file => !value.isEmpty
  | define => (definition? value).isSome
  | type => (namedTypes.lookup value).isSome
  | _ => true

/-- Why arguments are not understood. -/
inductive UsageError where
  | unexpected (argument : String)
  | missingValue (argument : String)
  | invalidValue (argument value : String)
  | repeated (argument : String)
  | missingKey
  | missingCommand
  deriving DecidableEq, Repr

/-- The text shown for arguments that are not understood. -/
def UsageError.message : UsageError → String
  | unexpected argument => "unexpected argument '" ++ argument ++ "' found"
  | missingValue argument => "a value is required for '" ++ argument ++ "' but none was supplied"
  | invalidValue argument value => "invalid value '" ++ value ++ "' for '" ++ argument ++ "'"
  | repeated argument => "the argument '" ++ argument ++ "' cannot be used multiple times"
  | missingKey => "a key is required"
  | missingCommand => "a command is required"

/-- Why arguments ask for no action. -/
inductive Stop where
  | usage (e : UsageError)
  | help
  | version
  deriving DecidableEq, Repr

/-- Options that were given with their values, in order; the value of an option that takes none is empty. -/
abbrev Given := List (Switch × String)

namespace Given

/-- Whether an option was given. -/
def has (g : Given) (s : Switch) : Bool := g.any fun p => p.1 == s

/-- The values of an option. -/
def values (g : Given) (s : Switch) : List String := (g.filter fun p => p.1 == s).map Prod.snd

/-- The value of an option. -/
def value? (g : Given) (s : Switch) : Option String := g.lookup s

/-- The options with one more, which `argument` gives. -/
def add (g : Given) (argument : String) (s : Switch) (value : String) : Except Stop Given :=
  match s with
  | .help => .error .help
  | .version => .error .version
  | s =>
    if !s.isRepeatable && g.has s then .error (.usage (.repeated argument))
    else if s.accepts value then .ok (g ++ [(s, value)])
    else .error (.usage (.invalidValue argument value))

/-- Reads arguments as options of a scope, up to the first word or the separator.  Gives what is left, too. -/
def read (scope : List Switch) (g : Given) : List String → Except Stop (Given × List String)
  | [] => .ok (g, [])
  | argument :: rest =>
    match Argument.of argument with
    | .separator | .word _ => .ok (g, argument :: rest)
    | .option name attached =>
      match scope.find? fun s => s.names.contains name with
      | none => .error (.usage (.unexpected argument))
      | some s =>
        if s.takesValue then
          match attached, rest with
          | some value, rest => do read scope (← g.add argument s value) rest
          | none, [] => .error (.usage (.missingValue argument))
          | none, value :: rest =>
            match Argument.of value with
            | .word _ => do read scope (← g.add argument s value) rest
            | _ => .error (.usage (.missingValue argument))
        else
          match name, attached with
          | .long _, some _ => .error (.usage (.unexpected argument))
          | _, _ => do read scope (← g.add argument s "") rest

end Given

end LayeredConfig.CommandLine
