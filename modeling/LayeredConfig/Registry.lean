import LayeredConfig.Converter.Builtin

/-!
# Registries of converters

A registry holds at most one active converter for each type: the registered one of the highest priority, else one
that is discovered from the type itself and kept from then on.  A list is discovered through its element type.
-/

namespace LayeredConfig

/-- A type of an application, with its own ways to be made from a text. -/
structure CustomType where
  fullName : String
  /-- A converter that goes before the other ways.  It is always the same one: a type whose converter depends on those
  of other types, or that only sometimes has one, is not described by it. -/
  own : Option Converter
  construct : Option (String → String)
  parse : Option (String → Except String String)

namespace CustomType

/-- The converter that is discovered for the type. -/
def converter? (t : CustomType) : Option Converter :=
  let target := ValueType.custom t.fullName
  match t.own, t.construct, t.parse with
  | some c, _, _ => some c
  | none, some f, _ => some (.reading target fun raw => .ok (.custom t.fullName (f raw)))
  | none, none, some p =>
    some (.reading target fun raw =>
      match p raw with
      | .ok text => .ok (.custom t.fullName text)
      | .error reason => .error (.because reason))
  | none, none, none => none

end CustomType

/-- What happens when a converter is closed: it may fail. -/
structure Closing where
  failure : Option String
  deriving DecidableEq, Repr

/-- A registered converter. -/
structure Registration where
  converter : Converter
  priority : Int
  isBuiltin : Bool
  /-- Present for a converter that is closed with its engine. -/
  closing : Option Closing

/-- The converters of an engine. -/
structure Registry where
  /-- The types of the application. -/
  customTypes : List CustomType
  registered : List (ValueType × Registration)
  discovered : List (ValueType × Converter)
  /-- The names of the types with a converter. -/
  names : TypeNames

namespace Registry

/-- The priority of the built-in converters. -/
def builtinPriority : Int := 1

/-- The priority of a converter that does not choose one. -/
def defaultPriority : Int := 100

/-- A registry without converters. -/
def empty (customTypes : List CustomType) : Registry := ⟨customTypes, [], [], []⟩

/-- The registration that is active for a type. -/
def active? (r : Registry) (t : ValueType) : Option Registration := r.registered.lookup t

def remember (r : Registry) (t : ValueType) : Registry :=
  { r with names := (t.shortName, t) :: (t.fullName, t) :: r.names }

def accept (r : Registry) (t : ValueType) (g : Registration) : Registry :=
  remember { r with registered := (t, g) :: r.registered.filter fun p => p.1 ≠ t } t

/-- Registers a converter for a type.  It replaces one of a lower priority, and a built-in one of an equal
priority; registered ones of equal priority conflict, and one of a lower priority is ignored. -/
def register (r : Registry) (t : ValueType) (g : Registration) : Except ConfigError Registry :=
  match r.active? t with
  | none => .ok (accept r t g)
  | some existing =>
    if existing.isBuiltin then .ok (if existing.priority ≤ g.priority then accept r t g else r)
    else if g.priority = existing.priority then .error (.conflictingPriority t.fullName g.priority)
    else .ok (if existing.priority < g.priority then accept r t g else r)

def addBuiltin (r : Registry) (t : ValueType) : Registry :=
  match Converter.builtin? t with
  | some c => accept r t ⟨c, builtinPriority, true, none⟩
  | none => r

/-- A registry with the built-in converters. -/
def standard (customTypes : List CustomType) : Registry :=
  ValueType.basic.foldl addBuiltin (empty customTypes)

def discover (r : Registry) (t : ValueType) (c : Converter) : Registry :=
  remember { r with discovered := (t, c) :: r.discovered } t

/-- The converter of an application's type. -/
def customConverter? (r : Registry) (name : String) : Option Converter :=
  (r.customTypes.find? fun t => t.fullName == name).bind CustomType.converter?

/-- The converter for a type, and the registry that keeps what was discovered on the way. -/
def resolve (r : Registry) (t : ValueType) : Except ConfigError Converter × Registry :=
  match r.active? t, r.discovered.lookup t with
  | some g, _ => (.ok g.converter, r)
  | none, some c => (.ok c, r)
  | none, none =>
    match t with
    | .list element =>
      match resolve r element with
      | (.ok item, r) => (.ok (.list element item), discover r (.list element) (.list element item))
      | (.error _, r) => (.error (.noConverter (ValueType.list element).fullName), r)
    | .custom name =>
      match customConverter? r name with
      | some c => (.ok c, discover r (.custom name) c)
      | none => (.error (.noConverter name), r)
    | t => (.error (.noConverter t.fullName), r)

/-- Converts a text; an absent text stays absent. -/
def convert (r : Registry) (t : ValueType) : Option String → Except ConfigError (Option Value) × Registry
  | none => (.ok none, r)
  | some raw =>
    match r.resolve t with
    | (.error e, r) => (.error e, r)
    | (.ok c, r) => ((c.convert r.names t raw).map some, r)

/-- Whether a type has a converter. -/
def hasConverter (r : Registry) (t : ValueType) : Bool × Registry :=
  match r.resolve t with
  | (.ok _, r) => (true, r)
  | (.error _, r) => (false, r)

/-- The converters that are closed with the engine. -/
def closings (r : Registry) : List (ValueType × Closing) :=
  r.registered.filterMap fun p => p.2.closing.map (p.1, ·)

end Registry

end LayeredConfig
