import LayeredConfig.Number.Whole
import LayeredConfig.Number.Binary
import LayeredConfig.TypeName

/-!
# Types of values

The types that configuration values can be read as.  A type has a full name with its module path, which shows in
errors, and a short one.
-/

namespace LayeredConfig

/-- A type of values.  Types of an application are known by their full names. -/
inductive ValueType where
  | text
  | bool
  | char
  | whole (kind : WholeKind)
  | float (format : BinaryFormat)
  | duration
  | instant
  | url
  | path
  | typeRef
  | custom (fullName : String)
  | list (element : ValueType)
  deriving DecidableEq, Repr

instance : Inhabited ValueType := ⟨.text⟩

namespace ValueType

/-- The name of a type with its module path. -/
def fullName : ValueType → String
  | text => "alloc::string::String"
  | bool => "bool"
  | char => "char"
  | whole kind => kind.name
  | float format => format.name
  | duration => "core::time::Duration"
  | instant => "chrono::datetime::DateTime<chrono::offset::utc::Utc>"
  | url => "url::Url"
  | path => "std::path::PathBuf"
  | typeRef => "config::typeref::TypeRef"
  | custom name => name
  | list element => "alloc::vec::Vec<" ++ element.fullName ++ ">"

/-- The name of a type without module paths. -/
def shortName (t : ValueType) : String := TypeName.short t.fullName

/-- The name under which a type is asked for: the short one, without parameters for instants. -/
def label : ValueType → String
  | instant => "DateTime"
  | list element => "Vec<" ++ element.label ++ ">"
  | t => t.shortName

/-- The types that are no lists and belong to no application. -/
def basic : List ValueType :=
  [text, bool, char] ++ WholeKind.all.map whole ++ [float .single, float .double]
    ++ [duration, instant, url, path, typeRef]

end ValueType

end LayeredConfig
