import LayeredConfig.Text.Alphanumeric

/-!
# Type names

A full type name carries the module path of each of its parts; the short name keeps the last segment of every
path and all the punctuation between them.
-/

namespace LayeredConfig.TypeName

/-- The characters of names: letters, digits and the underscore. -/
def isNameChar (c : Char) : Bool := Text.isAlphanumeric c || c == '_'

/-- The short form of the rest of a name, `segment` being the path segment read so far, last character first. -/
def shortenAfter (segment : List Char) : List Char → List Char
  | [] => segment.reverse
  | ':' :: ':' :: cs => shortenAfter [] cs
  | c :: cs => if isNameChar c then shortenAfter (c :: segment) cs else segment.reverse ++ c :: shortenAfter [] cs

/-- The name with the path in front of every segment taken away. -/
def short (full : String) : String := String.ofList (shortenAfter [] full.toList)

end LayeredConfig.TypeName
