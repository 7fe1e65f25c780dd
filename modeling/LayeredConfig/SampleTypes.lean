import LayeredConfig.Registry

/-!
# Sample types of an application

Types with every combination of ways to be made from a text.
-/

namespace LayeredConfig.SampleTypes

private def lowercase (s : String) : String := String.ofList (s.toList.map Char.toLower)

/-- A name without spaces, in lower case. -/
private def parseHostname (s : String) : Except String String :=
  if s.toList.contains ' ' then .error ("invalid hostname '" ++ s ++ "'") else .ok (lowercase s)

/-- The sample types of a module: one is parsed, one constructed, one can be both, one has no way to be made, and
one gives a converter that produces plain texts. -/
def all (module : String) : List CustomType :=
  let named := fun name : String => module ++ "::" ++ name
  [⟨named "Hostname", none, none, some parseHostname⟩,
   ⟨named "Label", none, some fun s => "<" ++ s ++ ">", none⟩,
   ⟨named "Both", none, some fun s => "constructed:" ++ s, some fun s => .ok ("parsed:" ++ s)⟩,
   ⟨named "Opaque", none, none, none⟩,
   ⟨named "Liar", some (.reading .text fun raw => .ok (.text raw)), none, none⟩]

end LayeredConfig.SampleTypes
