/-!
# Key paths

Nested keys are joined by dots.
-/

namespace LayeredConfig.KeyPath

/-- The key below a path; the empty path is the top. -/
def join (path key : String) : String := if path.isEmpty then key else path ++ "." ++ key

end LayeredConfig.KeyPath
