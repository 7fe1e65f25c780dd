/-!
# Columns

Texts filled up with spaces to the width of a column, which counts characters.  The key fact: a filled text is at
least as long as its column is wide (`length_padStart`, `length_padEnd`).
-/

namespace LayeredConfig.Text

private def spaces (n : Nat) : String := String.ofList (List.replicate n ' ')

/-- The text with spaces before it up to a width. -/
def padStart (width : Nat) (s : String) : String := spaces (width - s.length) ++ s

/-- The text with spaces behind it up to a width. -/
def padEnd (width : Nat) (s : String) : String := s ++ spaces (width - s.length)

theorem length_padStart (width : Nat) (s : String) : (padStart width s).length = max width s.length := by
  simp only [padStart, spaces, String.length_append, String.length_ofList, List.length_replicate]
  omega

theorem length_padEnd (width : Nat) (s : String) : (padEnd width s).length = max width s.length := by
  simp only [padEnd, spaces, String.length_append, String.length_ofList, List.length_replicate]
  omega

end LayeredConfig.Text
