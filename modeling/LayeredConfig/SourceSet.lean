import LayeredConfig.Source

/-!
# Merging sources

Sources are consulted from the highest rank to the lowest, those of equal rank by name.  The order is that of one
stable sort, so adding sources in several steps or at once makes no difference.
-/

namespace LayeredConfig

/-- What decides the place of a source: a greater ordinal comes first, then the smaller name. -/
structure Rank where
  ordinal : Int
  name : String
  deriving DecidableEq, Repr

/-- Whether a rank may stand before another one. -/
def Rank.before (a b : Rank) : Bool := b.ordinal < a.ordinal || (a.ordinal == b.ordinal && a.name ≤ b.name)

/-- The rank of a source. -/
def Source.rank (s : Source) : Rank := ⟨s.ordinal, s.name⟩

namespace SourceSet

/-- The items of an ordered list and new ones, in the order of their ranks. -/
def merge {α : Type} (rank : α → Rank) (ordered new : List α) : List α :=
  (ordered ++ new).mergeSort fun a b => (rank a).before (rank b)

/-- The first value of a key and the source that gives it. -/
def lookup? (sources : List Source) (key : String) : Option (String × Source) :=
  sources.findSome? fun s => (s.get? key).map (·, s)

/-- Names in increasing order, each once. -/
def sortedNames (names : List String) : List String := (Entries.ofPairs (names.map (·, ""))).keys

/-- The keys that the sources define, in increasing order. -/
def propertyNames (sources : List Source) : List String :=
  sortedNames (sources.flatMap fun s => s.entries.keys)

end SourceSet

end LayeredConfig
