/-!
# Truth words

The words that stand for true in a configuration; every other text stands for false.
-/

namespace LayeredConfig.Truth

/-- The words for true, in lower case. -/
def words : List String := ["true", "1", "yes", "y", "on", "ja", "j", "oui"]

/-- Whether a text is a word for true, in any mix of cases. -/
def parse (raw : String) : Bool := words.contains (String.ofList (raw.toList.map Char.toLower))

end LayeredConfig.Truth
