import StackFlow.Text.Category
import StackFlow.Text.Script

/-!
Sets of characters by the name of a Unicode property: a category, a script, or one of a few names
for larger sets. Case, blanks, hyphens and underscores in a name do not count.
-/

namespace StackFlow.Regex

def plainName (cs : List Char) : List Char :=
  (cs.filter fun c => !(c == '_' || c == '-' || c == ' ')).map Char.toLower

def sameName (name : List Char) (other : String) : Bool := plainName other.toList == name

/-- The short names of categories, of one letter and of two. -/
def categoryNames : List String :=
  ["C", "L", "M", "N", "P", "S", "Z", "Cn", "LC"] ++ Category.tables.map (·.1)

def categoryByAlias? (name : List Char) : Option CodeSet :=
  (Category.aliases.find? fun a => sameName name a.1).bind fun a => Category.points? a.2

def propertyPlain? (name : List Char) : Option CodeSet :=
  if sameName name "Any" then some .all
  else if sameName name "Assigned" then some Category.unassigned.complement
  else if sameName name "ASCII" then some (.ofRanges [(0, 0x7f)])
  else
    ((categoryNames.find? (sameName name)).bind Category.points?).or
      (((Script.tables.find? fun t => sameName name t.1).map fun t => CodeSet.ofTable t.2).or
        (categoryByAlias? name))

/-- The characters with a property. -/
def property? (name : List Char) : Option CodeSet := propertyPlain? (plainName name)

end StackFlow.Regex
