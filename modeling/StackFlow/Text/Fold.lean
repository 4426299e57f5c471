/-!
Names that match regardless of case. Besides the capital letters, the long s and the Kelvin sign
stand for an ASCII letter.
-/

namespace StackFlow.Text

def foldChar (c : Char) : Char :=
  if c.toNat = 0x17f then 's' else if c.toNat = 0x212a then 'k' else c.toLower

/-- Whether a text is some spelling of a name, which is all lower-case ASCII. -/
def foldsTo (text name : String) : Bool := text.toList.map foldChar == name.toList

end StackFlow.Text
