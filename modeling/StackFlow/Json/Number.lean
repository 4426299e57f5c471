import StackFlow.Json.Value
import StackFlow.Text.Binary64

/-!
JSON numbers of 64 bits.
-/

namespace StackFlow.Json

/-- Positional between a millionth and a thousand trillion millions. -/
def numberStyle : Binary64.Style := ⟨-6, 20, 1⟩

def ofBinary64 (x : Binary64) : Value := .num (x.textWith numberStyle)

end StackFlow.Json
