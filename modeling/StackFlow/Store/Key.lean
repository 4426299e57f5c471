import StackFlow.Text.Blank
import StackFlow.Text.Decimal
import StackFlow.Text.Hex

/-!
Encryption keys as people write them: 32 bytes in hexadecimal.
-/

namespace StackFlow.Key

inductive Error where
  | notHex
  | wrongSize (got : Nat)

def Error.message : Error → String
  | .notHex => "invalid encryption key: encoding/hex: invalid byte"
  | .wrongSize got => "invalid encryption key: want 32 bytes, got " ++ Decimal.natText got

def parse (s : String) : Except Error (List UInt8) :=
  match Hex.decode? (Text.trim s) with
  | none => .error .notHex
  | some key => if key.length = 32 then .ok key else .error (.wrongSize key.length)

end StackFlow.Key
