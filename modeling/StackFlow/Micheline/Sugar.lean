import StackFlow.Micheline.Instruction

/-!
Short ways to write code.
-/

namespace StackFlow.Micheline

namespace Expr

def ofInt (n : Int) : Expr := .int (Decimal.text n)

/-- A type or a data constructor over arguments. -/
def apply (name : String) (args : List Expr) : Expr := .prim name [] args

end Expr

namespace Instruction

def plain (name : String) (args : List Arg) : Instruction := .op name [] args

def push (t v : Expr) : Instruction := plain "PUSH" [.literal t, .literal v]

def pushInt (n : Int) : Instruction := push (.apply "int" []) (.ofInt n)

def pushString (s : String) : Instruction := push (.apply "string" []) (.string s)

def nil (t : Expr) : Instruction := plain "NIL" [.literal t]

def dropN (n : Int) : Instruction := plain "DROP" [.literal (.ofInt n)]

def dip (body : Code) : Instruction := plain "DIP" [.code body]

def dipN (n : Int) (body : Code) : Instruction := plain "DIP" [.literal (.ofInt n), .code body]

/-- A branching instruction over its arms. -/
def branching (name : String) (arms : List Code) : Instruction := plain name (arms.map .code)

def failWith : Instruction := plain "FAILWITH" []

end Instruction

end StackFlow.Micheline
