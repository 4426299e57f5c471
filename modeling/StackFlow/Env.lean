import StackFlow.Json.Value

/-!
The symbolic values that environment instructions push.
-/

namespace StackFlow

structure Env where
  self : String := ""
  amount : String := ""
  balance : String := ""
  sender : String := ""
  source : String := ""
  chainId : String := ""
  now : String := ""
deriving DecidableEq, Inhabited, Repr

namespace Env

/-- Every value is the name of the instruction that reads it. -/
def default : Env :=
  ⟨"SELF", "AMOUNT", "BALANCE", "SENDER", "SOURCE", "CHAIN_ID", "NOW"⟩

/-- The values of `newer` win where they are not empty. -/
def merge (base newer : Env) : Env :=
  let pick (b o : String) : String := if o == "" then b else o
  { self := pick base.self newer.self
    amount := pick base.amount newer.amount
    balance := pick base.balance newer.balance
    sender := pick base.sender newer.sender
    source := pick base.source newer.source
    chainId := pick base.chainId newer.chainId
    now := pick base.now newer.now }

def toJson (e : Env) : Json.Value :=
  .obj [("self", .str e.self), ("amount", .str e.amount), ("balance", .str e.balance),
    ("sender", .str e.sender), ("source", .str e.source), ("chain_id", .str e.chainId),
    ("now", .str e.now)]

end Env

end StackFlow
