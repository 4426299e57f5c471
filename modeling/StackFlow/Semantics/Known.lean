import StackFlow.Semantics.Joint

/-!
The closed set of straight-line instructions, by family. The table of rules covers exactly this set.
-/

namespace StackFlow

def knownInstructions : List String :=
  -- the shape of the stack
  ["DUP", "DROP", "SWAP", "DIG", "DUG", "CURSOR",
  -- literals and constants
  "PUSH", "UNIT", "NIL", "NONE", "EMPTY_SET", "EMPTY_MAP", "EMPTY_BIG_MAP", "LAMBDA",
  -- the environment
  "AMOUNT", "BALANCE", "SENDER", "SOURCE", "SELF", "NOW", "CHAIN_ID",
  -- projections and constructors
  "CAR", "CDR", "UNPAIR", "PAIR", "SOME", "LEFT", "RIGHT", "CONS",
  -- comparison
  "COMPARE", "EQ", "NEQ", "LT", "GT", "LE", "GE",
  -- arithmetic and logic
  "ADD", "SUB", "MUL", "EDIV", "ABS", "NEG", "ISNAT", "INT", "NOT", "AND", "OR", "XOR",
  -- sequences, hashes, serialisation
  "CONCAT", "SIZE", "SLICE", "PACK", "UNPACK", "BLAKE2B", "SHA256", "SHA512", "HASH_KEY",
  "CHECK_SIGNATURE",
  -- collections
  "MEM", "GET", "UPDATE",
  -- contracts and operations
  "ADDRESS", "CONTRACT", "IMPLICIT_ACCOUNT", "TRANSFER_TOKENS", "SET_DELEGATE", "CREATE_CONTRACT",
  "EXEC",
  -- casts, and the end of a path
  "CAST", "RENAME", "FAILWITH"]

/-- What is wrong with the table of rules, if anything. -/
def tableDefect? : Option String :=
  match knownInstructions.find? fun n => (Rule.ofName? n).isNone with
  | some n => some ("instruction " ++ n ++ " declared but has no semantics")
  | none =>
    (Rule.table.find? fun (n, _) => n ∉ knownInstructions).map fun (n, _) =>
      "instruction " ++ n ++ " has semantics but is not declared"

end StackFlow
