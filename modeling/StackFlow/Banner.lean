/-!
The greeting of the command line, without colours.
-/

namespace StackFlow

def banner (version : String) : String :=
  "\n   ___                _       _ _   \n"
    ++ "  / __\\___  _ __   __| |_   _(_) |_ \n"
    ++ " / /  / _ \\| '_ \\ / _` | | | | | __|\n"
    ++ "/ /__| (_) | | | | (_| | |_| | | |_ \n"
    ++ "\\____/\\___/|_| |_|\\__,_|\\__,_|_|\\__|\n"
    ++ "  symbolic stack executor " ++ version ++ "\n\n"

/-- The word for how a contract fared. -/
def outcomeWord (failed : Bool) : String := if failed then "FAILED" else "OK"

end StackFlow
