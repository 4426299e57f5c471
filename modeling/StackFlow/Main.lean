import Std.Time.DateTime.Timestamp
import StackFlow.Command.Run
import StackFlow.Text.Moment

/-!
The program. It reads the files that the command may look at, runs the command, and prints.
-/

namespace StackFlow.Main

/-- A file, or all files below a directory, by their paths. Names that start with a dot are left
out below the start, and so is what is not text. -/
partial def readTree (path : String) : IO (List (String × String)) := do
  let here := (← IO.currentDir) / path
  if ← here.isDir then
    let inner ← (← here.readDir).toList.mapM fun entry =>
      if entry.fileName.startsWith "." then pure [] else readTree (path ++ "/" ++ entry.fileName)
    pure inner.flatten
  else
    try pure [(path, ← IO.FS.readFile here)]
    catch _ => pure []

/-- The paths that the words of a command line may name, besides the working directory. -/
def named (args : List String) : List String :=
  args.filterMap fun word =>
    if word.startsWith "-" then
      let value := (word.toList.dropWhile (· != '=')).drop 1
      if value.isEmpty then none else some (String.ofList value)
    else some word

def readFiles (args : List String) : IO Files := do
  let trees ← ("." :: named args).mapM readTree
  pure { entries := trees.flatten }

def caller : IO Caller := do
  let now ← Std.Time.Timestamp.now
  let nanos := now.toNanosecondsSinceUnixEpoch.val.toNat
  let seconds := nanos / 1000000000
  pure { now := seconds, clock := ((Moment.ofUnix seconds (nanos % 1000000000)).text?).getD "" }

end StackFlow.Main

open StackFlow in
def main (args : List String) : IO UInt32 := do
  let machine : Machine := { files := ← Main.readFiles args }
  let (out, _) := machine.run (← Main.caller) args
  IO.print out.stdout
  IO.eprint out.stderr
  match out.error with
  | none => pure 0
  | some e =>
    IO.eprintln e.message
    pure 1
