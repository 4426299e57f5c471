import StackFlow.Text.Decimal
import StackFlow.Text.IntLiteral
import StackFlow.Text.Quoted

/-!
Flags of a command line. They may stand before, between and behind the arguments; two dashes alone
end them.
-/

namespace StackFlow

inductive FlagKind where
  | text | int | switch
deriving DecidableEq

structure Flag where
  name : String
  kind : FlagKind
  /-- A one-letter name. -/
  short : Option Char := none

inductive FlagValue where
  | text (s : String)
  | int (n : Int)
  | switch (b : Bool)

/-- The flags that were given, the last one first, and the arguments. -/
structure Arguments where
  flags : List (String × FlagValue) := []
  rest : List String := []

namespace Flag

/-- The flag in messages. -/
def shown (f : Flag) : String :=
  match f.short with
  | some c => "-" ++ String.singleton c ++ ", --" ++ f.name
  | none => "--" ++ f.name

def truth? (s : String) : Option Bool :=
  if ["1", "t", "T", "TRUE", "true", "True"].contains s then some true
  else if ["0", "f", "F", "FALSE", "false", "False"].contains s then some false
  else none

def read (f : Flag) (s : String) : Except String FlagValue :=
  let refuse (reader reason : String) : Except String FlagValue :=
    .error ("invalid argument " ++ Text.quote s ++ " for " ++ Text.quote f.shown ++ " flag: strconv."
      ++ reader ++ ": parsing " ++ Text.quote s ++ ": " ++ reason)
  match f.kind with
  | .text => .ok (.text s)
  | .switch =>
    match truth? s with
    | some b => .ok (.switch b)
    | none => refuse "ParseBool" "invalid syntax"
  | .int =>
    match IntLiteral.grouped s.toList with
    | .ok n => .ok (.int n)
    | .error .malformed => refuse "ParseInt" "invalid syntax"
    | .error .tooLarge => refuse "ParseInt" "value out of range"

def find? (known : List Flag) (name : String) : Option Flag := known.find? (·.name == name)

def findShort? (known : List Flag) (c : Char) : Option Flag := known.find? (·.short == some c)

end Flag

namespace Arguments

/-- One flag by its long name; the text behind an equals sign is its value. -/
def readLong (known : List Flag) (word : String) (args : List String) :
    Except String ((String × FlagValue) × List String) :=
  let body := word.toList.drop 2
  let name := String.ofList (body.takeWhile (· != '='))
  let value := (body.dropWhile (· != '=')).drop 1
  if name.isEmpty || name.toList.head? == some '-' then .error ("bad flag syntax: " ++ word)
  else
    match Flag.find? known name with
    | none => .error ("unknown flag: --" ++ name)
    | some f =>
      if body.contains '=' then (f.read (String.ofList value)).map fun v => ((f.name, v), args)
      else if f.kind = .switch then .ok ((f.name, .switch true), args)
      else
        match args with
        | [] => .error ("flag needs an argument: " ++ word)
        | a :: args => (f.read a).map fun v => ((f.name, v), args)

/-- A letter in messages. Letters are single bytes, so of any other the first byte shows, and each of
those shows as the same letter. -/
def shownLetter (c : Char) : String :=
  Text.quoteSingle (if c.toNat < 0x80 then c else Char.ofNat 0xc3)

/-- Flags by their letters: switches may share a dash, and a flag with a value ends it. -/
def readShort (known : List Flag) (word : String) (args : List String) :
    List Char → Except String (List (String × FlagValue) × List String)
  | [] => .ok ([], args)
  | c :: cs =>
    match Flag.findShort? known c with
    | none =>
      .error ("unknown shorthand flag: " ++ shownLetter c ++ " in -" ++ String.ofList (c :: cs))
    | some f =>
      match cs with
      | '=' :: value@(_ :: _) => (f.read (String.ofList value)).map fun v => ([(f.name, v)], args)
      | _ =>
        if f.kind = .switch then
          (readShort known word args cs).map fun (fs, args) => ((f.name, .switch true) :: fs, args)
        else if !cs.isEmpty then (f.read (String.ofList cs)).map fun v => ([(f.name, v)], args)
        else
          match args with
          | [] => .error ("flag needs an argument: '" ++ String.singleton c ++ "' in " ++ word)
          | a :: args => (f.read a).map fun v => ([(f.name, v)], args)

def read (known : List Flag) : Nat → Arguments → List String → Except String Arguments
  | 0, done, _ => .ok done
  | _ + 1, done, [] => .ok done
  | fuel + 1, done, word :: args =>
    if word == "--" then .ok { done with rest := done.rest ++ args }
    else if word.startsWith "--" then do
      let (f, args) ← readLong known word args
      read known fuel { done with flags := f :: done.flags } args
    else if word.startsWith "-" && word != "-" then do
      let (fs, args) ← readShort known word args (word.toList.drop 1)
      read known fuel { done with flags := fs.reverse ++ done.flags } args
    else read known fuel { done with rest := done.rest ++ [word] } args

def parse (known : List Flag) (args : List String) : Except String Arguments :=
  read known (args.length + 1) {} args

def text? (a : Arguments) (name : String) : Option String :=
  match a.flags.lookup name with
  | some (.text s) => some s
  | _ => none

def int? (a : Arguments) (name : String) : Option Int :=
  match a.flags.lookup name with
  | some (.int n) => some n
  | _ => none

def isOn (a : Arguments) (name : String) : Bool :=
  match a.flags.lookup name with
  | some (.switch b) => b
  | _ => false

end Arguments

/-- The first word that is neither a flag nor the value of one, and the other words. Only the flags
that are known here are known to go without a value. -/
def splitCommand (known : List Flag) : List String → Option (String × List String)
  | [] => none
  | word :: args =>
    let isSwitch (f : Option Flag) : Bool := f.any (·.kind = .switch)
    let behind (front : List String) (r : Option (String × List String)) :=
      r.map fun (c, rest) => (c, front ++ rest)
    let hasValue := word.toList.contains '='
    if word == "--" then none
    else if (word.startsWith "--" && !hasValue
        && !isSwitch (Flag.find? known (String.ofList (word.toList.drop 2))))
      || (word.startsWith "-" && word.length = 2 && !hasValue
        && !isSwitch ((word.toList.drop 1).head?.bind (Flag.findShort? known))) then
      match args with
      | [] => none
      | value :: args => behind [word, value] (splitCommand known args)
    else if word.startsWith "-" || word.isEmpty then behind [word] (splitCommand known args)
    else some (word, args)

end StackFlow
