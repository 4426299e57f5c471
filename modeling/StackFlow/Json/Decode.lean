import StackFlow.Json.Value
import StackFlow.Text.Decimal
import StackFlow.Text.Fold

/-!
Typed data out of JSON values. An object may give a field several times, so a decoder takes the
values of a field in the order of their appearance and reads each onto what is already there: null
changes nothing, and a value of the wrong kind is refused. The fields of a record are found by their
name or else by one that differs only in case; others are ignored.
-/

namespace StackFlow.Json

abbrev Decoder (α : Type) := α → List Value → Option α

namespace Decoder

/-- Reads one value after the other. -/
def inTurn {α : Type} (read : α → Value → Option α) : Decoder α := fun a vs => vs.foldlM read a

def text : Decoder String := inTurn fun old v =>
  match v with
  | .null => some old
  | .str s => some s
  | _ => none

def flag : Decoder Bool := inTurn fun old v =>
  match v with
  | .null => some old
  | .bool b => some b
  | _ => none

/-- A whole number that fits a word, written without point and exponent. -/
def word : Decoder Int := inTurn fun old v =>
  match v with
  | .null => some old
  | .num t => Decimal.readWord? t
  | _ => none

/-- The elements of arrays that are given one after the other. What stands at the same place in
several of them is read onto one element, which starts out blank, and there are as many elements as
the last array has. -/
def elements {α : Type} (blank : α) (element : Decoder α) (given : List (List Value)) :
    Option (List α) := do
  let longest := (given.map List.length).foldl max 0
  let xs ← (List.range longest).mapM fun i => element blank (given.filterMap fun items => items[i]?)
  pure (xs.take ((given.getLast?.getD []).length))

/-- Null and an empty array start the list anew. The arrays behind the last such value come
reversed. -/
def listOnto {α : Type} (blank : α) (element : Decoder α) :
    Option (List α) → List (List Value) → List Value → Option (Option (List α))
  | old, given, [] =>
    if given.isEmpty then some old else (elements blank element given.reverse).map some
  | _, given, .null :: vs =>
    (elements blank element given.reverse).bind fun _ => listOnto blank element none [] vs
  | _, given, .arr [] :: vs =>
    (elements blank element given.reverse).bind fun _ => listOnto blank element (some []) [] vs
  | old, given, .arr items :: vs => listOnto blank element old (items :: given) vs
  | _, _, _ :: _ => none

/-- A list, where null is the missing one. -/
def list {α : Type} (blank : α) (element : Decoder α) : Decoder (Option (List α)) := fun old vs =>
  listOnto blank element old [] vs

abbrev Field (α : Type) := String × Decoder α

/-- A field by the part of the record it belongs to. -/
def field {α β : Type} (name : String) (get : α → β) (set : α → β → α) (d : Decoder β) : Field α :=
  (name, fun a vs => (d (get a) vs).map (set a))

/-- The name of the field that a key stands for. -/
def nameOf? {α : Type} (known : List (Field α)) (key : String) : Option String :=
  ((known.find? (·.1 == key)).or (known.find? fun f => Text.foldsTo key f.1)).map (·.1)

def fields {α : Type} (known : List (Field α)) (a : α) (given : Fields) : Option α :=
  let named := given.filterMap fun (key, v) => (nameOf? known key).map fun name => (name, v)
  known.foldlM (fun a f =>
    f.2 a (named.filterMap fun (name, v) => if name == f.1 then some v else none)) a

/-- The fields of all objects together. -/
def allFields? : List Value → Option Fields
  | [] => some []
  | .null :: vs => allFields? vs
  | .obj fs :: vs => (allFields? vs).map (fs ++ ·)
  | _ :: _ => none

def record {α : Type} (known : List (Field α)) : Decoder α := fun a vs =>
  (allFields? vs).bind (fields known a)

end Decoder

end StackFlow.Json
