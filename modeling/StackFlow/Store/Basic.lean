import StackFlow.Store.Indexed
import StackFlow.Store.Masking
import StackFlow.Store.Memory
import StackFlow.Store.Sealing

/-!
Report stores. A store is a place where reports lie and the layers around it; several stores may
share what is on one shelf.
-/

namespace StackFlow

/-- What stores keep between calls. -/
structure Shelf where
  memory : Memory := {}
  server : Server := {}
  /-- The number of nonces drawn so far. -/
  drawn : Nat := 0

inductive Place where
  | memory
  /-- On the server, under keys that start alike. -/
  | server (space : String)

/-- The calls that a layer refuses. -/
structure Refusals where
  save : Bool := false
  load : Bool := false
  delete : Bool := false
  list : Bool := false

inductive Layer where
  | masking (patterns : List Regex)
  | sealing (keys : Keyring)
  | refusing (calls : Refusals) (reason : String)

structure Store where
  place : Place := .memory
  /-- The outermost layer first. -/
  layers : List Layer := []

/-- What a caller brings: the time in seconds, and whether it has given up. -/
structure Caller where
  now : Int := 0
  canceled : Bool := false
  /-- The time as reports show it. -/
  clock : String := "0001-01-01T00:00:00Z"

abbrev StoreAction := EStateM StoreError Shelf

namespace Place

def onServer {α : Type} (a : Indexed.Action α) : StoreAction α := fun s =>
  match a s.server with
  | .ok x t => .ok x { s with server := t }
  | .error e t => .error e { s with server := t }

def save (c : Caller) (r : Report) : Place → StoreAction Unit
  | memory => modify fun s => { s with memory := s.memory.save r }
  | server space => onServer (Indexed.save space c.canceled r)

def load (c : Caller) (id : String) : Place → StoreAction Report
  | memory => do
    match (← get).memory.load? id with
    | some r => pure r
    | none => throw .notFound
  | server space => onServer (Indexed.load space c.canceled id)

def delete (c : Caller) (id : String) : Place → StoreAction Unit
  | memory => modify fun s => { s with memory := s.memory.delete id }
  | server space => onServer (Indexed.delete space c.canceled id)

/-- The IDs; a place that was never used may have no list. -/
def list (c : Caller) : Place → StoreAction (Option (List String))
  | memory => do pure (← get).memory.list
  | server space => do pure (some (← onServer (Indexed.list space c.canceled c.now)))

end Place

namespace Store

def drawNonce : StoreAction Nat :=
  modifyGet fun s => (s.drawn, { s with drawn := s.drawn + 1 })

def saveThrough (c : Caller) (place : Place) : List Layer → Report → StoreAction Unit
  | [], r => place.save c r
  | .masking patterns :: rest, r => saveThrough c place rest (r.mask patterns)
  | .sealing keys :: rest, r => do saveThrough c place rest (keys.envelope (← drawNonce) r)
  | .refusing calls reason :: rest, r =>
    if calls.save then throw (.refused reason) else saveThrough c place rest r

def loadThrough (c : Caller) (place : Place) (id : String) : List Layer → StoreAction Report
  | [] => place.load c id
  | .masking _ :: rest => loadThrough c place id rest
  | .sealing keys :: rest => do
    match keys.unwrap id (← loadThrough c place id rest) with
    | .ok r => pure r
    | .error e => throw e
  | .refusing calls reason :: rest =>
    if calls.load then throw (.refused reason) else loadThrough c place id rest

/-- The reason of the outermost layer that refuses a call. -/
def refusal? (call : Refusals → Bool) : List Layer → Option String
  | [] => none
  | .refusing calls reason :: rest => if call calls then some reason else refusal? call rest
  | _ :: rest => refusal? call rest

def save (s : Store) (c : Caller) (r : Report) : StoreAction Unit :=
  saveThrough c s.place s.layers r

def load (s : Store) (c : Caller) (id : String) : StoreAction Report :=
  loadThrough c s.place id s.layers

def delete (s : Store) (c : Caller) (id : String) : StoreAction Unit :=
  match refusal? (·.delete) s.layers with
  | some reason => throw (.refused reason)
  | none => s.place.delete c id

def list (s : Store) (c : Caller) : StoreAction (Option (List String)) :=
  match refusal? (·.list) s.layers with
  | some reason => throw (.refused reason)
  | none => s.place.list c

/-- The same place without layers. -/
def bare (s : Store) : Store := { s with layers := [] }

end Store

end StackFlow
