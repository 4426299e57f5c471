import StackFlow.Yaml.Document
import StackFlow.Yaml.Scalar

/-!
Walking through a document. Aliases lead to the nodes they stand for, and the pairs of a mapping
include those that are merged in. A document that grows too much through its aliases is refused.
-/

namespace StackFlow.Yaml

/-- How many nodes were visited, and how many of them inside an alias. -/
structure Tally where
  visited : Nat := 0
  inside : Nat := 0

/-- The share of nodes inside aliases that is allowed falls from 99 percent for small documents to a
tenth for large ones. -/
def Tally.isExcessive (t : Tally) : Bool :=
  t.inside > 100 && t.visited > 1000 &&
    (if t.visited ≤ 400000 then 99 * t.visited < 100 * t.inside
    else if 4000000 ≤ t.visited then t.visited < 10 * t.inside
    else t.visited * (356400000 - 89 * (t.visited - 400000)) < 360000000 * t.inside)

abbrev Walk := StateT Tally Option

/-- A node, and whether an alias led to it. -/
structure Site where
  node : Node
  inside : Bool := false

namespace Walk

/-- Counts a node. -/
def visit (inside : Bool) : Walk Unit := do
  let t ← get
  let t : Tally := ⟨t.visited + 1, if inside then t.inside + 1 else t.inside⟩
  if t.isExcessive then failure
  set t

/-- The node at a site, or the one that its alias stands for. -/
def enter (doc : Document) (s : Site) : Walk Site := do
  visit s.inside
  match s.node with
  | .alias _ place =>
    visit true
    match doc.anchored[place]? with
    | some node => pure ⟨node, true⟩
    | none => failure
  | _ => pure s

/-- The scalar at a site, if there is one. -/
def scalar? (doc : Document) (s : Site) : Walk (Option (Scalar × String)) := do
  match (← enter doc s).node with
  | .scalar tag plain text =>
    match Scalar.of? tag plain text with
    | some v => pure (some (v, text))
    | none => failure
  | _ => pure none

/-- A text: any scalar but nothing, as it is written. -/
def asText? : Scalar × String → Option String
  | (.null, _) => none
  | (.text s, _) => some s
  | (_, raw) => some raw

/-! ## Mappings -/

/-- No two keys of a mapping clash. -/
def distinct : List (Node × Node) → Bool
  | [] => true
  | (key, _) :: rest => !rest.any (fun p => key.clashes p.1) && distinct rest

variable {κ : Type} [BEq κ]

/-- The pairs of a mapping itself. A key that reads as none is passed over, and so is one that was
seen, if there are keys to be seen. -/
def ownPairs (readKey : Site → Walk (Option κ)) (inside : Bool) :
    Option (List κ) → List (Node × Node) → Walk (List (κ × Site))
  | _, [] => pure []
  | seen, (key, value) :: rest => do
    if key.isMerge then ownPairs readKey inside seen rest
    else
      match ← readKey ⟨key, inside⟩ with
      | none => ownPairs readKey inside seen rest
      | some k =>
        match seen with
        | none => return (k, ⟨value, inside⟩) :: (← ownPairs readKey inside none rest)
        | some ks =>
          if ks.contains k then ownPairs readKey inside seen rest
          else return (k, ⟨value, inside⟩) :: (← ownPairs readKey inside (some (k :: ks)) rest)

/-- What is merged in: one mapping or a list of them. -/
def merged (inside : Bool) : Node → List Site
  | .seq items => items.map fun n => ⟨n, inside⟩
  | n => [⟨n, inside⟩]

/-- The pairs of a mapping: its own, and behind them those of the mappings that are merged in, as far
as their keys were not seen before. -/
def pairs (doc : Document) (readKey : Site → Walk (Option κ)) :
    Nat → Option (List κ) → Site → Walk (List (κ × Site))
  | 0, _, _ => failure
  | fuel + 1, seen, s => do
    match s.node with
    | .map ps =>
      if !distinct ps then failure
      let own ← ownPairs readKey s.inside seen ps
      match ps.find? (·.1.isMerge) with
      | none => pure own
      | some (_, value) =>
        (merged s.inside value).foldlM (fun done site => do
          let s ← enter doc site
          return done ++ (← pairs doc readKey fuel (some (seen.getD [] ++ done.map (·.1))) s)) own
    | _ => failure

end Walk

end StackFlow.Yaml
