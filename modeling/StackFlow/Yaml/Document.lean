import StackFlow.Yaml.Node
import StackFlow.Yaml.Token.Reader

/-!
Documents out of tokens. Only the first document of a text is read.
-/

namespace StackFlow.Yaml

/-- A document in the making. -/
structure Assembly where
  rest : List Token
  /-- What the handles of tags are short for. -/
  handles : List (String × String) := []
  /-- The anchors so far, the latest first. -/
  anchors : List (String × Nat) := []
  anchored : Array Node := #[]

abbrev Assemble := StateT Assembly Option

namespace Assemble

def peek : Assemble Token := do
  match (← get).rest with
  | t :: _ => pure t
  | [] => failure

def drop : Assemble Unit := modify fun a => { a with rest := a.rest.drop 1 }

/-! ## Tags and anchors -/

def standardTags : String := "tag:yaml.org,2002:"

/-- Tags of the standard get two exclamation marks; a lone one stands for no tag. -/
def shortTag (tag : String) : String :=
  if tag == "!" then ""
  else if standardTags.toList.isPrefixOf tag.toList then
    String.ofList ('!' :: '!' :: tag.toList.drop standardTags.length)
  else tag

/-- A tag by its handle, which has to be known. -/
def tagOf : Option (String × String) → Assemble String
  | none => pure ""
  | some ("", uri) => pure (shortTag uri)
  | some (handle, suffix) => do
    match ((← get).handles ++ [("!", "!"), ("!!", standardTags)]).lookup handle with
    | some text => pure (shortTag (text ++ suffix))
    | none => failure

structure Properties where
  anchor : Option String := none
  tag : Option (String × String) := none

def Properties.isEmpty (p : Properties) : Bool := p.anchor.isNone && p.tag.isNone

/-- An anchor and a tag in front of a node, in either order. -/
def properties : Assemble Properties := do
  match ← peek with
  | .anchor a =>
    drop
    match ← peek with
    | .tag h s =>
      drop
      pure { anchor := some a, tag := some (h, s) }
    | _ => pure { anchor := some a }
  | .tag h s =>
    drop
    match ← peek with
    | .anchor a =>
      drop
      pure { anchor := some a, tag := some (h, s) }
    | _ => pure { tag := some (h, s) }
  | _ => pure {}

/-- Enters a node into the table. Its place is known while the node is read, so that it may contain
itself. -/
def anchored (anchor : Option String) (build : Assemble Node) : Assemble Node :=
  match anchor with
  | none => build
  | some name => do
    let a ← get
    let place := a.anchored.size
    set { a with anchors := (name, place) :: a.anchors, anchored := a.anchored.push .nothing }
    let n ← build
    modify fun a => { a with anchored := a.anchored.setIfInBounds place n }
    pure n

def aliasOf (name : String) : Assemble Node := do
  match (← get).anchors.lookup name with
  | some place => pure (.alias name place)
  | none => failure

/-! ## Nodes -/

mutual

/-- A node; block collections only where `block` is set, and a block sequence that is not indented
only where `dashes` is. -/
def node : Nat → (block dashes : Bool) → Assemble Node
  | 0, _, _ => failure
  | fuel + 1, block, dashes => do
    match ← peek with
    | .alias name =>
      drop
      aliasOf name
    | _ =>
      let p ← properties
      let tag ← tagOf p.tag
      anchored p.anchor (content fuel block dashes (!p.isEmpty) tag)

/-- What follows the properties; with them it may be left out. -/
def content : Nat → (block dashes optional : Bool) → String → Assemble Node
  | 0, _, _, _, _ => failure
  | fuel + 1, block, dashes, optional, tag => do
    let missing : Assemble Node := if optional then pure (.scalar tag true "") else failure
    match ← peek with
    | .scalar plain text =>
      drop
      pure (.scalar tag plain text)
    | .openSeq =>
      drop
      flowItems fuel true []
    | .openMap =>
      drop
      flowPairs fuel true []
    | .dash => if dashes then bareItems fuel [] else missing
    | .blockSeq =>
      if block then do
        drop
        blockItems fuel []
      else missing
    | .blockMap =>
      if block then do
        drop
        blockPairs fuel []
      else missing
    | _ => missing

def blockItems : Nat → List Node → Assemble Node
  | 0, _ => failure
  | fuel + 1, done => do
    match ← peek with
    | .dash =>
      drop
      match ← peek with
      | .dash | .blockEnd => blockItems fuel (.nothing :: done)
      | _ =>
        let n ← node fuel true false
        blockItems fuel (n :: done)
    | .blockEnd =>
      drop
      pure (.seq done.reverse)
    | _ => failure

/-- Entries that are not indented more than the mapping around them. -/
def bareItems : Nat → List Node → Assemble Node
  | 0, _ => failure
  | fuel + 1, done => do
    match ← peek with
    | .dash =>
      drop
      match ← peek with
      | .dash | .blockEnd | .key | .value => bareItems fuel (.nothing :: done)
      | _ =>
        let n ← node fuel true false
        bareItems fuel (n :: done)
    | _ => pure (.seq done.reverse)

/-- A key or a value of a block mapping, which may be left out. -/
def blockPart : Nat → Assemble Node
  | 0 => failure
  | fuel + 1 => do
    match ← peek with
    | .key | .value | .blockEnd => pure .nothing
    | _ => node fuel true true

def blockPairs : Nat → List (Node × Node) → Assemble Node
  | 0, _ => failure
  | fuel + 1, done => do
    match ← peek with
    | .key =>
      drop
      let key ← blockPart fuel
      match ← peek with
      | .value =>
        drop
        let value ← blockPart fuel
        blockPairs fuel ((key, value) :: done)
      | _ => blockPairs fuel ((key, .nothing) :: done)
    | .blockEnd =>
      drop
      pure (.map done.reverse)
    | _ => failure

/-- A value in a flow collection: what stands behind a colon, or nothing. -/
def flowValue : Nat → Assemble Node
  | 0 => failure
  | fuel + 1 => do
    match ← peek with
    | .value =>
      drop
      match ← peek with
      | .comma | .closeSeq | .closeMap => pure .nothing
      | _ => node fuel false false
    | _ => pure .nothing

/-- A key in a flow sequence starts a mapping of one pair. Where the key is left out, the token in its
place is lost. -/
def flowItems : Nat → (first : Bool) → List Node → Assemble Node
  | 0, _, _ => failure
  | fuel + 1, first, done => do
    let close : Assemble Node := do
      drop
      pure (.seq done.reverse)
    match ← peek with
    | .closeSeq => close
    | t =>
      if !first then
        if t == .comma then drop else failure
      match ← peek with
      | .closeSeq => close
      | .key =>
        drop
        let key ← match ← peek with
          | .value | .comma | .closeSeq => do
            drop
            pure .nothing
          | _ => node fuel false false
        let value ← flowValue fuel
        flowItems fuel false (.map [(key, value)] :: done)
      | _ =>
        let n ← node fuel false false
        flowItems fuel false (n :: done)

def flowPairs : Nat → (first : Bool) → List (Node × Node) → Assemble Node
  | 0, _, _ => failure
  | fuel + 1, first, done => do
    let close : Assemble Node := do
      drop
      pure (.map done.reverse)
    match ← peek with
    | .closeMap => close
    | t =>
      if !first then
        if t == .comma then drop else failure
      match ← peek with
      | .closeMap => close
      | .key =>
        drop
        let key ← match ← peek with
          | .value | .comma | .closeMap => pure .nothing
          | _ => node fuel false false
        let value ← flowValue fuel
        flowPairs fuel false ((key, value) :: done)
      | _ =>
        let key ← node fuel false false
        flowPairs fuel false ((key, .nothing) :: done)

end

/-! ## Documents -/

/-- The directives of a document. Only one version is known, and nothing may be said twice. -/
def directives : Nat → (versioned : Bool) → Assemble Unit
  | 0, _ => failure
  | fuel + 1, versioned => do
    match ← peek with
    | .version major minor =>
      if versioned || major != 1 || minor != 1 then failure
      drop
      directives fuel true
    | .handle name text =>
      let a ← get
      if a.handles.any (·.1 == name) then failure
      set { a with handles := (name, text) :: a.handles, rest := a.rest.drop 1 }
      directives fuel versioned
    | _ => pure ()

/-- A document with a mark in front of it, which may be empty. -/
def explicit (fuel : Nat) : Assemble Node := do
  directives fuel false
  if (← peek) != .documentStart then failure
  drop
  match ← peek with
  | .version _ _ | .handle _ _ | .documentStart | .documentEnd | .streamEnd => pure .nothing
  | _ => node fuel true false

/-- The first document, if there is one. -/
def first (fuel : Nat) : Assemble (Option Node) := do
  match ← peek with
  | .streamEnd => pure none
  | .version _ _ | .handle _ _ | .documentStart => return some (← explicit fuel)
  | _ => return some (← node fuel true false)

end Assemble

/-- The first document of a text; `some none` if there is none, `none` if it is malformed. -/
def Document.read? (s : String) : Option (Option Document) := do
  let ts ← Tokens.read? s
  let size := 4 * ts.list.length + 16
  let (root, a) ← (Assemble.first size).run { rest := ts.list }
  if ts.reaches a.rest then
    pure (root.map fun root => { root, anchored := a.anchored, depth := size })
  else none

end StackFlow.Yaml
