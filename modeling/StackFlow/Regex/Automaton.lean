import StackFlow.Regex.Basic

/-!
Matching by an automaton. An expression becomes numbered states, and threads walk through them side by
side while the text is read once; the threads stand in the order of preference, and no state holds
more than one thread at a place. So the time grows with the length of the text and not with the
number of ways to match it.
-/

namespace StackFlow

/-- What a state of an automaton does before it hands over to the next one. -/
inductive Step where
  /-- Takes one character of a set. -/
  | take (set : CodeSet) (next : Nat)
  | check (a : Anchor) (next : Nat)
  /-- Goes on at two states, preferably at the first. -/
  | split (first second : Nat)
  | accept
deriving Inhabited

structure Automaton where
  steps : Array Step
  entry : Nat

namespace Regex

/-- Adds the states of an expression, which hand over to `next`, and gives the first of them. -/
def emit : Regex → Nat → Array Step → Nat × Array Step
  | empty, next, steps => (next, steps)
  | chars set, next, steps => (steps.size, steps.push (.take set next))
  | anchor a, next, steps => (steps.size, steps.push (.check a next))
  | seq a b, next, steps =>
    let (second, steps) := b.emit next steps
    a.emit second steps
  | alt a b, next, steps =>
    let (first, steps) := a.emit next steps
    let (second, steps) := b.emit next steps
    (steps.size, steps.push (.split first second))
  | plus greedy a, next, steps =>
    let loop := steps.size
    let (body, steps) := a.emit loop (steps.push .accept)
    (body, steps.set! loop (if greedy then .split body next else .split next body))
  | star greedy a, next, steps =>
    let loop := steps.size
    let (body, steps) := a.emit loop (steps.push .accept)
    let steps := steps.set! loop (if greedy then .split body next else .split next body)
    -- a round that takes nothing must not come before the rounds that take something
    if a.nullable then
      (steps.size, steps.push (if greedy then .split body next else .split next body))
    else (loop, steps)

def automaton (r : Regex) : Automaton :=
  let (entry, steps) := r.emit 0 #[.accept]
  { steps, entry }

end Regex

namespace Automaton

/-- A thread waits at a state; its match would start at a place. -/
structure Thread where
  state : Nat
  start : Nat

/-- The states that have a thread, and the threads, the last one first. -/
structure Row where
  taken : Array Bool
  threads : List Thread

def emptyRow (m : Automaton) : Row := ⟨Array.replicate m.steps.size false, []⟩

/-- Puts threads where the states of a list lead to without taking a character. Every round drops a
state from the list, or marks one and adds two at most, so twice the number of states is enough. -/
def settle (m : Automaton) (p : Spot) (start : Nat) : Nat → List Nat → Row → Row
  | 0, _, row => row
  | _ + 1, [], row => row
  | fuel + 1, s :: todo, row =>
    if row.taken.getD s true then settle m p start fuel todo row
    else
      let marked : Row := { row with taken := row.taken.set! s true }
      match m.steps[s]? with
      | some (.split a b) => settle m p start fuel (a :: b :: todo) marked
      | some (.check a next) =>
        if a.holds p then settle m p start fuel (next :: todo) marked
        else settle m p start fuel todo marked
      | some (.take ..) | some .accept =>
        settle m p start fuel todo { marked with threads := ⟨s, start⟩ :: marked.threads }
      | none => settle m p start fuel todo marked

def enter (m : Automaton) (p : Spot) (start state : Nat) (row : Row) : Row :=
  settle m p start (2 * m.steps.size + 2) [state] row

/-- The threads before the first one that accepts, and that one. -/
def untilAccept (m : Automaton) : List Thread → List Thread × Option Thread
  | [] => ([], none)
  | t :: ts =>
    match m.steps[t.state]? with
    | some .accept => ([], some t)
    | _ => let (before, hit) := untilAccept m ts; (t :: before, hit)

/-- Lets the threads take a character. -/
def advance (m : Automaton) (c : Char) (p : Spot) (threads : List Thread) : Row :=
  threads.foldl (fun row (t : Thread) =>
    match m.steps[t.state]? with
    | some (.take set next) => if set.contains c.toNat then m.enter p t.start next row else row
    | _ => row) m.emptyRow

/-- Reads the text from a place on. As long as nothing was found, a new thread starts at every place,
behind all others. Gives the start and the end of the preferred one of the leftmost matches. -/
def search (m : Automaton) (before : Option Char) (place : Nat) (row : Row)
    (found : Option (Nat × Nat)) : List Char → Option (Nat × Nat)
  | [] =>
    let row := if found.isSome then row else m.enter ⟨before, []⟩ place m.entry row
    match (m.untilAccept row.threads.reverse).2 with
    | some t => some (t.start, place)
    | none => found
  | c :: cs =>
    let row := if found.isSome then row else m.enter ⟨before, c :: cs⟩ place m.entry row
    let (threads, hit) := m.untilAccept row.threads.reverse
    let found := (hit.map fun t => (t.start, place)).or found
    if threads.isEmpty && found.isSome then found
    else search m (some c) (place + 1) (m.advance c ⟨some c, cs⟩ threads) found cs

/-- The first match at or behind a place: the number of characters before it and up to its end. -/
def find? (m : Automaton) (p : Spot) : Option (Nat × Nat) :=
  m.search p.before 0 m.emptyRow none p.rest

/-- Replaces the matches of the rest. An empty match right behind a match (`behind`) stays. -/
def replaceFrom (m : Automaton) (word : List Char) (behind : Bool) (p : Spot) : Nat → List Char
  | 0 => p.rest
  | fuel + 1 =>
    match m.find? p with
    | none => p.rest
    | some (start, stop) =>
      let skipped := p.rest.take start
      let rest := p.rest.drop stop
      let here := if behind && stop == 0 then [] else word
      if start < stop then
        skipped ++ here ++ m.replaceFrom word true ⟨p.rest[stop - 1]?, rest⟩ fuel
      else
        match rest with
        | [] => skipped ++ here
        | c :: cs => skipped ++ here ++ c :: m.replaceFrom word false ⟨some c, cs⟩ fuel

end Automaton

namespace Regex

/-- Replaces every match by a word, from left to right. -/
def replaceAll (r : Regex) (word : String) (s : String) : String :=
  let cs := s.toList
  String.ofList (r.automaton.replaceFrom word.toList false ⟨none, cs⟩ (cs.length + 1))

end Regex

end StackFlow
