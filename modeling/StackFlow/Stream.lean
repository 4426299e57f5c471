/-!
Announcements to subscribers. Each subscriber has a buffer of ten messages; what does not fit is
dropped for that subscriber.
-/

namespace StackFlow

structure Subscriber where
  waiting : List String := []
  active : Bool := true

/-- All subscribers there ever were, by their number. -/
structure Stream where
  subscribers : Array Subscriber := #[]

namespace Stream

def bufferSize : Nat := 10

def count (s : Stream) : Nat := (s.subscribers.filter (·.active)).size

/-- The number of the new subscriber. -/
def subscribe (s : Stream) : Nat × Stream :=
  (s.subscribers.size, { subscribers := s.subscribers.push {} })

def leave (s : Stream) (n : Nat) : Stream :=
  { subscribers := s.subscribers.modify n fun x => { x with active := false } }

def broadcast (s : Stream) (message : String) : Stream :=
  { subscribers := s.subscribers.map fun x =>
      if x.active && x.waiting.length < bufferSize then { x with waiting := x.waiting ++ [message] }
      else x }

/-- Takes what waits for a subscriber; the flag tells that nothing more will come. -/
def drain (s : Stream) (n : Nat) : List String × Bool × Stream :=
  match s.subscribers[n]? with
  | none => ([], true, s)
  | some x =>
    (x.waiting, !x.active, { subscribers := s.subscribers.modify n fun x => { x with waiting := [] } })

end Stream

end StackFlow
