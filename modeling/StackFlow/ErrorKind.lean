namespace StackFlow

/-- What an error is about, whatever its wording. Callers that act on errors go by the kind. -/
inductive ErrorKind where
  | unsupported
  | underflow
  | limit
  | invalidGraph
  | reportNotFound
  | contractNotFound
  | notSealed
  | lease
  | canceled
  | other
deriving DecidableEq, Repr

end StackFlow
