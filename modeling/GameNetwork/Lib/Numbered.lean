import GameNetwork.Lib.Runs

/-- A sender that numbers its messages from 1 without a bound, and a receiver that takes a
message only if it is newer than all it took. -/
structure Numbered (α : Type*) where
  sent : List α := []
  newest : Nat := 0
  taken : List α := []

namespace Numbered

variable {α : Type*} {s t : Numbered α} {x : α} {n : Nat} {ns : List Nat}

/-- The network brings any message that was sent, at any time and any number of times. -/
inductive Event (α : Type*) where
  | send (x : α)
  | arrive (n : Nat)

def arrivals : List (Event α) → List Nat
  | [] => []
  | .send _ :: es => arrivals es
  | .arrive n :: es => n :: arrivals es

def take (s : Numbered α) (n : Nat) (x : α) : Numbered α :=
  if s.newest < n + 1 then { s with newest := n + 1, taken := s.taken ++ [x] } else s

def step (s : Numbered α) : Event α → Option (Numbered α)
  | .send x => some { s with sent := s.sent ++ [x] }
  | .arrive n => s.sent[n]?.map (s.take n)

end Numbered
