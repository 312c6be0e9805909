import Mathlib.Logic.Function.Basic

namespace GameNetwork

/-- Where an address stands with a server. -/
inductive Phase (K : Type) where
  | idle
  | asked (key : K)
  | member (key : K)
deriving DecidableEq

/-- What a datagram means for the address it came from. -/
inductive Event (A K : Type) where
  | quiet
  | asks (a : A) (key : K)
  | confirms (a : A)
  | leaves (a : A)
deriving DecidableEq

/-- What the server is for: every address has a standing of its own, whatever the others do. -/
abbrev Registry (A K : Type) := A → Phase K

variable {A K : Type}

namespace Event

/-- The address an event is about. -/
def subject : Event A K → Option A
  | quiet => none
  | asks a _ | confirms a | leaves a => some a

end Event

/-- An address asks once, confirms what it asked for, and may leave at any time. -/
def Phase.after (p : Phase K) : Event A K → Phase K
  | .quiet => p
  | .asks _ key =>
    match p with
    | .idle => .asked key
    | p => p
  | .confirms _ =>
    match p with
    | .asked key => .member key
    | p => p
  | .leaves _ => .idle

namespace Registry

variable [DecidableEq A] {r : Registry A K} {a : A} {e : Event A K}

/-- An event changes the standing of the address it is about. -/
def apply (r : Registry A K) (e : Event A K) : Registry A K :=
  match e.subject with
  | some a => Function.update r a ((r a).after e)
  | none => r

def empty : Registry A K := fun _ => .idle

theorem apply_subject (h : e.subject = some a) : r.apply e a = (r a).after e := by
  simp [apply, h]

theorem apply_other (h : e.subject ≠ some a) : r.apply e a = r a := by
  cases hs : e.subject with
  | none => simp [apply, hs]
  | some b =>
    have hb : a ≠ b := by
      rintro rfl
      exact h hs
    simp [apply, hs, hb]

/-- The standing of an address depends on its own events only. -/
theorem foldl_apply (es : List (Event A K)) (r : Registry A K) (a : A) :
    es.foldl apply r a = (es.filter fun e => e.subject = some a).foldl Phase.after (r a) := by
  induction es generalizing r with
  | nil => rfl
  | cons e es ih =>
    rw [List.foldl_cons, ih]
    by_cases h : e.subject = some a
    · rw [List.filter_cons_of_pos (by simpa using h), List.foldl_cons, apply_subject h]
    · rw [List.filter_cons_of_neg (by simpa using h), apply_other h]

end Registry

end GameNetwork
