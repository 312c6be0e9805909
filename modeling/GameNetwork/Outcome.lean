import GameNetwork.Socket

namespace GameNetwork

/-- What a call leaves behind: the object, the datagrams it sent, and its return value or
what it ended with instead. -/
structure Outcome (σ α : Type) where
  self : σ
  sent : List Outgoing := []
  result : Except Fault α

namespace Outcome

variable {σ α β : Type}

/-- Sends that came before the rest of a call. -/
def after (sent : List Outgoing) (o : Outcome σ α) : Outcome σ α :=
  { o with sent := sent ++ o.sent }

/-- The next part of a call, unless this part has thrown. -/
def andThen (o : Outcome σ Unit) (rest : σ → Outcome σ α) : Outcome σ α :=
  match o.result with
  | .ok _ => (rest o.self).after o.sent
  | .error e => { self := o.self, sent := o.sent, result := .error e }

/-- The rest of a call after a part that returns nothing. -/
def returning (o : Outcome σ α) (value : β) : Outcome σ β :=
  { self := o.self, sent := o.sent, result := o.result.map fun _ => value }

/-- A `try` block with a `catch(std::exception& e)` clause that only reports the text. -/
def catchStd (o : Outcome σ α) (value : α) : Outcome σ α :=
  match o.result with
  | .error e => if e.isStdException then { o with result := .ok value } else o
  | .ok _ => o

/-- The object for the next call. There is none after undefined behaviour. -/
def next (o : Outcome σ α) : Option σ :=
  match o.result with
  | .error .undefinedBehaviour => none
  | _ => some o.self

/-- The object for the next call and what this one sent. -/
def leaves (o : Outcome σ α) : Option (σ × List Outgoing) := o.next.map fun s => (s, o.sent)

@[simp] theorem catchStd_self (o : Outcome σ α) (value : α) :
    (o.catchStd value).self = o.self := by
  unfold catchStd
  split
  · split <;> rfl
  · rfl

@[simp] theorem catchStd_sent (o : Outcome σ α) (value : α) :
    (o.catchStd value).sent = o.sent := by
  unfold catchStd
  split
  · split <;> rfl
  · rfl

@[simp] theorem returning_self (o : Outcome σ α) (value : β) :
    (o.returning value).self = o.self := rfl

@[simp] theorem returning_sent (o : Outcome σ α) (value : β) :
    (o.returning value).sent = o.sent := rfl

/-- The next call starts from what this one left. -/
theorem next_some {o : Outcome σ α} {s : σ} (h : o.next = some s) : s = o.self := by
  unfold next at h
  split at h <;> cases h
  rfl

theorem leaves_some {o : Outcome σ α} {s : σ} {sent : List Outgoing}
    (h : o.leaves = some (s, sent)) : s = o.self ∧ sent = o.sent := by
  obtain ⟨t, ht, he⟩ := Option.map_eq_some_iff.mp h
  obtain ⟨rfl, rfl⟩ := Prod.mk.inj he
  exact ⟨next_some ht, rfl⟩

end Outcome

/-- What `Listen` returns, and the bytes it stored at `o_gameData` if it stored any. -/
structure Listened where
  ret : Int
  gameData : Option (List UInt8) := none
deriving DecidableEq

/-- A `p_buffer` and its `unsigned int p_size`. -/
structure GameData where
  bytes : List UInt8
  length_lt : bytes.length < 2 ^ 32

end GameNetwork
