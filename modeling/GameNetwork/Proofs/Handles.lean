import GameNetwork.Handles
import GameNetwork.Lib.Ownership
import GameNetwork.Lib.Runs

namespace GameNetwork.Proofs
open Ownership

variable {ι : Type} [DecidableEq ι] {p q : Handles ι} {action : HandleAction ι} {i : ι}
  {s : Socket} {closesocket : Bool} {handle : Handle}

/-- A socket that is opened has no handle, and one that is destroyed has none or gives it back. -/
def KeepsHandles (p : Handles ι) : HandleAction ι → Prop
  | .open i _ => p.owner i = none
  | .destroy i closesocket => p.owner i = none ∨ closesocket = true
  | .create _ | .close _ _ => True

instance (p : Handles ι) : (action : HandleAction ι) → Decidable (KeepsHandles p action)
  | .open i _ => inferInstanceAs (Decidable (p.owner i = none))
  | .destroy i _ => inferInstanceAs (Decidable (p.owner i = none ∨ _))
  | .create _ | .close _ _ => .isTrue trivial

/-- What an action does to the handles and to who has them, in every case. -/
inductive HandleStep (p : Handles ι) : HandleAction ι → (ι → Option Handle) → List Handle → Prop
  | create {i : ι} : HandleStep p (.create i) p.owner p.held
  | failed {i : ι} {calls : OpenCalls} :
      HandleStep p (.open i calls) (Function.update p.owner i none) p.held
  | opened {i : ι} {calls : OpenCalls} {handle : Handle} (hnew : handle ∉ p.held) :
      HandleStep p (.open i calls) (Function.update p.owner i (some handle)) (handle :: p.held)
  | kept {i : ι} {closesocket : Bool} : HandleStep p (.close i closesocket) p.owner p.held
  | closed {i : ι} {handle : Handle} (hi : p.owner i = some handle) :
      HandleStep p (.close i true) (Function.update p.owner i none) (p.held.erase handle)
  | ended {i : ι} {closesocket : Bool} (hno : p.owner i = none ∨ closesocket = false) :
      HandleStep p (.destroy i closesocket) (Function.update p.owner i none) p.held
  | destroyed {i : ι} {handle : Handle} (hi : p.owner i = some handle) :
      HandleStep p (.destroy i true) (Function.update p.owner i none) (p.held.erase handle)

theorem owner_update (p : Handles ι) (i : ι) (s : Option Socket) (held : List Handle) :
    ({ sockets := Function.update p.sockets i s, held := held } : Handles ι).owner =
      Function.update p.owner i (s.bind Socket.handle) := by
  funext j
  by_cases hj : j = i
  · subst hj
    simp [Handles.owner]
  · simp [Handles.owner, hj]

theorem update_owner {x : Option Handle} (h : p.owner i = x) :
    Function.update p.owner i x = p.owner := by rw [← h, Function.update_eq_self]

omit [DecidableEq ι] in
theorem owner_exists (hs : p.sockets i = some s) : p.owner i = s.handle := by
  rw [Handles.owner, hs]
  rfl

theorem open_handle (calls : OpenCalls) : (Socket.open calls).1.handle = calls.socket := by
  unfold Socket.open
  split
  · rename_i h
    rw [h]
  · rename_i h
    dsimp only
    split
    · rw [h]
    split
    · rw [h]
    split
    · rw [h]
    · rw [h]

/-- `Close` gives a handle up exactly where `closesocket` succeeds. -/
theorem close_handle (hs : s.handle = some handle) :
    (s.close closesocket).1.handle = if closesocket then none else some handle := by
  rw [Socket.close, hs]
  cases closesocket with
  | true => rfl
  | false => exact hs

/-- The destructor of an open socket closes it. -/
theorem destroy_open (hs : s.handle = some handle) :
    s.destroy closesocket = (s.close closesocket).1 := by
  rw [Socket.destroy, Socket.isOpen, hs]
  rfl

theorem takenBack_none {closed : Socket} {held : List Handle} (hs : s.handle = none) :
    Handles.takenBack s closed held = held := by
  rw [Handles.takenBack, hs]

theorem takenBack_closed {held : List Handle} (hs : s.handle = some handle) :
    Handles.takenBack s (s.close closesocket).1 held =
      if closesocket then held.erase handle else held := by
  rw [Handles.takenBack, hs, Socket.isOpen, close_handle hs]
  cases closesocket with
  | true => rfl
  | false => rfl

/-- The cases of `HandleStep` are all there are. -/
theorem step_handles (h : p.step action = some q) : HandleStep p action q.owner q.held := by
  cases action with
  | create i =>
    simp only [Handles.step] at h
    split at h
    · rename_i hs
      cases h
      have hno : p.owner i = none := by rw [Handles.owner, hs]; rfl
      rw [owner_update, show (some ({} : Socket)).bind Socket.handle = none from rfl,
        update_owner hno]
      exact .create
    · cases h
  | «open» i calls =>
    simp only [Handles.step] at h
    split at h
    · cases h
    split at h
    · cases h
    · rename_i hnew
      cases h
      rw [owner_update, Option.bind_some, open_handle]
      cases hc : calls.socket with
      | none => exact .failed
      | some handle => exact .opened (by simpa [hc] using hnew)
  | close i closesocket =>
    obtain ⟨s, hs, rfl⟩ := Option.map_eq_some_iff.mp h
    have howner := owner_exists hs
    dsimp only
    rw [owner_update, Option.bind_some]
    cases hh : s.handle with
    | none =>
      rw [hh] at howner
      rw [takenBack_none hh, Socket.close, hh, update_owner (howner.trans hh.symm)]
      exact .kept
    | some handle =>
      rw [hh] at howner
      rw [takenBack_closed hh, close_handle hh]
      cases closesocket with
      | true => exact .closed howner
      | false =>
        rw [if_neg Bool.false_ne_true, if_neg Bool.false_ne_true, update_owner howner]
        exact .kept
  | destroy i closesocket =>
    obtain ⟨s, hs, rfl⟩ := Option.map_eq_some_iff.mp h
    have howner := owner_exists hs
    rw [owner_update, Option.bind_none]
    cases hh : s.handle with
    | none =>
      rw [takenBack_none hh]
      exact .ended (.inl (howner.trans hh))
    | some handle =>
      rw [hh] at howner
      rw [destroy_open hh, takenBack_closed hh]
      cases closesocket with
      | true => exact .destroyed howner
      | false => exact .ended (.inr rfl)

section
variable {owner : ι → Option Handle} {held : List Handle} (h : HandleStep p action owner held)
  (ho : Ownership p.owner p.held)
include h ho

theorem HandleStep.ownership : Ownership owner held := by
  cases h with
  | create | kept => exact ho
  | failed | ended => exact ho.forget _
  | opened hnew => exact ho.acquire _ hnew
  | closed hi | destroyed hi => exact ho.release hi

/-- A handle is lost exactly where an open socket is opened again, or ends with its handle. -/
theorem HandleStep.lost_iff (hn : NoneLost p.owner p.held) :
    NoneLost owner held ↔ KeepsHandles p action := by
  cases h with
  | create | kept => exact iff_of_true hn trivial
  | failed => exact ho.forget_lost_iff hn _
  | opened hnew => exact ho.acquire_lost_iff hn _ hnew
  | closed hi => exact iff_of_true (ho.release_keeps hn hi) trivial
  | destroyed hi => exact iff_of_true (ho.release_keeps hn hi) (.inr rfl)
  | @ended i closesocket hno =>
    rw [ho.forget_lost_iff hn, KeepsHandles]
    constructor
    · exact .inl
    · rintro (hi | hclosed)
      · exact hi
      · rcases hno with hi | hfailed
        · exact hi
        · rw [hclosed] at hfailed
          cases hfailed

end

/-- Handles are never shared and never used once given back, whatever the program does with its
sockets. None is lost in exactly the runs that open no open socket and in which `closesocket` fails
in no destructor, and after such a run a program without sockets holds none. -/
theorem handles_kept_iff (actions : List (HandleAction ι)) :
    Runs.Throughout Handles.step (fun p => Ownership p.owner p.held) ({} : Handles ι) actions ∧
    (Runs.Throughout Handles.step (fun p => NoneLost p.owner p.held) ({} : Handles ι) actions ↔
      Runs.Guarded Handles.step KeepsHandles ({} : Handles ι) actions) ∧
    ∀ q, Runs.Guarded Handles.step KeepsHandles ({} : Handles ι) actions →
      Runs.run Handles.step ({} : Handles ι) actions = some q → (∀ i, q.sockets i = none) →
        q.held = [] := by
  have hstart : Ownership ({} : Handles ι).owner ({} : Handles ι).held := .start ι Handle
  have hnone : NoneLost ({} : Handles ι).owner ({} : Handles ι).held := fun _ h => by cases h
  have hiff : Runs.Throughout Handles.step (fun p => NoneLost p.owner p.held) {} actions ↔
      Runs.Guarded Handles.step KeepsHandles {} actions :=
    Runs.throughout_iff_guarded (I := fun p : Handles ι => Ownership p.owner p.held)
      (fun _ _ _ ho hs => (step_handles hs).ownership ho)
      (fun _ _ _ ho hn hs => (step_handles hs).lost_iff ho hn) hstart hnone
  refine ⟨fun shorter p _ hrun => ?_, hiff, fun q hg hrun hgone => ?_⟩
  · exact Runs.invariant (I := fun p : Handles ι => Ownership p.owner p.held)
      (fun _ _ _ ho hs => (step_handles hs).ownership ho) hstart hrun
  · have hkept : NoneLost q.owner q.held := hiff.mpr hg actions q List.prefix_rfl hrun
    refine hkept.nothing_held fun i => ?_
    rw [Handles.owner, hgone i]
    rfl

/-- A second `Open` loses the handle of the first, which `Close` then cannot give back. -/
example : (Runs.run Handles.step ({} : Handles Unit)
    [.create (), .open () ⟨some 5, true, true, true⟩, .open () ⟨some 6, true, false, true⟩,
      .close () true, .destroy () true]).map Handles.held = some [5] := by decide

end GameNetwork.Proofs
