import GameNetwork.Proofs.Registered
import GameNetwork.Proofs.Rejected

namespace GameNetwork.Proofs

section
variable {C : Crypto} {c t : Client C} {k : ShortSharedKey} {n : Int} {arrival : Arrival}
  {p_size : UInt32} {received now : Int} {action : ClientAction C}

/-- Too long has passed since the client heard anything that verifies. -/
def Silent (c : Client C) (arrival : Arrival) (received now : Int) : Prop :=
  c.activeTimeout = true ∧ now - lastSeen c arrival received > timeoutTime

instance : Decidable (Silent c arrival received now) := inferInstanceAs (Decidable (_ ∧ _))

/-- What ends a session. Game data returns before the timeout is checked, and a thread that is
left over answers anew under the key and waits for the slot again. -/
def EndsSession (c : Client C) : ClientAction C → Prop
  | .respondChallenge | .sendDisconnect => True
  | .listen arrival _ received now => verifiedType c arrival = .ok .disconnect ∨
      verifiedType c arrival ≠ .ok .connectionData ∧ Silent c arrival received now
  | .connect _ | .sendGameData _ _ | .setActiveTimeout _ => False

instance (c : Client C) : (action : ClientAction C) → Decidable (EndsSession c action)
  | .respondChallenge | .sendDisconnect => .isTrue trivial
  | .listen _ _ _ _ => inferInstanceAs (Decidable (_ ∨ _ ∧ _))
  | .connect _ | .sendGameData _ _ | .setActiveTimeout _ => .isFalse id

theorem checkTimeout_stays (hc : ConnectedAs k n c) :
    ConnectedAs k n (c.checkTimeout now).self ↔
      ¬ (c.activeTimeout = true ∧ now - c.lastReceivedPacket > timeoutTime) := by
  unfold Client.checkTimeout
  split
  · rename_i h
    rw [sendDisconnect_active (by simp [hc.1])]
    constructor
    · intro ht
      cases ht.1
    · exact fun hn => absurd ⟨h.1, h.2.2⟩ hn
  · rename_i h
    exact ⟨fun _ hn => h ⟨hn.1, hc.1, hn.2⟩, fun _ => hc⟩

/-- A connected client stays so over a call to `Listen` unless it hears a `DISCONNECT`, or hears
no game data after too long a silence. -/
theorem listen_stays (hc : ConnectedAs k n c) :
    ConnectedAs k n (c.listen arrival p_size received now).self ↔
      ¬ EndsSession c (.listen arrival p_size received now) := by
  rcases receive_cases arrival with hf | ⟨source, d, rfl, hd⟩
  · have hv : verifiedType c arrival = .ok .invalidPacket := verifiedType_failed hf
    rw [client_listen_failed hf, checkTimeout_stays hc]
    simp [EndsSession, Silent, lastSeen, hv]
  obtain ⟨b, hl, hb⟩ := client_listen_received c source p_size received now hd
  have hv := verifiedType_received c source hd
  have ht : clientType c d = .ok (hmacType C c.sharedKey d) := by
    rw [clientType, if_neg (by simp [hc.1])]
  rw [hl, ht]
  rw [ht] at hv hb
  generalize hmacType C c.sharedKey d = t at hv hb
  have hidle (hne : t ≠ .invalidPacket) (hnd : t ≠ .disconnect) (hng : t ≠ .connectionData)
      (hdis : (touched c source received).dispatch t b p_size =
        (touched c source received, .ok none)) :
      ConnectedAs k n (concluded now ((touched c source received).dispatch t b p_size)).self ↔
        ¬ EndsSession c (.listen (some (source, d)) p_size received now) := by
    have hseen : lastSeen c (some (source, d)) received = received := by
      rw [lastSeen, hv]
      cases t <;> first | rfl | exact absurd rfl hne
    rw [hdis, concluded, checkTimeout_stays (c := touched c source received) hc]
    simp [EndsSession, Silent, hseen, hv, hnd, hng, touched]
  cases t with
  | invalidPacket =>
    simp only [ne_eq, not_true_eq_false, if_false]
    rw [checkTimeout_stays (c := { c with serverAddress := source }) hc]
    simp [EndsSession, Silent, lastSeen, hv]
  | disconnect =>
    have hdis : (touched c source received).dispatch .disconnect b p_size =
        ((touched c source received).disconnect, .ok none) := by
      rw [Client.dispatch, if_pos (by simp [touched, hc.1])]
    simp only [ne_eq, reduceCtorEq, not_false_eq_true, if_true]
    rw [hdis, concluded, checkTimeout_idle (by simp [Client.disconnect])]
    constructor
    · intro h
      cases h.1
    · exact fun h => absurd (.inl hv) h
  | connectionData =>
    have hkeeps : ConnectedAs k n
        (concluded now ((touched c source received).dispatch .connectionData b p_size)).self := by
      have hsw := dispatch_switched (touched c source received) .connectionData p_size
        (hb .connectionData rfl (by simp))
      generalize (touched c source received).dispatch .connectionData b p_size = r at hsw ⊢
      cases hsw with
      | ignored _ _ hg => exact absurd ⟨rfl, hc.1⟩ hg
      | data | data_old | data_short => exact hc
      | dropped _ h => simp [touched, hc.1] at h
    simp only [ne_eq, reduceCtorEq, not_false_eq_true, if_true]
    simp [hkeeps, EndsSession, hv]
  | challenge =>
    refine hidle (by simp) (by simp) (by simp) ?_
    rw [Client.dispatch, if_neg (by simp [touched, hc.1])]
  | connectionAccepted =>
    refine hidle (by simp) (by simp) (by simp) ?_
    rw [Client.dispatch, if_neg (by simp [touched, hc.1])]
  | connectionRequest | challengeResponse | other => exact hidle (by simp) (by simp) (by simp) rfl

theorem step_stays (hc : ConnectedAs k n c) (h : c.step action = some t) :
    ConnectedAs k n t ↔ ¬ EndsSession c action := by
  cases action with
  | connect seed =>
    obtain rfl := Outcome.next_some h
    rw [connect_again (by simp [hc.1])]
    simp [hc, EndsSession]
  | respondChallenge =>
    obtain ⟨o, ho, hn⟩ := Option.bind_eq_some_iff.mp h
    obtain rfl := Outcome.next_some hn
    obtain ⟨m, -, rfl⟩ := runThread_some ho
    simp [ConnectedAs, EndsSession]
  | sendDisconnect =>
    obtain rfl := Outcome.next_some h
    rw [(sendDisconnect_leaves c).1]
    simp [ConnectedAs, EndsSession, Client.disconnect]
  | listen arrival p_size received now =>
    obtain rfl := Outcome.next_some h
    exact listen_stays hc
  | sendGameData data sent =>
    obtain rfl := Outcome.next_some h
    have hkin := sendGameData_kin c data sent
    simp [ConnectedAs, hkin.state, hkin.sharedKey, hkin.index, hc.1, hc.2.1, hc.2.2, EndsSession]
  | setActiveTimeout p_value =>
    cases h
    have ht : ConnectedAs k n (c.setActiveTimeout p_value) := hc
    simp [ht, EndsSession]

/-- A session lasts through a run exactly when the run has nothing in it that ends one: no
`SendDisconnect`, no thread left over from the handshake, no `DISCONNECT` under the key, and, while
the timeout is set, no call that hears no game data and comes too long after the last packet that
verified, its own included. -/
theorem session_lasts_iff (hc : ConnectedAs k n c) (actions : List (ClientAction C)) :
    Runs.Throughout Client.step (ConnectedAs k n) c actions ↔
      Runs.Guarded Client.step (fun c action => ¬ EndsSession c action) c actions :=
  Runs.throughout_iff_guarded (I := fun _ => True) (fun _ _ _ _ _ => trivial)
    (fun _ _ _ _ hc h => step_stays hc h) trivial hc

/-- Game data that comes late still keeps the session. -/
theorem session_lasts_sample :
    Runs.Throughout Client.step (ConnectedAs sampleShared 0)
      ({ sampleConnected with index := 0, activeTimeout := true } : Client sample)
      [.sendGameData ⟨[7], by decide⟩ true,
        .listen (some (sampleAddress 9, sealed sample sampleShared (dataMessage 1 [7]))) 8 0
          (timeoutTime + 1)] :=
  (session_lasts_iff (by decide) _).mpr (by decide +kernel)

end

section
variable {C : Crypto} {s t : Server C} {i : Slot} {a : Address} {k : ShortSharedKey}
  {arrival : Arrival} {seed : C.Seed} {p_size : UInt32} {action : ServerAction C}

/-- The client of a challenge responds to it while a slot is free, or leaves. -/
def Concludes (a : Address) (s : Server C) : ServerAction C → Prop
  | .listen (some (sender, d)) _ _ => d.length ≤ receiveSize ∧ sender = a ∧
      (s.state = .lobby ∧ classify s a d = .ok (some .challengeResponse) ∧
          s.findFreeConnectionIndex ≥ 0 ∨
        classify s a d = .ok (some .disconnect) ∧ ¬ s.findExistingConnectionIndex a > 0)
  | _ => False

instance : Decidable (Pending a k s) := inferInstanceAs (Decidable (_ ∧ _))

instance (a : Address) (s : Server C) : (action : ServerAction C) → Decidable (Concludes a s action)
  | .listen (some (_, _)) _ _ => inferInstanceAs (Decidable (_ ∧ _))
  | .listen none _ _ | .propagateGameData _ | .switchToLobby | .switchToGame => .isFalse id

theorem Pending.fetched (hp : Pending a k s) (hf : Fetched s t) : Pending a k t := by
  have hkeys := hf.alike.keys
  rw [Pending, hf.alike.challenged, hf.alike.address 1, hkeys.1, hkeys.2.2]
  exact hp

theorem Pending.index (hT : Tables s) (hp : Pending a k s) :
    s.findExistingChallengeIndex a = 1 := by
  rcases hT.challenge_cases a with h | h
  · exact h.1
  · exact absurd ⟨hp.1, hp.2.1⟩ h.2

theorem not_pending_drop : ¬ Pending a k (dropChallenge s) := fun h => by
  simp [Pending, dropChallenge] at h

theorem not_pending_accepted {j : Slot} : ¬ Pending a k (accepted s j) := fun h => by
  simp [Pending, accepted, dropChallenge] at h

/-- A challenge stays over a call to `Listen` unless somebody else asks, or its own client goes on
or leaves. -/
theorem listen_keeps_pending (hT : Tables s) (hp : Pending a k s) :
    Pending a k (s.listen arrival seed p_size).self ↔
      ¬ Displaces s (.listen arrival seed p_size) ∧
        ¬ Concludes a s (.listen arrival seed p_size) := by
  constructor
  · intro ht
    constructor
    · intro hother
      cases arrival with
      | none => exact hother
      | some p =>
        obtain ⟨sender, d⟩ := p
        obtain ⟨hd, hs, hcl, hk, -, hne⟩ := hother
        have hc : s.findExistingChallengeIndex sender < 0 := by
          rcases hT.challenge_cases sender with ⟨-, -, ha⟩ | h
          · exact absurd ha hne
          · exact h.1
        rw [listen_challenge hT hd hcl hs hk hc, Pending, withChallenge_challenges_one] at ht
        exact hne (hp.2.1.trans ht.2.1.symm)
    · intro hown
      cases arrival with
      | none => exact hown
      | some p =>
        obtain ⟨sender, d⟩ := p
        obtain ⟨hd, hsender, hends⟩ := hown
        subst hsender
        rcases hends with ⟨hs, hcl, hfree⟩ | ⟨hcl, hn⟩
        · obtain ⟨j, hj, -⟩ := free_slot hfree
          rw [listen_accept hT hd hcl hs (hp.index hT) hj] at ht
          exact not_pending_accepted ht
        · rw [listen_withdraw hT hd hcl hn (hp.index hT)] at ht
          exact not_pending_drop ht
  · rintro ⟨hother, hown⟩
    have hh := listen_heard hT arrival seed p_size
    generalize (s.listen arrival seed p_size).self = t at hh ⊢
    generalize (s.listen arrival seed p_size).sent = sent at hh
    have howner {sender : Address} (hc : s.findExistingChallengeIndex sender = 1) : sender = a :=
      (hT.challenged_at hc).2.symm.trans hp.2.1
    cases hh with
    | quiet hf => exact hp.fetched hf
    | @challenge sender d hd hcl hs hk hc =>
      refine absurd ⟨hd, hs, hcl, hk, hp.1, ?_⟩ hother
      rintro rfl
      rw [hp.2.1] at hc
      have := hp.index hT
      omega
    | rechallenge _ _ _ _ _ hf =>
      have hkept := hp.fetched hf
      exact ⟨withChallenge_challenged_one s _, by rw [withChallenge_challenges_one]; exact hkept.2⟩
    | @accept sender d j hd hcl hs hc hj =>
      obtain rfl := howner hc
      exact absurd ⟨hd, rfl, .inl ⟨hs, hcl, by omega⟩⟩ hown
    | disconnect => exact hp
    | @withdraw sender d hd hcl hn hc =>
      obtain rfl := howner hc
      exact absurd ⟨hd, rfl, .inr ⟨hcl, hn⟩⟩ hown

theorem step_keeps_pending (hT : Tables s) (hp : Pending a k s) (h : s.step action = some t) :
    Pending a k t ↔ ¬ Displaces s action ∧ ¬ Concludes a s action := by
  cases action with
  | listen arrival seed p_size =>
    obtain rfl := Outcome.next_some h
    exact listen_keeps_pending hT hp
  | propagateGameData data =>
    obtain rfl := Outcome.next_some h
    have hc := propagateSlots_counted data [1, 2, 3] s
    have hkept : Pending a k (s.propagateGameData data).self := by
      unfold Pending Server.propagateGameData
      rw [hc.challenged, hc.challenges]
      exact hp
    simp [hkept, Displaces, Concludes]
  | switchToLobby | switchToGame =>
    cases h
    exact ⟨fun _ => ⟨id, id⟩, fun _ => hp⟩

/-- Somebody connected leaves. -/
def SomebodyLeaves (s : Server C) : ServerAction C → Prop
  | .listen (some (sender, d)) _ _ => Leaves s sender d
  | _ => False

instance (s : Server C) : (action : ServerAction C) → Decidable (SomebodyLeaves s action)
  | .listen (some (_, _)) _ _ => inferInstanceAs (Decidable (_ ∧ _ ∧ _))
  | .listen none _ _ => .isFalse id
  | .propagateGameData _ | .switchToLobby | .switchToGame => .isFalse id

theorem listen_keeps_slot (hT : Tables s) (hs : InSlot i a k s) :
    InSlot i a k (s.listen arrival seed p_size).self ↔
      (i = 1 → ¬ SomebodyLeaves s (.listen arrival seed p_size)) := by
  constructor
  · rintro ht rfl hleaves
    match arrival, hleaves with
    | some (sender, d), hl =>
      rw [listen_disconnect hl.1 hl.classify hl.2.1] at ht
      simp [InSlot, dropConnection] at ht
  · intro hno
    have hh := listen_heard hT arrival seed p_size
    generalize (s.listen arrival seed p_size).self = t at hh ⊢
    generalize (s.listen arrival seed p_size).sent = sent at hh
    have hkeeps (hc : t.connected i = true) : InSlot i a k t :=
      ⟨hc, by rw [hh.keeps_slot hs.1 hc]; exact hs.2⟩
    cases hh with
    | quiet hf => exact hkeeps (by rw [hf.alike.connected]; exact hs.1)
    | challenge | rechallenge | withdraw => exact hkeeps hs.1
    | accept => exact hkeeps (by simp [accepted, Function.update_apply, hs.1])
    | disconnect hd hcl hc =>
      have hne : i ≠ 1 := fun h => hno h (leaves_of_classify hd hc hcl)
      exact hkeeps (by simpa [dropConnection, hne] using hs.1)

theorem step_keeps_slot (hT : Tables s) (hs : InSlot i a k s) (h : s.step action = some t) :
    InSlot i a k t ↔ (i = 1 → ¬ SomebodyLeaves s action) := by
  cases action with
  | listen arrival seed p_size =>
    obtain rfl := Outcome.next_some h
    exact listen_keeps_slot hT hs
  | propagateGameData data =>
    obtain rfl := Outcome.next_some h
    have hc := propagateSlots_counted data [1, 2, 3] s
    have hkept : InSlot i a k (s.propagateGameData data).self := by
      unfold InSlot Server.propagateGameData
      rw [hc.connected, hc.address i, hc.sharedKey i]
      exact hs
    simp [hkept, SomebodyLeaves]
  | switchToLobby | switchToGame =>
    cases h
    exact ⟨fun _ _ h => h, fun _ => hs⟩

/-- A connected slot keeps its client through a run exactly as long as nobody connected leaves,
whoever it is, and any slot but slot 1 keeps it whatever happens. -/
theorem slot_lasts_iff (hs : Reachable s) (hslot : InSlot i a k s)
    (actions : List (ServerAction C)) :
    Runs.Throughout Server.step (InSlot i a k) s actions ↔
      Runs.Guarded Server.step (fun s action => i = 1 → ¬ SomebodyLeaves s action) s actions :=
  Runs.throughout_iff_guarded (fun _ _ _ hT h => step_tables hT h)
    (fun _ _ _ hT hs h => step_keeps_slot hT hs h) hs.tables hslot

/-- Slot 2 outlasts the client that leaves it. -/
theorem slot_lasts_sample :
    ∃ s, Runs.run Server.step (Server.create sample)
        (sampleJoin (sampleAddress 1) 0 1 ++ sampleJoin (sampleAddress 2) 2 3) = some s ∧
      Runs.Throughout Server.step (InSlot 2 (sampleAddress 2) (sampleSession 2 3)) s
        [sampleLeave (sampleAddress 2) 2 3, .switchToGame] := by
  have hrun : (Runs.run Server.step (Server.create sample)
      (sampleJoin (sampleAddress 1) 0 1 ++ sampleJoin (sampleAddress 2) 2 3)).map
      (fun s => decide (InSlot 2 (sampleAddress 2) (sampleSession 2 3) s)) = some true := by
    decide +kernel
  obtain ⟨s, hs, hd⟩ := Option.map_eq_some_iff.mp hrun
  refine ⟨s, hs, (slot_lasts_iff ⟨_, hs⟩ (of_decide_eq_true hd) _).mpr ?_⟩
  have hno (s : Server sample) (action : ServerAction sample) :
      (2 : Slot) = 1 → ¬ SomebodyLeaves s action := fun h => absurd h (by decide)
  exact (Runs.guarded_congr (I := fun _ => True) (fun _ _ _ _ _ => trivial)
    (fun u action _ _ _ => iff_of_true trivial (hno u action)) trivial).mp Runs.guarded_true

end

end GameNetwork.Proofs
