import GameNetwork.Lib.Refinement
import GameNetwork.Proofs.Finality
import GameNetwork.Proofs.KeyConfirmation
import GameNetwork.Proofs.Stability

namespace GameNetwork.Proofs

section
variable {C : Crypto} {s t : Server C} {a : Address} {k : ShortSharedKey} {i : Slot}
  {arrival : Arrival} {seed : C.Seed} {p_size : UInt32} {sent : List Outgoing}
  {action : ServerAction C}

/-- A pending challenge has, or will have fetched, the session key of the keys stored with it. -/
def Keyed (s : Server C) : Prop :=
  s.challenged 1 = true → (s.challenges 1).resolved.sharedKey =
    C.sessionKey (s.challenges 1).clientPublicKey (s.challenges 1).serverPrivateKey

theorem Keyed.create (C : Crypto) : Keyed (Server.create C) := fun h => by
  simp [Server.create] at h

theorem Heard.keyed (h : Heard s seed arrival t sent) (hk : Keyed s) : Keyed t := by
  cases h with
  | quiet ht =>
    intro h1
    have hkeys := ht.alike.keys
    rw [ht.alike.resolved, hkeys.1, hkeys.2.2]
    exact hk (ht.alike.challenged ▸ h1)
  | challenge | rechallenge =>
    intro _
    rw [withChallenge_challenges_one]
    rfl
  | accept =>
    intro h1
    simp [accepted, dropChallenge] at h1
  | disconnect => exact hk
  | withdraw =>
    intro h1
    simp [dropChallenge] at h1

theorem step_keyed (hT : Tables s) (hk : Keyed s) (hs : s.step action = some t) : Keyed t := by
  cases step_stepped hT hs with
  | listen h => exact h.keyed hk
  | propagate h =>
    unfold Keyed
    rw [h.challenged, h.challenges]
    exact hk
  | lobby | game => exact hk

/-- A challenge for the address is pending, and its keys give the session key. -/
def Pending (a : Address) (k : ShortSharedKey) (s : Server C) : Prop :=
  s.challenged 1 = true ∧ (s.challenges 1).clientAddress = a ∧
    C.sessionKey (s.challenges 1).clientPublicKey (s.challenges 1).serverPrivateKey = k

/-- The slot is connected to the address under the key. -/
def InSlot (i : Slot) (a : Address) (k : ShortSharedKey) (s : Server C) : Prop :=
  s.connected i = true ∧ (s.connections i).clientAddress = a ∧ (s.connections i).sharedKey = k

instance : Decidable (InSlot i a k s) := inferInstanceAs (Decidable (_ ∧ _))

/-- A request of the address is answered with a public key of the server's. The public key in it
and the private key to the answer give the session key. -/
def Asks (a : Address) (k : ShortSharedKey) (s : Server C) : ServerAction C → Prop
  | .listen (some (sender, d)) seed p_size =>
    sender = a ∧ s.state = .lobby ∧ classify s a d = .ok (some .connectionRequest) ∧
      5 + C.roundedPublicKeySize ≤ d.length ∧
      (s.listen (some (a, d)) seed p_size).sent =
        [⟨a, checked .challenge (C.publicKey seed).bytes⟩] ∧
      C.sessionKey (keyOf d) (C.privateKey seed) = k
  | _ => False

/-- A response of the address is answered with the slot, under the key. -/
def Confirms (i : Slot) (a : Address) (k : ShortSharedKey) (s : Server C) : ServerAction C → Prop
  | .listen (some (sender, d)) seed p_size =>
    sender = a ∧ s.state = .lobby ∧ classify s a d = .ok (some .challengeResponse) ∧
      (s.listen (some (a, d)) seed p_size).sent = [⟨a, sealed C k (acceptMessage i)⟩]
  | _ => False

theorem Pending.of_fetched (hf : Fetched s t) (ht : Pending a k t) : Pending a k s := by
  have hkeys := hf.alike.keys
  rw [Pending, hf.alike.challenged, hf.alike.address 1, hkeys.1, hkeys.2.2] at ht
  exact ht

/-- Only a request that is answered puts a challenge in its place. -/
theorem listen_pending (hT : Tables s) (hs : ¬ Pending a k s)
    (ht : Pending a k (s.listen arrival seed p_size).self) :
    Asks a k s (.listen arrival seed p_size) := by
  have hh := listen_heard hT arrival seed p_size
  generalize (s.listen arrival seed p_size).self = t at hh ht
  generalize hsent : (s.listen arrival seed p_size).sent = sent at hh
  cases hh with
  | quiet hf => exact absurd (ht.of_fetched hf) hs
  | challenge hd hcl hlobby hlen hc =>
    obtain ⟨-, ha, hk⟩ := ht
    rw [withChallenge_challenges_one] at ha hk
    obtain rfl := ha
    exact ⟨rfl, hlobby, hcl, hlen, hsent, hk⟩
  | @rechallenge sender d t' hd hcl hlobby hlen hc hf =>
    obtain ⟨-, ha, hk⟩ := ht
    rw [withChallenge_challenges_one] at ha hk
    have h1 := (hT.challenged_at hc).1
    exact absurd (Pending.of_fetched hf ⟨hf.alike.challenged ▸ h1, ha, hk⟩) hs
  | accept | withdraw => simp [Pending, accepted, dropChallenge] at ht
  | disconnect => exact absurd ht hs

theorem step_pending (hT : Tables s) (hs : ¬ Pending a k s) (h : s.step action = some t)
    (ht : Pending a k t) : Asks a k s action := by
  cases action with
  | listen arrival seed p_size =>
    obtain rfl := Outcome.next_some h
    exact listen_pending hT hs ht
  | propagateGameData data =>
    obtain rfl := Outcome.next_some h
    have hc := propagateSlots_counted data [1, 2, 3] s
    refine absurd ?_ hs
    unfold Pending at ht ⊢
    rw [← hc.challenged, ← hc.challenges]
    exact ht
  | switchToLobby => cases h; exact absurd ht hs
  | switchToGame => cases h; exact absurd ht hs

/-- Only a response that is answered connects a slot, and it does so for the challenge that is
pending. -/
theorem listen_in_slot (hT : Tables s) (hkey : Keyed s) (hs : ¬ InSlot i a k s)
    (ht : InSlot i a k (s.listen arrival seed p_size).self) :
    Confirms i a k s (.listen arrival seed p_size) ∧ Pending a k s := by
  have hh := listen_heard hT arrival seed p_size
  have hfree : s.connected i = false := by
    by_contra hc
    rw [Bool.not_eq_false] at hc
    have hkeep := hh.keeps_slot hc ht.1
    exact hs ⟨hc, hkeep ▸ ht.2⟩
  obtain ⟨sender, d, rfl, hd, hlobby, hcl, hc, hj, hacc⟩ := hh.opened hfree ht.1
  obtain ⟨h1, ha⟩ := hT.challenged_at hc
  obtain ⟨-, hta, htk⟩ := ht
  rw [hacc] at hta htk
  simp only [accepted, Function.update_self] at hta htk
  obtain rfl : sender = a := ha.symm.trans hta
  refine ⟨⟨rfl, hlobby, hcl, ?_⟩, h1, ha, ?_⟩
  · rw [listen_accept hT hd hcl hlobby hc hj, htk]
  · rw [← hkey h1, htk]

theorem step_in_slot (hT : Tables s) (hkey : Keyed s) (hs : ¬ InSlot i a k s)
    (h : s.step action = some t) (ht : InSlot i a k t) :
    Confirms i a k s action ∧ Pending a k s := by
  cases action with
  | listen arrival seed p_size =>
    obtain rfl := Outcome.next_some h
    exact listen_in_slot hT hkey hs ht
  | propagateGameData data =>
    obtain rfl := Outcome.next_some h
    have hc := propagateSlots_counted data [1, 2, 3] s
    refine absurd ?_ hs
    rw [InSlot, ← hc.connected, ← hc.address i, ← hc.sharedKey i]
    exact ht
  | switchToLobby => cases h; exact absurd ht hs
  | switchToGame => cases h; exact absurd ht hs

/-- Every connected slot past 0 has a past: a request of its address, answered with a public key
that gives the session key; then a challenge that stayed pending; then a response of the same
address, answered with the slot under that key; and the slot has been the same ever since. -/
theorem connection_history {actions : List (ServerAction C)}
    (hrun : Runs.run Server.step (Server.create C) actions = some s) (hi : i ≠ 0)
    (hs : InSlot i a k s) :
    Runs.Since Server.step (InSlot i a k) (fun before u response => Confirms i a k u response ∧
        Runs.Since Server.step (Pending a k) (fun _ v request => Asks a k v request)
          (Server.create C) before)
      (Server.create C) actions := by
  have hinv {u : Server C} {before : List (ServerAction C)}
      (hu : Runs.run Server.step (Server.create C) before = some u) : Tables u ∧ Keyed u :=
    Runs.invariant (I := fun u => Tables u ∧ Keyed u)
      (fun u action v h hv => ⟨step_tables h.1 hv, step_keyed h.1 h.2 hv⟩)
      ⟨.create C, .create C⟩ hu
  have hnone : ¬ InSlot i a k (Server.create C) := fun h => by
    have := h.1
    simp [Server.create, hi] at this
  refine Runs.since hrun hnone hs fun before u response v hu hnot hv hslot => ?_
  obtain ⟨hconfirms, hpending⟩ := step_in_slot (hinv hu).1 (hinv hu).2 hnot hv hslot
  refine ⟨hconfirms, Runs.since hu (fun h => ?_) hpending ?_⟩
  · have := h.1
    simp [Server.create] at this
  · intro _ w request x hw hnot' hx hp
    exact step_pending (hinv hw).1 hnot' hx hp

/-- The second of two clients that join has slot 2. -/
theorem second_history :
    Runs.Since Server.step (InSlot 2 (sampleAddress 2) (sampleSession 2 3))
      (fun before u response => Confirms 2 (sampleAddress 2) (sampleSession 2 3) u response ∧
        Runs.Since Server.step (Pending (sampleAddress 2) (sampleSession 2 3))
          (fun _ v request => Asks (sampleAddress 2) (sampleSession 2 3) v request)
          (Server.create sample) before)
      (Server.create sample)
      (sampleJoin (sampleAddress 1) 0 1 ++ sampleJoin (sampleAddress 2) 2 3) := by
  have hrun : (Runs.run Server.step (Server.create sample)
      (sampleJoin (sampleAddress 1) 0 1 ++ sampleJoin (sampleAddress 2) 2 3)).map
      (fun s => decide (InSlot 2 (sampleAddress 2) (sampleSession 2 3) s)) = some true := by
    decide +kernel
  obtain ⟨s, hs, hd⟩ := Option.map_eq_some_iff.mp hrun
  exact connection_history hs (by decide) (of_decide_eq_true hd)

end

section
variable {C : Crypto} {c t : Client C} {k : ShortSharedKey} {n : Int} {source : Address}
  {d : List UInt8} {arrival : Arrival} {p_size : UInt32} {received now : Int}
  {action : ClientAction C}

/-- The client is connected under a key and an index. -/
def ConnectedAs (k : ShortSharedKey) (n : Int) (c : Client C) : Prop :=
  c.state = .connected ∧ c.sharedKey = k ∧ c.index = n

instance : Decidable (ConnectedAs k n c) := inferInstanceAs (Decidable (_ ∧ _))

/-- The client has answered under a key and waits for the slot. -/
def AnsweredUnder (k : ShortSharedKey) (c : Client C) : Prop :=
  c.state = .sendingChallengeResponse ∧ c.sharedKey = k

/-- A datagram that verifies under the key names the slot. -/
def HearsAccept (k : ShortSharedKey) (n : Int) : ClientAction C → Prop
  | .listen (some (_, d)) _ _ _ =>
    d.length ≤ receiveSize ∧ hmacType C k d = .connectionAccepted ∧
      n = int32 (clientIdOf d).toNat
  | _ => False

/-- A thread that was waiting answers under the key. -/
def AnswersUnder (k : ShortSharedKey) (c : Client C) : ClientAction C → Prop
  | .respondChallenge => ∃ o, c.runThread = some o ∧
      o.sent = [⟨c.serverAddress, sealed C k (header .challengeResponse)⟩]
  | _ => False

theorem listen_connects (hc : ¬ ConnectedAs k n c)
    (ht : ConnectedAs k n (c.listen arrival p_size received now).self) :
    HearsAccept k n (.listen arrival p_size received now : ClientAction C) ∧
      AnsweredUnder k c := by
  obtain ⟨m, hm, he⟩ := client_listen_noticed c arrival p_size received now
  generalize (c.listen arrival p_size received now).self = t at he ht
  generalize (c.listen arrival p_size received now).sent = sent at he
  obtain ⟨hs, hk, hn⟩ := ht
  cases he with
  | times_out => cases hs
  | stays =>
    cases hm with
    | failed => exact absurd ⟨hs, hk, hn⟩ hc
    | reacted hd h =>
      cases h with
      | unverified | ignored | data => exact absurd ⟨hs, hk, hn⟩ hc
      | challenge _ hreq => exact absurd (hreq.symm.trans hs) (by simp)
      | accepted htype hwait =>
        rw [clientType, if_neg (by simp [hwait])] at htype
        have hk : c.sharedKey = k := hk
        rw [hk] at htype
        simp only [Client.handlePacketConnectionAccepted] at hn
        exact ⟨⟨hd, Except.ok.inj htype, hn.symm⟩, hwait, hk⟩
      | dropped => cases hs

/-- Only a `CONNECTION_ACCEPTED` connects a client, one that has answered. -/
theorem step_connects (hc : ¬ ConnectedAs k n c) (h : c.step action = some t)
    (ht : ConnectedAs k n t) : HearsAccept k n action ∧ AnsweredUnder k c := by
  cases action with
  | connect seed =>
    obtain rfl := Outcome.next_some h
    by_cases hs : c.state = .disconnected
    · cases connect_changes (c := c) seed with
      | restarted _ hr => rw [ht.1] at hr; rcases hr with hr | hr <;> cases hr
      | handled hr | accepted hr | kept hr | ended hr => simp [restarts, hs] at hr
      | responded _ ha => cases ha
    · rw [connect_again hs] at ht
      exact absurd ht hc
  | respondChallenge =>
    obtain ⟨o, ho, hn⟩ := Option.bind_eq_some_iff.mp h
    obtain rfl := Outcome.next_some hn
    obtain ⟨m, -, rfl⟩ := runThread_some ho
    cases ht.1
  | sendDisconnect =>
    obtain rfl := Outcome.next_some h
    rw [(sendDisconnect_leaves c).1] at ht
    cases ht.1
  | listen arrival p_size received now =>
    obtain rfl := Outcome.next_some h
    exact listen_connects hc ht
  | sendGameData data sent =>
    obtain rfl := Outcome.next_some h
    have hkin := sendGameData_kin c data sent
    refine absurd ?_ hc
    rw [ConnectedAs, ← hkin.state, ← hkin.sharedKey, ← hkin.index]
    exact ht
  | setActiveTimeout p_value =>
    cases h
    exact absurd ht hc

/-- Only a thread takes a client into `SENDING_CHALLENGE_RESPONSE`. -/
theorem step_answers (hc : ¬ AnsweredUnder k c) (h : c.step action = some t)
    (ht : AnsweredUnder k t) : AnswersUnder k c action ∧ 0 < c.respondThreads := by
  have hstate := ht.1
  cases step_changes h with
  | restarted _ hs => rw [hstate] at hs; rcases hs with hs | hs <;> cases hs
  | handled _ _ _ hs => exact absurd (hstate.symm.trans hs) (by simp)
  | accepted _ _ _ _ hs => exact absurd (hstate.symm.trans hs) (by simp)
  | ended _ _ hs => exact absurd (hstate.symm.trans hs) (by simp)
  | kept _ _ hk hs => exact absurd ⟨hs.symm.trans hstate, hk.symm.trans ht.2⟩ hc
  | responded _ ha hk =>
    subst ha
    obtain ⟨o, ho, -⟩ := Option.bind_eq_some_iff.mp h
    obtain ⟨m, hm, rfl⟩ := runThread_some ho
    refine ⟨⟨_, ho, ?_⟩, by omega⟩
    rw [← hk, ht.2]

/-- A call that handles a challenge starts a thread. -/
def handles (c : Client C) (action : ClientAction C) : Nat :=
  if (handledKey c action).isSome then 1 else 0

/-- A thread that runs waits no longer. -/
def runs : ClientAction C → Nat
  | .respondChallenge => 1
  | _ => 0

theorem listen_threads (c : Client C) (arrival : Arrival) (p_size : UInt32) (received now : Int) :
    (c.listen arrival p_size received now).self.respondThreads =
      handles c (.listen arrival p_size received now) + c.respondThreads := by
  cases hk : handledKey c (.listen arrival p_size received now) with
  | some k =>
    cases arrival with
    | none => cases hk
    | some p =>
      simp only [handledKey, Option.ite_none_right_eq_some] at hk
      obtain ⟨⟨hd, hc, ht, hlen⟩, -⟩ := hk
      rw [client_handles_challenge hd hc ht hlen, handles]
      simp [handledKey, hd, hc, ht, hlen, Client.handlePacketChallenge, touched, Nat.add_comm]
  | none =>
    obtain ⟨m, hm, he⟩ := client_listen_noticed c arrival p_size received now
    generalize (c.listen arrival p_size received now).self = t at he ⊢
    generalize (c.listen arrival p_size received now).sent = sent at he
    have hkept : m.respondThreads = c.respondThreads := by
      cases hm with
      | failed => rfl
      | reacted hd h =>
        cases h with
        | unverified | ignored | accepted | data | dropped => rfl
        | challenge htype hs hlen => simp [handledKey, hd, hs, htype, hlen] at hk
    simp only [handles, hk, Option.isSome_none, Bool.false_eq_true, if_false, Nat.zero_add]
    cases he with
    | stays | times_out => exact hkept

/-- The threads that wait are those that were started and have not answered. -/
theorem step_threads (h : c.step action = some t) :
    runs action + t.respondThreads = handles c action + c.respondThreads := by
  cases action with
  | connect seed =>
    obtain rfl := Outcome.next_some h
    have hconnects := connect_connects c seed
    generalize (c.connect seed).self = t at hconnects ⊢
    generalize (c.connect seed).sent = sent at hconnects
    cases hconnects with
    | again | unwritten | requested => rfl
  | respondChallenge =>
    obtain ⟨o, ho, hn⟩ := Option.bind_eq_some_iff.mp h
    obtain rfl := Outcome.next_some hn
    obtain ⟨m, hm, rfl⟩ := runThread_some ho
    rw [hm, Nat.add_comm m 1]
    exact (Nat.zero_add _).symm
  | sendDisconnect =>
    obtain rfl := Outcome.next_some h
    rw [(sendDisconnect_leaves c).1]
    rfl
  | listen arrival p_size received now =>
    obtain rfl := Outcome.next_some h
    rw [listen_threads]
    exact Nat.zero_add _
  | sendGameData data sent =>
    obtain rfl := Outcome.next_some h
    have hkept : (c.sendGameData data sent).self.respondThreads = c.respondThreads := by
      unfold Client.sendGameData
      split
      · dsimp only
        split <;> rfl
      · rfl
    rw [hkept]
    rfl
  | setActiveTimeout p_value =>
    cases h
    rfl

/-- Only a challenge that is handled starts a thread. -/
theorem step_waits (hc : ¬ 0 < c.respondThreads) (h : c.step action = some t)
    (ht : 0 < t.respondThreads) : (handledKey c action).isSome := by
  have hstep := step_threads h
  by_contra hnone
  rw [handles, if_neg hnone] at hstep
  omega

/-- Every connected client has a past: a challenge that it handled and that started a thread; a
thread that answered under the session key; then no change of that key until a
`CONNECTION_ACCEPTED` under it named the index; and the client has been connected so ever since. -/
theorem connected_history {actions : List (ClientAction C)}
    (hrun : Runs.run Client.step ({} : Client C) actions = some c) (hc : ConnectedAs k n c) :
    Runs.Since Client.step (ConnectedAs k n)
      (fun before _ accept => HearsAccept k n accept ∧
        Runs.Since Client.step (AnsweredUnder k)
          (fun before v response => AnswersUnder k v response ∧
            Runs.Since Client.step (fun w => 0 < w.respondThreads)
              (fun _ w challenge => (handledKey w challenge).isSome) {} before)
          {} before)
      {} actions := by
  refine Runs.since hrun (fun h => by cases h.1) hc fun before u accept _ hu hnot hv hp => ?_
  obtain ⟨haccept, hanswered⟩ := step_connects hnot hv hp
  refine ⟨haccept, Runs.since hu (fun h => by cases h.1) hanswered ?_⟩
  intro before v response _ hv' hnot' hw hp'
  obtain ⟨hanswers, hwaiting⟩ := step_answers hnot' hw hp'
  refine ⟨hanswers, Runs.since hv' (Nat.lt_irrefl 0) hwaiting ?_⟩
  exact fun _ w challenge _ _ hnone hx hsome => step_waits hnone hx hsome

/-- A client connects and is given slot 1. -/
theorem first_history :
    Runs.Since Client.step (ConnectedAs (sampleSession 0 1) 1)
      (fun before _ accept => HearsAccept (sampleSession 0 1) 1 accept ∧
        Runs.Since Client.step (AnsweredUnder (sampleSession 0 1))
          (fun before v response => AnswersUnder (sampleSession 0 1) v response ∧
            Runs.Since Client.step (fun w => 0 < w.respondThreads)
              (fun _ w challenge => (handledKey w challenge).isSome) {} before)
          {} before)
      {} (sampleAnswer (sampleAddress 9) 0 1 ++ [sampleAccepted (sampleAddress 9) 0 1]) := by
  have hrun : (Runs.run Client.step ({} : Client sample)
      (sampleAnswer (sampleAddress 9) 0 1 ++ [sampleAccepted (sampleAddress 9) 0 1])).map
      (fun c => decide (ConnectedAs (sampleSession 0 1) 1 c)) = some true := by decide +kernel
  obtain ⟨c, hc, hd⟩ := Option.map_eq_some_iff.mp hrun
  exact connected_history hc (of_decide_eq_true hd)

end

end GameNetwork.Proofs
