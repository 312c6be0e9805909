import GameNetwork.Proofs.History
import GameNetwork.Proofs.Parties

namespace GameNetwork.Proofs

section
variable {C : Crypto} {s t : Server C} {a : Address} {arrival : Arrival} {seed : C.Seed}
  {p_size : UInt32} {sent : List Outgoing} {action : ServerAction C}

/-- The bytes a call to `Listen` gets from an address. -/
def heardBytes (a : Address) : ServerAction C → Nat
  | .listen (some (sender, d)) _ _ => if sender = a then d.length else 0
  | _ => 0

/-- The bytes of some datagrams that go to an address. -/
def bytesTo (a : Address) (sent : List Outgoing) : Nat :=
  ((sent.filter fun out => out.destination = a).map fun out => out.bytes.length).sum

/-- The bytes a call to `Listen` sends to an address. -/
def answerBytes (a : Address) (s : Server C) : ServerAction C → Nat
  | .listen arrival seed p_size => bytesTo a (s.listen arrival seed p_size).sent
  | _ => 0

/-- The slots that are connected to an address in one server and free in the other. -/
def newSlots (a : Address) (s t : Server C) : Nat :=
  ([0, 1, 2, 3] : List Slot).countP fun i =>
    !s.connected i && t.connected i && decide ((t.connections i).clientAddress = a)

/-- The slots a call to `Listen` opens for an address. -/
def opens (a : Address) (s : Server C) : ServerAction C → Nat
  | .listen arrival seed p_size => newSlots a s (s.listen arrival seed p_size).self
  | _ => 0

theorem bytesTo_nil (a : Address) : bytesTo a [] = 0 := rfl

theorem bytesTo_singleton (a : Address) (out : Outgoing) :
    bytesTo a [out] = if out.destination = a then out.bytes.length else 0 := by
  by_cases h : out.destination = a
  · simp [bytesTo, h]
  · simp [bytesTo, h]

/-- An accept opens a slot for the address of the challenge. -/
theorem newSlots_accepted {j : Slot} (hj : s.findFreeConnectionIndex = j.val) :
    1 ≤ newSlots (s.challenges 1).clientAddress s (accepted s j) := by
  have hfree : s.connected j = false := by simpa using FirstIndex.passes hj
  have hall : ∀ i : Slot, i ∈ ([0, 1, 2, 3] : List Slot) := by decide
  refine List.countP_pos_iff.mpr ⟨j, hall j, ?_⟩
  simp [accepted, hfree]

/-- An answer goes to whoever it answers. It is no longer than what it answers, but for an accept,
which may be longer by eight bytes. -/
theorem Heard.answers (h : Heard s seed arrival t sent) (hT : Tables s) (a : Address) :
    bytesTo a sent ≤ heardBytes a (.listen arrival seed p_size) + 8 * newSlots a s t := by
  cases h with
  | quiet | disconnect | withdraw =>
    rw [bytesTo_nil]
    exact Nat.zero_le _
  | @challenge sender d hd ht hs hk | @rechallenge sender d _ hd ht hs hk =>
    rw [bytesTo_singleton]
    dsimp only [heardBytes]
    rw [length_checked, Crypto.length_public_key]
    split <;> omega
  | @accept sender d j hd ht hs hc hj =>
    have hlen := classify_length ht (by simp) (by simp)
    have hopen := newSlots_accepted hj
    rw [(hT.challenged_at hc).2] at hopen
    rw [bytesTo_singleton]
    dsimp only [heardBytes]
    rw [length_sealed, acceptMessage, List.length_append, length_header, Bytes.length_be]
    split
    · rename_i ha
      rw [ha] at hopen
      omega
    · omega

/-- What an address may be sent for a call. -/
def allowance (a : Address) (s : Server C) (action : ServerAction C) : Nat :=
  heardBytes a action + 8 * opens a s action

theorem step_answers_bounded (hT : Tables s) (a : Address) (action : ServerAction C) :
    answerBytes a s action ≤ allowance a s action := by
  cases action with
  | listen arrival seed p_size => exact (listen_heard hT arrival seed p_size).answers hT a
  | propagateGameData | switchToLobby | switchToGame => exact Nat.zero_le _

/-- The server amplifies nothing: over every run, `Listen` sends an address no more bytes than came
from it, and eight more for every slot it opens for it. -/
theorem answers_bounded {actions : List (ServerAction C)}
    (hrun : Runs.run Server.step (Server.create C) actions = some s) (a : Address) :
    (Runs.trace Server.step (answerBytes a) (Server.create C) actions).sum ≤
      (Runs.trace Server.step (allowance a) (Server.create C) actions).sum :=
  Runs.trace_sum_le (F := fun _ => 0) (fun _ _ _ hT hs => step_tables hT hs)
    (fun _ action _ hT _ => step_answers_bounded hT a action) (.create C) hrun

/-- A client asks three times, is answered once, and is accepted. -/
theorem answers_bounded_sample :
    let actions := [sampleRequest (sampleAddress 1) 0 1, sampleRequest (sampleAddress 1) 0 1] ++
      sampleJoin (sampleAddress 1) 0 1
    let sent := Runs.trace Server.step (answerBytes (sampleAddress 1)) (.create sample) actions
    let allowed := Runs.trace Server.step (allowance (sampleAddress 1)) (.create sample) actions
    sent.sum = 47 ∧ sent.sum ≤ allowed.sum := by
  intro actions sent allowed
  have hrun : (Runs.run Server.step (Server.create sample) actions).isSome = true := by
    decide +kernel
  obtain ⟨s, hs⟩ := Option.isSome_iff_exists.mp hrun
  exact ⟨by decide +kernel, answers_bounded hs (sampleAddress 1)⟩

end

section
variable {C : Crypto} {c t : Client C} {action : ClientAction C} {sent : List Outgoing}

/-- How many of some datagrams have a type byte. -/
def ofType (type : PacketType) (sent : List Outgoing) : Nat :=
  sent.countP fun out => PacketType.ofByte (out.bytes.getD 4 0) = type

theorem ofType_singleton (type : PacketType) (out : Outgoing) : ofType type [out] =
    if PacketType.ofByte (out.bytes.getD 4 0) = type then 1 else 0 := by
  simp only [ofType, List.countP_singleton, decide_eq_true_eq]

/-- The type of whatever an action of a client sends. -/
def sends : ClientAction C → Option PacketType
  | .connect _ => some .connectionRequest
  | .respondChallenge => some .challengeResponse
  | .sendDisconnect | .listen _ _ _ _ => some .disconnect
  | .sendGameData _ _ => some .connectionData
  | .setActiveTimeout _ => none

theorem client_act_type {out : Outgoing} (h : c.act action = some (t, sent)) (ho : out ∈ sent) :
    sends action = some (PacketType.ofByte (out.bytes.getD 4 0)) := by
  have htype {m : Message C} (hm : out.bytes = m.bytes) :
      PacketType.ofByte (out.bytes.getD 4 0) = m.type := by rw [hm, Message.ofByte_bytes]
  cases action with
  | connect x =>
    cases Connects.of_act h with
    | again | unwritten => cases ho
    | requested =>
      obtain rfl := List.mem_singleton.mp ho
      rw [htype (m := .request x) rfl]
      rfl
  | respondChallenge =>
    obtain ⟨o, hthread, hl⟩ := Option.bind_eq_some_iff.mp h
    obtain ⟨-, rfl⟩ := Outcome.leaves_some hl
    obtain ⟨n, -, rfl⟩ := runThread_some hthread
    obtain rfl := List.mem_singleton.mp ho
    rw [htype (m := .response c.sharedKey) rfl]
    rfl
  | sendDisconnect =>
    obtain ⟨-, rfl⟩ := Outcome.leaves_some h
    rw [htype ((sendDisconnect_leaves c).2 out ho)]
    rfl
  | listen arrival p_size received now =>
    obtain ⟨-, rfl⟩ := Outcome.leaves_some h
    obtain ⟨u, -, he⟩ := client_listen_noticed c arrival p_size received now
    generalize (c.listen arrival p_size received now).self = v at he
    generalize (c.listen arrival p_size received now).sent = sent at he ho
    cases he with
    | stays => cases ho
    | times_out =>
      obtain rfl := List.eq_of_mem_replicate ho
      rw [htype (m := .disconnect u.sharedKey) rfl]
      rfl
  | sendGameData data reported =>
    obtain ⟨-, rfl⟩ := Outcome.leaves_some h
    obtain ⟨-, rfl⟩ := sendGameData_sends ho
    rw [htype (m := .data c.sharedKey (c.sequence + 1) data.bytes) rfl]
    rfl
  | setActiveTimeout p_value =>
    cases h
    cases ho

/-- The `CHALLENGE_RESPONSE`s that an action sends. -/
def responses (c : Client C) (action : ClientAction C) : Nat :=
  match c.act action with
  | some (_, sent) => ofType .challengeResponse sent
  | none => 0

/-- A thread sends one response, and nothing else sends any. -/
theorem responses_eq (h : c.step action = some t) : responses c action = runs action := by
  rw [← client_act_step] at h
  obtain ⟨⟨u, sent⟩, hact, rfl⟩ := Option.map_eq_some_iff.mp h
  rw [responses, hact]
  by_cases ha : action = .respondChallenge
  · subst ha
    obtain ⟨o, hthread, hl⟩ := Option.bind_eq_some_iff.mp hact
    obtain ⟨-, rfl⟩ := Outcome.leaves_some hl
    obtain ⟨n, -, rfl⟩ := runThread_some hthread
    have htype := Message.ofByte_bytes (Message.response c.sharedKey : Message C)
    exact (ofType_singleton _ _).trans (if_pos htype)
  · have hno : runs action = 0 := by
      cases action with
      | respondChallenge => exact absurd rfl ha
      | connect | sendDisconnect | listen | sendGameData | setActiveTimeout => rfl
    rw [hno]
    refine List.countP_eq_zero.mpr fun out ho => ?_
    have htype := client_act_type hact ho
    cases action with
    | respondChallenge => exact absurd rfl ha
    | setActiveTimeout => cases htype
    | connect | sendDisconnect | listen | sendGameData =>
      rw [← Option.some.inj htype]
      simp

/-- No response is lost or doubled: over every run of a client, the responses it has sent and the
threads that still wait are as many as the challenges it has handled. -/
theorem responses_accounted {actions : List (ClientAction C)}
    (hrun : Runs.run Client.step ({} : Client C) actions = some c) :
    (Runs.trace Client.step responses ({} : Client C) actions).sum + c.respondThreads =
      (Runs.trace Client.step handles ({} : Client C) actions).sum :=
  Runs.trace_sum_eq (I := fun _ => True) (F := Client.respondThreads) (fun _ _ _ _ _ => trivial)
    (fun _ _ _ _ hs => by rw [responses_eq hs]; exact step_threads hs) trivial hrun

/-- A challenge comes twice, and one of the threads has run. -/
theorem responses_accounted_sample :
    let challenge : ClientAction sample :=
      .listen (some (sampleAddress 9, checked .challenge (sample.publicKey (1 : Fin 8)).bytes)) 0
        0 0
    let actions := [.connect (0 : Fin 8), challenge, challenge, .respondChallenge]
    ∃ c, Runs.run Client.step ({} : Client sample) actions = some c ∧
      (Runs.trace Client.step responses ({} : Client sample) actions).sum = 1 ∧
      c.respondThreads = 1 ∧
      (Runs.trace Client.step responses ({} : Client sample) actions).sum + c.respondThreads =
        (Runs.trace Client.step handles ({} : Client sample) actions).sum := by
  intro challenge actions
  have hrun : (Runs.run Client.step ({} : Client sample) actions).map
      (fun c => decide (c.respondThreads = 1)) = some true := by decide +kernel
  obtain ⟨c, hc, hd⟩ := Option.map_eq_some_iff.mp hrun
  exact ⟨c, hc, by decide +kernel, of_decide_eq_true hd, responses_accounted hc⟩

end

end GameNetwork.Proofs
