import GameNetwork.Proofs.Lifetime
import GameNetwork.Proofs.Returns
import GameNetwork.Proofs.Stranded

namespace GameNetwork.Proofs

variable {C : Crypto} {ι : Type} {hosts : Hosts ι} {sys sys' : System C ι} {i i' : ι}
  {k k' : ShortSharedKey} {c c' : Client C} {s t : Server C} {sent : List Outgoing}
  {out : Outgoing} {network : List Datagram}

/-- Nobody has said what the client of a challenge under the key can say to it. -/
def Unsaid (C : Crypto) (network : List Datagram) (k : ShortSharedKey) : Prop :=
  ∀ d ∈ network, d.bytes ≠ (Message.response k : Message C).bytes ∧
    d.bytes ≠ (Message.disconnect k : Message C).bytes

/-- The server has a challenge pending for a client that neither has the key nor can get it from a
challenge any more. -/
structure LockedOut (hosts : Hosts ι) (i : ι) (k : ShortSharedKey) (sys : System C ι) : Prop where
  pending : Pending (hosts.client i) k sys.server
  lost : ¬ Holds (sys.clients i) k
  unsaid : Unsaid C sys.network k

/-- Only who has the key can answer under it. -/
theorem answers_under (hC : Ideal C) {m : Message C} (hm : Answers k m)
    (hu : m.bytes = (Message.response k' : Message C).bytes ∨
      m.bytes = (Message.disconnect k' : Message C).bytes) : k = k' := by
  rcases hm with rfl | rfl <;> rcases hu with hu | hu
  · exact hC.sealed_injective hu
  · cases Message.type_eq hu
  · cases Message.type_eq hu
  · exact hC.sealed_injective hu

/-- What verifies under a key as an answer to a challenge is the answer under that key. -/
theorem Ideal.answer_eq (hC : Ideal C) {m : Message C} :
    (hmacType C k m.bytes = .challengeResponse → m = .response k) ∧
      (hmacType C k m.bytes = .disconnect → m = .disconnect k) := by
  constructor
  · intro h
    have htype := Message.type_of_hmac h (by decide)
    cases m with
    | response k' => rw [hC.sealed_key h (by decide)]
    | request | challenge | accepted | data | disconnect => cases htype
  · intro h
    have htype := Message.type_of_hmac h (by decide)
    cases m with
    | disconnect k' => rw [hC.sealed_key h (by decide)]
    | request | challenge | response | accepted | data => cases htype

section
variable (hC : Ideal C) (h : Consistent hosts sys)
  (hk : Known C sys.network k) (hn : ¬ Holds (sys.clients i) k)
include hC h hk hn

theorem Consistent.connect_not_holds {x : C.Seed}
    (hf : System.Fresh sys.network (some x) ((sys.clients i).connect x).sent) :
    ¬ Holds ((sys.clients i).connect x).self k := by
  have hconnects := connect_connects (sys.clients i) x
  generalize ((sys.clients i).connect x).self = t at hconnects ⊢
  generalize ((sys.clients i).connect x).sent = sent at hconnects hf
  cases hconnects with
  | again => exact hn
  | unwritten hs =>
    have hzero := (h.clients i).idle hs
    rintro ⟨hne, he | ⟨hreq, -⟩⟩
    · exact hne (he.symm.trans hzero)
    · cases hs.symm.trans hreq
  | requested hs hR =>
    obtain ⟨hr, hc⟩ := fresh_unsent hR hf (.inl rfl)
    exact not_holds_requesting hC hr hc ((h.clients i).idle hs) hk

omit hC hk in
theorem Consistent.listen_not_holds {arrival : Arrival}
    (ha : System.Arrives sys.network (hosts.client i) arrival) {p_size : UInt32}
    {received now : Int} : ¬ Holds ((sys.clients i).listen arrival p_size received now).self k := by
  obtain ⟨t, ht, he⟩ := client_listen_noticed (sys.clients i) arrival p_size received now
  generalize ((sys.clients i).listen arrival p_size received now).self = u at he ⊢
  generalize ((sys.clients i).listen arrival p_size received now).sent = sent at he
  have hnone : ¬ Holds t k := by
    cases ht with
    | failed => exact hn
    | reacted _ hr =>
      obtain ⟨e, hmem, -, rfl, -⟩ := ha
      cases hr with
      | unverified | ignored | data => exact hn
      | challenge htype hs =>
        obtain ⟨m, hm, -⟩ := h.honest e hmem
        rw [hm] at htype
        obtain ⟨y, rfl⟩ := Message.eq_challenge (Message.type_of_client htype (by simp))
        have hkey : keyOf e.bytes = C.publicKey y := by rw [hm]; exact keyOf_checked _ _
        rw [hkey]
        -- the client could have got the key it now has before
        rintro ⟨hne, hk | ⟨-, hk⟩⟩
        · exact hn ⟨hne, .inr ⟨hs, y, hk.symm⟩⟩
        · exact hn ⟨hne, .inr ⟨hs, hk⟩⟩
      | accepted =>
        rintro ⟨hne, hk | ⟨hs, -⟩⟩
        · exact hn ⟨hne, .inl hk⟩
        · cases hs
      | dropped =>
        rintro ⟨hne, hk | ⟨hs, -⟩⟩
        · exact hne hk.symm
        · cases hs
  cases he with
  | stays => exact hnone
  | times_out =>
    rintro ⟨hne, hk | ⟨hs, -⟩⟩
    · exact hne hk.symm
    · cases hs

/-- No call gives a client a key that it has missed or given up. -/
theorem Consistent.not_holds {action : ClientAction C}
    (ha : System.Arrives sys.network (hosts.client i) action.arrival)
    (hact : (sys.clients i).act action = some (c, sent))
    (hf : System.Fresh sys.network action.seed sent) : ¬ Holds c k := by
  cases action with
  | connect x =>
    obtain ⟨rfl, rfl⟩ := Outcome.leaves_some hact
    exact h.connect_not_holds hC hk hn hf
  | respondChallenge =>
    obtain ⟨o, ho, hl⟩ := Option.bind_eq_some_iff.mp hact
    obtain ⟨rfl, -⟩ := Outcome.leaves_some hl
    obtain ⟨n, -, rfl⟩ := runThread_some ho
    rintro ⟨hne, he | ⟨hs, -⟩⟩
    · exact hn ⟨hne, .inl he⟩
    · cases hs
  | sendDisconnect =>
    obtain ⟨rfl, -⟩ := Outcome.leaves_some hact
    rw [(sendDisconnect_leaves (sys.clients i)).1]
    rintro ⟨hne, he | ⟨hs, -⟩⟩
    · exact hne he.symm
    · cases hs
  | listen arrival p_size received now =>
    obtain ⟨rfl, -⟩ := Outcome.leaves_some hact
    exact h.listen_not_holds hn ha
  | sendGameData data reported =>
    obtain ⟨rfl, -⟩ := Outcome.leaves_some hact
    exact fun hh => hn ((sendGameData_kin (sys.clients i) data reported).holds hh)
  | setActiveTimeout p_value =>
    cases hact
    exact hn

end

/-- The server answers under no key as a client does. -/
theorem server_act_answers {action : ServerAction C} (hT : Tables s)
    (h : s.act action = some (t, sent)) (ho : out ∈ sent) :
    out.bytes ≠ (Message.response k : Message C).bytes ∧
      out.bytes ≠ (Message.disconnect k : Message C).bytes := by
  have htype : PacketType.ofByte (out.bytes.getD 4 0) ≠ .challengeResponse ∧
      PacketType.ofByte (out.bytes.getD 4 0) ≠ .disconnect := by
    cases action with
    | listen arrival seed p_size =>
      obtain ⟨-, rfl⟩ := Outcome.leaves_some h
      have hh := listen_heard hT arrival seed p_size
      generalize (s.listen arrival seed p_size).self = u at hh
      generalize (s.listen arrival seed p_size).sent = sent at hh ho
      cases hh with
      | quiet | disconnect | withdraw => cases ho
      | challenge | rechallenge =>
        obtain rfl := List.mem_singleton.mp ho
        rw [getD_checked]
        decide
      | accept =>
        obtain rfl := List.mem_singleton.mp ho
        rw [acceptMessage, getD_sealed_header]
        decide
    | propagateGameData data =>
      obtain ⟨-, rfl⟩ := Outcome.leaves_some h
      obtain ⟨j, -, sequence, -, rfl⟩ := propagateSlots_mem data ho
      rw [dataMessage, getD_sealed_header]
      decide
    | switchToLobby | switchToGame => cases h; cases ho
  constructor
  · intro he
    rw [he, Message.ofByte_bytes] at htype
    exact htype.1 rfl
  · intro he
    rw [he, Message.ofByte_bytes] at htype
    exact htype.2 rfl

/-- The key of a pending challenge is the one that a request of its address led to. -/
theorem Consistent.pending_key {a : Address} (h : Consistent hosts sys)
    (hp : Pending a k sys.server) :
    (sys.server.challenges 1).resolved.sharedKey = k ∧ ∃ x y, Requested sys.network a x ∧
      Challenged sys.network y ∧ k = C.sessionKey (C.publicKey x) (C.privateKey y) := by
  obtain ⟨h1, ha, hk⟩ := hp
  obtain ⟨x, y, hx, hy, hclient, -, hprivate, hkey⟩ := h.challenge h1
  obtain ⟨haddress, hclient', -, hprivate'⟩ := resolved_fields (sys.server.challenges 1)
  rw [haddress, ha] at hx
  rw [hclient'] at hclient
  rw [hprivate'] at hprivate
  rw [hclient, hprivate] at hk
  exact ⟨hkey.trans hk, x, y, hx, hy, hk.symm⟩

/-- A request takes the challenge slot from its client. -/
def TakesChallenge (sys : System C ι) : SystemAction C ι → Prop
  | .server action => Displaces sys.server action
  | .client _ _ => False

section
variable (hC : Ideal C) (h : Settled hosts sys) (hl : LockedOut hosts i k sys)
include hC h hl

/-- A pending challenge is not concluded by anything that was sent. -/
theorem LockedOut.not_concluded {action : ServerAction C}
    (ha : System.Arrives sys.network hosts.server action.arrival) :
    ¬ Concludes (hosts.client i) sys.server action := by
  intro hends
  match action, hends with
  | .listen (some (sender, d)) seed p_size, ⟨hd, hsender, hends⟩ =>
    obtain ⟨e, hmem, -, rfl, -⟩ := ha
    obtain ⟨m, hm, -⟩ := h.consistent.honest e hmem
    obtain ⟨hkey, -⟩ := h.consistent.pending_key hl.pending
    have hn : ¬ sys.server.findExistingConnectionIndex (hosts.client i) > 0 := by
      intro hc
      obtain ⟨j, -, hj, hconnected, haddress⟩ := connection_found hc
      exact h.single.apart j 1 hj hconnected hl.pending.1 (haddress.trans hl.pending.2.1.symm)
    rw [classify_challenged hn (hl.pending.index h.consistent.tables), hkey, hm] at hends
    rcases hends with ⟨-, htype, -⟩ | ⟨htype, -⟩
    · obtain rfl := hC.answer_eq.1 (Option.some.inj (Except.ok.inj htype))
      exact (hl.unsaid e hmem).1 hm
    · obtain rfl := hC.answer_eq.2 (Option.some.inj (Except.ok.inj htype))
      exact (hl.unsaid e hmem).2 hm

/-- Nobody has the key of a challenge that its client has lost. -/
theorem LockedOut.nobody_holds (i' : ι) : ¬ Holds (sys.clients i') k := by
  obtain ⟨-, x, y, hx, hy, rfl⟩ := h.consistent.pending_key hl.pending
  intro hh
  have hi := (h.consistent.clients i').owner hC h.consistent.apart hx hy hh
  obtain rfl := hosts.client_injective hi
  exact hl.lost hh

theorem step_locked_out [DecidableEq ι] (hown : hosts.client i ≠ ownAddress)
    {action : SystemAction C ι} (hother : ¬ TakesChallenge sys action)
    (hstep : System.step hosts sys action = some sys') : LockedOut hosts i k sys' := by
  obtain ⟨-, x, y, hx, hy, hk⟩ := h.consistent.pending_key hl.pending
  have hne : k ≠ 0 := by rw [hk]; exact hC.session_key_ne_zero x y
  cases step_moves hstep with
  | @client i' action c sent ha hact hf =>
    refine ⟨hl.pending, ?_, fun d hd => ?_⟩
    · by_cases hi : i' = i
      · subst hi
        simpa [System.withClient] using
          h.consistent.not_holds hC ⟨_, x, y, hx, hy, hk⟩ hl.lost ha hact hf
      · simpa [System.withClient, Ne.symm hi] using hl.lost
    · rcases List.mem_append.mp hd with hd | hd
      · exact hl.unsaid d hd
      obtain ⟨-, out, ho, he⟩ := mem_post hd
      obtain ⟨m, hm, hanswers⟩ := client_act_answers hact ho
      rw [he, hm]
      rcases hanswers with hanswers | ⟨hr, hd⟩
      · have hnot := hl.nobody_holds hC h i'
        constructor
        · exact fun hb => hnot ⟨hne, .inl (answers_under hC hanswers (.inl hb))⟩
        · exact fun hb => hnot ⟨hne, .inl (answers_under hC hanswers (.inr hb))⟩
      · exact ⟨fun hb => hr (Message.type_eq hb), fun hb => hd (Message.type_eq hb)⟩
  | @server action t sent ha hact hf =>
    have hs : sys.server.step action = some t := by rw [← server_act_step, hact]; rfl
    refine ⟨?_, hl.lost, fun d hd => ?_⟩
    · exact (step_keeps_pending h.consistent.tables hl.pending hs).mpr
        ⟨hother, hl.not_concluded hC h ha⟩
    · rcases List.mem_append.mp hd with hd | hd
      · exact hl.unsaid d hd
      obtain ⟨-, out, ho, he⟩ := mem_post hd
      rw [he]
      exact server_act_answers h.consistent.tables hact ho

end

/-- A client that starts again after the server has heard its request is locked out. Until somebody
else's request takes the challenge slot, in a run that keeps the sessions, whatever the client and
the network do, its old challenge stays pending and it does not get connected. -/
theorem lost_challenge_locks_out [DecidableEq ι] (hC : Ideal C) (hown : hosts.client i ≠ ownAddress)
    {before during : List (SystemAction C ι)}
    (hgood : Runs.Guarded (System.step hosts) KeepsSessions (System.start C ι) before)
    (hbefore : Runs.run (System.step hosts) (System.start C ι) before = some sys)
    (hl : LockedOut hosts i k sys)
    (hquiet : Runs.Guarded (System.step hosts)
      (fun sys action => KeepsSessions sys action ∧ ¬ TakesChallenge sys action) sys during)
    (hduring : Runs.run (System.step hosts) sys during = some sys') :
    LockedOut hosts i k sys' ∧ (sys'.clients i).state ≠ .connected := by
  obtain ⟨hsettled, hlocked⟩ := hquiet.invariant
    (I := fun sys => Settled hosts sys ∧ LockedOut hosts i k sys)
    (fun _ _ _ h hg hstep => ⟨step_settled hC h.1 hg.1 hstep,
      step_locked_out hC h.1 h.2 hown hg.2 hstep⟩)
    ⟨run_settled hC hgood hbefore, hl⟩ hduring
  refine ⟨hlocked, fun hs => ?_⟩
  -- a client that is connected has a slot, and an address with a challenge has none
  obtain ⟨j, -, hslot⟩ := hsettled.consistent.slot hC hs
  have hj : j ≠ 0 := by
    rintro rfl
    exact hown (hslot.address.symm.trans hsettled.consistent.tables.own_address)
  exact hsettled.single.apart j 1 hj hslot.connected hlocked.pending.1
    (hslot.address.trans hlocked.pending.2.1.symm)

instance (sys : System C ι) :
    (action : SystemAction C ι) → Decidable (TakesChallenge sys action)
  | .server action => inferInstanceAs (Decidable (Displaces _ action))
  | .client _ _ => .isFalse id

/-- The first client gives up and starts again. It is not answered, and when it hears the challenge
after all, it is not understood. -/
theorem restarted_locked_out :
    let before : List (SystemAction sample (Fin 2)) := [.client 0 (.connect (0 : Fin 8)),
      .server (sampleRequest (sampleHosts.client 0) 0 1), .client 0 .sendDisconnect,
      .client 0 (.connect (2 : Fin 8))]
    let during : List (SystemAction sample (Fin 2)) :=
      [.server (sampleRequest (sampleHosts.client 0) 2 3),
        .client 0 (.listen (some (sampleHosts.server,
          checked .challenge (sample.publicKey (1 : Fin 8)).bytes)) 0 0 0),
        .client 0 .respondChallenge,
        .server (sampleHears (sampleHosts.client 0)
          (sealed sample (sampleSession 2 1) (header .challengeResponse)) 3)]
    ∃ sys sys', Runs.run (System.step sampleHosts) (System.start sample (Fin 2)) before = some sys ∧
      Runs.run (System.step sampleHosts) sys during = some sys' ∧
      (sys'.clients 0).state = .sendingChallengeResponse ∧
      LockedOut sampleHosts 0 (sampleSession 0 1) sys' ∧ (sys'.clients 0).state ≠ .connected := by
  intro before during
  have hbefore : (Runs.run (System.step sampleHosts) (System.start sample (Fin 2)) before).map
      (fun sys => decide (Pending (sampleHosts.client 0) (sampleSession 0 1) sys.server ∧
        (sys.clients 0).sharedKey = 0 ∧
        (sys.clients 0).privateKey = sample.privateKey (2 : Fin 8) ∧
        (∀ d ∈ sys.network,
          d.bytes ≠ (Message.response (sampleSession 0 1) : Message sample).bytes ∧
          d.bytes ≠ (Message.disconnect (sampleSession 0 1) : Message sample).bytes) ∧
        Runs.Guarded (System.step sampleHosts) (fun sys action => KeepsSessions sys action ∧
          ¬ TakesChallenge sys action) sys during)) = some true := by decide +kernel
  have hwhole : (Runs.run (System.step sampleHosts) (System.start sample (Fin 2))
      (before ++ during)).map
      (fun sys => decide ((sys.clients 0).state = .sendingChallengeResponse)) = some true := by
    decide +kernel
  obtain ⟨sys, hsys, hd⟩ := Option.map_eq_some_iff.mp hbefore
  obtain ⟨sys', hsys', hd'⟩ := Option.map_eq_some_iff.mp hwhole
  obtain ⟨hpending, hzero, hprivate, hunsaid, hquiet⟩ := of_decide_eq_true hd
  rw [Runs.run_append hsys] at hsys'
  have hlost : ¬ Holds (sys.clients 0) (sampleSession 0 1) := by
    rintro ⟨hne, he | ⟨-, y, he⟩⟩
    · exact hne (he.symm.trans hzero)
    · rw [hprivate] at he
      rcases sample_ideal.session_key_inj _ _ _ _ he with ⟨-, h⟩ | ⟨h, -⟩
      · exact absurd h (by decide : (1 : Fin 8) ≠ 2)
      · exact absurd h (by decide : (0 : Fin 8) ≠ 2)
  exact ⟨sys, sys', hsys, hsys', of_decide_eq_true hd',
    lost_challenge_locks_out sample_ideal (by decide) (by decide +kernel) hsys
      ⟨hpending, hlost, hunsaid⟩ hquiet hsys'⟩

end GameNetwork.Proofs
