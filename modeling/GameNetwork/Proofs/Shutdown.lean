import GameNetwork.Proofs.Finality
import GameNetwork.Proofs.Teardown

namespace GameNetwork.Proofs

variable {C : Crypto} {ι : Type} {hosts : Hosts ι} {sys sys' : System C ι} {s : Server C}
  {c c' : Client C} {i : ι} {j : Slot} {k : ShortSharedKey}

/-- With the key the client has a session, or is about to have one. -/
def Uses (k : ShortSharedKey) (c : Client C) : Prop :=
  c.sharedKey = k → c.state = .sendingChallengeResponse ∨ c.state = .connected

/-- A call hears a `DISCONNECT` under the key. -/
def HearsFarewell (k : ShortSharedKey) : ClientAction C → Prop
  | .listen (some (_, d)) _ _ _ => d = sealed C k (header .disconnect)
  | _ => False

/-- A `DISCONNECT` under the client's key ends its session, whatever the clock says. -/
theorem client_listen_farewell (hu : Uses k c) (hk : c.sharedKey = k) (source : Address)
    (p_size : UInt32) (received now : Int) :
    c.listen (some (source, sealed C k (header .disconnect))) p_size received now =
      { self := (touched c source received).disconnect, result := .ok { ret := 0 } } := by
  have hs : ¬ (c.state = .disconnected ∨ c.state = .sendingRequest) := by
    rcases hu hk with hs | hs <;> simp [hs]
  have hd : (sealed C k (header .disconnect)).length ≤ receiveSize := by
    rw [length_sealed, length_header]
    decide
  have ht : clientType c (sealed C k (header .disconnect)) = .ok .disconnect := by
    have h := hmacType_sealed (C := C) (k := k) .disconnect []
    rw [List.append_nil] at h
    rw [clientType, if_neg hs, hk, h]
    rfl
  obtain ⟨b, hl, -⟩ := client_listen_received c source p_size received now hd
  have hstate : (touched c source received).state ≠ .disconnected := fun h => hs (.inl h)
  rw [hl, ht]
  simp only [ne_eq, reduceCtorEq, not_false_eq_true, if_true, Client.dispatch, if_pos hstate,
    concluded]
  exact checkTimeout_idle (by simp [Client.disconnect])

/-- What the server has to say to a client changes neither its key nor its session, unless it
ends both. -/
theorem listen_uses (hne : k ≠ 0) (hu : Uses k c) {arrival : Arrival} {p_size : UInt32}
    {received now : Int}
    (hnew : handledKey c (.listen arrival p_size received now) ≠ some k) :
    Uses k (c.listen arrival p_size received now).self ∧
      ((c.listen arrival p_size received now).self.sharedKey = k → c.sharedKey = k) := by
  obtain ⟨t, ht, he⟩ := client_listen_noticed c arrival p_size received now
  generalize (c.listen arrival p_size received now).self = u at he ⊢
  generalize (c.listen arrival p_size received now).sent = sent at he
  have hgone {t : Client C} (hz : t.sharedKey = 0) :
      Uses k t ∧ (t.sharedKey = k → c.sharedKey = k) :=
    ⟨fun h => absurd (h.symm.trans hz) hne, fun h => absurd (h.symm.trans hz) hne⟩
  have hkept : Uses k t ∧ (t.sharedKey = k → c.sharedKey = k) := by
    cases ht with
    | failed => exact ⟨hu, id⟩
    | @reacted source d _ hd h =>
      cases h with
      | unverified | ignored | data => exact ⟨hu, id⟩
      | challenge htype hs hlen =>
        have hk : handledKey c (.listen (some (source, d)) p_size received now) =
            some (C.sessionKey (keyOf d) c.privateKey) := if_pos ⟨hd, hs, htype, hlen⟩
        rw [hk] at hnew
        exact ⟨fun h => absurd (congrArg some h) hnew, fun h => absurd (congrArg some h) hnew⟩
      | accepted => exact ⟨fun _ => .inr rfl, id⟩
      | dropped => exact hgone rfl
  cases he with
  | stays => exact hkept
  | times_out => exact hgone rfl

/-- Only a challenge gives a client a key, so one that has lost its key does not get it back
otherwise. -/
theorem step_uses (hne : k ≠ 0) (hu : Uses k c) {action : ClientAction C}
    (hnew : handledKey c action ≠ some k) (h : c.step action = some c') :
    Uses k c' ∧ (c'.sharedKey = k → c.sharedKey = k) := by
  cases action with
  | connect seed =>
    obtain rfl := Outcome.next_some h
    have hconnects := connect_connects c seed
    generalize (c.connect seed).self = t at hconnects ⊢
    generalize (c.connect seed).sent = sent at hconnects
    cases hconnects with
    | again => exact ⟨hu, id⟩
    | unwritten => exact ⟨hu, id⟩
    | requested hs =>
      have hlost : c.sharedKey ≠ k := fun hk => by rcases hu hk with h | h <;> simp [hs] at h
      exact ⟨fun hk => absurd hk hlost, id⟩
  | respondChallenge =>
    obtain ⟨o, ho, hn⟩ := Option.bind_eq_some_iff.mp h
    obtain rfl := Outcome.next_some hn
    obtain ⟨n, -, rfl⟩ := runThread_some ho
    exact ⟨fun _ => .inl rfl, id⟩
  | sendDisconnect =>
    obtain rfl := Outcome.next_some h
    rw [(sendDisconnect_leaves c).1]
    exact ⟨fun hk => absurd hk.symm hne, fun hk => absurd hk.symm hne⟩
  | listen arrival p_size received now =>
    obtain rfl := Outcome.next_some h
    exact listen_uses hne hu hnew
  | sendGameData data sent =>
    obtain rfl := Outcome.next_some h
    have hkin := sendGameData_kin c data sent
    rw [Uses, hkin.state, hkin.sharedKey]
    exact ⟨hu, id⟩
  | setActiveTimeout p_value =>
    cases h
    exact ⟨hu, id⟩

/-- No challenge that the call handles gives the client this key. -/
def NotGiven (k : ShortSharedKey) (c : Client C) (action : ClientAction C) : Prop :=
  handledKey c action ≠ some k

instance (c : Client C) (action : ClientAction C) : Decidable (NotGiven k c action) :=
  inferInstanceAs (Decidable (_ ≠ _))

/-- A client that has heard a `DISCONNECT` under a key does not have it any more. -/
theorem farewell_final (hne : k ≠ 0) (hu : Uses k c) {later : List (ClientAction C)}
    (hnew : Runs.Guarded Client.step (NotGiven k) c later)
    (hrun : Runs.run Client.step c later = some c')
    (hheard : ∃ action ∈ later, HearsFarewell k action) : c'.sharedKey ≠ k := by
  induction later generalizing c with
  | nil => simp at hheard
  | cons action later ih =>
    obtain ⟨t, ht, hrest⟩ := Runs.run_cons_some hrun
    obtain ⟨hfirst, hlater⟩ := hnew t ht
    have hstep := step_uses hne hu hfirst ht
    by_cases hmore : ∃ action ∈ later, HearsFarewell k action
    · exact ih hstep.1 hlater hrest hmore
    · -- it is this call that hears it, and then the key stays lost
      have hhears : HearsFarewell k action := by
        obtain ⟨other, hmem, hother⟩ := hheard
        rcases List.mem_cons.mp hmem with rfl | hmem
        · exact hother
        · exact absurd ⟨other, hmem, hother⟩ hmore
      have hlost : t.sharedKey ≠ k := by
        intro hk
        have hold := hstep.2 hk
        cases action with
        | listen arrival p_size received now =>
          cases arrival with
          | none => exact hhears
          | some p =>
            obtain ⟨source, d⟩ := p
            obtain rfl : d = sealed C k (header .disconnect) := hhears
            obtain rfl := Outcome.next_some ht
            rw [client_listen_farewell hu hold] at hk
            exact hne hk.symm
        | connect | respondChallenge | sendDisconnect | sendGameData | setActiveTimeout =>
          exact hhears
      exact (hlater.invariant (I := fun u => Uses k u ∧ u.sharedKey ≠ k)
        (fun u _ v hu hg hv => ⟨(step_uses hne hu.1 hg hv).1,
          fun hk => hu.2 ((step_uses hne hu.1 hg hv).2 hk)⟩) ⟨hstep.1, hlost⟩ hrest).2

theorem tenfold_filter (p : Outgoing → Bool) (outs : List Outgoing) :
    (tenfold outs).filter p = tenfold (outs.filter p) := by
  induction outs with
  | nil => rfl
  | cons out outs ih =>
    have hcons : tenfold (out :: outs) = List.replicate 10 out ++ tenfold outs := rfl
    rw [hcons, List.filter_append, ih, List.filter_cons, List.filter_replicate]
    split
    · rfl
    · rfl

/-- The only `DISCONNECT` for the client of a slot is the one under the key of the slot. -/
theorem farewells_filter (h1 : OneSession s) (hj : j ≠ 0)
    (hc : s.connected j = true) :
    (farewells s).filter (fun out => out.destination = (s.connections j).clientAddress) =
      [farewell C (s.connections j).clientAddress (s.connections j).sharedKey] := by
  have hconn (i : Slot) : (connectionFarewell s i).filter
      (fun out => out.destination = (s.connections j).clientAddress) =
      if i = j then [farewell C (s.connections j).clientAddress (s.connections j).sharedKey]
      else [] := by
    by_cases hij : i = j
    · subst hij
      simp [connectionFarewell, hc, farewell]
    · by_cases hci : s.connected i = true
      · have hne : (s.connections i).clientAddress ≠ (s.connections j).clientAddress :=
          fun ha => hij (h1.connected i j hci hc ha)
        simp [connectionFarewell, hci, hij, farewell, hne]
      · simp [connectionFarewell, hci, hij]
  have hchall (i : Slot) : (challengeFarewell s i).filter
      (fun out => out.destination = (s.connections j).clientAddress) = [] := by
    by_cases hci : s.challenged i = true
    · have hne : (s.challenges i).clientAddress ≠ (s.connections j).clientAddress :=
        fun ha => h1.apart j i hj hc hci ha.symm
      simp [challengeFarewell, hci, farewell, hne]
    · simp [challengeFarewell, hci]
  have hpick : ∀ (x : Outgoing) (k : Slot), k ≠ 0 →
      (([1, 2, 3] : List Slot).flatMap fun i => if i = k then [x] else []) = [x] := by
    intro x k hk
    have hslot : ∀ k : Slot, k ≠ 0 → k = 1 ∨ k = 2 ∨ k = 3 := by decide
    rcases hslot k hk with rfl | rfl | rfl <;> rfl
  rw [farewells, List.filter_flatMap]
  simp only [List.filter_append, hconn, hchall, List.append_nil]
  exact hpick _ j hj

/-- The call takes slot 1 from no client but its own, and doubles no address. -/
def KeepsSessions (sys : System C ι) : SystemAction C ι → Prop
  | .server action => ¬ ClearsOther sys.server action ∧ ¬ Doubles sys.server action
  | .client _ _ => True

theorem KeepsSessions.spares {action : SystemAction C ι} (h : KeepsSessions sys action) :
    SparesOthers sys action := by
  cases action with
  | server => exact h.1
  | client => trivial

/-- The parties are consistent, and every address has one session at most. -/
structure Settled (hosts : Hosts ι) (sys : System C ι) : Prop where
  consistent : Consistent hosts sys
  single : OneSession sys.server

theorem Settled.start (hosts : Hosts ι) : Settled hosts (System.start C ι) :=
  ⟨.start hosts, .create C⟩

theorem step_settled [DecidableEq ι] (hC : Ideal C) (h : Settled hosts sys)
    {action : SystemAction C ι} (hgood : KeepsSessions sys action)
    (hstep : System.step hosts sys action = some sys') : Settled hosts sys' := by
  refine ⟨step_consistent hC h.consistent hgood.spares hstep, ?_⟩
  cases step_moves hstep with
  | client => exact h.single
  | server ha hact hf =>
    refine (step_one_session h.consistent.tables h.single ?_).mpr hgood.2
    rw [← server_act_step, hact]
    rfl

theorem run_settled [DecidableEq ι] (hC : Ideal C) {actions : List (SystemAction C ι)}
    (hgood : Runs.Guarded (System.step hosts) KeepsSessions (System.start C ι) actions)
    (hrun : Runs.run (System.step hosts) (System.start C ι) actions = some sys) :
    Settled hosts sys :=
  hgood.invariant (fun _ _ _ h hgood hstep => step_settled hC h hgood hstep) (.start hosts) hrun

/-- A connected client has a session key. -/
theorem Consistent.keyed (hC : Ideal C) (h : Consistent hosts sys)
    (hs : (sys.clients i).state = .connected) : (sys.clients i).sharedKey ≠ 0 := by
  obtain ⟨j, -, e, he, hbytes⟩ := (h.clients i).connected hs
  obtain ⟨m, hm, hon⟩ := h.honest e he
  have hsame := hm.symm.trans hbytes
  obtain ⟨k, j', rfl⟩ := Message.eq_accepted (Message.type_eq hsame)
  obtain ⟨hkey, -⟩ := hC.accepted_injective hsame
  obtain ⟨⟨a, x, y, -, -, hk⟩, -⟩ := hon
  rw [← hkey, hk]
  exact hC.session_key_ne_zero x y

/-- When the server is destroyed, every connected client is sent ten equal datagrams. Whatever the
client does and hears after that, as long as it has the key of the session, the next of them to
arrive ends the session, and once it has heard one it does not have the key any more, unless a
challenge gives it that key again. -/
theorem shutdown_disconnects [DecidableEq ι] (hC : Ideal C) {hosts : Hosts ι} {i : ι}
    (hown : hosts.client i ≠ ownAddress) {actions : List (SystemAction C ι)}
    (hgood : Runs.Guarded (System.step hosts) KeepsSessions (System.start C ι) actions)
    (hrun : Runs.run (System.step hosts) (System.start C ι) actions = some sys)
    (hs : (sys.clients i).state = .connected) (hk : (sys.clients i).sharedKey = k) :
    (sys.server.destroy.sent.filter fun out => out.destination = hosts.client i) =
        List.replicate 10 (farewell C (hosts.client i) k) ∧
      ∀ (later : List (ClientAction C)) (c' : Client C),
        Runs.Guarded Client.step (NotGiven k) (sys.clients i) later →
        Runs.run Client.step (sys.clients i) later = some c' →
        (c'.sharedKey = k → ∀ source p_size received now,
          (c'.listen (some (source, (farewell C (hosts.client i) k).bytes)) p_size received
            now).self = (touched c' source received).disconnect) ∧
        ((∃ action ∈ later, HearsFarewell k action) → c'.sharedKey ≠ k) := by
  have h := run_settled hC hgood hrun
  obtain ⟨j, -, hslot⟩ := h.consistent.slot hC hs
  have hj : j ≠ 0 := by
    rintro rfl
    exact hown (hslot.address.symm.trans h.consistent.tables.own_address)
  have hne : k ≠ 0 := hk ▸ h.consistent.keyed hC hs
  have hu : Uses k (sys.clients i) := fun _ => .inr hs
  constructor
  · have hperm := (destroy_perm h.consistent.tables h.single).2.filter
      fun out => out.destination = hosts.client i
    have honly := farewells_filter h.single hj hslot.connected
    rw [hslot.address, hslot.sharedKey, hk] at honly
    rw [tenfold_filter, honly, tenfold_singleton] at hperm
    exact List.perm_replicate.mp hperm
  · intro later c' hnew hlater
    constructor
    · intro hkey source p_size received now
      have hu' : Uses k c' := hnew.invariant (I := Uses k)
        (fun _ _ _ hu hg hv => (step_uses hne hu hg hv).1) hu hlater
      exact congrArg Outcome.self (client_listen_farewell hu' hkey source p_size received now)
    · exact farewell_final hne hu hnew hlater

instance (sys : System C ι) :
    (action : SystemAction C ι) → Decidable (KeepsSessions sys action)
  | .server action => inferInstanceAs (Decidable (¬ ClearsOther sys.server action ∧ _))
  | .client _ _ => .isTrue trivial

/-- Two clients have joined, and the one in slot 2 is dismissed. It sends game data, hears a first
copy, begins a new connection and hears a second one. -/
theorem two_disconnected :
    let k := sampleSession 2 3
    let copy : ClientAction sample :=
      .listen (some (sampleAddress 9, (farewell sample (sampleHosts.client 1) k).bytes)) 0 0 0
    let later := [.sendGameData ⟨[7], by decide⟩ true, copy, .connect (4 : Fin 8), copy]
    ∃ sys c', Runs.run (System.step sampleHosts) (System.start sample (Fin 2))
        (sampleJoins 0 0 1 1 ++ sampleJoins 1 2 3 2) = some sys ∧ (sys.clients 1).index = 2 ∧
      (sys.server.destroy.sent.filter fun out => out.destination = sampleHosts.client 1) =
        List.replicate 10 (farewell sample (sampleHosts.client 1) k) ∧
      Runs.run Client.step (sys.clients 1) later = some c' ∧ c'.state = .sendingRequest ∧
      c'.sharedKey ≠ k := by
  intro k copy later
  have hrun : (Runs.run (System.step sampleHosts) (System.start sample (Fin 2))
      (sampleJoins 0 0 1 1 ++ sampleJoins 1 2 3 2)).map
      (fun sys => decide ((sys.clients 1).index = 2 ∧ (sys.clients 1).state = .connected ∧
        (sys.clients 1).sharedKey = k ∧
        Runs.Guarded Client.step (NotGiven k) (sys.clients 1) later ∧
        (Runs.run Client.step (sys.clients 1) later).map Client.state =
          some .sendingRequest)) = some true := by decide +kernel
  obtain ⟨sys, hs, hd⟩ := Option.map_eq_some_iff.mp hrun
  obtain ⟨hindex, hstate, hk, hnew, hlater⟩ := of_decide_eq_true hd
  obtain ⟨c', hc', hrequest⟩ := Option.map_eq_some_iff.mp hlater
  obtain ⟨hsent, hends⟩ :=
    shutdown_disconnects sample_ideal (by decide) (by decide +kernel) hs hstate hk
  exact ⟨sys, c', hs, hindex, hsent, hc', hrequest,
    (hends later c' hnew hc').2 ⟨copy, by simp [later], rfl⟩⟩

end GameNetwork.Proofs
