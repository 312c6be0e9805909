import GameNetwork.Proofs.ConsistentClient

namespace GameNetwork.Proofs

variable {C : Crypto} {c t : Client C} {action : ClientAction C} {k : ShortSharedKey}

/-- The key of the challenge that a call handles. -/
def handledKey (c : Client C) : ClientAction C → Option ShortSharedKey
  | .listen (some (_, d)) _ _ _ =>
    if d.length ≤ receiveSize ∧ c.state = .sendingRequest ∧ clientType c d = .ok .challenge ∧
        5 + C.roundedPublicKeySize ≤ d.length then
      some (C.sessionKey (keyOf d) c.privateKey)
    else none
  | _ => none

/-- `Connect` begins a connection in `DISCONNECTED` and does nothing in any other state. -/
def restarts (c : Client C) : ClientAction C → Bool
  | .connect _ => decide (c.state = .disconnected)
  | _ => false

/-- What a call or a waiting thread does to the state and the key. -/
inductive Changes (c : Client C) (action : ClientAction C) (t : Client C) : Prop
  | restarted (hr : restarts c action = true)
      (ht : t.state = .sendingRequest ∨ t.state = .disconnected)
  | handled (hr : restarts c action = false) (hc : c.state = .sendingRequest)
      (hk : handledKey c action = some t.sharedKey) (ht : t.state = .sendingRequest)
  | responded (hr : restarts c action = false) (ha : action = .respondChallenge)
      (hk : t.sharedKey = c.sharedKey) (ht : t.state = .sendingChallengeResponse)
  | accepted (hr : restarts c action = false) (hn : handledKey c action = none)
      (hk : t.sharedKey = c.sharedKey) (hc : c.state = .sendingChallengeResponse)
      (ht : t.state = .connected)
  | kept (hr : restarts c action = false) (hn : handledKey c action = none)
      (hk : t.sharedKey = c.sharedKey) (ht : t.state = c.state)
  | ended (hr : restarts c action = false) (hn : handledKey c action = none)
      (ht : t.state = .disconnected)

theorem Changes.ends {u : Client C} {now : Int} {sent : List Outgoing}
    (hr : restarts c action = false) (hn : handledKey c action = none) (h : Changes c action t)
    (he : Ends t now u sent) : Changes c action u := by
  cases he with
  | stays => exact h
  | times_out => exact .ended hr hn rfl

/-- A `Listen` that handles no challenge. -/
theorem Noticed.changes {arrival : Arrival} {received : Int} (h : Noticed c received arrival t)
    (hr : restarts c action = false) (hn : handledKey c action = none)
    (hno : ∀ source d, arrival = some (source, d) → d.length ≤ receiveSize →
      c.state = .sendingRequest → clientType c d = .ok .challenge →
      d.length < 5 + C.roundedPublicKeySize) : Changes c action t := by
  cases h with
  | failed => exact .kept hr hn rfl rfl
  | reacted hd h =>
    cases h with
    | unverified | ignored | data => exact .kept hr hn rfl rfl
    | challenge ht hs hk => exact absurd hk (Nat.not_le_of_lt (hno _ _ rfl hd hs ht))
    | accepted _ hs => exact .accepted hr hn rfl hs rfl
    | dropped => exact .ended hr hn rfl

theorem connect_changes (seed : C.Seed) : Changes c (.connect seed) (c.connect seed).self := by
  have hconnects := connect_connects c seed
  generalize (c.connect seed).self = t at hconnects ⊢
  generalize (c.connect seed).sent = sent at hconnects
  cases hconnects with
  | again hs => exact .kept (by simp [restarts, hs]) rfl rfl rfl
  | unwritten hs => exact .restarted (by simp [restarts, hs]) (.inr hs)
  | requested hs => exact .restarted (by simp [restarts, hs]) (.inl rfl)

theorem listen_changes (arrival : Arrival) (p_size : UInt32) (received now : Int) :
    Changes c (.listen arrival p_size received now) (c.listen arrival p_size received now).self := by
  cases hk : handledKey c (.listen arrival p_size received now) with
  | some k =>
    cases arrival with
    | none => cases hk
    | some p =>
      obtain ⟨source, d⟩ := p
      simp only [handledKey, Option.ite_none_right_eq_some, Option.some.injEq] at hk
      obtain ⟨⟨hd, hc, ht, hlen⟩, rfl⟩ := hk
      have hself := client_handles_challenge hd hc ht hlen source p_size received now
      refine .handled rfl hc ?_ (by rw [hself]; exact hc)
      rw [hself]
      exact if_pos ⟨hd, hc, ht, hlen⟩
  | none =>
    obtain ⟨m, hm, he⟩ := client_listen_noticed c arrival p_size received now
    refine (hm.changes rfl hk ?_).ends rfl hk he
    rintro source d rfl hd hc ht
    by_contra hlen
    simp only [handledKey] at hk
    rw [if_pos ⟨hd, hc, ht, by omega⟩] at hk
    cases hk

theorem step_changes (h : c.step action = some t) : Changes c action t := by
  cases action with
  | connect seed =>
    obtain rfl := Outcome.next_some h
    exact connect_changes seed
  | respondChallenge =>
    obtain ⟨o, ho, hn⟩ := Option.bind_eq_some_iff.mp h
    obtain rfl := Outcome.next_some hn
    obtain ⟨n, -, rfl⟩ := runThread_some ho
    exact .responded rfl rfl rfl rfl
  | sendDisconnect =>
    obtain rfl := Outcome.next_some h
    rw [(sendDisconnect_leaves c).1]
    exact .ended rfl rfl rfl
  | listen arrival p_size received now =>
    obtain rfl := Outcome.next_some h
    exact listen_changes arrival p_size received now
  | sendGameData data sent =>
    obtain rfl := Outcome.next_some h
    have hkin := sendGameData_kin c data sent
    exact .kept rfl rfl hkin.sharedKey hkin.state
  | setActiveTimeout p_value =>
    cases h
    exact .kept rfl rfl rfl rfl

/-- A client under watch: the keys of the challenges it has handled since it last began to
connect, and whether it has been `DISCONNECTED` since. -/
structure Watched (C : Crypto) where
  client : Client C := {}
  keys : List ShortSharedKey := []
  left : Bool := true

namespace Watched

/-- A `Connect` that begins a connection begins the watch anew. -/
def before (w : Watched C) (action : ClientAction C) : Watched C :=
  if restarts w.client action then { w with keys := [], left := false } else w

def after (w : Watched C) (action : ClientAction C) (c : Client C) : Watched C where
  client := c
  keys := (handledKey w.client action).toList ++ (w.before action).keys
  left := (w.before action).left || decide (c.state = .disconnected)

def step (w : Watched C) (action : ClientAction C) : Option (Watched C) :=
  (w.client.step action).map (w.after action)

/-- What was disconnected has stayed so, and a session has the key of a challenge handled for
it. -/
structure Final (w : Watched C) : Prop where
  stays : w.left = true → w.client.state = .disconnected
  key : w.client.state = .sendingChallengeResponse ∨ w.client.state = .connected →
    w.client.sharedKey ∈ w.keys

/-- A waiting thread runs for a challenge of the connection that is being made, while it is not
disconnected. -/
def Timely (w : Watched C) : ClientAction C → Prop
  | .respondChallenge =>
    w.client.state ≠ .disconnected ∧ (w.client.state = .sendingRequest → w.keys ≠ [])
  | _ => True

instance (w : Watched C) : (action : ClientAction C) → Decidable (Timely w action)
  | .respondChallenge => inferInstanceAs (Decidable (_ ∧ _))
  | .connect _ | .sendDisconnect | .listen .. | .sendGameData .. | .setActiveTimeout _ =>
    .isTrue trivial

/-- What the watch knows of its client. -/
structure Sound (w : Watched C) : Prop where
  left : w.client.state = .disconnected → w.left = true
  key : w.left = false → w.keys ≠ [] → w.client.sharedKey ∈ w.keys

variable {w w' : Watched C}

@[simp] theorem after_client : (w.after action t).client = t := rfl

theorem before_eq (hr : restarts w.client action = false) : w.before action = w := by
  rw [before, if_neg (by simp [hr])]

theorem after_left (hr : restarts w.client action = false) :
    (w.after action t).left = true ↔ w.left = true ∨ t.state = .disconnected := by
  rw [after, before_eq hr, Bool.or_eq_true, decide_eq_true_eq]

theorem after_keys (hr : restarts w.client action = false)
    (hn : handledKey w.client action = none) : (w.after action t).keys = w.keys := by
  rw [after, before_eq hr, hn, Option.toList_none, List.nil_append]

theorem after_disconnected (ht : t.state = .disconnected) : (w.after action t).left = true := by
  simp [after, ht]

theorem Sound.after (h : Sound w) (hc : Changes w.client action t) : Sound (w.after action t) := by
  refine ⟨after_disconnected, fun hleft hkeys => ?_⟩
  have hold (hr : restarts w.client action = false) : w.left = false := by
    rw [← Bool.not_eq_true, after_left hr, not_or] at hleft
    exact Bool.eq_false_of_not_eq_true hleft.1
  cases hc with
  | restarted hr =>
    have hn : handledKey w.client action = none := by
      unfold restarts at hr
      split at hr
      · rfl
      · cases hr
    rw [Watched.after, hn, before, if_pos hr] at hkeys
    exact absurd rfl hkeys
  | handled _ _ hk =>
    rw [Watched.after, hk]
    exact List.mem_cons_self
  | responded hr ha hk =>
    subst ha
    rw [after_client, hk]
    exact h.key (hold hr) hkeys
  | accepted hr hn hk | kept hr hn hk =>
    rw [after_keys hr hn] at hkeys ⊢
    rw [after_client, hk]
    exact h.key (hold hr) hkeys
  | ended _ _ ht =>
    rw [after_disconnected ht] at hleft
    cases hleft

/-- A thread that runs takes the client into `SENDING_CHALLENGE_RESPONSE` as it stands. -/
theorem final_responded_iff (h : Sound w) (hf : Final w)
    (hk : t.sharedKey = w.client.sharedKey) (ht : t.state = .sendingChallengeResponse) :
    Final (w.after .respondChallenge t) ↔ Timely w .respondChallenge := by
  have hkeys : (w.after .respondChallenge t).keys = w.keys := rfl
  constructor
  · intro hf'
    have hin := hf'.key (.inl ht)
    rw [hkeys, after_client, hk] at hin
    constructor
    · intro hd
      have hstays := hf'.stays ((after_left rfl).mpr (.inl (h.left hd)))
      rw [after_client, ht] at hstays
      cases hstays
    · exact fun _ => List.ne_nil_of_mem hin
  · rintro ⟨hd, hreq⟩
    have hl : w.left ≠ true := fun hl => hd (hf.stays hl)
    constructor
    · intro htrue
      rcases (after_left rfl).mp htrue with hw | hw
      · exact absurd hw hl
      · exact hw
    · intro _
      rw [hkeys, after_client, hk]
      cases hs : w.client.state with
      | disconnected => exact absurd hs hd
      | sendingRequest => exact h.key (Bool.eq_false_of_not_eq_true hl) (hreq hs)
      | sendingChallengeResponse => exact hf.key (.inl hs)
      | connected => exact hf.key (.inr hs)

/-- No other call brings a client back. -/
theorem Final.after (hf : Final w) (hc : Changes w.client action t)
    (ha : action ≠ .respondChallenge) : Final (w.after action t) := by
  have hgone (ht : t.state = .disconnected) : Final (w.after action t) :=
    ⟨fun _ => ht, fun h => by rw [after_client, ht] at h; rcases h with h | h <;> cases h⟩
  -- a client that had been disconnected is so still
  have hstays (hr : restarts w.client action = false)
      (ht : w.client.state = .disconnected → t.state = .disconnected)
      (hl : (w.after action t).left = true) : t.state = .disconnected := by
    rcases (after_left hr).mp hl with hw | hw
    · exact ht (hf.stays hw)
    · exact hw
  cases hc with
  | restarted hr ht =>
    rcases ht with ht | ht
    · constructor
      · intro hl
        simp [Watched.after, before, hr, ht] at hl
      · intro h
        rw [after_client, ht] at h
        rcases h with h | h <;> cases h
    · exact hgone ht
  | handled hr hc _ ht =>
    constructor
    · exact hstays hr fun hd => by rw [hd] at hc; cases hc
    · intro h
      rw [after_client, ht] at h
      rcases h with h | h <;> cases h
  | responded _ h => exact absurd h ha
  | accepted hr hn hk hc ht =>
    constructor
    · exact hstays hr fun hd => by rw [hd] at hc; cases hc
    · intro _
      rw [after_keys hr hn, after_client, hk]
      exact hf.key (.inl hc)
  | kept hr hn hk ht =>
    constructor
    · exact hstays hr fun hd => ht.trans hd
    · intro h
      rw [after_client, ht] at h
      rw [after_keys hr hn, after_client, hk]
      exact hf.key h
  | ended _ _ ht => exact hgone ht

theorem step_sound (h : Sound w) (hs : w.step action = some w') : Sound w' := by
  obtain ⟨t, ht, rfl⟩ := Option.map_eq_some_iff.mp hs
  exact h.after (step_changes ht)

theorem step_final_iff (h : Sound w) (hf : Final w) (hs : w.step action = some w') :
    Final w' ↔ Timely w action := by
  obtain ⟨t, ht, rfl⟩ := Option.map_eq_some_iff.mp hs
  have hc := step_changes ht
  by_cases ha : action = .respondChallenge
  · subst ha
    obtain ⟨o, ho, hn⟩ := Option.bind_eq_some_iff.mp ht
    obtain rfl := Outcome.next_some hn
    obtain ⟨n, -, rfl⟩ := runThread_some ho
    exact final_responded_iff h hf rfl rfl
  · have htimely : Timely w action := by
      cases action with
      | respondChallenge => exact absurd rfl ha
      | connect | sendDisconnect | listen | sendGameData | setActiveTimeout => trivial
    exact iff_of_true (hf.after hc ha) htimely

end Watched

/-- In a run of a client and its waiting threads every disconnect is final until the next
connection, and every session has a key of its own, exactly when each thread runs in time. -/
theorem disconnect_final_iff (C : Crypto) (actions : List (ClientAction C)) :
    Runs.Throughout Watched.step Watched.Final {} actions ↔
      Runs.Guarded Watched.step Watched.Timely {} actions := by
  refine Runs.throughout_iff_guarded (I := Watched.Sound) (fun _ _ _ h hs => Watched.step_sound h hs)
    (fun _ _ _ h hf hs => Watched.step_final_iff h hf hs) ?_ ?_
  · exact ⟨fun _ => rfl, fun h => by cases h⟩
  · exact ⟨fun _ => rfl, fun h => by rcases h with h | h <;> cases h⟩

/-- The user disconnects before the thread has run, which then brings the client back with the
key of zeros. -/
theorem disconnect_not_final : ¬ ∀ actions : List (ClientAction sample),
    Runs.Throughout Watched.step Watched.Final {} actions := by
  intro h
  have hrun : (Runs.run Watched.step ({} : Watched sample) [.connect (0 : Fin 8),
      .listen (some (sampleAddress 9, checked .challenge (sample.publicKey (1 : Fin 8)).bytes)) 0 0 0,
      .sendDisconnect, .respondChallenge]).map
        (fun w => (w.left, w.client.state, w.client.sharedKey)) =
      some (true, .sendingChallengeResponse, 0) := by decide +kernel
  obtain ⟨w, hw, he⟩ := Option.map_eq_some_iff.mp hrun
  obtain ⟨hl, he⟩ := Prod.mk.inj he
  have hstays := (h _ _ _ List.prefix_rfl hw).stays hl
  rw [(Prod.mk.inj he).1] at hstays
  cases hstays

end GameNetwork.Proofs
