import GameNetwork.Proofs.Count
import GameNetwork.Proofs.History
import GameNetwork.Registry

namespace GameNetwork.Proofs

variable {C : Crypto} {s t : Server C} {a b : Address} {d : List UInt8} {seed : C.Seed}
  {p_size : UInt32} {i j : Slot}

/-- The standing of an address, as the lookups of the server find it. -/
def registry (s : Server C) : Registry Address ShortSharedKey := fun a =>
  if s.findExistingConnectionIndex a > 0 then
    .member (s.connections (slot (s.findExistingConnectionIndex a))).sharedKey
  else if s.findExistingChallengeIndex a ≥ 0 then
    .asked (s.challenges (slot (s.findExistingChallengeIndex a))).resolved.sharedKey
  else .idle

/-- What a datagram that fits the buffer means for its sender. -/
def heardEvent (s : Server C) (sender : Address) (d : List UInt8) (seed : C.Seed) :
    Event Address ShortSharedKey :=
  match classify s sender d with
  | .ok (some .connectionRequest) =>
    if s.state = .lobby ∧ 5 + C.roundedPublicKeySize ≤ d.length then
      .asks sender (C.sessionKey (keyOf d) (C.privateKey seed))
    else .quiet
  | .ok (some .challengeResponse) =>
    if s.state = .lobby ∧ s.findFreeConnectionIndex ≥ 0 then .confirms sender else .quiet
  | .ok (some .disconnect) => .leaves sender
  | _ => .quiet

/-- What a call means in the registry. -/
def meaning (s : Server C) : ServerAction C → Event Address ShortSharedKey
  | .listen (some (sender, d)) seed _ =>
    if d.length ≤ receiveSize then heardEvent s sender d seed else .quiet
  | _ => .quiet

/-- A request takes the challenge slot from somebody else. -/
def Displaces (s : Server C) : ServerAction C → Prop
  | .listen (some (sender, d)) _ _ => d.length ≤ receiveSize ∧ s.state = .lobby ∧
      classify s sender d = .ok (some .connectionRequest) ∧
      5 + C.roundedPublicKeySize ≤ d.length ∧ s.challenged 1 = true ∧
      (s.challenges 1).clientAddress ≠ sender
  | _ => False

/-- A connected client leaves from another slot than the one that is cleared. -/
def LeavesElsewhere (s : Server C) : ServerAction C → Prop
  | .listen (some (sender, d)) _ _ => Leaves s sender d ∧ s.findExistingConnectionIndex sender ≠ 1
  | _ => False

/-- The call shows none of the slips of the slot operations. -/
structure Orderly (s : Server C) (action : ServerAction C) : Prop where
  single : ¬ Doubles s action
  displaces : ¬ Displaces s action
  leaves : ¬ LeavesElsewhere s action

/-- What the refinement relies on. -/
structure Registered (s : Server C) : Prop where
  tables : Tables s
  single : OneSession s
  key : Keyed s

theorem registry_congr
    (hc : ∀ i, t.connected i = true ∧ (t.connections i).clientAddress = a ↔
      s.connected i = true ∧ (s.connections i).clientAddress = a)
    (hk : ∀ i, s.connected i = true → (s.connections i).clientAddress = a →
      (t.connections i).sharedKey = (s.connections i).sharedKey)
    (hch : ∀ i, t.challenged i = true ∧ (t.challenges i).clientAddress = a ↔
      s.challenged i = true ∧ (s.challenges i).clientAddress = a)
    (hck : ∀ i, s.challenged i = true → (s.challenges i).clientAddress = a →
      (t.challenges i).resolved.sharedKey = (s.challenges i).resolved.sharedKey) :
    registry t a = registry s a := by
  have hidx : t.findExistingConnectionIndex a = s.findExistingConnectionIndex a :=
    FirstIndex.congr fun i => by
      rw [Bool.eq_iff_iff]
      simpa only [Bool.and_eq_true, decide_eq_true_eq] using hc i
  have hcidx : t.findExistingChallengeIndex a = s.findExistingChallengeIndex a :=
    FirstIndex.congr fun i => by
      rw [Bool.eq_iff_iff]
      simpa only [Bool.and_eq_true, decide_eq_true_eq] using hch i
  unfold registry
  rw [hidx, hcidx]
  split
  · rename_i hpos
    obtain ⟨i, hi, -, hci, ha⟩ := connection_found hpos
    rw [hi, slot_val, hk i hci ha]
  split
  · rename_i hpos
    obtain ⟨i, hi, hci, ha⟩ := challenge_found (show ¬ s.findExistingChallengeIndex a < 0 by omega)
    rw [hi, slot_val, hck i hci ha]
  · rfl

theorem registry_member (h : OneSession s) (hi : i ≠ 0) (hc : s.connected i = true)
    (ha : (s.connections i).clientAddress = a) :
    registry s a = .member (s.connections i).sharedKey := by
  have hidx := h.index_pos hi hc ha
  obtain ⟨j, hj, -, hcj, haj⟩ := connection_found hidx
  obtain rfl : j = i := h.connected j i hcj hc (haj.trans ha.symm)
  rw [registry, if_pos hidx, hj, slot_val]

theorem registry_asked (hn : ¬ s.findExistingConnectionIndex a > 0)
    (hc : s.findExistingChallengeIndex a = 1) :
    registry s a = .asked (s.challenges 1).resolved.sharedKey := by
  rw [registry, if_neg hn, if_pos (by omega), hc, slot_one]

theorem registry_idle (hn : ¬ s.findExistingConnectionIndex a > 0)
    (hc : s.findExistingChallengeIndex a < 0) : registry s a = .idle := by
  rw [registry, if_neg hn, if_neg (by omega)]

/-- A change of the state, of the counters or of the time a key is fetched does not show. -/
theorem registry_fetched (hf : Fetched s t) : registry t = registry s := by
  have h := hf.alike
  funext a
  refine registry_congr (fun i => by rw [h.connected, h.connections])
    (fun i _ _ => by rw [h.connections]) (fun i => by rw [h.challenged, h.address]) fun i _ _ => ?_
  by_cases hi : i = 1
  · rw [hi, h.resolved]
  · rw [h.other i hi]

theorem registry_counted (h : Counted s t) : registry t = registry s := by
  funext a
  exact registry_congr (fun i => by rw [h.connected, h.address]) (fun i _ _ => h.sharedKey i)
    (fun i => by rw [h.challenged, h.challenges]) (fun i _ _ => by rw [h.challenges])

theorem apply_eq {r r' : Registry Address ShortSharedKey} {e : Event Address ShortSharedKey}
    (he : e.subject = some a) (ha : r' a = (r a).after e) (hb : ∀ b, b ≠ a → r' b = r b) :
    r' = r.apply e := by
  funext b
  by_cases h : b = a
  · subst h
    rw [Registry.apply_subject he, ha]
  · rw [Registry.apply_other (by rw [he]; simpa using Ne.symm h), hb b h]

section
variable (hR : Registered s)
include hR

/-- A new challenge is a request that is noted, when it displaces none. -/
theorem registry_challenge (key : C.PublicKey) (hn : ¬ s.findExistingConnectionIndex a > 0)
    (hc : s.findExistingChallengeIndex a < 0) (hfree : s.challenged 1 = false) :
    registry (withChallenge s (newChallenge a key seed)) =
      (registry s).apply (.asks a (C.sessionKey key (C.privateKey seed))) := by
  have hT := withChallenge_tables hR.tables (newChallenge a key seed)
  refine apply_eq rfl ?_ fun b hb => ?_
  · have h1 : (withChallenge s (newChallenge a key seed)).findExistingChallengeIndex a = 1 := by
      rcases hT.challenge_cases a with h | h
      · exact h.1
      · exact absurd ⟨withChallenge_challenged_one _ _, by simp [newChallenge]⟩ h.2
    have hn' : ¬ (withChallenge s (newChallenge a key seed)).findExistingConnectionIndex a > 0 := hn
    rw [registry_asked hn' h1, registry_idle hn hc, withChallenge_challenges_one]
    rfl
  · refine registry_congr (fun _ => Iff.rfl) (fun _ _ _ => rfl) (fun i => ?_) fun i hi _ => ?_
    · by_cases hi : i = 1
      · subst hi
        simp [withChallenge, newChallenge, hfree, Ne.symm hb]
      · simp [withChallenge, hi]
    · have hi1 : i ≠ 1 := by
        rintro rfl
        rw [hfree] at hi
        cases hi
      simp [withChallenge, hi1]

/-- Starting a key job again does not show: the key is the one it had. -/
theorem registry_restarted (hf : Fetched s t) (h1 : s.challenged 1 = true) :
    registry (withChallenge s (restarted (t.challenges 1))) = registry s := by
  have hkeys := hf.alike.keys
  funext b
  refine registry_congr (fun _ => Iff.rfl) (fun _ _ _ => rfl) (fun i => ?_) fun i _ _ => ?_
  · by_cases hi : i = 1
    · subst hi
      simp [withChallenge, restarted, h1, hf.alike.address 1]
    · simp [withChallenge, hi]
  · by_cases hi : i = 1
    · subst hi
      rw [withChallenge_challenges_one, hR.key h1, restarted, hkeys.1, hkeys.2.2]
      rfl
    · simp [withChallenge, hi]

/-- An accepted response makes its sender a member, whatever slot it gets. -/
theorem registry_accepted (hn : ¬ s.findExistingConnectionIndex a > 0)
    (hc : s.findExistingChallengeIndex a = 1) (hj : s.findFreeConnectionIndex = j.val)
    (hsingle : OneSession (accepted s j)) :
    registry (accepted s j) = (registry s).apply (.confirms a) := by
  obtain ⟨h1, ha⟩ := hR.tables.challenged_at hc
  have hj0 := hR.tables.free_ne_zero hj
  have hfree : s.connected j = false := by simpa using FirstIndex.passes hj
  refine apply_eq rfl ?_ fun b hb => ?_
  · rw [registry_member hsingle hj0 (by simp [accepted]) (by simpa [accepted] using ha),
      registry_asked hn hc]
    simp [accepted, Phase.after]
  · refine registry_congr (fun i => ?_) (fun i hi _ => ?_) (fun i => ?_) fun i hi hb' => ?_
    · by_cases hij : i = j
      · subst hij
        simp [accepted, hfree, ha, Ne.symm hb]
      · simp [accepted, hij]
    · have hij : i ≠ j := by
        rintro rfl
        rw [hfree] at hi
        cases hi
      simp [accepted, hij]
    · by_cases hi : i = 1
      · subst hi
        simp [accepted, dropChallenge, ha, Ne.symm hb]
      · simp [accepted, dropChallenge, hi]
    · have hi1 : i ≠ 1 := by
        rintro rfl
        exact hb (hb'.symm.trans ha)
      simp [accepted, dropChallenge, hi1]

/-- Whoever leaves from slot 1 has no other entry. -/
theorem registry_dropped (hc : s.findExistingConnectionIndex a = 1) :
    registry (dropConnection s) = (registry s).apply (.leaves a) := by
  have hfound : s.findExistingConnectionIndex a > 0 := by omega
  obtain ⟨i, hi, hi0, hci, ha⟩ := connection_found hfound
  obtain rfl : i = 1 := Fin.ext (by simp only [hc] at hi; simpa using hi.symm)
  have honly (k : Slot) (hk : s.connected k = true) (hka : (s.connections k).clientAddress = a) :
      k = 1 := hR.single.connected k 1 hk hci (hka.trans ha.symm)
  refine apply_eq rfl ?_ fun b hb => ?_
  · have hnone : ¬ (dropConnection s).findExistingConnectionIndex a > 0 := by
      intro hpos
      obtain ⟨k, -, -, hk, hka⟩ := connection_found hpos
      by_cases hk1 : k = 1
      · simp [dropConnection, hk1] at hk
      · simp only [dropConnection, Function.update_of_ne hk1] at hk hka
        exact hk1 (honly k hk hka)
    have hfree : (dropConnection s).findExistingChallengeIndex a < 0 := by
      rcases (dropConnection_tables hR.tables).challenge_cases a with ⟨-, h1, hca⟩ | h
      · exact absurd (ha.trans hca.symm) (hR.single.apart 1 1 (by decide) hci h1)
      · exact h.1
    rw [registry_idle hnone hfree]
    rfl
  · refine registry_congr (fun k => ?_) (fun k hk hkb => ?_) (fun _ => Iff.rfl) fun _ _ _ => rfl
    · by_cases hk1 : k = 1
      · subst hk1
        simp [dropConnection, ha, Ne.symm hb]
      · simp [dropConnection, hk1]
    · have hk1 : k ≠ 1 := by
        rintro rfl
        exact hb (hkb.symm.trans ha)
      simp [dropConnection, hk1]

/-- Whoever only has a challenge and withdraws it has nothing left. -/
theorem registry_withdrawn (hn : ¬ s.findExistingConnectionIndex a > 0)
    (hc : s.findExistingChallengeIndex a = 1) :
    registry (dropChallenge s) = (registry s).apply (.leaves a) := by
  obtain ⟨-, ha⟩ := hR.tables.challenged_at hc
  refine apply_eq rfl ?_ fun b hb => ?_
  · have hfree : (dropChallenge s).findExistingChallengeIndex a < 0 := by
      rcases (dropChallenge_tables hR.tables).challenge_cases a with ⟨-, h1, -⟩ | h
      · simp [dropChallenge] at h1
      · exact h.1
    have hn' : ¬ (dropChallenge s).findExistingConnectionIndex a > 0 := hn
    rw [registry_idle hn' hfree]
    rfl
  · refine registry_congr (fun _ => Iff.rfl) (fun _ _ _ => rfl) (fun k => ?_) fun k hk hkb => ?_
    · by_cases hk1 : k = 1
      · subst hk1
        simp [dropChallenge, ha, Ne.symm hb]
      · simp [dropChallenge, hk1]
    · have hk1 : k ≠ 1 := by
        rintro rfl
        exact hb (hkb.symm.trans ha)
      simp [dropChallenge, hk1]

end

/-- Whoever is in neither table is let through with requests only. -/
theorem challenged_of_classify (hT : Tables s) {type : PacketType}
    (ht : classify s a d = .ok (some type)) (hn : ¬ s.findExistingConnectionIndex a > 0)
    (hne : type ≠ .connectionRequest) : s.findExistingChallengeIndex a = 1 := by
  rcases hT.challenge_cases a with ⟨h, -⟩ | ⟨h, -⟩
  · exact h
  · rw [classify, if_neg hn, if_pos h] at ht
    split at ht
    · split at ht
      · rename_i hreq
        cases ht
        exact absurd hreq hne
      · cases ht
    · cases ht

/-- A call that is none of the changes only fetches a key. -/
theorem Heard.fetched {sent : List Outgoing} (h : Heard s seed (some (a, d)) t sent)
    (hrequest : ¬ (classify s a d = .ok (some .connectionRequest) ∧ s.state = .lobby ∧
      5 + C.roundedPublicKeySize ≤ d.length))
    (hresponse : ¬ (classify s a d = .ok (some .challengeResponse) ∧ s.state = .lobby ∧
      s.findExistingChallengeIndex a = 1 ∧ s.findFreeConnectionIndex ≥ 0))
    (hleave : classify s a d ≠ .ok (some .disconnect)) : Fetched s t := by
  cases h with
  | quiet ht => exact ht
  | challenge hd ht hs hk => exact absurd ⟨ht, hs, hk⟩ hrequest
  | rechallenge hd ht hs hk => exact absurd ⟨ht, hs, hk⟩ hrequest
  | accept hd ht hs hc hj => exact absurd ⟨ht, hs, hc, by omega⟩ hresponse
  | disconnect hd ht => exact absurd ht hleave
  | withdraw hd ht => exact absurd ht hleave

section
variable (hR : Registered s) (hd : d.length ≤ receiveSize)
include hR hd

theorem listen_asks (hgood : Orderly s (.listen (some (a, d)) seed p_size))
    (ht : classify s a d = .ok (some .connectionRequest)) (hs : s.state = .lobby)
    (hk : 5 + C.roundedPublicKeySize ≤ d.length) :
    registry (s.listen (some (a, d)) seed p_size).self =
      (registry s).apply (.asks a (C.sessionKey (keyOf d) (C.privateKey seed))) := by
  have hn : ¬ s.findExistingConnectionIndex a > 0 := by
    intro hpos
    refine hgood.single (.inl ⟨hd, hs, hpos, ?_, hk⟩)
    rw [classify_connected hpos] at ht
    simpa using ht
  rcases hR.tables.challenge_cases a with ⟨hc, h1, -⟩ | ⟨hc, hnot⟩
  · -- the challenge is pending, and stays what it is
    have hkeep : (registry s).apply (.asks a (C.sessionKey (keyOf d) (C.privateKey seed))) =
        registry s := by
      symm
      refine apply_eq rfl ?_ fun _ _ => rfl
      rw [registry_asked hn hc]
      rfl
    have hh := listen_heard hR.tables (some (a, d)) seed p_size
    rw [hkeep]
    generalize (s.listen (some (a, d)) seed p_size).self = t at hh ⊢
    generalize (s.listen (some (a, d)) seed p_size).sent = sent at hh
    cases hh with
    | quiet hf => exact registry_fetched hf
    | challenge _ _ _ _ hlt => omega
    | rechallenge _ _ _ _ _ hf => exact registry_restarted hR hf h1
    | accept _ ht' => rw [ht] at ht'; cases ht'
    | disconnect _ ht' => rw [ht] at ht'; cases ht'
    | withdraw _ ht' => rw [ht] at ht'; cases ht'
  · have hfree : s.challenged 1 = false := by
      by_contra h
      have h1 : s.challenged 1 = true := by simpa using h
      exact hgood.displaces ⟨hd, hs, ht, hk, h1, fun ha => hnot ⟨h1, ha⟩⟩
    rw [listen_challenge hR.tables hd ht hs hk hc]
    exact registry_challenge hR _ hn hc hfree

theorem listen_confirms (hgood : Orderly s (.listen (some (a, d)) seed p_size))
    (ht : classify s a d = .ok (some .challengeResponse)) (hs : s.state = .lobby)
    (hfree : s.findFreeConnectionIndex ≥ 0) :
    registry (s.listen (some (a, d)) seed p_size).self = (registry s).apply (.confirms a) := by
  have hh := listen_heard hR.tables (some (a, d)) seed p_size
  by_cases hpos : s.findExistingConnectionIndex a > 0
  · -- a member has no challenge that it could confirm
    obtain ⟨i, -, hi, hci, ha⟩ := connection_found hpos
    have hc : ¬ s.findExistingChallengeIndex a = 1 := by
      intro hc
      obtain ⟨h1, hca⟩ := hR.tables.challenged_at hc
      exact hR.single.apart i 1 hi hci h1 (ha.trans hca.symm)
    rw [registry_fetched (hh.fetched (by rw [ht]; simp) (fun h => hc h.2.2.1) (by rw [ht]; simp))]
    refine apply_eq rfl ?_ fun _ _ => rfl
    rw [registry_member hR.single hi hci ha]
    rfl
  · have hc := challenged_of_classify hR.tables ht hpos (by simp)
    obtain ⟨j, hj, -⟩ := free_slot hfree
    have hsingle := hh.one_session hR.tables hR.single hgood.single
    rw [listen_accept hR.tables hd ht hs hc hj] at hsingle ⊢
    exact registry_accepted hR hpos hc hj hsingle

theorem listen_leaves (hgood : Orderly s (.listen (some (a, d)) seed p_size))
    (ht : classify s a d = .ok (some .disconnect)) :
    registry (s.listen (some (a, d)) seed p_size).self = (registry s).apply (.leaves a) := by
  by_cases hpos : s.findExistingConnectionIndex a > 0
  · have h1 : s.findExistingConnectionIndex a = 1 := by
      by_contra h
      exact hgood.leaves ⟨leaves_of_classify hd hpos ht, h⟩
    rw [listen_disconnect hd ht hpos]
    exact registry_dropped hR h1
  · have hc := challenged_of_classify hR.tables ht hpos (by simp)
    rw [listen_withdraw hR.tables hd ht hpos hc]
    exact registry_withdrawn hR hpos hc

/-- One datagram does in the registry what it means. -/
theorem listen_registry (hgood : Orderly s (.listen (some (a, d)) seed p_size)) :
    registry (s.listen (some (a, d)) seed p_size).self =
      (registry s).apply (heardEvent s a d seed) := by
  have hh := listen_heard hR.tables (some (a, d)) seed p_size
  unfold heardEvent
  split
  · rename_i ht
    split
    · rename_i h
      exact listen_asks hR hd hgood ht h.1 h.2
    · rename_i h
      exact registry_fetched (hh.fetched (fun h' => h h'.2) (by rw [ht]; simp) (by rw [ht]; simp))
  · rename_i ht
    split
    · rename_i h
      exact listen_confirms hR hd hgood ht h.1 h.2
    · rename_i h
      exact registry_fetched (hh.fetched (by rw [ht]; simp) (fun h' => h ⟨h'.2.1, h'.2.2.2⟩)
        (by rw [ht]; simp))
  · rename_i ht
    exact listen_leaves hR hd hgood ht
  · rename_i h1 h2 h3
    exact registry_fetched (hh.fetched (fun h => h1 h.1) (fun h => h2 h.1) h3)

end

theorem Registered.create (C : Crypto) : Registered (Server.create C) where
  tables := .create C
  single := .create C
  key := .create C

theorem step_registered {action : ServerAction C} (hR : Registered s) (hgood : Orderly s action)
    (hs : s.step action = some t) : Registered t :=
  ⟨step_tables hR.tables hs, (step_one_session hR.tables hR.single hs).mpr hgood.single,
    step_keyed hR.tables hR.key hs⟩

/-- One call does in the registry what it means. -/
theorem step_registry {action : ServerAction C} (hR : Registered s) (hgood : Orderly s action)
    (hs : s.step action = some t) : registry t = (registry s).apply (meaning s action) := by
  cases action with
  | listen arrival seed p_size =>
    obtain rfl := Outcome.next_some hs
    rcases receive_cases arrival with hr | ⟨a, d, rfl, hd⟩
    · have hf : Fetched s (s.listen arrival seed p_size).self := by
        rw [listen_failed hr]
        exact hR.tables.fetched_prepared {}
      rw [registry_fetched hf]
      cases arrival with
      | none => rfl
      | some p => rw [meaning, if_neg (Nat.not_le_of_lt (hr p.1 p.2 rfl))]; rfl
    · rw [meaning, if_pos hd]
      exact listen_registry hR hd hgood
  | propagateGameData data =>
    obtain rfl := Outcome.next_some hs
    exact registry_counted (propagateSlots_counted data _ s)
  | switchToLobby => cases hs; rfl
  | switchToGame => cases hs; rfl

theorem registry_create (C : Crypto) : registry (Server.create C) = Registry.empty := by
  funext a
  refine registry_idle ?_ ?_
  · intro hpos
    obtain ⟨i, -, hi, hc, -⟩ := connection_found hpos
    simp [Server.create, hi] at hc
  · rcases (Tables.create C).challenge_cases a with ⟨-, h1, -⟩ | h
    · simp [Server.create] at h1
    · exact h.1

/-- Where none of its calls shows a slip, the server is a registry: its tables say of every
address what the events so far make of it, and each address owes its standing to its own
datagrams only. -/
theorem server_refines_registry {actions : List (ServerAction C)}
    (hgood : Runs.Guarded Server.step Orderly (Server.create C) actions)
    (hrun : Runs.run Server.step (Server.create C) actions = some s) :
    registry s = (Runs.trace Server.step meaning (Server.create C) actions).foldl
        Registry.apply Registry.empty ∧
      ∀ a, registry s a = ((Runs.trace Server.step meaning (Server.create C) actions).filter
        fun e => e.subject = some a).foldl Phase.after .idle := by
  have hinv (s : Server C) (action : ServerAction C) (t : Server C) (hR : Registered s)
      (hg : Orderly s action) (hs : s.step action = some t) : Registered t :=
    step_registered hR hg hs
  have hstep (s : Server C) (action : ServerAction C) (t : Server C) (hR : Registered s)
      (hg : Orderly s action) (hs : s.step action = some t) :
      registry t = (registry s).apply (meaning s action) := step_registry hR hg hs
  have h := hgood.refines hinv hstep (Registered.create C) hrun
  rw [registry_create] at h
  refine ⟨h, fun a => ?_⟩
  rw [h, Registry.foldl_apply]
  rfl

instance (s : Server C) : (action : ServerAction C) → Decidable (Displaces s action)
  | .listen (some (_, _)) _ _ => inferInstanceAs (Decidable (_ ∧ _))
  | .listen none _ _ | .propagateGameData _ | .switchToLobby | .switchToGame => .isFalse id

instance (s : Server C) (sender : Address) (d : List UInt8) : Decidable (Leaves s sender d) :=
  inferInstanceAs (Decidable (_ ∧ _))

instance (s : Server C) : (action : ServerAction C) → Decidable (LeavesElsewhere s action)
  | .listen (some (_, _)) _ _ => inferInstanceAs (Decidable (_ ∧ _))
  | .listen none _ _ | .propagateGameData _ | .switchToLobby | .switchToGame => .isFalse id

instance (s : Server C) (action : ServerAction C) : Decidable (Orderly s action) :=
  decidable_of_iff (¬ Doubles s action ∧ ¬ Displaces s action ∧ ¬ LeavesElsewhere s action)
    ⟨fun h => ⟨h.1, h.2.1, h.2.2⟩, fun h => ⟨h.single, h.displaces, h.leaves⟩⟩

/-- Two clients join and the first leaves. -/
def sampleVisit (x y x' y' : Fin 8) : List (ServerAction sample) :=
  sampleJoin (sampleAddress 1) x y ++ sampleJoin (sampleAddress 2) x' y' ++
    [sampleLeave (sampleAddress 1) x y]

theorem visit_refines :
    let actions := sampleVisit 0 1 2 3
    let events := Runs.trace Server.step meaning (Server.create sample) actions
    ∃ s, Runs.run Server.step (Server.create sample) actions = some s ∧
      events = [.asks (sampleAddress 1) (sampleSession 0 1), .confirms (sampleAddress 1),
        .asks (sampleAddress 2) (sampleSession 2 3), .confirms (sampleAddress 2),
        .leaves (sampleAddress 1)] ∧
      registry s = events.foldl Registry.apply Registry.empty ∧
      ∀ a, registry s a =
        (events.filter fun e => e.subject = some a).foldl Phase.after .idle := by
  have hrun :
      (Runs.run Server.step (Server.create sample) (sampleVisit 0 1 2 3)).isSome = true := by
    decide +kernel
  obtain ⟨s, hs⟩ := Option.isSome_iff_exists.mp hrun
  exact ⟨s, hs, by decide +kernel, server_refines_registry (by decide +kernel) hs⟩

end GameNetwork.Proofs
