import GameNetwork.Proofs.Handshake
import Mathlib.Data.Finset.Card
import Mathlib.Data.Fintype.Card

namespace GameNetwork.Proofs

variable {C : Crypto} {s s' t : Server C} {c c' : Client C} {a b serverAddress : Address}
  {x y z : C.Seed} {calls : HandshakeCalls} {i j : Slot}

/-- A client that is to join, and the seeds and calls of its handshake. -/
structure Join (C : Crypto) where
  client : Client C
  address : Address
  x : C.Seed
  y : C.Seed
  z : C.Seed
  calls : HandshakeCalls

/-- Clients join one after the other, each with a handshake that is not disturbed. -/
def fill (serverAddress : Address) : Server C → List (Join C) → Option (Server C × List (Client C))
  | s, [] => some (s, [])
  | s, join :: joins => do
    let (s, c) ← handshake s join.client serverAddress join.address join.x join.y join.z join.calls
    let (s, cs) ← fill serverAddress s joins
    return (s, c :: cs)

/-- The connection slots that are free. -/
def freeSlots (s : Server C) : Nat := (Finset.univ.filter fun i => s.connected i = false).card

/-- A client that may join: the server does not know its address, and no handshake is cut off by
the client's own timeout. -/
structure Ready (s : Server C) (join : Join C) : Prop where
  disconnected : join.client.state = .disconnected
  unknown : s.findExistingConnectionIndex join.address < 0
  unchallenged : s.findExistingChallengeIndex join.address < 0
  clock : join.client.activeTimeout = true →
    join.calls.acceptedNow - join.calls.acceptedReceived ≤ timeoutTime

/-- A client that joined has a slot that was free before, under the key both sides hold. -/
structure Seated (s s' : Server C) (c' : Client C) (a : Address) (i : Slot) : Prop where
  state : c'.state = .connected
  index : c'.index = i.val
  was_free : s.connected i = false
  connected : s'.connected i = true
  address : (s'.connections i).clientAddress = a
  sharedKey : (s'.connections i).sharedKey = c'.sharedKey
  sequence : (s'.connections i).sequence = 0

/-- The server with a client in a slot that was free. -/
def admitted (s : Server C) (join : Join C) (i : Slot) : Server C :=
  accepted (withChallenge s (newChallenge join.address (C.publicKey join.x) join.y)) i

/-- The slots in use are used as before. -/
def KeepsSlots (s s' : Server C) : Prop :=
  ∀ i, s.connected i = true → s'.connected i = true ∧ s'.connections i = s.connections i

theorem freeSlots_accepted (h : s.connected i = false) :
    freeSlots (accepted s i) + 1 = freeSlots s := by
  have herase : (Finset.univ.filter fun k => (accepted s i).connected k = false) =
      (Finset.univ.filter fun k => s.connected k = false).erase i := by
    ext k
    rw [Finset.mem_erase, Finset.mem_filter, Finset.mem_filter]
    by_cases hk : k = i
    · simp [accepted, hk]
    · simp [accepted, hk]
  rw [freeSlots, herase]
  exact Finset.card_erase_add_one (Finset.mem_filter.mpr ⟨Finset.mem_univ i, h⟩)

theorem freeSlots_pos_iff : 0 < freeSlots s ↔ ∃ i, s.connected i = false := by
  rw [freeSlots, Finset.card_pos]
  constructor
  · rintro ⟨i, hi⟩
    exact ⟨i, (Finset.mem_filter.mp hi).2⟩
  · rintro ⟨i, hi⟩
    exact ⟨i, Finset.mem_filter.mpr ⟨Finset.mem_univ i, hi⟩⟩

theorem freeSlots_admitted {join : Join C} (h : s.connected i = false) :
    freeSlots (admitted s join i) + 1 = freeSlots s :=
  freeSlots_accepted (s := withChallenge s _) h

/-- With a slot free the client gets it. -/
theorem handshake_admits (hT : Tables s) (hl : s.state = .lobby) (hcomm : C.Commutes)
    (hfit : 5 + C.roundedPublicKeySize ≤ receiveSize) {join : Join C} (hr : Ready s join)
    (hi : s.findFreeConnectionIndex = i.val) :
    ∃ c', handshake s join.client serverAddress join.address join.x join.y join.z join.calls =
        some (admitted s join i, c') ∧
      Established s (admitted s join i) c' join.address i :=
  handshake_accepts hT hl hcomm hfit hr.disconnected hr.unknown hr.unchallenged hr.clock hi

/-- A server without a free slot leaves a response unanswered. -/
theorem Heard.full {sender : Address} {d : List UInt8} {seed : C.Seed} {sent : List Outgoing}
    (h : Heard s seed (some (sender, d)) t sent)
    (ht : classify s sender d = .ok (some .challengeResponse))
    (hfull : ∀ i, s.connected i = true) : sent = [] := by
  cases h with
  | quiet | disconnect | withdraw => rfl
  | challenge _ ht' | rechallenge _ ht' =>
    rw [ht] at ht'
    cases ht'
  | accept _ _ _ _ hj =>
    have hfree := FirstIndex.passes hj
    rw [hfull] at hfree
    cases hfree

/-- With no slot free the client is turned away. -/
theorem handshake_full (hT : Tables s) (hl : s.state = .lobby) (hcomm : C.Commutes)
    (hfit : 5 + C.roundedPublicKeySize ≤ receiveSize) {join : Join C} (hr : Ready s join)
    (hfull : ∀ i, s.connected i = true) :
    handshake s join.client serverAddress join.address join.x join.y join.z join.calls = none := by
  have hunknown := hr.unknown
  have hclassified := response_classified hT
    (newChallenge join.address (C.publicKey join.x) join.y)
    (show ¬ s.findExistingConnectionIndex join.address > 0 by omega) rfl
  have hkey := challenge_key hcomm join.address join.x join.y
  rw [hkey] at hclassified
  have hsent := (listen_heard
    (withChallenge_tables hT (newChallenge join.address (C.publicKey join.x) join.y)) _ join.z
    join.calls.responseSize).full hclassified hfull
  rw [handshake_eq hT hl hfit hr.disconnected hr.unknown hr.unchallenged]
  dsimp only [answered]
  rw [delivered, hsent]
  rfl

theorem admitted_tables (hT : Tables s) {join : Join C} (hi : s.findFreeConnectionIndex = i.val) :
    Tables (admitted s join i) :=
  accepted_tables (withChallenge_tables hT _) hi

/-- A client that joined leaves the others as ready as they were. -/
theorem Ready.later {join later : Join C} (h : Ready s later)
    (hne : join.address ≠ later.address) (hT : Tables (admitted s join i)) :
    Ready (admitted s join i) later where
  disconnected := h.disconnected
  unknown := by
    by_contra hfound
    obtain ⟨k, hk⟩ := FirstIndex.nonneg_iff.mp (Int.not_lt.mp hfound)
    have hs := h.unknown
    refine absurd (FirstIndex.nonneg_iff.mpr ⟨k, ?_⟩) (Int.not_le.mpr hs)
    by_cases hki : k = i
    · simp [admitted, accepted, hki, newChallenge, hne] at hk
    · simpa [admitted, accepted, hki] using hk
  unchallenged := by
    rcases hT.challenge_cases later.address with ⟨-, hc, -⟩ | ⟨hc, -⟩
    · simp [admitted, accepted, dropChallenge] at hc
    · exact hc
  clock := h.clock

theorem Established.seated (h : Established s t c' a i) (hk : KeepsSlots t s') :
    Seated s s' c' a i where
  state := h.state
  index := h.index
  was_free := h.was_free
  connected := (hk i h.connected).1
  address := by rw [(hk i h.connected).2, h.address]
  sharedKey := by rw [(hk i h.connected).2, h.sharedKey]
  sequence := by rw [(hk i h.connected).2, h.sequence]

theorem Established.keeps (h : Established s t c' a i) : KeepsSlots s t := by
  intro j hj
  have hne : j ≠ i := by
    rintro rfl
    rw [h.was_free] at hj
    cases hj
  obtain ⟨hconnected, hconnection⟩ := h.others j hne
  exact ⟨by rw [hconnected, hj], hconnection⟩

theorem KeepsSlots.trans (h : KeepsSlots s t) (h' : KeepsSlots t s') : KeepsSlots s s' := by
  intro i hi
  obtain ⟨hconnected, hconnection⟩ := h i hi
  obtain ⟨hconnected', hconnection'⟩ := h' i hconnected
  exact ⟨hconnected', hconnection'.trans hconnection⟩

/-- What was free in between was free before. -/
theorem Seated.earlier (h : Seated t s' c' a i) (hk : KeepsSlots s t) : Seated s s' c' a i where
  state := h.state
  index := h.index
  was_free := by
    cases hc : s.connected i with
    | false => rfl
    | true =>
      have hconnected := (hk i hc).1
      rw [h.was_free] at hconnected
      cases hconnected
  connected := h.connected
  address := h.address
  sharedKey := h.sharedKey
  sequence := h.sequence

/-- What clients that joined one after the other leave of the server. -/
structure Filled (s s' : Server C) (joins : List (Join C)) (cs : List (Client C)) : Prop where
  seated : List.Forall₂ (fun join c' => ∃ i, Seated s s' c' join.address i) joins cs
  count : s'.getConnectedClientCount = s.getConnectedClientCount + joins.length
  keeps : KeepsSlots s s'

theorem Filled.nil (s : Server C) : Filled s s [] [] where
  seated := .nil
  count := by simp
  keeps _ hi := ⟨hi, rfl⟩

theorem Filled.cons {join : Join C} {joins : List (Join C)} {cs : List (Client C)}
    (he : Established s t c' join.address i) (h : Filled t s' joins cs) :
    Filled s s' (join :: joins) (c' :: cs) where
  seated := .cons ⟨i, he.seated h.keeps⟩
    (h.seated.imp fun _ _ ⟨j, hj⟩ => ⟨j, hj.earlier he.keeps⟩)
  count := by
    rw [h.count, he.count, List.length_cons]
    omega
  keeps := he.keeps.trans h.keeps

theorem fill_cons {join : Join C} (joins : List (Join C))
    (h : handshake s join.client serverAddress join.address join.x join.y join.z join.calls =
      some (t, c')) :
    fill serverAddress s (join :: joins) =
      (fill serverAddress t joins).map fun filled => (filled.1, c' :: filled.2) := by
  rw [fill, h]
  exact Option.map_eq_bind.symm

theorem fill_refused {join : Join C} (joins : List (Join C))
    (h : handshake s join.client serverAddress join.address join.x join.y join.z join.calls =
      none) : fill serverAddress s (join :: joins) = none := by
  rw [fill, h]
  rfl

/-- A lobby server has room for exactly as many clients as it has free slots: clients it does not
know, joining one after the other, all get in if and only if they are no more than these. Then
each holds a slot of its own, under the key it shares with the server, until the last is in. -/
theorem lobby_fills_iff (hcomm : C.Commutes) (hfit : 5 + C.roundedPublicKeySize ≤ receiveSize)
    (hs : Reachable s) (hl : s.state = .lobby) (serverAddress : Address) {joins : List (Join C)}
    (hready : ∀ join ∈ joins, Ready s join) (hdistinct : (joins.map Join.address).Nodup) :
    ((∃ s' cs, fill serverAddress s joins = some (s', cs)) ↔ joins.length ≤ freeSlots s) ∧
    ∀ s' cs, fill serverAddress s joins = some (s', cs) → Filled s s' joins cs := by
  have hT := hs.tables
  clear hs
  induction joins generalizing s with
  | nil =>
    refine ⟨⟨fun _ => Nat.zero_le _, fun _ => ⟨s, [], rfl⟩⟩, fun s' cs h => ?_⟩
    cases h
    exact .nil s
  | cons join joins ih =>
    have hfirst : Ready s join := hready join (by simp)
    obtain ⟨hnotin, hrest⟩ := List.nodup_cons.mp hdistinct
    by_cases hfree : ∃ i, s.connected i = false
    · -- the first gets in, and the others find one free slot less
      obtain ⟨i, hi, hfreeAt⟩ := free_slot (s := s) (by
        obtain ⟨j, hj⟩ := hfree
        exact FirstIndex.nonneg_iff.mpr ⟨j, by simp [hj]⟩)
      obtain ⟨c', hh, he⟩ := handshake_admits hT hl hcomm hfit hfirst hi
      have hT' : Tables (admitted s join i) := admitted_tables hT hi
      have hlater : ∀ later ∈ joins, Ready (admitted s join i) later := fun later hmem =>
        (hready later (by simp [hmem])).later
          (fun heq => hnotin (heq ▸ List.mem_map_of_mem hmem)) hT'
      have hslots : freeSlots (admitted s join i) + 1 = freeSlots s := freeSlots_admitted hfreeAt
      obtain ⟨hiff, hfilled⟩ := ih (s := admitted s join i) hl hlater hrest hT'
      rw [fill_cons joins hh, List.length_cons, ← hslots, Nat.add_le_add_iff_right, ← hiff]
      constructor
      · constructor
        · rintro ⟨s', cs, h⟩
          obtain ⟨filled, hfill, -⟩ := Option.map_eq_some_iff.mp h
          exact ⟨filled.1, filled.2, hfill⟩
        · rintro ⟨s', cs, h⟩
          exact ⟨s', c' :: cs, by rw [h]; rfl⟩
      · intro s' cs h
        obtain ⟨filled, hfill, heq⟩ := Option.map_eq_some_iff.mp h
        cases heq
        exact .cons he (hfilled _ _ hfill)
    · -- the first is turned away, and nobody is let in after it
      have hfull : ∀ i, s.connected i = true := fun i =>
        Bool.not_eq_false _ ▸ fun h => hfree ⟨i, h⟩
      have hslots : freeSlots s = 0 := Nat.eq_zero_of_not_pos (mt freeSlots_pos_iff.mp hfree)
      rw [fill_refused joins (handshake_full hT hl hcomm hfit hfirst hfull), hslots]
      simp

def sampleJoining (k : UInt8) (x y z : Fin 8) : Join sample where
  client := {}
  address := sampleAddress k
  x := x
  y := y
  z := z
  calls := ⟨0, 0, 0, 0, 0, 0, 0, 0⟩

theorem sample_ready (k : UInt8) (x y z : Fin 8) (h : sampleAddress k ≠ ownAddress) :
    Ready (Server.create sample) (sampleJoining k x y z) where
  disconnected := rfl
  unknown := by
    by_contra hfound
    obtain ⟨i, hi⟩ := FirstIndex.nonneg_iff.mp (Int.not_lt.mp hfound)
    by_cases hz : i = 0
    · simp [Server.create, hz, sampleJoining, h.symm] at hi
    · simp [Server.create, hz] at hi
  unchallenged := by
    rcases (Tables.create sample).challenge_cases (sampleAddress k) with ⟨-, hc, -⟩ | ⟨hc, -⟩
    · cases hc
    · exact hc
  clock ht := by cases ht

/-- A new server takes three clients, and turns the fourth away. -/
theorem three_fill :
    let joins := [sampleJoining 1 0 1 2, sampleJoining 2 2 3 4, sampleJoining 3 4 5 6]
    (∃ s' cs, fill (sampleAddress 9) (Server.create sample) joins = some (s', cs) ∧
      Filled (Server.create sample) s' joins cs) ∧
    ¬ ∃ s' cs, fill (sampleAddress 9) (Server.create sample)
      (joins ++ [sampleJoining 4 6 7 0]) = some (s', cs) := by
  intro joins
  have hready : ∀ join ∈ joins ++ [sampleJoining 4 6 7 0], Ready (Server.create sample) join := by
    intro join hj
    simp only [joins, List.mem_append, List.mem_cons, List.not_mem_nil, or_false] at hj
    rcases hj with (rfl | rfl | rfl) | rfl
    all_goals exact sample_ready _ _ _ _ (by decide)
  have hfirst : ∀ join ∈ joins, Ready (Server.create sample) join := fun join hj =>
    hready join (List.mem_append_left _ hj)
  have hthree := lobby_fills_iff sample_ideal.commutes (by decide) ⟨[], rfl⟩ rfl (sampleAddress 9)
    hfirst (by decide)
  have hfour := lobby_fills_iff sample_ideal.commutes (by decide) ⟨[], rfl⟩ rfl (sampleAddress 9)
    hready (by decide)
  constructor
  · obtain ⟨s', cs, h⟩ := hthree.1.mpr (by decide)
    exact ⟨s', cs, h, hthree.2 s' cs h⟩
  · exact fun h => absurd (hfour.1.mp h) (by decide)

end GameNetwork.Proofs
