import GameNetwork.Proofs.Delivery
import GameNetwork.Proofs.Reported

namespace GameNetwork.Proofs

variable {C : Crypto} {s : Server C} {sender : Address} {d data : List UInt8} {arrival : Arrival}
  {p_size : UInt32} {l : Listened} {g : List UInt8}

/-- What a server stores for its caller comes from the owner of the slot it names: the sender
has the slot's address, the datagram ends in the HMAC under the slot's key, and the stored bytes
are the slot and the payload of the claimed size, which lies inside the datagram. -/
structure FromOwner (s : Server C) (arrival : Arrival) (p_size : UInt32) (l : Listened)
    (g : List UInt8) (i : Slot) (d m : List UInt8) : Prop where
  state : s.state = .game
  slot : i ≠ 0
  connected : s.connected i = true
  sender : arrival = some ((s.connections i).clientAddress, d)
  authentic : d = m ++ (C.hmacSha256 (s.connections i).sharedKey m).bytes
  inside : connectionDataPacketSize + (gameDataSizeOf d).toNat ≤ d.length
  stored : g = nativeInt i.val ++ (d.drop connectionDataPacketSize).take (gameDataSizeOf d).toNat
  fits : g.length ≤ p_size.toNat
  ret : l.ret = (gameDataSizeOf d).toNat

theorem Holding.inside (h : Holding d data) : 11 + (gameDataSizeOf d).toNat ≤ d.length := by
  obtain ⟨b, b', packet, hb, hr, -⟩ := h
  by_contra hout
  obtain ⟨e, b'', he⟩ := data_read_past hb (by omega)
  rw [he] at hr
  cases hr

/-- Whatever `Server::Listen` stores at `o_gameData` is from the owner of a slot past 0. -/
theorem game_data_from_owner (s : Server C) (arrival : Arrival) (seed : C.Seed) (p_size : UInt32)
    (h : (s.listen arrival seed p_size).result = .ok l) (hg : l.gameData = some g) :
    ∃ i d m, FromOwner s arrival p_size l g i d m := by
  obtain ⟨sender, d, data, rfl, htakes, hh, -⟩ := server_listen_reports h hg
  obtain ⟨i, hi, hne, hc, ha⟩ := connection_found htakes.index
  have hd := htakes.size
  have htype := htakes.type
  rw [hi, slot_val] at htype
  obtain ⟨hlen, hsealed, -⟩ := hmacType_ne_invalid (by rw [htype]; simp)
  have hin := hh.inside
  -- the lookup that names the slot is the one whose key was verified
  have hr := takes_inside htakes hin seed
  rw [hi] at hr
  obtain rfl := Except.ok.inj (h.symm.trans hr)
  obtain rfl := Option.some.inj hg
  have hroom := (room_iff p_size hd).mp htakes.room
  refine ⟨i, d, d.take (d.length - 32), ?_⟩
  constructor
  · exact htakes.state
  · exact hne
  · exact hc
  · rw [ha]
  · exact hsealed
  · exact hin
  · rfl
  · rw [List.length_append, length_nativeInt, gameDataOf, List.length_take, List.length_drop]
    omega
  · rfl

/-- A payload of the client in slot 1. -/
theorem game_data_from_owner_sample : ∃ i d m,
    FromOwner sampleServer.switchToGame (some (sampleAddress 1, sealed sample sampleShared
      (dataMessage 1 [7]))) 64 { ret := 1, gameData := some [1, 0, 0, 0, 7] } [1, 0, 0, 0, 7]
      i d m :=
  game_data_from_owner sampleServer.switchToGame _ (0 : Fin 8) 64 (by decide +kernel) rfl

end GameNetwork.Proofs
