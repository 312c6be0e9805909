import GameNetwork.Lib.Serial
import GameNetwork.Proofs.Reacts
import GameNetwork.Proofs.Room

namespace GameNetwork.Proofs

variable {C : Crypto} {c : Client C} {source : Address}

/-- `SequenceGreaterThan` is the order of serial numbers with half a range of 32768. -/
theorem sequenceGreaterThan_iff (p_sequence1 p_sequence2 : UInt16) :
    sequenceGreaterThan p_sequence1 p_sequence2 = true ↔
      Serial.Ahead 32768 p_sequence1.toNat p_sequence2.toNat := by
  simp only [sequenceGreaterThan, Serial.Ahead, decide_eq_true_eq, gt_iff_lt,
    UInt16.lt_iff_toNat_lt]
  omega

/-- What a connected client returns for game data: the data if its number is ahead of the
last one accepted, nothing otherwise. -/
theorem listen_data (hs : c.state = .connected) (source : Address) (sequence : UInt16)
    {data : List UInt8} (hfit : 43 + data.length ≤ receiveSize) {p_size : UInt32}
    (hp : data.length ≤ p_size.toNat) (received now : Int) :
    c.listen (some (source, sealed C c.sharedKey (dataMessage sequence data))) p_size received now =
      if sequenceGreaterThan sequence c.ack then
        { self := { touched c source received with ack := sequence }
          result := .ok { ret := data.length, gameData := some data } }
      else { self := touched c source received, result := .ok { ret := 0 } } := by
  have hd : (sealed C c.sharedKey (dataMessage sequence data)).length ≤ receiveSize := by
    rw [length_sealed, length_dataMessage]
    omega
  have ht : clientType c (sealed C c.sharedKey (dataMessage sequence data)) =
      .ok .connectionData := by
    rw [clientType, if_neg (by simp [hs]), dataMessage, hmacType_sealed]
    rfl
  obtain ⟨b, hl, hb⟩ := client_listen_received c source p_size received now hd
  obtain ⟨b', hr⟩ := data_read hfit (hb _ ht (by simp))
  have hst : (touched c source received).state = .connected := hs
  have hack : (touched c source received).ack = c.ack := rfl
  have hu := p_size.toNat_lt
  rw [receiveSize] at hfit
  have hsize : (UInt32.ofNat data.length).toNat = data.length := by
    rw [UInt32.toNat_ofNat']
    omega
  have hint : int32 ((data.length : Nat) : Int) = data.length := int32_eq (by omega) (by omega)
  have hroom : uint32 (int32 (p_size.toNat : Int)) = p_size.toNat := by
    rw [uint32_int32, uint32_eq] <;> omega
  rw [hl, ht]
  simp only [ne_eq, reduceCtorEq, not_false_eq_true, if_true, Client.dispatch, hst, hr, hack,
    hsize, hroom, ge_iff_le, hp, hint]
  split <;> rfl

/-- What `SendGameData` sends is the payload under the key of the session. -/
theorem sendGameData_sends {data : GameData} {reported : Bool} {out : Outgoing}
    (h : out ∈ (c.sendGameData data reported).sent) :
    c.state = .connected ∧ out = ⟨c.serverAddress,
      sealed C c.sharedKey (dataMessage (c.sequence + 1) data.bytes)⟩ := by
  unfold Client.sendGameData at h
  split at h
  · rename_i hs
    dsimp only at h
    split at h
    · rename_i bytes hw
      obtain rfl := List.mem_singleton.mp h
      exact ⟨hs, by rw [written_data C hw]⟩
    · cases h
  · cases h

end GameNetwork.Proofs
