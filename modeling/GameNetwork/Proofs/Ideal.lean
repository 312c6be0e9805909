import GameNetwork.Client
import GameNetwork.Server
import GameNetwork.Proofs.Written

namespace GameNetwork.Proofs

/-- What the protocol takes the cryptography to give: both ends of a key exchange reach the
same session key, other exchanges reach others, and a MAC verifies under its own key only. -/
structure Ideal (C : Crypto) : Prop where
  commutes : C.Commutes
  session_key_inj : ∀ x y x' y', C.sessionKey (C.publicKey x) (C.privateKey y) =
    C.sessionKey (C.publicKey x') (C.privateKey y') → x = x' ∧ y = y' ∨ x = y' ∧ y = x'
  session_key_ne_zero : ∀ x y, C.sessionKey (C.publicKey x) (C.privateKey y) ≠ 0
  hmac_key_inj : ∀ k k' m, C.hmacSha256 k m = C.hmacSha256 k' m → k = k'

def sampleBit (x : Fin 8) : UInt8 := UInt8.ofNat (2 ^ x.val)

/-- One bit of a byte, as private and as public key. -/
def sampleKey (x : Fin 8) : NGMP 8 := ⟨[sampleBit x], rfl⟩

/-- A small instance: the shared secret is the union of two bits, its hash pads it, and a MAC
adds the bytes of the message to those of the key. -/
def sample : Crypto where
  publicKeySize := 8
  privateKeySize := 8
  Seed := Fin 8
  generateKeyPair x := (sampleKey x, sampleKey x)
  generateSharedKey a b := ⟨List.zipWith (· ||| ·) a.bytes b.bytes, by
    rw [List.length_zipWith, a.length_eq, b.length_eq]; rfl⟩
  sha256 bs := ⟨(bs ++ List.replicate 32 0).take 32, by simp⟩
  hmacSha256 k m := ⟨k.bytes.map (· + m.foldl (· + ·) 0), by rw [List.length_map, k.length_eq]⟩

theorem sampleBit_ne_zero : ∀ x : Fin 8, sampleBit x ≠ 0 := by decide +kernel

/-- Two unions of two bits are the same byte only for the same two bits. -/
theorem sampleBit_or_inj : ∀ x y x' y' : Fin 8,
    sampleBit x ||| sampleBit y = sampleBit x' ||| sampleBit y' →
      x = x' ∧ y = y' ∨ x = y' ∧ y = x' := by decide +kernel

theorem sample_sessionKey_bytes (x y : sample.Seed) :
    (sample.sessionKey (sample.publicKey x) (sample.privateKey y)).bytes =
      (sampleBit x ||| sampleBit y) :: List.replicate 31 0 := rfl

/-- The assumptions hold together. -/
theorem sample_ideal : Ideal sample where
  commutes x y := by
    simp [sample, Crypto.publicKey, Crypto.privateKey, sampleKey, UInt8.or_comm]
  session_key_inj x y x' y' h := by
    have hb := congrArg Digest.bytes h
    rw [sample_sessionKey_bytes, sample_sessionKey_bytes] at hb
    exact sampleBit_or_inj x y x' y' (List.cons.inj hb).1
  session_key_ne_zero x y h := by
    have hb := congrArg Digest.bytes h
    rw [sample_sessionKey_bytes] at hb
    have hz : sampleBit x ||| sampleBit y = 0 := (List.cons.inj hb).1
    exact sampleBit_ne_zero x (UInt8.or_eq_zero_iff.mp hz).1
  hmac_key_inj k k' m h := by
    have hb : k.bytes.map (· + m.foldl (· + ·) 0) = k'.bytes.map (· + m.foldl (· + ·) 0) :=
      congrArg Digest.bytes h
    exact Digest.ext ((List.map_inj_right fun a b hab => (UInt8.add_left_inj _).mp hab).mp hb)

def sampleAddress (n : UInt8) : Address := Address.ofParts 10 0 0 n 5000

def samplePayload (byte : UInt8) : GameData := ⟨[byte], by simp⟩

/-- The key of a session between a client's seed and a server's. -/
def sampleSession (x y : Fin 8) : ShortSharedKey :=
  sample.sessionKey (sample.publicKey x) (sample.privateKey y)

def sampleShared : ShortSharedKey := sampleSession 0 1

/-- The server listens to a datagram, drawing from the seed `y` if it makes a key pair. -/
def sampleHears (a : Address) (d : List UInt8) (y : Fin 8) : ServerAction sample :=
  .listen (some (a, d)) y 0

def sampleRequest (a : Address) (x y : Fin 8) : ServerAction sample :=
  sampleHears a (checked .connectionRequest (sample.publicKey x).bytes) y

/-- A request and the response to its challenge. -/
def sampleJoin (a : Address) (x y : Fin 8) : List (ServerAction sample) :=
  [sampleRequest a x y, sampleHears a (sealed sample (sampleSession x y) (header .challengeResponse)) y]

def sampleLeave (a : Address) (x y : Fin 8) : ServerAction sample :=
  sampleHears a (sealed sample (sampleSession x y) (header .disconnect)) y

/-- The calls of a client up to its response, in a session with a server at an address. -/
def sampleAnswer (server : Address) (x y : Fin 8) : List (ClientAction sample) :=
  [.connect x, .listen (some (server, checked .challenge (sample.publicKey y).bytes)) 0 0 0,
    .respondChallenge]

/-- The client hears that it is accepted in slot 1. -/
def sampleAccepted (server : Address) (x y : Fin 8) : ClientAction sample :=
  .listen (some (server, sealed sample (sampleSession x y)
    (header .connectionAccepted ++ Bytes.be 4 1))) 0 0 0

end GameNetwork.Proofs
