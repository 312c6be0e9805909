import GameNetwork.Lib.Bytes

namespace GameNetwork

/-- A multi-precision number of the NGMP library: the bytes `Get64BitArray` exposes. -/
structure NGMP (nBits : Nat) where
  bytes : List UInt8
  length_eq : bytes.length = (nBits + 7) / 8
deriving DecidableEq

instance (nBits : Nat) : Zero (NGMP nBits) where
  zero := ⟨List.replicate ((nBits + 7) / 8) 0, by simp⟩

/-- The 32 bytes SHA-256 and HMAC-SHA-256 return. -/
@[ext] structure Digest where
  bytes : List UInt8
  length_eq : bytes.length = 32
deriving DecidableEq

instance : Zero Digest where
  zero := ⟨List.replicate 32 0, by simp⟩

abbrev ShortSharedKey := Digest

/-- The cryptography of the NGCrypto library, which is not part of this repository.
A seed stands for the randomness one `GenerateKeyPair` call draws. -/
structure Crypto where
  publicKeySize : Nat
  privateKeySize : Nat
  Seed : Type
  generateKeyPair : Seed → NGMP privateKeySize × NGMP publicKeySize
  generateSharedKey : NGMP publicKeySize → NGMP privateKeySize → NGMP publicKeySize
  sha256 : List UInt8 → Digest
  hmacSha256 : ShortSharedKey → List UInt8 → Digest

namespace Crypto

abbrev PrivateKey (C : Crypto) := NGMP C.privateKeySize

abbrev PublicKey (C : Crypto) := NGMP C.publicKeySize

def privateKey (C : Crypto) (seed : C.Seed) : C.PrivateKey := (C.generateKeyPair seed).1

def publicKey (C : Crypto) (seed : C.Seed) : C.PublicKey := (C.generateKeyPair seed).2

/-- The session key both ends hash out of the Diffie-Hellman secret. -/
def sessionKey (C : Crypto) (theirs : C.PublicKey) (ours : C.PrivateKey) : ShortSharedKey :=
  C.sha256 ((C.generateSharedKey theirs ours).bytes.take (C.publicKeySize / 8))

/-- `Packet::ROUNDED_PUBLIC_KEY_SIZE`. -/
def roundedPublicKeySize (C : Crypto) : Nat := (C.publicKeySize + 7) / 8

theorem length_public_key {C : Crypto} (key : C.PublicKey) :
    key.bytes.length = C.roundedPublicKeySize := key.length_eq

/-- Diffie-Hellman on generated pairs: both ends reach the same secret. -/
def Commutes (C : Crypto) : Prop :=
  ∀ x y, C.generateSharedKey (C.publicKey x) (C.privateKey y) =
    C.generateSharedKey (C.publicKey y) (C.privateKey x)

theorem Commutes.sessionKey {C : Crypto} (h : C.Commutes) (x y : C.Seed) :
    C.sessionKey (C.publicKey x) (C.privateKey y) =
      C.sessionKey (C.publicKey y) (C.privateKey x) := by
  rw [Crypto.sessionKey, Crypto.sessionKey, h x y]

end Crypto

end GameNetwork
