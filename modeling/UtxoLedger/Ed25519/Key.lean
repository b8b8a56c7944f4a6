import UtxoLedger.Digest.Sha512
import UtxoLedger.Ed25519.Curve
import UtxoLedger.Failure
import UtxoLedger.Hash

/-!
# Signing keys and signatures

A plain key is a seed, from which the secret scalar and the key of the nonces
are derived. An extended key carries both itself; three bits of its scalar
are fixed. Signatures of either kind are verified with the public key.
-/

namespace UtxoLedger.Ed25519

/-- Why bytes are not a key or a signature. -/
inductive KeyError where
  | invalidSize (kind : String) (expected found : Nat)
  | invalidBitTweaks
  | hex (error : HexError)
  deriving DecidableEq, Repr

namespace KeyError

def message : KeyError → String
  | invalidSize kind expected found =>
      s!"invalid size for {kind}, expecting {expected} bytes but got {found}"
  | invalidBitTweaks => "invalid Ed25519 extended secret key format"
  | hex error => s!"invalid hex: {error.message}"

instance : Failure KeyError where
  name
    | invalidSize _ _ _ => "Key.InvalidSize"
    | invalidBitTweaks => "Key.InvalidBitTweaks"
    | hex _ => "Key.Hex"
  message := message

end KeyError

/-- The bytes of a fixed-size thing of the given kind. -/
def sizedBytes (kind : String) (size : Nat) (bytes : Bytes) :
    Except KeyError (SizedBytes size) :=
  match SizedBytes.ofBytes? size bytes with
  | some sized => .ok sized
  | none => .error (.invalidSize kind size bytes.length)

/-- The bytes written by hexadecimal digits. -/
def hexBytes (text : String) : Except KeyError Bytes :=
  match Hex.decode text with
  | .ok bytes => .ok bytes
  | .error error => .error (.hex error)

/-! ## Public keys -/

/-- The key that verifies signatures. -/
structure PublicKey extends SizedBytes 32
  deriving DecidableEq

namespace PublicKey

def ofBytes (bytes : Bytes) : Except KeyError PublicKey :=
  PublicKey.mk <$> sizedBytes "public key" 32 bytes

def ofText (text : String) : Except KeyError PublicKey := hexBytes text >>= ofBytes

def text (key : PublicKey) : String := Hex.encode key.bytes

def debug (key : PublicKey) : String := s!"PublicKey<Ed25519>(\"{key.text}\")"

/-- The digest under which addresses and scripts name a key. -/
def hash (key : PublicKey) : Hash 28 := .blake224 key.bytes

instance : Cbor.Codec PublicKey where
  encode key := Cbor.Encoder.bytes key.bytes
  decode := do
    let start ← Cbor.Decoder.position
    let bytes ← Cbor.Decoder.bytes
    Cbor.Decoder.orReject start KeyError.message (ofBytes bytes)

end PublicKey

/-! ## Signatures -/

/-- A point and a scalar. -/
structure Signature extends SizedBytes 64
  deriving DecidableEq

namespace Signature

def ofBytes (bytes : Bytes) : Except KeyError Signature :=
  Signature.mk <$> sizedBytes "signature" 64 bytes

def ofText (text : String) : Except KeyError Signature := hexBytes text >>= ofBytes

def text (signature : Signature) : String := Hex.encode signature.bytes

def debug (signature : Signature) : String := s!"Signature<Ed25519>(\"{signature.text}\")"

instance : Cbor.Codec Signature where
  encode signature := Cbor.Encoder.bytes signature.bytes
  decode := do
    let start ← Cbor.Decoder.position
    let bytes ← Cbor.Decoder.bytes
    Cbor.Decoder.orReject start KeyError.message (ofBytes bytes)

end Signature

/-! ## Secret keys -/

/-- The lowest three bits are clear and of the highest two only the second is set. -/
def HasTweaks (bytes : Bytes) : Prop :=
  (bytes.getD 0 0).toNat % 8 = 0 ∧ (bytes.getD 31 0).toNat / 64 = 1

instance (bytes : Bytes) : Decidable (HasTweaks bytes) :=
  inferInstanceAs (Decidable (_ ∧ _))

/-- Sets and clears the fixed bits of a scalar at the front of the bytes. -/
def tweak (bytes : Bytes) : Bytes :=
  let low := bytes.getD 0 0 &&& 0xf8
  let high := (bytes.getD 31 0 &&& 0x3f) ||| 0x40
  (bytes.set 0 low).set 31 high

/-- A key that signs. -/
inductive SecretKey where
  | plain (seed : SizedBytes 32)
  /-- A scalar with its fixed bits, followed by the key of the nonces. -/
  | extended (bytes : SizedBytes 64) (tweaked : HasTweaks bytes.bytes)

namespace SecretKey

/-- The extended key with the given bytes, whose fixed bits are checked. -/
def ofExtended (bytes : SizedBytes 64) : Except KeyError SecretKey :=
  if tweaked : HasTweaks bytes.bytes then .ok (.extended bytes tweaked)
  else .error .invalidBitTweaks

/-- The secret scalar and the key of the nonces, 32 bytes each. -/
def expanded : SecretKey → Bytes
  | plain seed => tweak (Digest.Sha512.digest seed.bytes)
  | extended bytes _ => bytes.bytes

def scalar (key : SecretKey) : Nat := Bytes.toNatReversed (key.expanded.take 32)

def publicKey (key : SecretKey) : PublicKey :=
  ⟨⟨(base.multiple key.scalar).encode, Point.length_encode _⟩⟩

/-- The digest of byte strings as a scalar. -/
def challenge (parts : List Bytes) : Nat :=
  Bytes.toNatReversed (Digest.Sha512.digest parts.flatten) % order

/-- The signature of a message. -/
def sign (key : SecretKey) (message : Bytes) : Signature :=
  let nonce := challenge [key.expanded.drop 32, message]
  let commitment := (base.multiple nonce).encode
  let proof := (nonce + challenge [commitment, key.publicKey.bytes, message] * key.scalar) % order
  ⟨⟨commitment ++ Bytes.ofNatReversed 32 proof, by
    simp [commitment, Point.length_encode, Bytes.length_ofNatReversed]⟩⟩

/-- The text that stands for the key and hides it. -/
def debug : SecretKey → String
  | plain _ => "SecretKey<Ed25519> \x7b .. \x7d"
  | extended _ _ => "SecretKey<Ed25519Extended> \x7b .. \x7d"

end SecretKey

/-- The signature is one of the message under the key. The scalar has to be reduced, and the key
has to be a point and not all zeros. -/
def PublicKey.verify (key : PublicKey) (message : Bytes) (signature : Signature) : Bool :=
  let commitment := signature.bytes.take 32
  let proof := Bytes.toNatReversed (signature.bytes.drop 32)
  if order ≤ proof || key.bytes.all (· = 0) then false
  else
    match Point.decode? key.bytes with
    | none => false
    | some point =>
        let challenge := SecretKey.challenge [commitment, key.bytes, message]
        let expected := (base.multiple proof).add (point.negate.multiple challenge)
        expected.encode = commitment

end UtxoLedger.Ed25519
