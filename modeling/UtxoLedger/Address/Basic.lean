import UtxoLedger.Address.Byron
import UtxoLedger.Credential
import UtxoLedger.Network

/-!
# Addresses

An address says where funds may be sent. Addresses of the second kind join a
credential for spending to an optional part for delegation; a stake address
is the account of a credential for rewards. Both start with a header byte
that holds the kind in its high half and the network in its low half.
-/

namespace UtxoLedger

/-- The place in the chain of the certificate that registered a stake key. -/
structure Pointer where
  slot : UInt64
  transaction : UInt64
  certificate : UInt64
  deriving DecidableEq

namespace Pointer

def numbers (pointer : Pointer) : List UInt64 :=
  [pointer.slot, pointer.transaction, pointer.certificate]

def encode (pointer : Pointer) : Bytes := pointer.numbers.flatMap VarUint.write

end Pointer

/-- The part of an address that says how its funds are delegated. -/
inductive Delegation where
  | credential (credential : Credential)
  | pointer (pointer : Pointer)
  | none
  deriving DecidableEq

/-- An address with a credential for spending. -/
structure ShelleyAddress where
  network : Network
  payment : Credential
  delegation : Delegation
  deriving DecidableEq

/-- The reward account of a credential. -/
structure StakeAddress where
  network : Network
  credential : Credential
  deriving DecidableEq

/-- An address of any kind. -/
inductive Address where
  | byron (address : ByronAddress)
  | shelley (address : ShelleyAddress)
  | stake (address : StakeAddress)
  deriving DecidableEq

instance : Inhabited StakeAddress := ⟨⟨.testnet, default⟩⟩

instance : Inhabited Address := ⟨.stake default⟩

/-! ## Kinds and headers -/

/-- The header byte of a kind and a network. -/
def addressHeader (kind : UInt8) (network : Network) : UInt8 :=
  (kind <<< 4) ||| network.number

namespace Delegation

/-- The part that a delegation has in the kind of an address. -/
def kind : Delegation → UInt8
  | credential (.key _) => 0
  | credential (.script _) => 2
  | pointer _ => 4
  | none => 6

def isScript : Delegation → Bool
  | credential part => part.isScript
  | _ => false

def encode : Delegation → Bytes
  | credential part => part.hash.bytes
  | pointer part => part.encode
  | none => []

end Delegation

namespace ShelleyAddress

def kind (address : ShelleyAddress) : UInt8 :=
  address.delegation.kind ||| if address.payment.isScript then 1 else 0

def header (address : ShelleyAddress) : UInt8 := addressHeader address.kind address.network

def toBytes (address : ShelleyAddress) : Bytes :=
  address.header :: (address.payment.hash.bytes ++ address.delegation.encode)

/-- A script takes part in spending or delegation. -/
def hasScript (address : ShelleyAddress) : Bool :=
  address.payment.isScript || address.delegation.isScript

/-- The account of the credential that the funds are delegated by. -/
def stakeAddress? (address : ShelleyAddress) : Option StakeAddress :=
  match address.delegation with
  | .credential credential => some ⟨address.network, credential⟩
  | _ => none

end ShelleyAddress

namespace StakeAddress

def kind (address : StakeAddress) : UInt8 := if address.credential.isScript then 15 else 14

def header (address : StakeAddress) : UInt8 := addressHeader address.kind address.network

def toBytes (address : StakeAddress) : Bytes :=
  address.header :: address.credential.hash.bytes

/-- The order of the written forms, which is the order of accounts in a withdrawal map. -/
instance : Ranked StakeAddress where
  rank address := address.header.toNat :: Ranked.rank address.credential.hash

end StakeAddress

namespace Address

def kind : Address → UInt8
  | byron _ => 8
  | shelley address => address.kind
  | stake address => address.kind

def toBytes : Address → Bytes
  | byron address => address.bytes
  | shelley address => address.toBytes
  | stake address => address.toBytes

def network? : Address → Option Network
  | byron _ => none
  | shelley address => some address.network
  | stake address => some address.network

def hasScript : Address → Bool
  | byron _ => false
  | shelley address => address.hasScript
  | stake address => address.credential.isScript

/-- The funds cannot be delegated. -/
def isEnterprise : Address → Bool
  | shelley address => address.delegation = .none
  | _ => false

/-- The credential that spends from the address. -/
def payment? : Address → Option Credential
  | shelley address => some address.payment
  | _ => none

/-- The key that has to sign to spend from the address. -/
def paymentKeyHash? (address : Address) : Option (Hash 28) :=
  address.payment? >>= Credential.keyHash?

/-- The script that guards the funds at the address. -/
def paymentScriptHash? (address : Address) : Option (Hash 28) :=
  address.payment? >>= Credential.scriptHash?

/-- The reward account that an address is or that its funds are delegated by. -/
def stakeAddress : Address → Except AddressError StakeAddress
  | stake address => .ok address
  | shelley address =>
      match address.stakeAddress? with
      | some account => .ok account
      | none => .error (.invalidHeader address.header)
  | byron _ => .error .invalidForByron

/-! ## Order -/

/-- The place of a network: the two named ones come first. -/
def networkRank : Network → List Nat
  | .testnet => [0, 0]
  | .mainnet => [1, 0]
  | .other number => [2, number.toNat]

/-- The place of a credential in an address: keys come first. -/
def credentialRank : Credential → List Nat
  | .key hash => 0 :: Ranked.rank hash
  | .script hash => 1 :: Ranked.rank hash

def delegationRank : Delegation → List Nat
  | .credential credential => credentialRank credential
  | .pointer pointer => 2 :: pointer.numbers.map UInt64.toNat
  | .none => [3]

/-- Addresses by kind, then by their parts in turn. -/
instance : Ranked Address where
  rank
    | byron address => 0 :: Ranked.rank address
    | shelley address =>
        1 :: (networkRank address.network ++ credentialRank address.payment ++
          delegationRank address.delegation)
    | stake address => 2 :: Ranked.rank address

end Address

end UtxoLedger
