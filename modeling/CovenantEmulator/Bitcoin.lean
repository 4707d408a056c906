import CovenantEmulator.Golang.Outcome
import CovenantEmulator.Golang.Hex

/-! Bitcoin data and the calls into btcd and the Babylon node library. -/
namespace CovenantEmulator

open Golang

/-- `chainhash.Hash`. -/
abbrev Hash := BitVec 256

structure OutPoint where
  hash : Hash
  index : UInt32
  deriving DecidableEq, Repr

structure TxIn where
  previousOutPoint : OutPoint
  signatureScript : Bytes
  witness : List Bytes
  sequence : UInt32
  deriving DecidableEq, Repr

structure TxOut where
  value : Int64
  pkScript : Bytes
  deriving DecidableEq, Repr

structure MsgTx where
  version : Int32
  txIn : List TxIn
  txOut : List TxOut
  lockTime : UInt32
  deriving DecidableEq, Repr

/-- A point of the curve: its x coordinate and the parity of y. -/
structure PublicKey where
  x : Vector UInt8 32
  odd : Bool
  deriving DecidableEq, Repr

/-- `schnorr.SerializePubKey`, also the bytes of `NewBIP340PubKeyFromBTCPK`: no parity. -/
def serializePubKey (pk : PublicKey) : Bytes := pk.x.toList

def serializeCompressed (pk : PublicKey) : Bytes := (if pk.odd then 3 else 2) :: pk.x.toList

/-- The point with the same x and even y. -/
def PublicKey.even (pk : PublicKey) : PublicKey := { pk with odd := false }

/-- The negation of the point: the same x, the other y. -/
def PublicKey.neg (pk : PublicKey) : PublicKey := { pk with odd := !pk.odd }

@[simp] theorem serializePubKey_even (pk : PublicKey) :
    serializePubKey pk.even = serializePubKey pk := rfl

theorem serializePubKey_inj {a b : PublicKey} :
    serializePubKey a = serializePubKey b ↔ a.x = b.x := by
  simp [serializePubKey, Vector.toList_inj]

structure PrivateKey where
  key : Bytes
  deriving DecidableEq, Repr

/-- `schnorr.Signature`, given by what `Serialize` returns. -/
structure Signature where
  serialize : Bytes
  deriving DecidableEq, Repr

/-- `asig.AdaptorSignature`, given by what `MustMarshal` returns. -/
structure AdaptorSignature where
  mustMarshal : Bytes
  deriving DecidableEq, Repr

/-- `asig.EncryptionKey`, given by what `ToBytes` returns. -/
structure EncryptionKey where
  toBytes : Bytes
  deriving DecidableEq, Repr

/-- `sdkmath.LegacyDec`: an integer count of 10⁻¹⁸. -/
structure LegacyDec where
  i : Int
  deriving DecidableEq, Repr

/-- The networks `Config.Validate` maps to `chaincfg.Params`. -/
inductive NetParams where
  | mainnet | testnet | regtest | simnet | signet
  deriving DecidableEq, Repr

/-- `btcstaking.StakingInfo`: the output, and the script of each path the emulator asks for. -/
structure StakingInfo where
  stakingOutput : TxOut
  slashingPathSpendInfo : Except String Bytes
  unbondingPathSpendInfo : Except String Bytes

structure UnbondingInfo where
  unbondingOutput : TxOut
  slashingPathSpendInfo : Except String Bytes

/-- The library calls the emulator and the signer make. -/
structure BabylonLib where
  txHash : MsgTx → Hash
  hashString : Hash → String
  newHashFromStr : String → Except String Hash
  /-- `bbntypes.NewBTCTxFromHex`. -/
  newBTCTxFromHex : String → Except String MsgTx
  /-- `wire.MsgTx.Deserialize` and `Serialize`. -/
  deserialize : Bytes → Except String MsgTx
  serialize : MsgTx → Except String Bytes
  deserializeTxOut : Bytes → Except String TxOut
  serializeTxOut : TxOut → Except String Bytes
  /-- `bstypes.NewBTCSlashingTxFromHex` and `BTCSlashingTx.ToMsgTx`. -/
  newBTCSlashingTxFromHex : String → Except String Bytes
  toMsgTx : Bytes → Except String MsgTx
  checkSlashingTxMatchFundingTx (slashingTx fundingTx : MsgTx) (fundingOutputIdx : UInt32)
    (slashingTxMinFee : Int64) (slashingRate : LegacyDec) (slashingPkScript : Bytes)
    (stakerPk : PublicKey) (slashingChangeLockTime : UInt16) (net : NetParams) : Except String Unit
  buildStakingInfo (stakerKey : PublicKey) (fpKeys covenantKeys : List PublicKey)
    (covenantQuorum : UInt32) (stakingTime : UInt16) (stakingAmount : Int64) (net : NetParams) :
    Except String StakingInfo
  buildUnbondingInfo (stakerKey : PublicKey) (fpKeys covenantKeys : List PublicKey)
    (covenantQuorum : UInt32) (unbondingTime : UInt16) (unbondingAmount : Int64)
    (net : NetParams) : Except String UnbondingInfo
  /-- `schnorr.ParsePubKey`, behind `BIP340PubKey.ToBTCPK`. -/
  parsePubKey : Bytes → Except String PublicKey
  /-- `btcec.PrivateKey.PubKey`. -/
  pubKey : PrivateKey → PublicKey
  /-- `btcec.ParsePubKey`, of a compressed key. -/
  parseCompressedPubKey : Bytes → Except String PublicKey
  /-- `schnorr.ParseSignature`, behind `BIP340Signature.ToBTCSig`. -/
  parseSignature : Bytes → Except String Signature
  newEncryptionKeyFromBTCPK : PublicKey → Except String EncryptionKey
  newEncryptionKeyFromBytes : Bytes → Except String EncryptionKey
  encSignTxWithOneScriptSpendInputStrict (txToSign fundingTx : MsgTx) (fundingOutputIdx : UInt32)
    (signedScriptPath : Bytes) (privKey : PrivateKey) (encKey : EncryptionKey) :
    Except String AdaptorSignature
  signTxWithOneScriptSpendInputStrict (txToSign fundingTx : MsgTx) (fundingOutputIdx : UInt32)
    (signedScriptPath : Bytes) (privKey : PrivateKey) : Except String Signature
  signTxForFirstScriptSpendWithTwoInputsFromScript (txToSign : MsgTx)
    (firstFundingOutput secondFundingOutput : TxOut) (privKey : PrivateKey)
    (script : Bytes) : Except String Signature

namespace BabylonLib

/-- `MustToBTCPK`: a key that does not parse is a panic. -/
def mustToBTCPK (lib : BabylonLib) (pk : Bytes) : Outcome PublicKey :=
  match lib.parsePubKey pk with
  | .ok pk => .ok pk
  | .error e => .panic e

/-- The only input of `tx` is output `idx` of `funding`. -/
def Spends (lib : BabylonLib) (tx funding : MsgTx) (idx : UInt32) : Prop :=
  ∃ txIn, tx.txIn = [txIn] ∧ txIn.previousOutPoint = ⟨lib.txHash funding, idx⟩

/-- The strict signing functions check the input they sign. -/
structure StrictSigners (lib : BabylonLib) : Prop where
  encSign : ∀ {tx funding idx script sk ek sig},
    lib.encSignTxWithOneScriptSpendInputStrict tx funding idx script sk ek = .ok sig →
    lib.Spends tx funding idx
  sign : ∀ {tx funding idx script sk sig},
    lib.signTxWithOneScriptSpendInputStrict tx funding idx script sk = .ok sig →
    lib.Spends tx funding idx

/-- `CheckSlashingTxMatchFundingTx` rejects an output index that is out of range. -/
def ChecksFundingIndex (lib : BabylonLib) : Prop :=
  ∀ {slashing funding idx fee rate script pk lock net},
    lib.checkSlashingTxMatchFundingTx slashing funding idx fee rate script pk lock net = .ok () →
    idx.toNat < funding.txOut.length

/-- The largest amount an output may carry, 21 million bitcoin in satoshi. -/
def maxSatoshi : Int := 21 * 10 ^ 14

/-- `CheckSlashingTxMatchFundingTx` runs btcd's transaction sanity check on the funding
transaction, and reads the input of the slashing transaction. -/
structure ChecksSanity (lib : BabylonLib) : Prop where
  inputs : ∀ {slashing funding idx fee rate script pk lock net},
    lib.checkSlashingTxMatchFundingTx slashing funding idx fee rate script pk lock net = .ok () →
    funding.txIn ≠ [] ∧ slashing.txIn ≠ []
  values : ∀ {slashing funding idx fee rate script pk lock net},
    lib.checkSlashingTxMatchFundingTx slashing funding idx fee rate script pk lock net = .ok () →
    ∀ out ∈ funding.txOut, 0 ≤ out.value.toInt ∧ out.value.toInt ≤ maxSatoshi

/-- The staking output that `BuildStakingInfo` returns carries the amount it was given. -/
def BuildsAmount (lib : BabylonLib) : Prop :=
  ∀ {staker fps covenant quorum time amount net info},
    lib.buildStakingInfo staker fps covenant quorum time amount net = .ok info →
    info.stakingOutput.value = amount

/-- The x-only encoding of the key parses back to the even point. -/
def LiftsToEven (lib : BabylonLib) (pk : PublicKey) : Prop :=
  lib.parsePubKey (serializePubKey pk) = .ok pk.even

theorem mustToBTCPK_serializePubKey {lib : BabylonLib} {pk : PublicKey} (h : lib.LiftsToEven pk) :
    lib.mustToBTCPK (serializePubKey pk) = .ok pk.even := by
  rw [mustToBTCPK, h]

/-- `NewHashFromStr` undoes `Hash.String`. -/
def HashRoundTrip (lib : BabylonLib) : Prop :=
  ∀ h : Hash, lib.newHashFromStr (lib.hashString h) = .ok h

end BabylonLib

end CovenantEmulator
