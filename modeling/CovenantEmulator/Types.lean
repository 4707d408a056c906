import CovenantEmulator.Bitcoin

/-! Delegations, parameters and signatures, as the packages `types` and `covenant` declare them. -/
namespace CovenantEmulator

open Golang

structure CovenantAdaptorSigInfo where
  pk : PublicKey
  sigs : List Bytes
  deriving DecidableEq, Repr

structure CovenantSchnorrSigInfo where
  pk : PublicKey
  sig : Signature
  deriving DecidableEq, Repr

structure Undelegation where
  unbondingTxHex : String
  slashingTxHex : String
  covenantSlashingSigs : List CovenantAdaptorSigInfo
  covenantUnbondingSigs : List CovenantSchnorrSigInfo
  spendStakeTxHex : String
  deriving DecidableEq, Repr

structure DelegationStakeExpansion where
  previousStakingTxHashHex : String
  otherFundingTxOutHex : String
  deriving DecidableEq, Repr

structure Delegation where
  btcPk : PublicKey
  fpBtcPks : List PublicKey
  stakingTime : UInt32
  startHeight : UInt32
  endHeight : UInt32
  totalSat : Int64
  stakingTxHex : String
  stakingOutputIdx : UInt32
  slashingTxHex : String
  unbondingTime : UInt16
  covenantSigs : List CovenantAdaptorSigInfo
  btcUndelegation : Option Undelegation
  paramsVersion : UInt32
  stakeExpansion : Option DelegationStakeExpansion
  deriving DecidableEq, Repr

structure StakingParams where
  comfirmationTimeBlocks : UInt32
  finalizationTimeoutBlocks : UInt32
  minSlashingTxFeeSat : Int64
  covenantPks : List PublicKey
  slashingPkScript : Bytes
  covenantQuorum : UInt32
  slashingRate : LegacyDec
  minComissionRate : LegacyDec
  unbondingTimeBlocks : UInt32
  unbondingFee : Int64
  minStakingTime : UInt16
  maxStakingTime : UInt16
  minStakingValue : Int64
  maxStakingValue : Int64
  deriving DecidableEq, Repr

structure CovenantSigs where
  publicKey : PublicKey
  stakingTxHash : Hash
  slashingSigs : List Bytes
  unbondingSig : Signature
  slashingUnbondingSigs : List Bytes
  stkExpSig : Option Signature
  deriving DecidableEq, Repr

structure RelayerEvent where
  eventType : String
  attributes : List (String × String)
  deriving DecidableEq, Repr

structure TxResponse where
  txHash : String
  events : List RelayerEvent
  deriving DecidableEq, Repr

structure SigningRequestStkExp where
  previousActiveStakeTx : MsgTx
  otherFundingOutput : TxOut
  previousStakingOutputIdx : UInt32
  previousActiveStakeUnbondingPkScriptPath : Bytes
  deriving DecidableEq, Repr

structure SigningRequest where
  stakingTx : MsgTx
  slashingTx : MsgTx
  unbondingTx : MsgTx
  slashUnbondingTx : MsgTx
  stakeExp : Option SigningRequestStkExp
  stakingOutputIdx : UInt32
  slashingPkScriptPath : Bytes
  stakingTxUnbondingPkScriptPath : Bytes
  unbondingTxSlashingPkScriptPath : Bytes
  fpEncKeys : List EncryptionKey
  deriving DecidableEq, Repr

structure SignaturesResponse where
  slashSigs : List Bytes
  unbondingSig : Signature
  stkExtSig : Option Signature
  slashUnbondingSigs : List Bytes
  deriving DecidableEq, Repr

/-- Reads the unbonding signatures, as its sibling below does. -/
def Undelegation.hasCovenantQuorumOnSlashing (ud : Undelegation) (quorum : UInt32) : Bool :=
  decide (ud.covenantUnbondingSigs.length ≥ quorum.toNat)

def Undelegation.hasCovenantQuorumOnUnbonding (ud : Undelegation) (quorum : UInt32) : Bool :=
  decide (ud.covenantUnbondingSigs.length ≥ quorum.toNat)

def Undelegation.hasAllSignatures (ud : Undelegation) (covenantQuorum : UInt32) : Bool :=
  ud.hasCovenantQuorumOnUnbonding covenantQuorum && ud.hasCovenantQuorumOnSlashing covenantQuorum

namespace Delegation

/-- The undelegation is read only when the slashing signatures reach the quorum. -/
def hasCovenantQuorum (d : Delegation) (quorum : UInt32) : Outcome Bool :=
  if d.covenantSigs.length ≥ quorum.toNat then do
    let ud ← .deref d.btcUndelegation
    pure (ud.hasAllSignatures quorum)
  else .ok false

/-- Narrowing to the 16 bits of a timelock. -/
def getStakingTime (d : Delegation) : Outcome UInt16 :=
  if d.stakingTime.toNat > 65535 then .panic "invalid delegation in database"
  else .ok d.stakingTime.toUInt16

def isStakeExpansion (d : Delegation) : Bool := d.stakeExpansion.isSome

theorem hasCovenantQuorum_of_undelegation {d : Delegation} {ud : Undelegation}
    (h : d.btcUndelegation = some ud) (quorum : UInt32) :
    d.hasCovenantQuorum quorum =
      .ok (decide (d.covenantSigs.length ≥ quorum.toNat) && ud.hasAllSignatures quorum) := by
  unfold hasCovenantQuorum
  split
  · simp_all [Outcome.deref]
  · rename_i hq
    simp [hq]

theorem hasCovenantQuorum_ne_diverged (d : Delegation) (quorum : UInt32) :
    d.hasCovenantQuorum quorum ≠ .diverged := by
  unfold hasCovenantQuorum
  split <;> simp [Outcome.bind_eq_diverged]

theorem getStakingTime_ne_diverged (d : Delegation) : d.getStakingTime ≠ .diverged := by
  unfold getStakingTime
  split <;> simp

theorem hasCovenantQuorum_ne_error (d : Delegation) (quorum : UInt32) (e : String) :
    d.hasCovenantQuorum quorum ≠ .error e := by
  unfold hasCovenantQuorum
  cases d.btcUndelegation <;> split <;> simp [Outcome.deref]

theorem getStakingTime_ne_error (d : Delegation) (e : String) : d.getStakingTime ≠ .error e := by
  unfold getStakingTime
  split <;> simp

theorem getStakingTime_eq_ok {d : Delegation} {t : UInt16} :
    d.getStakingTime = .ok t ↔ d.stakingTime.toNat ≤ 65535 ∧ d.stakingTime.toUInt16 = t := by
  unfold getStakingTime
  split <;> simp <;> omega

theorem getStakingTime_panics {d : Delegation} :
    d.getStakingTime.Panics ↔ 65535 < d.stakingTime.toNat := by
  unfold getStakingTime
  split <;> simp_all [Outcome.Panics]

/-- The narrowed time is the time itself. -/
theorem getStakingTime_toNat {d : Delegation} {t : UInt16} (h : d.getStakingTime = .ok t) :
    t.toNat = d.stakingTime.toNat := by
  obtain ⟨hle, rfl⟩ := getStakingTime_eq_ok.mp h
  rw [UInt32.toNat_toUInt16]
  exact Nat.mod_eq_of_lt (by omega)

end Delegation

/-- The other funding output of a stake expansion, from its hex. -/
def DelegationStakeExpansion.otherFundingTxOut (lib : BabylonLib) (e : DelegationStakeExpansion) :
    Except String TxOut :=
  match Hex.decodeString e.otherFundingTxOutHex with
  | .error err => .error err
  | .ok bs => lib.deserializeTxOut bs

end CovenantEmulator
