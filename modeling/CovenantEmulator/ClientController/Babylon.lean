import CovenantEmulator.ClientController.Query
import CovenantEmulator.ClientController.Send

/-! The client controller interface and its Babylon implementation. -/
namespace CovenantEmulator

open Golang

/-- What the emulator asks of a client controller. `QueryPendingDelegations` is the paged query
over `btcDelegations`. -/
structure ClientController (σ : Type) where
  submitCovenantSigs : List CovenantSigs → Go σ TxResponse
  btcDelegations : BTCDelegationStatus → PageRequest → Go σ BTCDelegationsPage
  queryBTCDelegation : String → Go σ Delegation
  queryStakingParamsByVersion : UInt32 → Go σ StakingParams

structure MsgAddCovenantSigs where
  signer : String
  pk : Bytes
  stakingTxHash : String
  slashingTxSigs : List Bytes
  unbondingTxSig : Bytes
  slashingUnbondingTxSigs : List Bytes
  stakeExpansionTxSig : Option Bytes
  deriving DecidableEq, Repr

/-- The RPC client of the Babylon node. -/
structure BbnClient (τ : Type) where
  btcCheckpointParams : Go τ CheckpointParams
  btcStakingParamsByVersion : UInt32 → Go τ ChainParams
  btcDelegation : String → Go τ BTCDelegationResponse
  btcDelegations : BTCDelegationStatus → PageRequest → Go τ BTCDelegationsPage
  reliablySendMsgs : List MsgAddCovenantSigs → Go τ (Option RelayerTxResponse)

/-- The controller. Its key is in the keyring: the comment on `GetKeyAddress` says that this is
checked when the controller is made. -/
structure BabylonController (τ : Type) where
  lib : BabylonLib
  bbnClient : BbnClient τ
  /-- The address of the configured key, in the prefix of the account. -/
  keyAddress : Except String String
  txSigner : String
  keyed : keyAddress = .ok txSigner
  errDuplicatedCovenantSig : SdkError
  maxRetiresBatchRemovingMsgs : UInt64

namespace BabylonController

variable {τ : Type} (bc : BabylonController τ)

abbrev BabylonNet (τ : Type) := Net MsgAddCovenantSigs τ

def mustGetTxSigner : Outcome String :=
  match bc.keyAddress with
  | .ok address => .ok address
  | .error err => .panic ("Failed to get key address: " ++ err)

/-- The message built from one entry of signatures. -/
def msgFrom (signer : String) (covSig : CovenantSigs) : MsgAddCovenantSigs where
  signer := signer
  pk := serializePubKey covSig.publicKey
  stakingTxHash := bc.lib.hashString covSig.stakingTxHash
  slashingTxSigs := covSig.slashingSigs
  unbondingTxSig := covSig.unbondingSig.serialize
  slashingUnbondingTxSigs := covSig.slashingUnbondingSigs
  stakeExpansionTxSig := covSig.stkExpSig.map Signature.serialize

def submitCovenantSigs (covSigs : List CovenantSigs) : Go (BabylonNet τ) TxResponse := do
  let msgs ← Go.lift (covSigs.mapM fun covSig => do
    let signer ← bc.mustGetTxSigner
    pure (bc.msgFrom signer covSig))
  reliablySendMsgsResendingOnMsgErr bc.errDuplicatedCovenantSig bc.bbnClient.reliablySendMsgs
    bc.maxRetiresBatchRemovingMsgs msgs

def msgAddCovenantSigs (covSig : CovenantSigs) : MsgAddCovenantSigs := bc.msgFrom bc.txSigner covSig

theorem submitCovenantSigs_eq (covSigs : List CovenantSigs) :
    bc.submitCovenantSigs covSigs =
      reliablySendMsgsResendingOnMsgErr bc.errDuplicatedCovenantSig bc.bbnClient.reliablySendMsgs
        bc.maxRetiresBatchRemovingMsgs (covSigs.map bc.msgAddCovenantSigs) := by
  have hsigner : bc.mustGetTxSigner = .ok bc.txSigner := by
    rw [mustGetTxSigner, bc.keyed]
  have hmsgs : (covSigs.mapM fun covSig => do
      let signer ← bc.mustGetTxSigner
      pure (bc.msgFrom signer covSig)) = Outcome.ok (covSigs.map bc.msgAddCovenantSigs) := by
    rw [hsigner]
    exact List.mapM_pure ..
  rw [submitCovenantSigs, hmsgs, Go.lift_ok_bind]

def queryStakingParamsByVersion (version : UInt32) : Go (BabylonNet τ) StakingParams := do
  let ckptParamRes ← Go.wrap ("failed to query params of the btccheckpoint module: " ++ ·)
    (onChain bc.bbnClient.btcCheckpointParams)
  let stakingParamRes ←
    Go.wrap ("failed to query staking params with version " ++ toString version ++ ": " ++ ·)
      (onChain (bc.bbnClient.btcStakingParamsByVersion version))
  Go.lift (stakingParams bc.lib ckptParamRes stakingParamRes)

def queryBTCDelegation (stakingTxHashHex : String) : Go (BabylonNet τ) Delegation := do
  let resp ← Go.wrap ("failed to query BTC delegation " ++ stakingTxHashHex ++ ": " ++ ·)
    (onChain (bc.bbnClient.btcDelegation stakingTxHashHex))
  Go.lift (delegationRespToDelegation bc.lib resp)

/-- The Babylon controller behind the interface. -/
def toClientController : ClientController (BabylonNet τ) where
  submitCovenantSigs := bc.submitCovenantSigs
  btcDelegations status req := onChain (bc.bbnClient.btcDelegations status req)
  queryBTCDelegation := bc.queryBTCDelegation
  queryStakingParamsByVersion := bc.queryStakingParamsByVersion

end BabylonController

end CovenantEmulator
