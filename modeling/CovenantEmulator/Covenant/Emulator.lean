import CovenantEmulator.Covenant.Cache
import CovenantEmulator.Covenant.Checks

/-! The emulator: which delegations it accepts, what it signs, and one tick of its loop. -/
namespace CovenantEmulator

open Golang

section
variable {σ : Type} (lib : BabylonLib) (retry : ParamsRetry σ) (cc : ClientController σ)

def isKeyInCommittee (covenantSerializedPk : Bytes) (del : Delegation) : Go (World σ) Bool := do
  let stkParams ← Go.wrap ("unable to get the param version: " ++ toString del.paramsVersion ++
    ", reason: " ++ ·) (paramsGet retry cc del.paramsVersion)
  pure (stkParams.covenantPks.any fun pk => decide (serializePubKey pk = covenantSerializedPk))

def alreadySigned (covenantSerializedPk : Bytes) (del : Delegation) : Bool :=
  del.covenantSigs.any fun covSig => decide (serializePubKey covSig.pk = covenantSerializedPk)

def validateStakeExpansion (covenantSerializedPk : Bytes) (del : Delegation)
    (prevDel : Option Delegation) : Go (World σ) Bool :=
  match prevDel with
  | none => do
    let stakeExpansion ← Go.lift (.deref del.stakeExpansion)
    Go.fail ("previous delegation is nil for stake expansion delegation: " ++
      stakeExpansion.previousStakingTxHashHex)
  | some prevDel => do
    let prevStakingTx ← Go.wrap ("failed to decode previous delegation staking tx: " ++ ·)
      (Go.lift (.ofExcept (lib.newBTCTxFromHex prevDel.stakingTxHex)))
    let prevStakingTxHash := lib.hashString (lib.txHash prevStakingTx)
    let stakeExpansion ← Go.lift (.deref del.stakeExpansion)
    if prevStakingTxHash ≠ stakeExpansion.previousStakingTxHashHex then
      Go.fail ("previous delegation staking tx hash mismatch: expected " ++
        stakeExpansion.previousStakingTxHashHex ++ ", got " ++ prevStakingTxHash)
    else
      Go.wrap ("unable to verify if covenant key is in committee: " ++ ·)
        (isKeyInCommittee retry cc covenantSerializedPk prevDel)

/-- The exported `AcceptDelegationToSign`. -/
def acceptDelegationToSign (pk : PublicKey) (del : Delegation) (prevDel : Option Delegation) :
    Go (World σ) Bool :=
  if alreadySigned (serializePubKey pk) del then pure false
  else do
    let isInCommittee ← Go.wrap ("unable to verify if covenant key is in committee: " ++ ·)
      (isKeyInCommittee retry cc (serializePubKey pk) del)
    if isInCommittee = false then pure false
    else if del.isStakeExpansion then
      validateStakeExpansion lib retry cc (serializePubKey pk) del prevDel
    else pure true

end

/-- The emulator and the parts of its configuration the loop reads. -/
structure Emulator (σ : Type) where
  lib : BabylonLib
  retry : ParamsRetry σ
  cc : ClientController σ
  signer : SigningRequest → Go σ SignaturesResponse
  pk : PublicKey
  btcNetParams : NetParams
  delegationLimit : UInt64
  sigsBatchSize : UInt64

namespace Emulator

variable {σ : Type} (ce : Emulator σ)

/-- The previous delegation of a stake expansion, nil otherwise. -/
def queryPrevDel (del : Delegation) : Go (World σ) (Option Delegation) :=
  match del.stakeExpansion with
  | none => pure none
  | some stakeExpansion => do
    let prevDel ← Go.wrap ("failed to query previous delegation for stake expansion: " ++ ·)
      (onEnv (ce.cc.queryBTCDelegation stakeExpansion.previousStakingTxHashHex))
    pure (some prevDel)

/-- The filter `ce.acceptDelegationToSign`. -/
def acceptDelegationToSign (del : Delegation) : Go (World σ) Bool := do
  let prevDel ← ce.queryPrevDel del
  CovenantEmulator.acceptDelegationToSign ce.lib ce.retry ce.cc ce.pk del prevDel

def buildStkExpSigningRequest (btcDel : Delegation) : Go (World σ) SigningRequestStkExp :=
  match btcDel.stakeExpansion with
  | none => Go.fail "stake expansion is nil in the delegation"
  | some stakeExpansion => do
    let fundingTxOut ← Go.lift (stakeExpValidateBasic ce.lib btcDel)
    let prevDel ← onEnv (ce.cc.queryBTCDelegation stakeExpansion.previousStakingTxHashHex)
    let previousActiveStkTx ← Go.lift (.ofExcept (ce.lib.newBTCTxFromHex prevDel.stakingTxHex))
    -- the error names the version of the new delegation, not of the previous one
    let prevDelParams ← Go.wrap ("failed to get staking params with version " ++
      toString btcDel.paramsVersion ++ ": " ++ ·) (paramsGet ce.retry ce.cc prevDel.paramsVersion)
    let (_, prevStakingTxUnbondingPkScriptPath) ←
      Go.lift (pkScriptPathSlashAndUnbond ce.lib prevDel prevDelParams ce.btcNetParams)
    pure
      { previousActiveStakeTx := previousActiveStkTx
        otherFundingOutput := fundingTxOut
        previousStakingOutputIdx := prevDel.stakingOutputIdx
        previousActiveStakeUnbondingPkScriptPath := prevStakingTxUnbondingPkScriptPath }

/-- Step 9. -/
def withStakeExp (btcDel : Delegation) (req : SigningRequest) : Go (World σ) SigningRequest :=
  if btcDel.isStakeExpansion then do
    let stkExpReq ← Go.wrap ("error building stake expansion request: " ++ ·)
      (ce.buildStkExpSigningRequest btcDel)
    pure { req with stakeExp := some stkExpReq }
  else pure req

/-- The entry submitted for a request and its response. -/
def covenantSigsOf (req : SigningRequest) (resp : SignaturesResponse) : CovenantSigs where
  publicKey := ce.pk
  stakingTxHash := ce.lib.txHash req.stakingTx
  slashingSigs := resp.slashSigs
  unbondingSig := resp.unbondingSig
  slashingUnbondingSigs := resp.slashUnbondingSigs
  stkExpSig := resp.stkExtSig

def signTransactions (btcDel : Delegation) (req : SigningRequest) :
    Go (World σ) SignaturesResponse := do
  record (.signing btcDel req)
  Go.wrap ("failed to sign transactions: " ++ ·) (onEnv (ce.signer req))

/-- Steps 2 to 10 of the loop body. An error is the line logged before `continue`. -/
def signDelegation (btcDel : Delegation) (params : StakingParams) : Go (World σ) CovenantSigs := do
  let req ← Go.lift (checkDelegation ce.lib btcDel params ce.btcNetParams)
  let req ← ce.withStakeExp btcDel req
  let resp ← ce.signTransactions btcDel req
  pure (ce.covenantSigsOf req resp)

/-- The loop body: the entry for one delegation, or the line logged when it is skipped. The
nil branch logs a field of the nil delegation. -/
def addCovenantSignature (btcDel : Option Delegation) :
    Go (World σ) (Except String CovenantSigs) := do
  let btcDel ← Go.lift (.deref btcDel)
  match btcDel.btcUndelegation with
  | none => pure (.error "empty undelegation")
  | some _ =>
    let params ← Go.wrap ("failed to get staking params with version " ++
      toString btcDel.paramsVersion ++ ": " ++ ·) (paramsGet ce.retry ce.cc btcDel.paramsVersion)
    Go.attempt (ce.signDelegation btcDel params)

theorem addCovenantSignature_empty {d : Delegation} (hud : d.btcUndelegation = none) :
    ce.addCovenantSignature (some d) = pure (.error "empty undelegation") := by
  change (match d.btcUndelegation with | none => _ | some _ => _) = _
  rw [hud]

theorem addCovenantSignature_some {d : Delegation} {ud : Undelegation}
    (hud : d.btcUndelegation = some ud) :
    ce.addCovenantSignature (some d) =
      (Go.wrap ("failed to get staking params with version " ++ toString d.paramsVersion ++
        ": " ++ ·) (paramsGet ce.retry ce.cc d.paramsVersion) >>= fun params =>
          Go.attempt (ce.signDelegation d params)) := by
  change (match d.btcUndelegation with | none => _ | some _ => _) = _
  rw [hud]

def collectStep (covenantSigs : List CovenantSigs) (btcDel : Option Delegation) :
    Go (World σ) (List CovenantSigs) := do
  let signed ← ce.addCovenantSignature btcDel
  pure (covenantSigs ++ signed.toOption.toList)

def collectSigs (btcDels : List (Option Delegation)) : Go (World σ) (List CovenantSigs) :=
  btcDels.foldlM ce.collectStep []

def addCovenantSignatures (btcDels : List (Option Delegation)) : Go (World σ) TxResponse :=
  if btcDels.length = 0 then Go.fail "no delegations"
  else do
    let covenantSigs ← ce.collectSigs btcDels
    record (.submitting covenantSigs)
    onEnv (ce.cc.submitCovenantSigs covenantSigs)

/-- Once the signatures are collected they are submitted, and the call ends as that does. -/
theorem addCovenantSignatures_of_collected {btcDels : List (Option Delegation)}
    {covenantSigs : List CovenantSigs} {w w₁ : World σ} (hne : btcDels ≠ [])
    (h : ce.collectSigs btcDels w = (.ok covenantSigs, w₁)) :
    ce.addCovenantSignatures btcDels w =
      ((ce.cc.submitCovenantSigs covenantSigs w₁.env).1,
        { w₁ with
          env := (ce.cc.submitCovenantSigs covenantSigs w₁.env).2
          trace := w₁.trace ++ [.submitting covenantSigs] }) := by
  unfold addCovenantSignatures
  rw [if_neg (by simpa using hne), Go.bind_of_ok h]
  rfl

/-- The loop of `delegationsToBatches`, one batch for each unit of fuel. -/
def batchesFrom {α : Type} (batchSize : UInt64) (dels : List α) :
    Nat → UInt64 → Outcome (List (List α))
  | 0, _ => .diverged
  | fuel + 1, i =>
    if i < UInt64.ofNat dels.length then do
      let stop := if i + batchSize > UInt64.ofNat dels.length then UInt64.ofNat dels.length
        else i + batchSize
      let batch ← .slice dels i.toNat stop.toNat
      let batches ← batchesFrom batchSize dels fuel (i + batchSize)
      pure (batch :: batches)
    else pure []

/-- With a batch size of zero the loop has no end. -/
def delegationsToBatches {α : Type} (dels : List α) : Outcome (List (List α)) :=
  batchesFrom ce.sigsBatchSize dels (dels.length + 1) 0

/-- `QueryPendingDelegations(limit, ce.acceptDelegationToSign)`. -/
def queryPendingDelegations (fuel : Nat) : Go (World σ) (List Delegation) :=
  queryDelegationsWithStatus ce.lib maxPaginationLimit
    (fun status req => onEnv (ce.cc.btcDelegations status req)) fuel .pending ce.delegationLimit
    (some ce.acceptDelegationToSign)

/-- The loop over the batches: a failed batch is logged. -/
def submitBatches : List (List Delegation) → Go (World σ) Unit
  | [] => pure ()
  | delBatch :: batches => do
    let _ ← Go.attempt (ce.addCovenantSignatures (delBatch.map some))
    submitBatches batches

/-- What one tick does with the pending delegations. -/
def processPending (dels : List Delegation) : Go (World σ) Unit :=
  if dels.length = 0 then pure ()
  else do
    let batches ← Go.lift (ce.delegationsToBatches dels)
    ce.submitBatches batches

/-- One tick of `covenantSigSubmissionLoop`. -/
def tick (fuel : Nat) : Go (World σ) Unit := do
  let dels ← Go.attempt (ce.queryPendingDelegations fuel)
  match dels with
  | .error _ => pure ()
  | .ok dels => ce.processPending dels

end Emulator

end CovenantEmulator
