import CovenantEmulator.Types

/-! Chain responses and their conversion to the emulator's own types. -/
namespace CovenantEmulator

open Golang

/-- `CovenantAdaptorSignatures`. A nil key is the empty byte string: neither parses. -/
structure CovenantAdaptorSignatures where
  covPk : Bytes
  adaptorSigs : List Bytes
  deriving DecidableEq, Repr

structure SignatureInfo where
  pk : Bytes
  sig : Bytes
  deriving DecidableEq, Repr

structure BTCUndelegationResponse where
  unbondingTxHex : String
  covenantUnbondingSigList : List SignatureInfo
  slashingTxHex : String
  covenantSlashingSigs : List CovenantAdaptorSignatures
  /-- `SpendStakeTxHex` of `DelegatorUnbondingInfoResponse`, when that is present. -/
  delegatorUnbondingInfo : Option String
  deriving DecidableEq, Repr

structure StakeExpansionResponse where
  previousStakingTxHashHex : String
  otherFundingTxOutHex : String
  deriving DecidableEq, Repr

structure BTCDelegationResponse where
  btcPk : Bytes
  fpBtcPkList : List Bytes
  stakingTime : UInt32
  startHeight : UInt32
  endHeight : UInt32
  totalSat : UInt64
  stakingTxHex : String
  slashingTxHex : String
  covenantSigs : List CovenantAdaptorSignatures
  stakingOutputIdx : UInt32
  unbondingTime : UInt32
  undelegationResponse : Option BTCUndelegationResponse
  paramsVersion : UInt32
  stkExp : Option StakeExpansionResponse
  deriving DecidableEq, Repr

/-- `Params` of the chain's staking module, as far as the emulator reads them. -/
structure ChainParams where
  covenantPks : List Bytes
  covenantQuorum : UInt32
  minStakingValueSat : Int64
  maxStakingValueSat : Int64
  minStakingTimeBlocks : UInt32
  maxStakingTimeBlocks : UInt32
  slashingPkScript : Bytes
  minSlashingTxFeeSat : Int64
  slashingRate : LegacyDec
  unbondingTimeBlocks : UInt32
  unbondingFeeSat : Int64
  minCommissionRate : LegacyDec
  deriving DecidableEq, Repr

structure CheckpointParams where
  btcConfirmationDepth : UInt32
  checkpointFinalizationTimeout : UInt32
  deriving DecidableEq, Repr

section
variable (lib : BabylonLib)

def covenantSigInfo (s : CovenantAdaptorSignatures) : Outcome CovenantAdaptorSigInfo := do
  let pk ← lib.mustToBTCPK s.covPk
  pure { pk := pk, sigs := s.adaptorSigs }

def unbondingSigInfo (s : SignatureInfo) : Outcome CovenantSchnorrSigInfo := do
  let sig ← .ofExcept (lib.parseSignature s.sig)
  let pk ← lib.mustToBTCPK s.pk
  pure { pk := pk, sig := sig }

def undelegationRespToUndelegation (undel : BTCUndelegationResponse) : Outcome Undelegation := do
  if undel.unbondingTxHex = "" then
    .error "staking tx should not be empty in undelegation"
  else if undel.slashingTxHex = "" then
    .error "slashing tx should not be empty in undelegation"
  else
    let covenantUnbondingSigs ← undel.covenantUnbondingSigList.mapM (unbondingSigInfo lib)
    let covenantSlashingSigs ← undel.covenantSlashingSigs.mapM (covenantSigInfo lib)
    pure
      { unbondingTxHex := undel.unbondingTxHex
        slashingTxHex := undel.slashingTxHex
        covenantSlashingSigs := covenantSlashingSigs
        covenantUnbondingSigs := covenantUnbondingSigs
        spendStakeTxHex := undel.delegatorUnbondingInfo.getD "" }

/-- A delegation without an undelegation response keeps a nil undelegation. -/
def undelegationOf : Option BTCUndelegationResponse → Outcome (Option Undelegation)
  | some undel => some <$> undelegationRespToUndelegation lib undel
  | none => pure none

def delegationRespToDelegation (del : BTCDelegationResponse) : Outcome Delegation := do
  if del.stakingTxHex = "" then
    .error "staking tx should not be empty in delegation"
  else if del.slashingTxHex = "" then
    .error "slashing tx should not be empty in delegation"
  else
    let covenantSigs ← del.covenantSigs.mapM (covenantSigInfo lib)
    let undelegation ← undelegationOf lib del.undelegationResponse
    let fpBtcPks ← del.fpBtcPkList.mapM lib.mustToBTCPK
    if del.unbondingTime.toNat > 65535 then
      .error "unbonding time should be smaller than max uint16"
    else if del.totalSat.toNat > 2 ^ 63 - 1 then
      .error ("total sat (" ++ toString del.totalSat ++ ") is larger than the maximum int64")
    else
      let btcPk ← lib.mustToBTCPK del.btcPk
      pure
        { btcPk := btcPk
          fpBtcPks := fpBtcPks
          stakingTime := del.stakingTime
          startHeight := del.startHeight
          endHeight := del.endHeight
          totalSat := del.totalSat.toInt64
          stakingTxHex := del.stakingTxHex
          stakingOutputIdx := del.stakingOutputIdx
          slashingTxHex := del.slashingTxHex
          unbondingTime := del.unbondingTime.toUInt16
          covenantSigs := covenantSigs
          btcUndelegation := undelegation
          paramsVersion := del.paramsVersion
          stakeExpansion := del.stkExp.map fun e =>
            { previousStakingTxHashHex := e.previousStakingTxHashHex
              otherFundingTxOutHex := e.otherFundingTxOutHex } }

/-- The parameters of one version, from the two chain queries. -/
def stakingParams (ckpt : CheckpointParams) (p : ChainParams) : Outcome StakingParams := do
  let covenantPks ← p.covenantPks.mapM fun pk =>
    match lib.parsePubKey pk with
    | .ok pk => .ok pk
    | .error _ => .error "invalid covenant public key"
  if p.minStakingTimeBlocks.toNat > 65535 then
    .error ("babylon min staking time blocks (" ++ toString p.minStakingTimeBlocks ++
      ") is larger than the maximum uint16")
  else if p.maxStakingTimeBlocks.toNat > 65535 then
    .error ("babylon max staking time blocks (" ++ toString p.maxStakingTimeBlocks ++
      ") is larger than the maximum uint16")
  else
    pure
      { comfirmationTimeBlocks := ckpt.btcConfirmationDepth
        finalizationTimeoutBlocks := ckpt.checkpointFinalizationTimeout
        minSlashingTxFeeSat := p.minSlashingTxFeeSat
        covenantPks := covenantPks
        slashingPkScript := p.slashingPkScript
        covenantQuorum := p.covenantQuorum
        slashingRate := p.slashingRate
        minComissionRate := p.minCommissionRate
        unbondingTimeBlocks := p.unbondingTimeBlocks
        unbondingFee := p.unbondingFeeSat
        minStakingTime := p.minStakingTimeBlocks.toUInt16
        maxStakingTime := p.maxStakingTimeBlocks.toUInt16
        minStakingValue := p.minStakingValueSat
        maxStakingValue := p.maxStakingValueSat }

end

/-- What a response that converts holds, and what the delegation keeps of it. -/
structure ConvertsTo (lib : BabylonLib) (r : BTCDelegationResponse) (d : Delegation) : Prop where
  stakingTx_ne : r.stakingTxHex ≠ ""
  slashingTx_ne : r.slashingTxHex ≠ ""
  unbondingTime_le : r.unbondingTime.toNat ≤ 65535
  totalSat_le : r.totalSat.toNat ≤ 2 ^ 63 - 1
  btcPk : lib.mustToBTCPK r.btcPk = .ok d.btcPk
  fpBtcPks : r.fpBtcPkList.mapM lib.mustToBTCPK = .ok d.fpBtcPks
  covenantSigs : r.covenantSigs.mapM (covenantSigInfo lib) = .ok d.covenantSigs
  btcUndelegation : undelegationOf lib r.undelegationResponse = .ok d.btcUndelegation
  stakingTime : d.stakingTime = r.stakingTime
  startHeight : d.startHeight = r.startHeight
  endHeight : d.endHeight = r.endHeight
  totalSat : d.totalSat = r.totalSat.toInt64
  stakingTxHex : d.stakingTxHex = r.stakingTxHex
  stakingOutputIdx : d.stakingOutputIdx = r.stakingOutputIdx
  slashingTxHex : d.slashingTxHex = r.slashingTxHex
  unbondingTime : d.unbondingTime = r.unbondingTime.toUInt16
  paramsVersion : d.paramsVersion = r.paramsVersion
  stakeExpansion : d.stakeExpansion = r.stkExp.map fun e =>
    { previousStakingTxHashHex := e.previousStakingTxHashHex
      otherFundingTxOutHex := e.otherFundingTxOutHex }

/-- What chain parameters that are accepted hold, and what is kept of them. -/
structure ParamsOf (cp : ChainParams) (P : StakingParams) : Prop where
  minStakingTime_le : cp.minStakingTimeBlocks.toNat ≤ 65535
  maxStakingTime_le : cp.maxStakingTimeBlocks.toNat ≤ 65535
  minStakingTime : P.minStakingTime = cp.minStakingTimeBlocks.toUInt16
  maxStakingTime : P.maxStakingTime = cp.maxStakingTimeBlocks.toUInt16
  unbondingTimeBlocks : P.unbondingTimeBlocks = cp.unbondingTimeBlocks
  minStakingValue : P.minStakingValue = cp.minStakingValueSat
  maxStakingValue : P.maxStakingValue = cp.maxStakingValueSat
  unbondingFee : P.unbondingFee = cp.unbondingFeeSat

section
variable {lib : BabylonLib} {r : BTCDelegationResponse} {d : Delegation}

theorem convertsTo_of_delegationRespToDelegation (h : delegationRespToDelegation lib r = .ok d) :
    ConvertsTo lib r d := by
  unfold delegationRespToDelegation at h
  split at h
  · cases h
  rename_i hstaking
  split at h
  · cases h
  rename_i hslashing
  obtain ⟨sigs, hsigs, h⟩ := Outcome.bind_eq_ok.mp h
  obtain ⟨undel, hundel, h⟩ := Outcome.bind_eq_ok.mp h
  obtain ⟨fps, hfps, h⟩ := Outcome.bind_eq_ok.mp h
  split at h
  · cases h
  rename_i hunbond
  split at h
  · cases h
  rename_i htotal
  obtain ⟨pk, hpk, h⟩ := Outcome.bind_eq_ok.mp h
  cases h
  exact ⟨hstaking, hslashing, not_lt.mp hunbond, not_lt.mp htotal, hpk, hfps, hsigs, hundel,
    rfl, rfl, rfl, rfl, rfl, rfl, rfl, rfl, rfl, rfl⟩

theorem delegationRespToDelegation_of_convertsTo (h : ConvertsTo lib r d) :
    delegationRespToDelegation lib r = .ok d := by
  have hunbond : ¬ r.unbondingTime.toNat > 65535 := not_lt.mpr h.unbondingTime_le
  have htotal : ¬ r.totalSat.toNat > 2 ^ 63 - 1 := not_lt.mpr h.totalSat_le
  unfold delegationRespToDelegation
  rw [if_neg h.stakingTx_ne, if_neg h.slashingTx_ne, h.covenantSigs, h.btcUndelegation,
    h.fpBtcPks, h.btcPk]
  simp only [Outcome.bind_ok, if_neg hunbond, if_neg htotal, Outcome.pure_eq, ← h.stakingTime,
    ← h.startHeight, ← h.endHeight, ← h.totalSat, ← h.stakingTxHex, ← h.stakingOutputIdx,
    ← h.slashingTxHex, ← h.unbondingTime, ← h.paramsVersion, ← h.stakeExpansion]

/-- What a converted delegation keeps of its response. -/
theorem delegationRespToDelegation_ok (h : delegationRespToDelegation lib r = .ok d) :
    d.stakingTxHex = r.stakingTxHex ∧
      r.covenantSigs.mapM (covenantSigInfo lib) = .ok d.covenantSigs := by
  have hconv := convertsTo_of_delegationRespToDelegation h
  exact ⟨hconv.stakingTxHex, hconv.covenantSigs⟩

/-- The staking time is copied whatever it is. -/
theorem delegationRespToDelegation_stakingTime (h : delegationRespToDelegation lib r = .ok d)
    (t : UInt32) :
    delegationRespToDelegation lib { r with stakingTime := t } =
      .ok { d with stakingTime := t } := by
  have hconv := convertsTo_of_delegationRespToDelegation h
  exact delegationRespToDelegation_of_convertsTo { hconv with stakingTime := rfl }

theorem paramsOf_of_stakingParams {ckpt : CheckpointParams} {cp : ChainParams}
    {P : StakingParams} (h : stakingParams lib ckpt cp = .ok P) :
    ParamsOf cp P := by
  obtain ⟨pks, -, h⟩ := Outcome.bind_eq_ok.mp h
  split at h
  · cases h
  rename_i hmin
  split at h
  · cases h
  rename_i hmax
  cases h
  exact ⟨by omega, by omega, rfl, rfl, rfl, rfl, rfl, rfl⟩

end

end CovenantEmulator
