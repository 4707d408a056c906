import CovenantEmulator.Covenant.EndToEnd
import CovenantEmulator.Covenant.Quorum
import CovenantEmulator.Covenant.Resigning

/-! The comparisons of the loop body against the same ones on integers of any size. -/
namespace CovenantEmulator

open Golang

/-- `CheckSlashingTxMatchFundingTx` accepts only funding transactions with amounts as values. -/
def BabylonLib.ChecksValues (lib : BabylonLib) : Prop :=
  ∀ {slashing funding idx fee rate script pk lock net},
    lib.checkSlashingTxMatchFundingTx slashing funding idx fee rate script pk lock net = .ok () →
    ∀ out ∈ funding.txOut, 0 ≤ out.value.toInt ∧ out.value.toInt ≤ maxSatoshi

section
variable (lib : BabylonLib) (r : BTCDelegationResponse) (cp : ChainParams) (d : Delegation)
  (P : StakingParams) (net : NetParams)

/-- The request once the fee has been checked. -/
def requestAfterFee (stakingTx slashingTx unbondingTx slashUnbondingTx : MsgTx) :
    Outcome SigningRequest := do
  let fpsEncKeys ← (fpEncKeysFromDel lib d).wrap
    ("failed to encript the finality provider keys of the btc delegation: " ++ ·)
  let (slash, unbond, unbondSlash) ← (pkScriptPaths lib d P net unbondingTx).wrap
    ("failed to generate pk script path: " ++ ·)
  pure
    { stakingTx := stakingTx
      slashingTx := slashingTx
      unbondingTx := unbondingTx
      slashUnbondingTx := slashUnbondingTx
      stakeExp := none
      stakingOutputIdx := d.stakingOutputIdx
      slashingPkScriptPath := slash
      stakingTxUnbondingPkScriptPath := unbond
      unbondingTxSlashingPkScriptPath := unbondSlash
      fpEncKeys := fpsEncKeys }

/-- `generateSigningRequest` with its fee compared as an integer. -/
def generateSigningRequestExact : Outcome SigningRequest := do
  let (stakingTx, slashingTx) ← (decodeDelegationTransactions lib d P net).wrap
    ("invalid delegation: " ++ ·)
  let (unbondingTx, slashUnbondingTx) ←
    (decodeUndelegationTransactions lib d P net).wrap ("invalid undelegation: " ++ ·)
  let stakingOutput ← .index stakingTx.txOut d.stakingOutputIdx.toNat
  let unbondingOutput ← .index unbondingTx.txOut 0
  if stakingOutput.value.toInt - unbondingOutput.value.toInt ≠ cp.unbondingFeeSat.toInt then
    .error "invalid unbonding fee"
  else requestAfterFee lib d P net stakingTx slashingTx unbondingTx slashUnbondingTx

/-- `checkDelegation` with its comparisons made on the fields of the chain as integers. -/
def checkDelegationExact : Outcome SigningRequest := do
  let hasQuorum ← d.hasCovenantQuorum P.covenantQuorum
  if hasQuorum then .error "covenant signatures already fulfilled"
  else if r.unbondingTime.toNat ≠ cp.unbondingTimeBlocks.toNat then
    .error "invalid unbonding time"
  else if r.stakingTime.toNat < cp.minStakingTimeBlocks.toNat ∨
      r.stakingTime.toNat > cp.maxStakingTimeBlocks.toNat then
    .error "invalid staking time"
  else if (r.totalSat.toNat : ℤ) < cp.minStakingValueSat.toInt ∨
      (r.totalSat.toNat : ℤ) > cp.maxStakingValueSat.toInt then
    .error "invalid staking value"
  else generateSigningRequestExact lib cp d P net

/-- The fee check compares these two outputs. -/
def FeeOutputs (staked unbonded : TxOut) : Prop :=
  ∃ stakingTx slashingTx unbondingTx slashUnbondingTx,
    decodeDelegationTransactions lib d P net = .ok (stakingTx, slashingTx) ∧
    decodeUndelegationTransactions lib d P net = .ok (unbondingTx, slashUnbondingTx) ∧
    stakingTx.txOut[d.stakingOutputIdx.toNat]? = some staked ∧
    unbondingTx.txOut[0]? = some unbonded

/-- The check of the staking time is made. -/
def ReachesStakingTime : Prop :=
  d.hasCovenantQuorum P.covenantQuorum = .ok false ∧
    d.unbondingTime.toUInt32 = P.unbondingTimeBlocks

/-- No conversion and no subtraction on the way to a check changes a number. -/
structure NoneWraps : Prop where
  unbondingTime : d.unbondingTime.toNat = r.unbondingTime.toNat
  unbondingTimeBlocks : P.unbondingTimeBlocks.toNat = cp.unbondingTimeBlocks.toNat
  stakingTime : ReachesStakingTime d P →
    ∃ t, d.getStakingTime = .ok t ∧ t.toNat = r.stakingTime.toNat
  minStakingTime : P.minStakingTime.toNat = cp.minStakingTimeBlocks.toNat
  maxStakingTime : P.maxStakingTime.toNat = cp.maxStakingTimeBlocks.toNat
  totalSat : d.totalSat.toInt = r.totalSat.toNat
  unbondingFee : ∀ staked unbonded, FeeOutputs lib d P net staked unbonded →
    (staked.value - unbonded.value).toInt = staked.value.toInt - unbonded.value.toInt

/-- The four checks come out as on integers, and so does the decision they lead to. -/
structure SameOutcomes : Prop where
  unbondingTime : d.unbondingTime.toUInt32 ≠ P.unbondingTimeBlocks ↔
    r.unbondingTime.toNat ≠ cp.unbondingTimeBlocks.toNat
  stakingTime : ∀ t, d.getStakingTime = .ok t →
    ((t < P.minStakingTime ∨ t > P.maxStakingTime) ↔
      r.stakingTime.toNat < cp.minStakingTimeBlocks.toNat ∨
        r.stakingTime.toNat > cp.maxStakingTimeBlocks.toNat)
  stakingValue : (d.totalSat < P.minStakingValue ∨ d.totalSat > P.maxStakingValue) ↔
    (r.totalSat.toNat : ℤ) < cp.minStakingValueSat.toInt ∨
      (r.totalSat.toNat : ℤ) > cp.maxStakingValueSat.toInt
  unbondingFee : ∀ staked unbonded, FeeOutputs lib d P net staked unbonded →
    (staked.value - unbonded.value ≠ P.unbondingFee ↔
      staked.value.toInt - unbonded.value.toInt ≠ cp.unbondingFeeSat.toInt)
  decision : checkDelegation lib d P net = checkDelegationExact lib r cp d P net

end

section
variable {lib : BabylonLib} {r : BTCDelegationResponse} {cp : ChainParams} {ckpt : CheckpointParams}
  {d : Delegation} {P : StakingParams} {net : NetParams}

theorem toNat_toUInt16_of_le {n : UInt32} (h : n.toNat ≤ 65535) : n.toUInt16.toNat = n.toNat := by
  rw [UInt32.toNat_toUInt16]
  exact Nat.mod_eq_of_lt (by omega)

theorem toInt_toInt64_of_le {n : UInt64} (h : n.toNat ≤ 2 ^ 63 - 1) :
    n.toInt64.toInt = n.toNat := by
  have hlt : n.toNat < 2 ^ 63 := by omega
  rw [← Int64.toInt_ofNat_of_lt hlt, ← UInt64.toInt64_ofNat', UInt64.ofNat_toNat]

/-- Both outputs come from transactions whose values were checked. -/
theorem FeeOutputs.toInt_sub {staked unbonded : TxOut} (hvalues : lib.ChecksValues)
    (h : FeeOutputs lib d P net staked unbonded) :
    (staked.value - unbonded.value).toInt = staked.value.toInt - unbonded.value.toInt := by
  obtain ⟨stakingTx, slashingTx, unbondingTx, slashUnbondingTx, hdel, hundel, hstaked,
    hunbonded⟩ := h
  obtain ⟨-, -, haccepted⟩ := decodeDelegationTransactions_ok hdel
  obtain ⟨-, haccepted'⟩ := decodeUndelegationTransactions_ok hundel
  exact toInt_sub_of_amounts (hvalues haccepted staked (List.mem_of_getElem? hstaked))
    (hvalues haccepted' unbonded (List.mem_of_getElem? hunbonded))

/-- A check that did not panic has narrowed a staking time that fits. -/
theorem stakingTime_narrows (hpanics : ¬ (checkDelegation lib d P net).Panics)
    (hreach : ReachesStakingTime d P) : ∃ t, d.getStakingTime = .ok t := by
  rcases ht : d.getStakingTime with t | e | p | _
  · exact ⟨t, rfl⟩
  · exact (d.getStakingTime_ne_error e ht).elim
  · exfalso
    apply hpanics
    unfold checkDelegation
    rw [hreach.1, ht]
    simp [hreach.2, Outcome.Panics]
  · exact (d.getStakingTime_ne_diverged ht).elim

theorem noneWraps (hvalues : lib.ChecksValues) (hd : ConvertsTo lib r d) (hP : ParamsOf cp P)
    (hpanics : ¬ (checkDelegation lib d P net).Panics) : NoneWraps lib r cp d P net where
  unbondingTime := by
    rw [hd.unbondingTime]
    exact toNat_toUInt16_of_le hd.unbondingTime_le
  unbondingTimeBlocks := by rw [hP.unbondingTimeBlocks]
  stakingTime hreach := by
    obtain ⟨t, ht⟩ := stakingTime_narrows hpanics hreach
    refine ⟨t, ht, ?_⟩
    rw [Delegation.getStakingTime_toNat ht, hd.stakingTime]
  minStakingTime := by
    rw [hP.minStakingTime]
    exact toNat_toUInt16_of_le hP.minStakingTime_le
  maxStakingTime := by
    rw [hP.maxStakingTime]
    exact toNat_toUInt16_of_le hP.maxStakingTime_le
  totalSat := by
    rw [hd.totalSat]
    exact toInt_toInt64_of_le hd.totalSat_le
  unbondingFee _ _ h := h.toInt_sub hvalues

/-- The fee check is the only difference. -/
theorem generateSigningRequest_exact
    (hfee : ∀ staked unbonded, FeeOutputs lib d P net staked unbonded →
      (staked.value - unbonded.value ≠ P.unbondingFee ↔
        staked.value.toInt - unbonded.value.toInt ≠ cp.unbondingFeeSat.toInt)) :
    generateSigningRequest lib d P net = generateSigningRequestExact lib cp d P net := by
  refine Outcome.bind_congr_of_ok fun ⟨stakingTx, slashingTx⟩ hdel => ?_
  refine Outcome.bind_congr_of_ok fun ⟨unbondingTx, slashUnbondingTx⟩ hundel => ?_
  refine Outcome.bind_congr_of_ok fun staked hstaked => ?_
  refine Outcome.bind_congr_of_ok fun unbonded hunbonded => ?_
  rw [Outcome.wrap_eq_ok] at hdel hundel
  rw [Outcome.index_eq_ok] at hstaked hunbonded
  exact if_congr (hfee staked unbonded ⟨_, _, _, _, hdel, hundel, hstaked, hunbonded⟩) rfl rfl

theorem sameOutcomes (hd : ConvertsTo lib r d) (hP : ParamsOf cp P)
    (h : NoneWraps lib r cp d P net) : SameOutcomes lib r cp d P net := by
  have hunbonding : d.unbondingTime.toUInt32 ≠ P.unbondingTimeBlocks ↔
      r.unbondingTime.toNat ≠ cp.unbondingTimeBlocks.toNat := by
    rw [ne_eq, ← UInt32.toNat_inj, UInt16.toNat_toUInt32, h.unbondingTime, h.unbondingTimeBlocks]
  have hstaking : ∀ t, d.getStakingTime = .ok t →
      ((t < P.minStakingTime ∨ t > P.maxStakingTime) ↔
        r.stakingTime.toNat < cp.minStakingTimeBlocks.toNat ∨
          r.stakingTime.toNat > cp.maxStakingTimeBlocks.toNat) := by
    intro t ht
    rw [gt_iff_lt, UInt16.lt_iff_toNat_lt, UInt16.lt_iff_toNat_lt,
      Delegation.getStakingTime_toNat ht, hd.stakingTime, h.minStakingTime, h.maxStakingTime]
  have hvalue : (d.totalSat < P.minStakingValue ∨ d.totalSat > P.maxStakingValue) ↔
      (r.totalSat.toNat : ℤ) < cp.minStakingValueSat.toInt ∨
        (r.totalSat.toNat : ℤ) > cp.maxStakingValueSat.toInt := by
    rw [gt_iff_lt, Int64.lt_iff_toInt_lt, Int64.lt_iff_toInt_lt, h.totalSat, hP.minStakingValue,
      hP.maxStakingValue]
  have hfee : ∀ staked unbonded, FeeOutputs lib d P net staked unbonded →
      (staked.value - unbonded.value ≠ P.unbondingFee ↔
        staked.value.toInt - unbonded.value.toInt ≠ cp.unbondingFeeSat.toInt) := by
    intro staked unbonded houtputs
    rw [ne_eq, ← Int64.toInt_inj, h.unbondingFee staked unbonded houtputs, hP.unbondingFee]
  refine ⟨hunbonding, hstaking, hvalue, hfee, ?_⟩
  refine Outcome.bind_congr_of_ok fun hasQuorum hquorum => ?_
  cases hasQuorum with
  | true => rfl
  | false =>
    refine if_congr Iff.rfl rfl (if_ctx_congr hunbonding (fun _ => rfl) fun hsame => ?_)
    have hreach : ReachesStakingTime d P :=
      ⟨hquorum, not_not.mp fun hne => hsame (hunbonding.mp hne)⟩
    obtain ⟨t, ht, -⟩ := h.stakingTime hreach
    rw [ht, Outcome.bind_ok]
    exact if_congr (hstaking t ht) rfl (if_congr hvalue rfl (generateSigningRequest_exact hfee))

section
variable {σ : Type} {ce : Emulator σ} {w wd w₁ : World σ} {btcDels : List (Option Delegation)}

/-- A run that does not panic has not panicked at any delegation it came to. -/
theorem Emulator.Reaches.not_panics (hreach : ce.Reaches w btcDels d wd)
    (hrun : ¬ (ce.addCovenantSignatures btcDels w).1.Panics) :
    ¬ (ce.addCovenantSignature (some d) wd).1.Panics := by
  obtain ⟨before, after, sigs, rfl, hbefore⟩ := hreach
  intro hbody
  apply hrun
  unfold Emulator.addCovenantSignatures
  rw [if_neg (by simp)]
  refine Go.bind_panics.mpr (Or.inl (Go.foldlM_panics.mpr ⟨before, some d, after, sigs, wd, rfl,
    hbefore, ?_⟩))
  exact Go.bind_panics.mpr (Or.inl hbody)

theorem checkDelegation_not_panics {ud : Undelegation} (hud : d.btcUndelegation = some ud)
    (hP : paramsGet ce.retry ce.cc d.paramsVersion wd = (.ok P, w₁))
    (hbody : ¬ (ce.addCovenantSignature (some d) wd).1.Panics) :
    ¬ (checkDelegation ce.lib d P ce.btcNetParams).Panics := by
  intro hcheck
  apply hbody
  rw [ce.addCovenantSignature_some hud, Go.bind_of_ok (Go.wrap_eq_ok.mpr hP), Go.attempt_panics]
  exact Go.bind_panics.mpr (Or.inl (Go.lift_panics.mpr hcheck))

/-- The four checks of a run that does not panic come out as they would on integers of any size,
for every delegation and all parameters that the conversions from the chain accept. -/
theorem widths_change_no_decision (ce : Emulator σ) (hvalues : ce.lib.ChecksValues)
    {r : BTCDelegationResponse} {d : Delegation} {ud : Undelegation} {ckpt : CheckpointParams}
    {cp : ChainParams} {P : StakingParams} {btcDels : List (Option Delegation)} {w wd w₁ : World σ}
    (hconv : delegationRespToDelegation ce.lib r = .ok d)
    (hparams : stakingParams ce.lib ckpt cp = .ok P)
    (hrun : ¬ (ce.addCovenantSignatures btcDels w).1.Panics) (hreach : ce.Reaches w btcDels d wd)
    (hud : d.btcUndelegation = some ud)
    (hP : paramsGet ce.retry ce.cc d.paramsVersion wd = (.ok P, w₁)) :
    NoneWraps ce.lib r cp d P ce.btcNetParams ∧ SameOutcomes ce.lib r cp d P ce.btcNetParams := by
  have hd := convertsTo_of_delegationRespToDelegation hconv
  have hcp := paramsOf_of_stakingParams hparams
  have hpanics := checkDelegation_not_panics hud hP (hreach.not_panics hrun)
  have hwraps := noneWraps hvalues hd hcp hpanics
  exact ⟨hwraps, sameOutcomes hd hcp hwraps⟩

end

end

namespace Sample

theorem stakingParams_chainParams :
    stakingParams lib ⟨10, 100⟩ chainParams = .ok (params 10000) := by
  have hkey : ∀ x, lib.parsePubKey (serializePubKey (key x)) = .ok (key x) := fun x =>
    table_liftsToEven table (key x)
  simp only [stakingParams, chainParams, committee, List.map_cons, List.map_nil, List.mapM_cons,
    List.mapM_nil, hkey]
  rfl

/-- The sample delegation, signed over the parameters of its chain. -/
theorem plain_widths :
    NoneWraps lib (plainResponse []) chainParams plainDelegation (params 10000) .signet ∧
      SameOutcomes lib (plainResponse []) chainParams plainDelegation (params 10000) .signet := by
  have hvalues : babylonEmulator.lib.ChecksValues := (table_checksSanity table).values
  have hpasses := passes_plain babylon.toClientController
    (signer_of_signWith signWith_plain start.env)
  have hrun : ¬ (babylonEmulator.addCovenantSignatures [some plainDelegation] start).1.Panics := by
    rw [addCovenantSignatures_of_passes hpasses]
    exact id
  have hreach : babylonEmulator.Reaches start [some plainDelegation] plainDelegation start :=
    ⟨[], [], [], rfl, rfl⟩
  exact widths_change_no_decision babylonEmulator hvalues delegationRespToDelegation_plain
    stakingParams_chainParams hrun hreach rfl rfl

end Sample

end CovenantEmulator
