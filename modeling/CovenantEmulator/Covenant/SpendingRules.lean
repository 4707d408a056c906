import CovenantEmulator.Sample

/-! The spending rules: the outputs of the transactions that are signed, and the outputs built from
the metadata of the delegation. -/
namespace CovenantEmulator

open Golang

section
variable (lib : BabylonLib) (net : NetParams) (d : Delegation) (P : StakingParams)

def StakingBuilt (info : StakingInfo) : Prop :=
  ∃ t, d.getStakingTime = .ok t ∧ lib.buildStakingInfo d.btcPk d.fpBtcPks P.covenantPks
    P.covenantQuorum t d.totalSat net = .ok info

def UnbondingBuilt (time : UInt16) (amount : Int64) (info : UnbondingInfo) : Prop :=
  lib.buildUnbondingInfo d.btcPk d.fpBtcPks P.covenantPks P.covenantQuorum time amount net =
    .ok info

/-- The output pays to the script built with this unbonding time. -/
def LockedFor (time : UInt16) (out : TxOut) : Prop :=
  ∃ info, UnbondingBuilt lib net d P time out.value info ∧
    out.pkScript = info.unbondingOutput.pkScript

/-- The rules hold of the transactions of a request: the staking output is the one built from the
metadata, with a value in bounds, and the unbonding output is locked for the unbonding time of the
parameters. -/
structure SpendingRules (req : SigningRequest) : Prop where
  staking : ∃ info, StakingBuilt lib net d P info ∧
    req.stakingTx.txOut[d.stakingOutputIdx.toNat]? = some info.stakingOutput
  stakedValue : ∃ staked, req.stakingTx.txOut[d.stakingOutputIdx.toNat]? = some staked ∧
    P.minStakingValue ≤ staked.value ∧ staked.value ≤ P.maxStakingValue
  unbonding : ∃ out, req.unbondingTx.txOut[0]? = some out ∧
    LockedFor lib net d P d.unbondingTime out
  unbondingTime : d.unbondingTime.toNat = P.unbondingTimeBlocks.toNat

/-- The outputs of the delegation's own transactions are those built from its metadata. -/
structure OutputsAsBuilt : Prop where
  staking : ∃ tx info, lib.newBTCTxFromHex d.stakingTxHex = .ok tx ∧
    StakingBuilt lib net d P info ∧ tx.txOut[d.stakingOutputIdx.toNat]? = some info.stakingOutput
  unbonding : ∃ ud tx out, d.btcUndelegation = some ud ∧
    lib.newBTCTxFromHex ud.unbondingTxHex = .ok tx ∧ tx.txOut[0]? = some out ∧
    LockedFor lib net d P d.unbondingTime out

end

section
variable {lib : BabylonLib} {net : NetParams} {d : Delegation} {P : StakingParams}
  {req : SigningRequest}

/-- The checks pass the transactions on as they are, so the rules hold exactly if they hold of the
delegation's own. -/
theorem spendingRules_iff_of_checked (hamount : lib.BuildsAmount) (h : Checked lib net d P req) :
    SpendingRules lib net d P req ↔ OutputsAsBuilt lib net d P := by
  obtain ⟨ud, hud, hunbondingTx, -⟩ := h.undelegation
  constructor
  · intro hrules
    obtain ⟨info, hbuilt, hstaked⟩ := hrules.staking
    obtain ⟨out, hout, hlocked⟩ := hrules.unbonding
    exact
      { staking := ⟨req.stakingTx, info, h.stakingTx, hbuilt, hstaked⟩
        unbonding := ⟨ud, req.unbondingTx, out, hud, hunbondingTx, hout, hlocked⟩ }
  · intro houtputs
    obtain ⟨tx, info, htx, hbuilt, hstaked⟩ := houtputs.staking
    obtain ⟨ud', utx, out, hud', hutx, hout, hlocked⟩ := houtputs.unbonding
    obtain rfl : req.stakingTx = tx := by simpa [h.stakingTx] using htx
    obtain rfl : ud = ud' := by simpa [hud] using hud'
    obtain rfl : req.unbondingTx = utx := by simpa [hunbondingTx] using hutx
    have hvalue : info.stakingOutput.value = d.totalSat := by
      obtain ⟨t, -, hinfo⟩ := hbuilt
      exact hamount hinfo
    exact
      { staking := ⟨info, hbuilt, hstaked⟩
        stakedValue := ⟨info.stakingOutput, hstaked, hvalue ▸ h.totalSat⟩
        unbonding := ⟨out, hout, hlocked⟩
        unbondingTime := h.unbondingTime_toNat }

end

/-- The outputs are never compared with the built ones: a request that is sent follows the rules
exactly if the outputs of the delegation's own transactions are as built. -/
theorem signing_spendingRules_iff {σ : Type} (ce : Emulator σ) (hamount : ce.lib.BuildsAmount)
    {btcDels : List (Option Delegation)} {env : σ} {cache : UInt32 → Option StakingParams}
    {o : Outcome TxResponse} {w' : World σ}
    (hrun : ce.addCovenantSignatures btcDels ⟨env, cache, []⟩ = (o, w'))
    {d : Delegation} {req : SigningRequest} (hmem : Event.signing d req ∈ w'.trace) :
    some d ∈ btcDels ∧ ∃ P, w'.paramsByVersion d.paramsVersion = some P ∧
      (SpendingRules ce.lib ce.btcNetParams d P req ↔
        OutputsAsBuilt ce.lib ce.btcNetParams d P) := by
  cases justified_of_run hrun hmem with
  | signing hd happr =>
    obtain ⟨P, hP, hchecked⟩ := happr.checked
    exact ⟨hd, P, hP, spendingRules_iff_of_checked hamount hchecked⟩

namespace Sample

theorem outputsAsBuilt_plain : OutputsAsBuilt lib .signet plainDelegation (params 10000) where
  staking := ⟨stakingTx, _, checked_plain.stakingTx, ⟨_, rfl, rfl⟩, rfl⟩
  unbonding := by
    obtain ⟨ud, hud, hunbondingTx, -⟩ := checked_plain.undelegation
    exact ⟨ud, unbondingTx, _, hud, hunbondingTx, rfl, _, rfl, rfl⟩

/-- The request for the plain delegation follows the rules. -/
theorem plain_spendingRules : ∃ o w',
    (emulator (node []) signer).addCovenantSignatures [some plainDelegation] (world () 10000) =
        (o, w') ∧ Event.signing plainDelegation plainRequest ∈ w'.trace ∧
      SpendingRules lib .signet plainDelegation (params 10000) plainRequest := by
  have hrun := addCovenantSignatures_of_passes (passes_plain (node [])
    (signer_of_signWith signWith_plain ()))
  have hmem := signing_mem_trace (world () 10000) plainDelegation plainRequest () (node [])
    [(emulator (node []) signer).covenantSigsOf plainRequest
      (signerResponseToCovenantResponse (signatures none))]
  obtain ⟨-, P, hP, hiff⟩ := signing_spendingRules_iff _ (table_buildsAmount table) hrun hmem
  obtain rfl : params 10000 = P := Option.some.inj hP
  exact ⟨_, _, hrun, hmem, hiff.mpr outputsAsBuilt_plain⟩

/-- An amount in the metadata that the staking transaction does not carry, and an unbonding
transaction that locks nothing. -/
def mismatchedDelegation : Delegation :=
  delegation stakingTx slashingTx walletUnbondingTx walletSlashUnbondingTx 150000 none

def mismatchedRequest : SigningRequest :=
  request stakingTx slashingTx walletUnbondingTx walletSlashUnbondingTx

theorem checked_mismatched :
    Checked lib .signet mismatchedDelegation (params 120000) mismatchedRequest :=
  checked_delegation (by decide) rfl rfl rfl rfl (by decide) (by decide) (by decide) (by decide)
    (by decide)

theorem signWith_mismatched :
    signWith lib signingKey (covenantRequestToSignerRequest mismatchedRequest) =
      .ok (signatures none) := rfl

theorem passes_mismatched {σ : Type} (cc : ClientController σ)
    {signer : SigningRequest → Go σ SignaturesResponse} {env env' : σ} {resp : SignaturesResponse}
    (h : signer mismatchedRequest env = (.ok resp, env')) :
    Passes (emulator cc signer) mismatchedDelegation (world env 120000) (world env 120000)
      mismatchedRequest resp env' where
  undelegation := ⟨_, rfl⟩
  request := ⟨params 120000, mismatchedRequest, rfl,
    checkDelegation_of_checked checked_mismatched rfl, by rw [withStakeExp_plain rfl]; rfl⟩
  signer := h

/-- A request is sent for a stake below the minimum that unbonds to the staker's wallet at once. -/
theorem mismatched_outputs_signed : ∃ o w',
    (emulator (node []) signer).addCovenantSignatures [some mismatchedDelegation]
        (world () 120000) = (o, w') ∧
      Event.signing mismatchedDelegation mismatchedRequest ∈ w'.trace ∧
      w'.paramsByVersion mismatchedDelegation.paramsVersion = some (params 120000) ∧
      ¬ SpendingRules lib .signet mismatchedDelegation (params 120000) mismatchedRequest ∧
      (∀ staked ∈ stakingTx.txOut[0]?, staked.value < (params 120000).minStakingValue) ∧
      ∀ out ∈ walletUnbondingTx.txOut[0]?, ∀ t,
        ¬ LockedFor lib .signet mismatchedDelegation (params 120000) t out := by
  have hlocked : ∀ out ∈ walletUnbondingTx.txOut[0]?, ∀ t,
      ¬ LockedFor lib .signet mismatchedDelegation (params 120000) t out := by
    rintro out ⟨rfl⟩ t ⟨info, hinfo, hscript⟩
    cases hinfo
    exact absurd hscript (show walletScript ≠ unbondingScript by decide)
  refine ⟨_, _, addCovenantSignatures_of_passes
    (passes_mismatched _ (signer_of_signWith signWith_mismatched ())),
    signing_mem_trace _ _ _ _ _ _, rfl, fun h => ?_, ?_, hlocked⟩
  · obtain ⟨out, hout, hlock⟩ := h.unbonding
    exact hlocked out hout _ hlock
  · rintro staked ⟨rfl⟩
    decide

end Sample

end CovenantEmulator
