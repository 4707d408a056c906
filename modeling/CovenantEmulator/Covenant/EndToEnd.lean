import CovenantEmulator.Covenant.Tick
import CovenantEmulator.Signer.Refinement

/-! From the checks of the emulator to the signatures of the remote signer. -/
namespace CovenantEmulator

open Golang

/-- An adaptor signature of `sk` over `tx`, whose only input is output `idx` of `funding`, spent by
this script. -/
def AdaptorSigOver (lib : BabylonLib) (sk : PrivateKey) (script : Bytes) (tx funding : MsgTx)
    (idx : UInt32) (sig : Bytes) : Prop :=
  lib.Spends tx funding idx ∧ ∃ ek adaptor,
    lib.encSignTxWithOneScriptSpendInputStrict tx funding idx script sk ek = .ok adaptor ∧
      adaptor.mustMarshal = sig

/-- A signature of `sk` over `tx`, whose only input is output `idx` of `funding`, spent by this
script. -/
def SigOver (lib : BabylonLib) (sk : PrivateKey) (script : Bytes) (tx funding : MsgTx)
    (idx : UInt32) (sig : Signature) : Prop :=
  lib.Spends tx funding idx ∧
    lib.signTxWithOneScriptSpendInputStrict tx funding idx script sk = .ok sig

/-- The scripts of the three paths that the covenant signs for. -/
structure PathScripts where
  slashing : Bytes
  unbonding : Bytes
  unbondingSlashing : Bytes

/-- The entry signs the transactions of `d` that were checked under `P`, with one key and by the
scripts built from `d` and `P`. -/
structure SignedAsChecked (lib : BabylonLib) (net : NetParams) (d : Delegation)
    (P : StakingParams) (sk : PrivateKey) (scripts : PathScripts)
    (stakingTx slashingTx unbondingTx slashUnbondingTx : MsgTx) (entry : CovenantSigs) : Prop where
  decodesStaking : lib.newBTCTxFromHex d.stakingTxHex = .ok stakingTx
  decodesSlashing : ∃ bs, lib.newBTCSlashingTxFromHex d.slashingTxHex = .ok bs ∧
    lib.toMsgTx bs = .ok slashingTx
  decodesUndelegation : ∃ ud, d.btcUndelegation = some ud ∧
    lib.newBTCTxFromHex ud.unbondingTxHex = .ok unbondingTx ∧
    lib.newBTCTxFromHex ud.slashingTxHex = .ok slashUnbondingTx
  stakingTxHash : entry.stakingTxHash = lib.txHash stakingTx
  slashingSigs : ∀ sig ∈ entry.slashingSigs,
    AdaptorSigOver lib sk scripts.slashing slashingTx stakingTx d.stakingOutputIdx sig
  unbondingSig : SigOver lib sk scripts.unbonding unbondingTx stakingTx d.stakingOutputIdx
    entry.unbondingSig
  slashingUnbondingSigs : ∀ sig ∈ entry.slashingUnbondingSigs,
    AdaptorSigOver lib sk scripts.unbondingSlashing slashUnbondingTx unbondingTx 0 sig
  stakingPaths : ∃ info, StakingPaths lib net d P info scripts.slashing scripts.unbonding
  unbondingPath : ∃ unbonded info, unbondingTx.txOut[0]? = some unbonded ∧
    lib.buildUnbondingInfo d.btcPk d.fpBtcPks P.covenantPks P.covenantQuorum d.unbondingTime
      unbonded.value net = .ok info ∧
    info.slashingPathSpendInfo = .ok scripts.unbondingSlashing
  slashing : SlashingAccepted lib net d P slashingTx stakingTx d.stakingOutputIdx
  unbondingSlashing : SlashingAccepted lib net d P slashUnbondingTx unbondingTx 0
  fee : ∃ staked unbonded, stakingTx.txOut[d.stakingOutputIdx.toNat]? = some staked ∧
    unbondingTx.txOut[0]? = some unbonded ∧
    staked.value.toInt - unbonded.value.toInt = P.unbondingFee.toInt
  unbondingTime : d.unbondingTime.toNat = P.unbondingTimeBlocks.toNat
  stakingTime : P.minStakingTime.toNat ≤ d.stakingTime.toNat ∧
    d.stakingTime.toNat ≤ P.maxStakingTime.toNat
  totalSat : P.minStakingValue ≤ d.totalSat ∧ d.totalSat ≤ P.maxStakingValue

section
variable {lib : BabylonLib} {net : NetParams} {d : Delegation} {P : StakingParams}
  {req : SigningRequest}

/-- Between amounts the 64-bit difference is the difference. -/
theorem toInt_sub_of_amounts {a b : Int64} (ha : 0 ≤ a.toInt ∧ a.toInt ≤ BabylonLib.maxSatoshi)
    (hb : 0 ≤ b.toInt ∧ b.toInt ≤ BabylonLib.maxSatoshi) :
    (a - b).toInt = a.toInt - b.toInt := by
  unfold BabylonLib.maxSatoshi at ha hb
  rw [Int64.toInt_sub]
  exact Int.bmod_eq_of_le (by omega) (by omega)

/-- The unbonding fee is exact on the outputs themselves. -/
theorem Checked.fee_toInt (h : Checked lib net d P req) (hsanity : lib.ChecksSanity) :
    ∃ staked unbonded, req.stakingTx.txOut[d.stakingOutputIdx.toNat]? = some staked ∧
      req.unbondingTx.txOut[0]? = some unbonded ∧
      staked.value.toInt - unbonded.value.toInt = P.unbondingFee.toInt := by
  obtain ⟨staked, unbonded, hstaked, hunbonded, hfee⟩ := h.fee
  refine ⟨staked, unbonded, hstaked, hunbonded, ?_⟩
  rw [← hfee]
  exact (toInt_sub_of_amounts
    (hsanity.values h.slashing staked (List.mem_of_getElem? hstaked))
    (hsanity.values h.unbondingSlashing unbonded (List.mem_of_getElem? hunbonded))).symm

theorem Checked.stakingTime_toNat (h : Checked lib net d P req) :
    P.minStakingTime.toNat ≤ d.stakingTime.toNat ∧
      d.stakingTime.toNat ≤ P.maxStakingTime.toNat := by
  obtain ⟨t, ht, hmin, hmax⟩ := h.stakingTime
  rw [← Delegation.getStakingTime_toNat ht]
  exact ⟨UInt16.le_iff_toNat_le.mp hmin, UInt16.le_iff_toNat_le.mp hmax⟩

end

section
variable {σ : Type} {ce : Emulator σ} {rs : RemoteSigner σ} {d : Delegation} {P : StakingParams}
  {req : SigningRequest} {resp : SignaturesResponse} {s s' : σ}

variable (hlib : rs.srv.handler.s.lib = ce.lib) (hstrict : ce.lib.StrictSigners)
  (hsanity : ce.lib.ChecksSanity) (hser : SerializeUndone ce.lib)
  (hsigs : SignaturesSurvive ce.lib) (hundo : rs.srv.handler.codec.Undoes)
include hlib hstrict hsanity hser hsigs hundo

/-- What the remote signer signs for a checked request are the transactions of that request. -/
theorem signedAsChecked_of_remote (hchecked : Checked ce.lib ce.btcNetParams d P req)
    (hsign : rs.signTransactions req s = (.ok resp, s')) :
    ∃ sk, rs.srv.handler.s.pkr.privKey s = .ok sk ∧
      SignedAsChecked ce.lib ce.btcNetParams d P sk
        ⟨req.slashingPkScriptPath, req.stakingTxUnbondingPkScriptPath,
          req.unbondingTxSlashingPkScriptPath⟩
        req.stakingTx req.slashingTx req.unbondingTx req.slashUnbondingTx
        (ce.covenantSigsOf req resp) := by
  obtain ⟨r, hr, hconverted⟩ := signTransactions_remote_eq_ok.mp hsign
  obtain rfl := hconverted.eq_converted
  rw [← hlib] at hsigs
  obtain ⟨wire, p', hsent, hparsed, happ, -⟩ := requestCovenantSignaure_ok hundo hsigs hr
  obtain ⟨-, sk, hsk, hwith⟩ := rs.srv.handler.s.signTransactions_eq_ok.mp happ
  rw [hlib] at hsent hparsed hwith
  obtain ⟨hstaking, hslashing⟩ := hsanity.inputs hchecked.slashing
  obtain ⟨hunbonding, hslashUnbonding⟩ := hsanity.inputs hchecked.unbondingSlashing
  have hsame : SameSpends (directRequest req) p' :=
    parseSigningRequest_sameSpends (fun _ => hser hstaking) (fun _ => hser hslashing)
      (fun _ => hser hunbonding) (fun _ => hser hslashUnbonding) hsent hparsed
  obtain ⟨hslash, hslashUnbond, hunbond⟩ := signWith_ok hwith
  have hidx : p'.stakingOutputIdx = d.stakingOutputIdx :=
    hsame.stakingOutputIdx.trans hchecked.stakingOutputIdx
  rw [hsame.slashingTx, hsame.stakingTx, hidx, hsame.slashingScript] at hslash
  rw [hsame.slashUnbondingTx, hsame.unbondingTx, hsame.unbondingSlashingScript] at hslashUnbond
  rw [hsame.unbondingTx, hsame.stakingTx, hidx, hsame.unbondingScript] at hunbond
  refine ⟨sk, hsk, ?_⟩
  exact
    { decodesStaking := hchecked.stakingTx
      decodesSlashing := hchecked.slashingTx
      decodesUndelegation := hchecked.undelegation
      stakingTxHash := rfl
      slashingSigs := fun sig hsig => by
        obtain ⟨ek, adaptor, hadaptor, rfl⟩ := hslash sig hsig
        exact ⟨hstrict.encSign hadaptor, ek, adaptor, hadaptor, rfl⟩
      unbondingSig := ⟨hstrict.sign hunbond, hunbond⟩
      slashingUnbondingSigs := fun sig hsig => by
        obtain ⟨ek, adaptor, hadaptor, rfl⟩ := hslashUnbond sig hsig
        exact ⟨hstrict.encSign hadaptor, ek, adaptor, hadaptor, rfl⟩
      stakingPaths := hchecked.stakingPaths
      unbondingPath := hchecked.unbondingPath
      slashing := hchecked.slashing
      unbondingSlashing := hchecked.unbondingSlashing
      fee := hchecked.fee_toInt hsanity
      unbondingTime := hchecked.unbondingTime_toNat
      stakingTime := hchecked.stakingTime_toNat
      totalSat := hchecked.totalSat }

/-- Every entry submitted signs what was checked, for a delegation of the list. -/
theorem submitted_signed_as_checked (hsigner : ce.signer = rs.signTransactions)
    {btcDels : List (Option Delegation)} {env : σ} {cache : UInt32 → Option StakingParams}
    {o : Outcome TxResponse} {w' : World σ}
    (hrun : ce.addCovenantSignatures btcDels ⟨env, cache, []⟩ = (o, w'))
    {sigs : List CovenantSigs} {entry : CovenantSigs} (hmem : Event.submitting sigs ∈ w'.trace)
    (hentry : entry ∈ sigs) :
    ∃ d P sk scripts stakingTx slashingTx unbondingTx slashUnbondingTx, some d ∈ btcDels ∧
      w'.paramsByVersion d.paramsVersion = some P ∧
      (∃ s, rs.srv.handler.s.pkr.privKey s = .ok sk) ∧
      SignedAsChecked ce.lib ce.btcNetParams d P sk scripts stakingTx slashingTx unbondingTx
        slashUnbondingTx entry := by
  cases justified_of_run hrun hmem with
  | submitting hsigned =>
    obtain ⟨d, req, resp, s, s', hd, happr, hsign, rfl⟩ := hsigned entry hentry
    obtain ⟨P, hP, hchecked⟩ := happr.checked
    rw [hsigner] at hsign
    obtain ⟨sk, hsk, hsigned⟩ :=
      signedAsChecked_of_remote hlib hstrict hsanity hser hsigs hundo hchecked hsign
    exact ⟨d, P, sk, _, _, _, _, _, hd, hP, ⟨s, hsk⟩, hsigned⟩

end

theorem table_serializeUndone (t : TxTable) : SerializeUndone t.lib := by
  intro tx bs _ hser
  obtain ⟨⟨k, hk, rfl⟩, rfl⟩ := serialize_eq_ok.mp hser
  exact deserialize_wire hk

namespace Sample

theorem submits_plain : ∃ o w' entry,
    (emulator (node []) plainRemote.signTransactions).addCovenantSignatures
        [some plainDelegation] (world () 10000) = (o, w') ∧
      Event.submitting [entry] ∈ w'.trace := by
  have hrun := addCovenantSignatures_of_passes (passes_plain (node []) (remote_plain ()))
  have hmem := submitting_mem_trace ((world () 10000).signed plainDelegation plainRequest ())
    (node []) [(emulator (node []) plainRemote.signTransactions).covenantSigsOf plainRequest
      (signerResponseToCovenantResponse (signatures none))]
  exact ⟨_, _, _, hrun, hmem⟩

/-- The emulator with the remote signer submits one entry, over the transactions it checked. -/
theorem plain_signed_as_checked : ∃ o w' entry,
    (emulator (node []) plainRemote.signTransactions).addCovenantSignatures
        [some plainDelegation] (world () 10000) = (o, w') ∧
      Event.submitting [entry] ∈ w'.trace ∧
      ∃ d P sk scripts stakingTx slashingTx unbondingTx slashUnbondingTx,
        some d ∈ [some plainDelegation] ∧ w'.paramsByVersion d.paramsVersion = some P ∧
        (∃ s : Unit, plainRemote.srv.handler.s.pkr.privKey s = .ok sk) ∧
        SignedAsChecked lib .signet d P sk scripts stakingTx slashingTx unbondingTx
          slashUnbondingTx entry := by
  obtain ⟨o, w', entry, hrun, hmem⟩ := submits_plain
  have hsigner : (emulator (node []) plainRemote.signTransactions).signer =
      plainRemote.signTransactions := rfl
  exact ⟨_, _, _, hrun, hmem, submitted_signed_as_checked rfl (table_strictSigners table)
    (table_checksSanity table) (table_serializeUndone table) (table_signaturesSurvive table)
    (codec_undoes _ _) hsigner hrun hmem List.mem_cons_self⟩

end Sample

end CovenantEmulator
