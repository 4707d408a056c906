import CovenantEmulator.Types

/-! The checks on one delegation that need no query, and the request they allow. -/
namespace CovenantEmulator

open Golang

section
variable (lib : BabylonLib)

def stakeExpValidateBasic (btcDel : Delegation) : Outcome TxOut :=
  match btcDel.stakeExpansion with
  | none => .error "stake expansion is nil in the delegation"
  | some stakeExpansion => do
    let stkExpandTx ← .ofExcept (lib.newBTCTxFromHex btcDel.stakingTxHex)
    match stkExpandTx.txIn with
    | [first, _] =>
      let previousActiveStkTxHash ←
        .ofExcept (lib.newHashFromStr stakeExpansion.previousStakingTxHashHex)
      if first.previousOutPoint.hash ≠ previousActiveStkTxHash then
        .error ("stake expansion first input must be the previous staking transaction hash " ++
          stakeExpansion.previousStakingTxHashHex)
      else
        let otherOutput ← .ofExcept (stakeExpansion.otherFundingTxOut lib)
        if otherOutput.value ≤ 0 then
          .error ("funding output has invalid value " ++ toString otherOutput.value)
        else pure otherOutput
    | _ => .error "stake expansion must have 2 inputs (TxIn)"

def encKeyOf (fpPk : PublicKey) : Outcome EncryptionKey :=
  (Outcome.ofExcept (lib.newEncryptionKeyFromBTCPK fpPk)).wrap
    ("failed to get encryption key from finality provider public key " ++
      Hex.encodeToString (serializePubKey fpPk) ++ ": " ++ ·)

def fpEncKeysFromDel (btcDel : Delegation) : Outcome (List EncryptionKey) :=
  btcDel.fpBtcPks.mapM (encKeyOf lib)

def pkScriptPathUnbondingSlash (del : Delegation) (unbondingTx : MsgTx) (params : StakingParams)
    (btcNet : NetParams) : Outcome Bytes := do
  let unbondingOutput ← .index unbondingTx.txOut 0
  let unbondingInfo ← .ofExcept (lib.buildUnbondingInfo del.btcPk del.fpBtcPks params.covenantPks
    params.covenantQuorum del.unbondingTime unbondingOutput.value btcNet)
  .ofExcept unbondingInfo.slashingPathSpendInfo

def pkScriptPathSlashAndUnbond (del : Delegation) (params : StakingParams) (btcNet : NetParams) :
    Outcome (Bytes × Bytes) := do
  let stakingTime ← del.getStakingTime
  let stakingInfo ← (Outcome.ofExcept (lib.buildStakingInfo del.btcPk del.fpBtcPks
    params.covenantPks params.covenantQuorum stakingTime del.totalSat btcNet)).wrap
      ("failed to build staking info: " ++ ·)
  let slashingPkScriptPath ← (Outcome.ofExcept stakingInfo.slashingPathSpendInfo).wrap
    ("failed to get slashing path info: " ++ ·)
  let stakingTxUnbondingPkScriptPath ← (Outcome.ofExcept stakingInfo.unbondingPathSpendInfo).wrap
    fun _ => "failed to get unbonding path spend info"
  pure (slashingPkScriptPath, stakingTxUnbondingPkScriptPath)

def pkScriptPaths (del : Delegation) (params : StakingParams) (btcNet : NetParams)
    (unbondingTx : MsgTx) : Outcome (Bytes × Bytes × Bytes) := do
  let (slash, unbond) ← pkScriptPathSlashAndUnbond lib del params btcNet
  let unbondSlash ← pkScriptPathUnbondingSlash lib del unbondingTx params btcNet
  pure (slash, unbond, unbondSlash)

def decodeDelegationTransactions (del : Delegation) (params : StakingParams)
    (btcNet : NetParams) : Outcome (MsgTx × MsgTx) := do
  let stakingMsgTx ← (Outcome.ofExcept (lib.newBTCTxFromHex del.stakingTxHex)).wrap
    fun _ => "failed to decode staking tx from hex"
  let slashingTx ← (Outcome.ofExcept (lib.newBTCSlashingTxFromHex del.slashingTxHex)).wrap
    fun _ => "failed to decode slashing tx from hex"
  let slashingMsgTx ← .ofExcept (lib.toMsgTx slashingTx)
  (Outcome.ofExcept (lib.checkSlashingTxMatchFundingTx slashingMsgTx stakingMsgTx
    del.stakingOutputIdx params.minSlashingTxFeeSat params.slashingRate params.slashingPkScript
    del.btcPk del.unbondingTime btcNet)).wrap ("invalid txs in the delegation: " ++ ·)
  pure (stakingMsgTx, slashingMsgTx)

def decodeUndelegationTransactions (del : Delegation) (params : StakingParams)
    (btcNet : NetParams) : Outcome (MsgTx × MsgTx) := do
  let btcUndelegation ← .deref del.btcUndelegation
  let unbondingMsgTx ← (Outcome.ofExcept (lib.newBTCTxFromHex btcUndelegation.unbondingTxHex)).wrap
    ("failed to decode unbonding tx from hex: " ++ ·)
  let unbondingSlashingMsgTx ←
    (Outcome.ofExcept (lib.newBTCTxFromHex btcUndelegation.slashingTxHex)).wrap
      ("failed to decode unbonding slashing tx from hex: " ++ ·)
  (Outcome.ofExcept (lib.checkSlashingTxMatchFundingTx unbondingSlashingMsgTx unbondingMsgTx 0
    params.minSlashingTxFeeSat params.slashingRate params.slashingPkScript
    del.btcPk del.unbondingTime btcNet)).wrap ("invalid txs in the undelegation: " ++ ·)
  pure (unbondingMsgTx, unbondingSlashingMsgTx)

/-- Steps 5 to 8: the transactions, their fee and the scripts of the request. -/
def generateSigningRequest (btcDel : Delegation) (params : StakingParams) (btcNet : NetParams) :
    Outcome SigningRequest := do
  let (stakingTx, slashingTx) ← (decodeDelegationTransactions lib btcDel params btcNet).wrap
    ("invalid delegation: " ++ ·)
  let (unbondingTx, slashUnbondingTx) ←
    (decodeUndelegationTransactions lib btcDel params btcNet).wrap ("invalid undelegation: " ++ ·)
  let stakingOutput ← .index stakingTx.txOut btcDel.stakingOutputIdx.toNat
  let unbondingOutput ← .index unbondingTx.txOut 0
  if stakingOutput.value - unbondingOutput.value ≠ params.unbondingFee then
    .error "invalid unbonding fee"
  else
    let fpsEncKeys ← (fpEncKeysFromDel lib btcDel).wrap
      ("failed to encript the finality provider keys of the btc delegation: " ++ ·)
    let (slash, unbond, unbondSlash) ← (pkScriptPaths lib btcDel params btcNet unbondingTx).wrap
      ("failed to generate pk script path: " ++ ·)
    pure
      { stakingTx := stakingTx
        slashingTx := slashingTx
        unbondingTx := unbondingTx
        slashUnbondingTx := slashUnbondingTx
        stakeExp := none
        stakingOutputIdx := btcDel.stakingOutputIdx
        slashingPkScriptPath := slash
        stakingTxUnbondingPkScriptPath := unbond
        unbondingTxSlashingPkScriptPath := unbondSlash
        fpEncKeys := fpsEncKeys }

/-- Steps 2 to 8 of the loop body. An error is the line logged before `continue`. -/
def checkDelegation (btcDel : Delegation) (params : StakingParams) (btcNet : NetParams) :
    Outcome SigningRequest := do
  let hasQuorum ← btcDel.hasCovenantQuorum params.covenantQuorum
  if hasQuorum then .error "covenant signatures already fulfilled"
  else if btcDel.unbondingTime.toUInt32 ≠ params.unbondingTimeBlocks then
    .error "invalid unbonding time"
  else
    let stakingTime ← btcDel.getStakingTime
    if stakingTime < params.minStakingTime ∨ stakingTime > params.maxStakingTime then
      .error "invalid staking time"
    else if btcDel.totalSat < params.minStakingValue ∨ btcDel.totalSat > params.maxStakingValue then
      .error "invalid staking value"
    else generateSigningRequest lib btcDel params btcNet

end

/-- The two transactions pass `CheckSlashingTxMatchFundingTx` under these parameters. -/
def SlashingAccepted (lib : BabylonLib) (net : NetParams) (d : Delegation) (P : StakingParams)
    (slashing funding : MsgTx) (idx : UInt32) : Prop :=
  lib.checkSlashingTxMatchFundingTx slashing funding idx P.minSlashingTxFeeSat P.slashingRate
    P.slashingPkScript d.btcPk d.unbondingTime net = .ok ()

/-- The scripts of the slashing and unbonding paths of the staking output built from `d`. -/
structure StakingPaths (lib : BabylonLib) (net : NetParams) (d : Delegation) (P : StakingParams)
    (info : StakingInfo) (slash unbond : Bytes) : Prop where
  built : ∃ t, d.getStakingTime = .ok t ∧ lib.buildStakingInfo d.btcPk d.fpBtcPks P.covenantPks
    P.covenantQuorum t d.totalSat net = .ok info
  slashing : info.slashingPathSpendInfo = .ok slash
  unbonding : info.unbondingPathSpendInfo = .ok unbond

/-- What a delegation has shown when a request is made for it, its stake expansion apart. -/
structure Checked (lib : BabylonLib) (net : NetParams) (d : Delegation) (P : StakingParams)
    (req : SigningRequest) : Prop where
  noQuorum : d.hasCovenantQuorum P.covenantQuorum = .ok false
  unbondingTime : d.unbondingTime.toUInt32 = P.unbondingTimeBlocks
  stakingTime : ∃ t, d.getStakingTime = .ok t ∧ P.minStakingTime ≤ t ∧ t ≤ P.maxStakingTime
  totalSat : P.minStakingValue ≤ d.totalSat ∧ d.totalSat ≤ P.maxStakingValue
  stakingTx : lib.newBTCTxFromHex d.stakingTxHex = .ok req.stakingTx
  slashingTx : ∃ bs, lib.newBTCSlashingTxFromHex d.slashingTxHex = .ok bs ∧
    lib.toMsgTx bs = .ok req.slashingTx
  slashing : SlashingAccepted lib net d P req.slashingTx req.stakingTx d.stakingOutputIdx
  undelegation : ∃ ud, d.btcUndelegation = some ud ∧
    lib.newBTCTxFromHex ud.unbondingTxHex = .ok req.unbondingTx ∧
    lib.newBTCTxFromHex ud.slashingTxHex = .ok req.slashUnbondingTx
  unbondingSlashing : SlashingAccepted lib net d P req.slashUnbondingTx req.unbondingTx 0
  fee : ∃ staked unbonded, req.stakingTx.txOut[d.stakingOutputIdx.toNat]? = some staked ∧
    req.unbondingTx.txOut[0]? = some unbonded ∧
    staked.value - unbonded.value = P.unbondingFee
  fpEncKeys : d.fpBtcPks.mapM (encKeyOf lib) = .ok req.fpEncKeys
  stakingPaths : ∃ info, StakingPaths lib net d P info req.slashingPkScriptPath
    req.stakingTxUnbondingPkScriptPath
  unbondingPath : ∃ unbonded info, req.unbondingTx.txOut[0]? = some unbonded ∧
    lib.buildUnbondingInfo d.btcPk d.fpBtcPks P.covenantPks P.covenantQuorum d.unbondingTime
      unbonded.value net = .ok info ∧
    info.slashingPathSpendInfo = .ok req.unbondingTxSlashingPkScriptPath
  stakingOutputIdx : req.stakingOutputIdx = d.stakingOutputIdx

section
variable {lib : BabylonLib} {net : NetParams} {d : Delegation} {P : StakingParams}
  {req : SigningRequest}

theorem encKeyOf_eq_ok {fpPk : PublicKey} {ek : EncryptionKey} :
    encKeyOf lib fpPk = .ok ek ↔ lib.newEncryptionKeyFromBTCPK fpPk = .ok ek := by
  rw [encKeyOf, Outcome.wrap_eq_ok, Outcome.ofExcept_eq_ok]

theorem stakeExpValidateBasic_ok {out : TxOut} (h : stakeExpValidateBasic lib d = .ok out) :
    ∃ exp tx first second hash, d.stakeExpansion = some exp ∧
      lib.newBTCTxFromHex d.stakingTxHex = .ok tx ∧ tx.txIn = [first, second] ∧
      lib.newHashFromStr exp.previousStakingTxHashHex = .ok hash ∧
      first.previousOutPoint.hash = hash ∧ 0 < out.value := by
  unfold stakeExpValidateBasic at h
  split at h
  · cases h
  rename_i exp hexp
  obtain ⟨tx, htx, h⟩ := Outcome.bind_eq_ok.mp h
  split at h
  · rename_i first second hin
    obtain ⟨hash, hhash, h⟩ := Outcome.bind_eq_ok.mp h
    split at h
    · cases h
    rename_i heq
    obtain ⟨other, -, h⟩ := Outcome.bind_eq_ok.mp h
    split at h
    · cases h
    rename_i hval
    cases h
    exact ⟨exp, tx, first, second, hash, hexp, Outcome.ofExcept_eq_ok.mp htx, hin,
      Outcome.ofExcept_eq_ok.mp hhash, not_not.mp heq, Int64.not_le.mp hval⟩
  · cases h

theorem pkScriptPathSlashAndUnbond_ok {slash unbond : Bytes}
    (h : pkScriptPathSlashAndUnbond lib d P net = .ok (slash, unbond)) :
    ∃ info, StakingPaths lib net d P info slash unbond := by
  obtain ⟨t, ht, h⟩ := Outcome.bind_eq_ok.mp h
  obtain ⟨info, hinfo, h⟩ := Outcome.bind_eq_ok.mp h
  obtain ⟨slash, hslash, h⟩ := Outcome.bind_eq_ok.mp h
  obtain ⟨unbond, hunbond, h⟩ := Outcome.bind_eq_ok.mp h
  cases h
  rw [Outcome.wrap_eq_ok, Outcome.ofExcept_eq_ok] at hinfo hslash hunbond
  exact ⟨info, ⟨t, ht, hinfo⟩, hslash, hunbond⟩

theorem pkScriptPathUnbondingSlash_ok {tx : MsgTx} {script : Bytes}
    (h : pkScriptPathUnbondingSlash lib d tx P net = .ok script) :
    ∃ unbonded info, tx.txOut[0]? = some unbonded ∧
      lib.buildUnbondingInfo d.btcPk d.fpBtcPks P.covenantPks P.covenantQuorum d.unbondingTime
        unbonded.value net = .ok info ∧ info.slashingPathSpendInfo = .ok script := by
  obtain ⟨unbonded, hout, h⟩ := Outcome.bind_eq_ok.mp h
  obtain ⟨info, hinfo, h⟩ := Outcome.bind_eq_ok.mp h
  exact ⟨unbonded, info, Outcome.index_eq_ok.mp hout, Outcome.ofExcept_eq_ok.mp hinfo,
    Outcome.ofExcept_eq_ok.mp h⟩

theorem decodeDelegationTransactions_ok {stakingTx slashingTx : MsgTx}
    (h : decodeDelegationTransactions lib d P net = .ok (stakingTx, slashingTx)) :
    lib.newBTCTxFromHex d.stakingTxHex = .ok stakingTx ∧
      (∃ bs, lib.newBTCSlashingTxFromHex d.slashingTxHex = .ok bs ∧
        lib.toMsgTx bs = .ok slashingTx) ∧
      SlashingAccepted lib net d P slashingTx stakingTx d.stakingOutputIdx := by
  obtain ⟨tx, htx, h⟩ := Outcome.bind_eq_ok.mp h
  obtain ⟨bs, hbs, h⟩ := Outcome.bind_eq_ok.mp h
  obtain ⟨slash, hslash, h⟩ := Outcome.bind_eq_ok.mp h
  obtain ⟨_, hcheck, h⟩ := Outcome.bind_eq_ok.mp h
  cases h
  rw [Outcome.wrap_eq_ok, Outcome.ofExcept_eq_ok] at htx hbs hcheck
  exact ⟨htx, ⟨bs, hbs, Outcome.ofExcept_eq_ok.mp hslash⟩, hcheck⟩

theorem decodeUndelegationTransactions_ok {unbondingTx slashingTx : MsgTx}
    (h : decodeUndelegationTransactions lib d P net = .ok (unbondingTx, slashingTx)) :
    (∃ ud, d.btcUndelegation = some ud ∧
      lib.newBTCTxFromHex ud.unbondingTxHex = .ok unbondingTx ∧
      lib.newBTCTxFromHex ud.slashingTxHex = .ok slashingTx) ∧
      SlashingAccepted lib net d P slashingTx unbondingTx 0 := by
  obtain ⟨ud, hud, h⟩ := Outcome.bind_eq_ok.mp h
  obtain ⟨tx, htx, h⟩ := Outcome.bind_eq_ok.mp h
  obtain ⟨slash, hslash, h⟩ := Outcome.bind_eq_ok.mp h
  obtain ⟨_, hcheck, h⟩ := Outcome.bind_eq_ok.mp h
  cases h
  rw [Outcome.wrap_eq_ok, Outcome.ofExcept_eq_ok] at htx hslash hcheck
  exact ⟨⟨ud, Outcome.deref_eq_ok.mp hud, htx, hslash⟩, hcheck⟩

/-- Steps 2 to 4, and what is left to do after them. -/
theorem checkDelegation_eq_ok (h : checkDelegation lib d P net = .ok req) :
    d.hasCovenantQuorum P.covenantQuorum = .ok false ∧
      d.unbondingTime.toUInt32 = P.unbondingTimeBlocks ∧
      (∃ t, d.getStakingTime = .ok t ∧ P.minStakingTime ≤ t ∧ t ≤ P.maxStakingTime) ∧
      (P.minStakingValue ≤ d.totalSat ∧ d.totalSat ≤ P.maxStakingValue) ∧
      generateSigningRequest lib d P net = .ok req := by
  obtain ⟨quorum, hquorum, h⟩ := Outcome.bind_eq_ok.mp h
  split at h
  · cases h
  rename_i hq
  split at h
  · cases h
  rename_i hunbond
  obtain ⟨t, ht, h⟩ := Outcome.bind_eq_ok.mp h
  split at h
  · cases h
  rename_i htime
  split at h
  · cases h
  rename_i hsat
  simp only [Bool.not_eq_true] at hq
  simp only [not_or, gt_iff_lt, UInt16.not_lt, Int64.not_lt, ne_eq, not_not] at hunbond htime hsat
  exact ⟨hq ▸ hquorum, hunbond, ⟨t, ht, htime⟩, hsat, h⟩

theorem Checked.withStakeExp (h : Checked lib net d P req) (stk : Option SigningRequestStkExp) :
    Checked lib net d P { req with stakeExp := stk } := by
  cases h
  constructor <;> assumption

theorem Checked.unbondingTime_toNat (h : Checked lib net d P req) :
    d.unbondingTime.toNat = P.unbondingTimeBlocks.toNat := by
  rw [← h.unbondingTime]
  simp

theorem checkDelegation_ok (h : checkDelegation lib d P net = .ok req) :
    Checked lib net d P req ∧ req.stakeExp = none := by
  obtain ⟨hquorum, hunbond, htime, hsat, h⟩ := checkDelegation_eq_ok h
  obtain ⟨⟨stakingTx, slashingTx⟩, hdel, h⟩ := Outcome.bind_eq_ok.mp h
  obtain ⟨⟨unbondingTx, slashUnbondingTx⟩, hundel, h⟩ := Outcome.bind_eq_ok.mp h
  obtain ⟨staked, hstaked, h⟩ := Outcome.bind_eq_ok.mp h
  obtain ⟨unbonded, hunbonded, h⟩ := Outcome.bind_eq_ok.mp h
  split at h
  · cases h
  rename_i hfee
  obtain ⟨keys, hkeys, h⟩ := Outcome.bind_eq_ok.mp h
  obtain ⟨⟨slash, unbond, unbondSlash⟩, hpaths, h⟩ := Outcome.bind_eq_ok.mp h
  cases h
  rw [Outcome.wrap_eq_ok] at hdel hundel hkeys hpaths
  obtain ⟨htx, hslash, haccept⟩ := decodeDelegationTransactions_ok hdel
  obtain ⟨hud, haccept'⟩ := decodeUndelegationTransactions_ok hundel
  obtain ⟨⟨slash', unbond'⟩, hstaking, h⟩ := Outcome.bind_eq_ok.mp hpaths
  obtain ⟨unbondSlash', hunbonding, h⟩ := Outcome.bind_eq_ok.mp h
  cases h
  refine ⟨?_, rfl⟩
  exact
    { noQuorum := hquorum
      unbondingTime := hunbond
      stakingTime := htime
      totalSat := hsat
      stakingTx := htx
      slashingTx := hslash
      slashing := haccept
      undelegation := hud
      unbondingSlashing := haccept'
      fee := ⟨staked, unbonded, Outcome.index_eq_ok.mp hstaked, Outcome.index_eq_ok.mp hunbonded,
        not_not.mp hfee⟩
      fpEncKeys := hkeys
      stakingPaths := pkScriptPathSlashAndUnbond_ok hstaking
      unbondingPath := pkScriptPathUnbondingSlash_ok hunbonding
      stakingOutputIdx := rfl }

theorem pkScriptPathSlashAndUnbond_of_paths {slash unbond : Bytes} {info : StakingInfo}
    (h : StakingPaths lib net d P info slash unbond) :
    pkScriptPathSlashAndUnbond lib d P net = .ok (slash, unbond) := by
  obtain ⟨⟨t, ht, hinfo⟩, hslash, hunbond⟩ := h
  simp [pkScriptPathSlashAndUnbond, ht, hinfo, hslash, hunbond, Outcome.wrap]

/-- Nothing else is checked. -/
theorem checkDelegation_of_checked (h : Checked lib net d P req) (hplain : req.stakeExp = none) :
    checkDelegation lib d P net = .ok req := by
  obtain ⟨t, ht, hmin, hmax⟩ := h.stakingTime
  obtain ⟨bs, hbs, hslashing⟩ := h.slashingTx
  obtain ⟨ud, hud, hunbondingTx, hslashUnbondingTx⟩ := h.undelegation
  obtain ⟨staked, unbonded, hstaked, hunbonded, hfee⟩ := h.fee
  obtain ⟨info, hpaths⟩ := h.stakingPaths
  obtain ⟨unbonded', uinfo, hunbonded', huinfo, hscript⟩ := h.unbondingPath
  obtain rfl : unbonded = unbonded' := by simpa [hunbonded] using hunbonded'
  have hdel : decodeDelegationTransactions lib d P net = .ok (req.stakingTx, req.slashingTx) := by
    have hacc := h.slashing
    unfold SlashingAccepted at hacc
    simp [decodeDelegationTransactions, h.stakingTx, hbs, hslashing, hacc, Outcome.wrap]
  have hundel : decodeUndelegationTransactions lib d P net =
      .ok (req.unbondingTx, req.slashUnbondingTx) := by
    have hacc := h.unbondingSlashing
    unfold SlashingAccepted at hacc
    simp [decodeUndelegationTransactions, hud, Outcome.deref, hunbondingTx, hslashUnbondingTx, hacc,
      Outcome.wrap]
  have hunbond : pkScriptPathUnbondingSlash lib d req.unbondingTx P net =
      .ok req.unbondingTxSlashingPkScriptPath := by
    simp [pkScriptPathUnbondingSlash, Outcome.index_eq_ok.mpr hunbonded, huinfo, hscript]
  have hgen : generateSigningRequest lib d P net = .ok req := by
    have hkeys : fpEncKeysFromDel lib d = .ok req.fpEncKeys := h.fpEncKeys
    rw [← h.stakingOutputIdx] at hstaked
    simp [generateSigningRequest, hdel, hundel, Outcome.wrap, Outcome.index_eq_ok.mpr hstaked,
      Outcome.index_eq_ok.mpr hunbonded, hfee, hkeys, pkScriptPaths,
      pkScriptPathSlashAndUnbond_of_paths hpaths, hunbond, ← h.stakingOutputIdx, ← hplain]
  simp [checkDelegation, h.noQuorum, h.unbondingTime, ht, hgen, UInt16.not_lt.mpr hmin,
    UInt16.not_lt.mpr hmax, Int64.not_lt.mpr h.totalSat.1, Int64.not_lt.mpr h.totalSat.2]

theorem pkScriptPathSlashAndUnbond_ne_diverged :
    pkScriptPathSlashAndUnbond lib d P net ≠ .diverged := by
  simp [pkScriptPathSlashAndUnbond, Outcome.bind_eq_diverged, d.getStakingTime_ne_diverged]

theorem generateSigningRequest_ne_diverged : generateSigningRequest lib d P net ≠ .diverged := by
  have hkeys : fpEncKeysFromDel lib d ≠ .diverged :=
    Outcome.mapM_ne_diverged (by simp [encKeyOf]) _
  simp [generateSigningRequest, decodeDelegationTransactions, decodeUndelegationTransactions,
    pkScriptPaths, pkScriptPathUnbondingSlash, pkScriptPathSlashAndUnbond_ne_diverged, hkeys,
    Outcome.bind_eq_diverged, ite_eq_iff]

theorem checkDelegation_ne_diverged : checkDelegation lib d P net ≠ .diverged := by
  simp [checkDelegation, generateSigningRequest_ne_diverged, d.hasCovenantQuorum_ne_diverged,
    d.getStakingTime_ne_diverged, Outcome.bind_eq_diverged, ite_eq_iff]

theorem stakeExpValidateBasic_ne_diverged : stakeExpValidateBasic lib d ≠ .diverged := by
  unfold stakeExpValidateBasic
  split
  · simp
  simp only [ne_eq, Outcome.bind_eq_diverged, Outcome.ofExcept_ne_diverged, false_or]
  rintro ⟨tx, -, h⟩
  split at h
  · simp [Outcome.bind_eq_diverged, ite_eq_iff] at h
  · simp at h

end

end CovenantEmulator
