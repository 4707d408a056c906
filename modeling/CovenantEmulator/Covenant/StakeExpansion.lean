import CovenantEmulator.Sample

/-! Stake expansions: the previous stake that is signed over, and the output it is spent from. -/
namespace CovenantEmulator

open Golang

variable {σ : Type} {ce : Emulator σ} {d : Delegation} {req : SigningRequest}
  {stk : SigningRequestStkExp}

/-- The chain's answers to delegation queries do not change. -/
def StableDelegations (cc : ClientController σ) (answers : String → Except String Delegation) :
    Prop :=
  ∀ hash s, (cc.queryBTCDelegation hash s).1 = .ofExcept (answers hash)

theorem Answered.eq_ok {answers : String → Except String Delegation} {hash : String}
    (h : Answered ce.cc hash d) (hstable : StableDelegations ce.cc answers) :
    answers hash = .ok d := by
  obtain ⟨s, s', hs⟩ := h
  have hans := hstable hash s
  rw [hs] at hans
  exact Outcome.ofExcept_eq_ok.mp hans.symm

/-- The request for a stake expansion is about a previous stake that the filter approved. -/
structure PrevApproved (ce : Emulator σ) (cache : UInt32 → Option StakingParams)
    (d : Delegation) (req : SigningRequest) (stk : SigningRequestStkExp)
    (prevDel : Delegation) (P P' : StakingParams) : Prop where
  twoInputs : ∃ first second, req.stakingTx.txIn = [first, second] ∧
    ce.lib.txHash stk.previousActiveStakeTx = first.previousOutPoint.hash
  prevTx : ce.lib.newBTCTxFromHex prevDel.stakingTxHex = .ok stk.previousActiveStakeTx
  params : cache d.paramsVersion = some P
  prevParams : cache prevDel.paramsVersion = some P'
  script : ∃ info slash, StakingPaths ce.lib ce.btcNetParams prevDel P' info slash
    stk.previousActiveStakeUnbondingPkScriptPath
  committee : InCommittee P ce.pk
  prevCommittee : InCommittee P' ce.pk

theorem prevApproved_of_approved {cache : UInt32 → Option StakingParams}
    {answers : String → Except String Delegation} (hstable : StableDelegations ce.cc answers)
    (hhash : ce.lib.HashRoundTrip) (hacc : Accepted ce cache d) (happr : Approved ce cache d req)
    (hstk : req.stakeExp = some stk) :
    ∃ exp prevDel P P', d.stakeExpansion = some exp ∧
      answers exp.previousStakingTxHashHex = .ok prevDel ∧
      PrevApproved ce cache d req stk prevDel P P' := by
  obtain ⟨P, hP, hin⟩ := hacc.committee
  obtain ⟨P₁, -, hchecked⟩ := happr.checked
  cases hexp : d.stakeExpansion with
  | none => simp [happr.plain hexp] at hstk
  | some exp =>
    obtain ⟨prevDel, hprev⟩ := hacc.previous exp hexp
    obtain ⟨stk', prevDel', hstk', hbuilt⟩ := happr.stakeExp exp hexp
    obtain rfl : stk = stk' := by simpa [hstk] using hstk'
    have hans := hprev.answered.eq_ok hstable
    -- both phases asked the same question, so they saw the same previous delegation
    obtain rfl : prevDel = prevDel' := by
      simpa [hans] using hbuilt.answered.eq_ok hstable
    obtain ⟨P', hP', hin'⟩ := hprev.committee
    obtain ⟨P'', info, slash, hP'', hpaths⟩ := hbuilt.script
    obtain rfl : P' = P'' := by simpa [hP'] using hP''
    obtain ⟨tx, htx, hstr⟩ := hprev.hashes
    obtain rfl : tx = stk.previousActiveStakeTx := by simpa [htx] using hbuilt.prevTx
    obtain ⟨exp', tx', first, second, hash, hexp', htx', hins, hparse, hfirst, -⟩ :=
      stakeExpValidateBasic_ok hbuilt.valid
    obtain rfl : exp = exp' := by simpa [hexp] using hexp'
    obtain rfl : tx' = req.stakingTx := by simpa [htx'] using hchecked.stakingTx
    have hhash' : ce.lib.txHash stk.previousActiveStakeTx = hash := by
      have hround := hhash (ce.lib.txHash stk.previousActiveStakeTx)
      rw [hstr, hparse] at hround
      simpa using hround.symm
    refine ⟨exp, prevDel, P, P', rfl, hans, ?_⟩
    exact
      { twoInputs := ⟨first, second, hins, hhash'.trans hfirst.symm⟩
        prevTx := htx
        params := hP
        prevParams := hP'
        script := ⟨info, slash, hpaths⟩
        committee := hin
        prevCommittee := hin' }

/-- In every tick, the previous stake a request signs over is the one the filter approved. -/
theorem tick_signs_over_approved_prev (ce : Emulator σ)
    {answers : String → Except String Delegation} (hstable : StableDelegations ce.cc answers)
    (hhash : ce.lib.HashRoundTrip) (env : σ) (cache : UInt32 → Option StakingParams) (fuel : Nat)
    {w' : World σ} (hw' : w' = (ce.tick fuel ⟨env, cache, []⟩).2)
    {d : Delegation} {req : SigningRequest} {stk : SigningRequestStkExp}
    (hsign : Event.signing d req ∈ w'.trace) (hstk : req.stakeExp = some stk) :
    ∃ exp prevDel P P', d.stakeExpansion = some exp ∧
      answers exp.previousStakingTxHashHex = .ok prevDel ∧
      PrevApproved ce w'.paramsByVersion d req stk prevDel P P' := by
  have hruns : TickRuns ce (fun _ _ => True) (fun _ => True) ⟨env, cache, []⟩ w' :=
    hw' ▸ tick_runs (respects_any ce.cc) (fun _ _ => trivial) _ fuel
      (fun _ _ _ _ _ _ _ _ => trivial)
  obtain ⟨hacc, happr⟩ := hruns.signing rfl hsign
  exact prevApproved_of_approved hstable hhash hacc happr hstk

namespace Sample

theorem queryPendingDelegations_expansion :
    (emulator (node [expansionResponse]) signer).queryPendingDelegations 1 (world () 10000) =
      (.ok [expansionDelegation], world () 10000) := by
  have hpage : ∀ req, (node [expansionResponse]).btcDelegations .pending req () =
      (.ok ⟨[expansionResponse], some ⟨[]⟩⟩, ()) := fun _ => rfl
  have hlimit : 2 ≤ (emulator (node [expansionResponse]) signer).delegationLimit.toNat := by
    decide
  have hconv : delegationRespToDelegation (emulator (node [expansionResponse]) signer).lib
      expansionResponse = .ok expansionDelegation := delegationRespToDelegation_expansion
  have hhash : lib.hashString (lib.txHash stakingTx) = stakeExpansion.previousStakingTxHashHex :=
    rfl
  refine queryPendingDelegations_of_accepted (w := world () 10000) (hpage _) hconv hlimit
    (by decide) ?_ 0
  exact acceptDelegationToSign_expansion (w := world () 10000) rfl
    (queryBTCDelegation_previous _) (newBTCTxFromHex_previous rfl) hhash rfl
    (knownCommittee _ _ _) (knownCommittee _ _ _)

/-- The request for the expansion is over the transaction of the delegation it replaces. -/
theorem expansion_signs_over_approved_prev : ∃ w' exp prevDel P P',
    w' = ((emulator (node [expansionResponse]) signer).tick 1
      (world () 10000)).2 ∧
    Event.signing expansionDelegation (stakeExpRequest 0) ∈ w'.trace ∧
    expansionDelegation.stakeExpansion = some exp ∧
    answers exp.previousStakingTxHashHex = .ok prevDel ∧
    PrevApproved (emulator (node [expansionResponse]) signer)
      w'.paramsByVersion expansionDelegation (stakeExpRequest 0)
      ⟨stakingTx, fundingTxOut, 0,
        unbondingLeaf staker committee 2⟩ prevDel P P' := by
  have htick := tick_of_pending queryPendingDelegations_expansion (by decide)
    (passes_expansion rfl rfl rfl (queryBTCDelegation_previous _)
      (signer_of_signWith signWith_expansion ())) trivial
  obtain ⟨exp, prevDel, P, P', h⟩ := tick_signs_over_approved_prev
    (emulator (node [expansionResponse]) signer) (fun _ _ => rfl)
    (table_hashRoundTrip table) () (fun _ => some (params 10000)) 1
    (congrArg Prod.snd htick).symm (signing_mem_trace _ _ _ _ _ _) rfl
  exact ⟨_, exp, prevDel, P, P', (congrArg Prod.snd htick).symm, signing_mem_trace _ _ _ _ _ _, h⟩

end Sample

/-- The run of `buildStkExpSigningRequest`, from the answer to its one query. -/
theorem buildStkExpSigningRequest_ok {w w' : World σ}
    (h : ce.buildStkExpSigningRequest d w = (.ok stk, w')) :
    ∃ exp prevDel env', d.stakeExpansion = some exp ∧
      stakeExpValidateBasic ce.lib d = .ok stk.otherFundingOutput ∧
      ce.cc.queryBTCDelegation exp.previousStakingTxHashHex w.env = (.ok prevDel, env') ∧
      ce.lib.newBTCTxFromHex prevDel.stakingTxHex = .ok stk.previousActiveStakeTx ∧
      stk.previousStakingOutputIdx = prevDel.stakingOutputIdx := by
  unfold Emulator.buildStkExpSigningRequest at h
  cases hexp : d.stakeExpansion with
  | none =>
    simp only [hexp] at h
    cases h
  | some exp =>
    simp only [hexp] at h
    obtain ⟨out, w₁, hout, h⟩ := Go.bind_eq_ok.mp h
    obtain ⟨prevDel, w₂, hprev, h⟩ := Go.bind_eq_ok.mp h
    obtain ⟨tx, w₃, htx, h⟩ := Go.bind_eq_ok.mp h
    obtain ⟨P, w₄, -, h⟩ := Go.bind_eq_ok.mp h
    obtain ⟨paths, w₅, -, h⟩ := Go.bind_eq_ok.mp h
    cases h
    obtain ⟨hvalid, rfl⟩ := Go.lift_eq_ok.mp hout
    obtain ⟨env', hprev, -⟩ := Go.zoom_eq_ok.mp hprev
    obtain ⟨htx, -⟩ := Go.lift_eq_ok.mp htx
    exact ⟨exp, prevDel, env', rfl, hvalid, hprev, Outcome.ofExcept_eq_ok.mp htx, rfl⟩

/-- The output handed to the signer is the one the staking transaction spends first: an output of
the transaction that the first outpoint names by its hash, at the index of that outpoint. -/
def HandsSpentOutput (lib : BabylonLib) (d : Delegation) (stk : SigningRequestStkExp) : Prop :=
  stk.previousStakingOutputIdx.toNat < stk.previousActiveStakeTx.txOut.length ∧
    ∃ tx first rest, lib.newBTCTxFromHex d.stakingTxHex = .ok tx ∧ tx.txIn = first :: rest ∧
      first.previousOutPoint.hash = lib.txHash stk.previousActiveStakeTx ∧
      first.previousOutPoint.index = stk.previousStakingOutputIdx

/-- What the chain reports for the previous delegation is the outpoint that the new staking
transaction spends first: the hash of its staking transaction, and an index of its outputs. -/
def ReportsSpentOutput (lib : BabylonLib) (d prevDel : Delegation) : Prop :=
  ∃ prevTx tx first rest, lib.newBTCTxFromHex prevDel.stakingTxHex = .ok prevTx ∧
    lib.newBTCTxFromHex d.stakingTxHex = .ok tx ∧ tx.txIn = first :: rest ∧
    prevDel.stakingOutputIdx.toNat < prevTx.txOut.length ∧
    first.previousOutPoint.hash = lib.txHash prevTx ∧
    first.previousOutPoint.index = prevDel.stakingOutputIdx

/-- Neither the index of the outpoint nor the transaction of the previous delegation is checked
here, so the request is about the output that is spent exactly when the chain reports that one. -/
theorem handsSpentOutput_iff (ce : Emulator σ) {d prevDel : Delegation}
    {exp : DelegationStakeExpansion} {stk : SigningRequestStkExp} {w w' : World σ} {env : σ}
    (hexp : d.stakeExpansion = some exp)
    (hprev : ce.cc.queryBTCDelegation exp.previousStakingTxHashHex w.env = (.ok prevDel, env))
    (hbuild : ce.buildStkExpSigningRequest d w = (.ok stk, w')) :
    HandsSpentOutput ce.lib d stk ↔ ReportsSpentOutput ce.lib d prevDel := by
  obtain ⟨exp', prevDel', env', hexp', -, hprev', hprevTx, hidx⟩ :=
    buildStkExpSigningRequest_ok hbuild
  obtain rfl : exp = exp' := by simpa [hexp] using hexp'
  obtain ⟨rfl, -⟩ : prevDel = prevDel' ∧ env = env' := by simpa [hprev] using hprev'
  constructor
  · rintro ⟨hlt, tx, first, rest, htx, hins, hhash, heq⟩
    exact ⟨_, tx, first, rest, hprevTx, htx, hins, hidx ▸ hlt, hhash, heq.trans hidx⟩
  · rintro ⟨prevTx, tx, first, rest, hprevTx', htx, hins, hlt, hhash, heq⟩
    obtain rfl : stk.previousActiveStakeTx = prevTx := by simpa [hprevTx] using hprevTx'
    exact ⟨hidx ▸ hlt, tx, first, rest, htx, hins, hhash, heq.trans hidx.symm⟩

namespace Sample

/-- The request for a stake expansion over output 0 of the staking transaction. -/
def previousStake : SigningRequestStkExp :=
  ⟨stakingTx, fundingTxOut, 0, unbondingLeaf staker committee 2⟩

theorem expansion_handsSpentOutput :
    (emulator (node []) signer).buildStkExpSigningRequest expansionDelegation (world () 10000) =
        (.ok previousStake, world () 10000) ∧
      HandsSpentOutput lib expansionDelegation previousStake := by
  have hbuild : (emulator (node []) signer).buildStkExpSigningRequest expansionDelegation
      (world () 10000) = (.ok previousStake, world () 10000) :=
    buildStkExpSigningRequest_of_valid rfl rfl rfl (queryBTCDelegation_previous []) rfl
      stakeExpValidateBasic_expansion
  refine ⟨hbuild, (handsSpentOutput_iff (emulator (node []) signer) rfl
    (queryBTCDelegation_previous []) hbuild).mpr ?_⟩
  exact ⟨stakingTx, expansionTx, _, _, checked_plain.stakingTx, checked_expansion.stakingTx,
    rfl, by decide, rfl, rfl⟩

/-- The same expansion, but of an output that is not the stake. -/
def strayDelegation : Delegation :=
  { expansionDelegation with stakingTxHex := txHex strayExpansionTx }

theorem stakeExpValidateBasic_stray :
    stakeExpValidateBasic lib strayDelegation = .ok fundingTxOut :=
  stakeExpValidateBasic_of_known rfl rfl (by decide) rfl rfl

/-- The expansion spends output 1 of the previous staking transaction, and the request hands
output 0 to the signer. -/
theorem stray_not_handsSpentOutput :
    (emulator (node []) signer).buildStkExpSigningRequest strayDelegation (world () 10000) =
        (.ok previousStake, world () 10000) ∧
      ¬ HandsSpentOutput lib strayDelegation previousStake := by
  refine ⟨buildStkExpSigningRequest_of_valid rfl rfl rfl (queryBTCDelegation_previous []) rfl
    stakeExpValidateBasic_stray, ?_⟩
  rintro ⟨-, tx, first, rest, htx, hin, -, hidx⟩
  have hstray : lib.newBTCTxFromHex strayDelegation.stakingTxHex = .ok strayExpansionTx :=
    newBTCTxFromHex_txHex (by decide)
  obtain rfl : strayExpansionTx = tx := by simpa [hstray] using htx
  cases hin
  exact absurd hidx (by decide)

end Sample

end CovenantEmulator
