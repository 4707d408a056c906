import CovenantEmulator.Covenant.Tick

/-! A pending delegation that passes the filter and the checks is signed and submitted. -/
namespace CovenantEmulator

open Golang

variable {σ : Type} {ce : Emulator σ} {d : Delegation} {w w₁ : World σ} {req : SigningRequest}
  {resp : SignaturesResponse} {env : σ}

/-- The parameters of the delegation are cached, with the key in their committee. -/
def KnownCommittee (ce : Emulator σ) (w : World σ) (d : Delegation) : Prop :=
  ∃ P, w.paramsByVersion d.paramsVersion = some P ∧ InCommittee P ce.pk

theorem isKeyInCommittee_of_known (h : KnownCommittee ce w d) :
    isKeyInCommittee ce.retry ce.cc (serializePubKey ce.pk) d w = (.ok true, w) := by
  obtain ⟨P, hP, hin⟩ := h
  unfold isKeyInCommittee
  rw [Go.bind_of_ok (Go.wrap_eq_ok.mpr (paramsGet_of_cached hP))]
  have hany : (P.covenantPks.any fun pk => decide (serializePubKey pk = serializePubKey ce.pk)) =
      true := by
    simpa [InCommittee] using hin
  rw [hany]
  rfl

/-- A plain delegation of the committee that is not signed yet is accepted. -/
theorem acceptDelegationToSign_plain (hplain : d.stakeExpansion = none)
    (hunsigned : alreadySigned (serializePubKey ce.pk) d = false) (hin : KnownCommittee ce w d) :
    ce.acceptDelegationToSign d w = (.ok true, w) := by
  have hprev : ce.queryPrevDel d w = (.ok none, w) := by
    simp [Emulator.queryPrevDel, hplain]
  unfold Emulator.acceptDelegationToSign
  rw [Go.bind_of_ok hprev, acceptDelegationToSign, if_neg (by simp [hunsigned]),
    Go.bind_of_ok (Go.wrap_eq_ok.mpr (isKeyInCommittee_of_known hin))]
  simp [Delegation.isStakeExpansion, hplain]

/-- A stake expansion is accepted when its previous delegation has the hash it names, and the
committees of both have the key. -/
theorem acceptDelegationToSign_expansion {exp : DelegationStakeExpansion} {prevDel : Delegation}
    {tx : MsgTx} (hexp : d.stakeExpansion = some exp)
    (hprev : ce.cc.queryBTCDelegation exp.previousStakingTxHashHex w.env = (.ok prevDel, env))
    (htx : ce.lib.newBTCTxFromHex prevDel.stakingTxHex = .ok tx)
    (hhash : ce.lib.hashString (ce.lib.txHash tx) = exp.previousStakingTxHashHex)
    (hunsigned : alreadySigned (serializePubKey ce.pk) d = false) (hin : KnownCommittee ce w d)
    (hin' : KnownCommittee ce w prevDel) :
    ce.acceptDelegationToSign d w = (.ok true, { w with env := env }) := by
  have hquery : ce.queryPrevDel d w = (.ok (some prevDel), { w with env := env }) := by
    unfold Emulator.queryPrevDel
    rw [hexp]
    exact (Go.bind_of_ok (Go.wrap_eq_ok.mpr (Go.zoom_eq_ok.mpr ⟨env, hprev, rfl⟩))).trans rfl
  have hvalid : validateStakeExpansion ce.lib ce.retry ce.cc (serializePubKey ce.pk) d
      (some prevDel) { w with env := env } = (.ok true, { w with env := env }) := by
    refine (Go.bind_of_ok (Go.wrap_eq_ok.mpr
      (Go.lift_eq_ok.mpr ⟨Outcome.ofExcept_eq_ok.mpr htx, rfl⟩))).trans ?_
    refine (Go.bind_of_ok (Go.lift_eq_ok.mpr ⟨Outcome.deref_eq_ok.mpr hexp, rfl⟩)).trans ?_
    rw [if_neg (not_not.mpr hhash)]
    exact Go.wrap_eq_ok.mpr (isKeyInCommittee_of_known (w := { w with env := env }) hin')
  unfold Emulator.acceptDelegationToSign
  rw [Go.bind_of_ok hquery, acceptDelegationToSign, if_neg (by simp [hunsigned]),
    Go.bind_of_ok (Go.wrap_eq_ok.mpr
      (isKeyInCommittee_of_known (w := { w with env := env }) hin))]
  simpa [Delegation.isStakeExpansion, hexp] using hvalid

/-- The request for a stake expansion, from the answer of the chain and the cached parameters. -/
theorem buildStkExpSigningRequest_of_paths {exp : DelegationStakeExpansion} {out : TxOut}
    {prevDel : Delegation} {tx : MsgTx} {P : StakingParams} {info : StakingInfo}
    {slash unbond : Bytes} (hexp : d.stakeExpansion = some exp)
    (hvalid : stakeExpValidateBasic ce.lib d = .ok out)
    (hprev : ce.cc.queryBTCDelegation exp.previousStakingTxHashHex w.env = (.ok prevDel, env))
    (htx : ce.lib.newBTCTxFromHex prevDel.stakingTxHex = .ok tx)
    (hP : w.paramsByVersion prevDel.paramsVersion = some P)
    (hpaths : StakingPaths ce.lib ce.btcNetParams prevDel P info slash unbond) :
    ce.buildStkExpSigningRequest d w =
      (.ok ⟨tx, out, prevDel.stakingOutputIdx, unbond⟩, { w with env := env }) := by
  unfold Emulator.buildStkExpSigningRequest
  rw [hexp]
  refine (Go.bind_of_ok (Go.lift_eq_ok.mpr ⟨hvalid, rfl⟩)).trans ?_
  refine (Go.bind_of_ok (Go.zoom_eq_ok.mpr ⟨env, hprev, rfl⟩)).trans ?_
  refine (Go.bind_of_ok (Go.lift_eq_ok.mpr ⟨Outcome.ofExcept_eq_ok.mpr htx, rfl⟩)).trans ?_
  refine (Go.bind_of_ok (Go.wrap_eq_ok.mpr
    (paramsGet_of_cached (w := { w with env := env }) hP))).trans ?_
  exact (Go.bind_of_ok (Go.lift_eq_ok.mpr
    ⟨pkScriptPathSlashAndUnbond_of_paths hpaths, rfl⟩)).trans rfl

/-- From `w` the delegation passes every check, and the signer answers the request. -/
structure Passes (ce : Emulator σ) (d : Delegation) (w w₁ : World σ) (req : SigningRequest)
    (resp : SignaturesResponse) (env : σ) : Prop where
  undelegation : ∃ ud, d.btcUndelegation = some ud
  request : ∃ P req₀, w.paramsByVersion d.paramsVersion = some P ∧
    checkDelegation ce.lib d P ce.btcNetParams = .ok req₀ ∧
    ce.withStakeExp d req₀ w = (.ok req, w₁)
  signer : ce.signer req w₁.env = (.ok resp, env)

/-- The world after the signer has answered. -/
def World.signed (w : World σ) (d : Delegation) (req : SigningRequest) (env : σ) : World σ :=
  { w with env := env, trace := w.trace ++ [.signing d req] }

/-- The world after the entry was submitted. -/
def World.submitted (w : World σ) (cc : ClientController σ) (sigs : List CovenantSigs) : World σ :=
  { w with
    env := (cc.submitCovenantSigs sigs w.env).2
    trace := w.trace ++ [.submitting sigs] }

theorem signing_mem_trace (w : World σ) (d : Delegation) (req : SigningRequest) (env : σ)
    (cc : ClientController σ) (sigs : List CovenantSigs) :
    Event.signing d req ∈ ((w.signed d req env).submitted cc sigs).trace := by
  simp [World.signed, World.submitted]

theorem submitting_mem_trace (w : World σ) (cc : ClientController σ) (sigs : List CovenantSigs) :
    Event.submitting sigs ∈ (w.submitted cc sigs).trace := by
  simp [World.submitted]

theorem withStakeExp_plain (hplain : d.stakeExpansion = none) :
    ce.withStakeExp d req = pure req := by
  simp [Emulator.withStakeExp, Delegation.isStakeExpansion, hplain]

theorem withStakeExp_of_build {stk : SigningRequestStkExp} (hexp : d.isStakeExpansion = true)
    (h : ce.buildStkExpSigningRequest d w = (.ok stk, w₁)) :
    ce.withStakeExp d req w = (.ok { req with stakeExp := some stk }, w₁) := by
  unfold Emulator.withStakeExp
  rw [if_pos hexp, Go.bind_of_ok (Go.wrap_eq_ok.mpr h)]
  rfl

theorem signTransactions_of_signer (h : ce.signer req w.env = (.ok resp, env)) :
    ce.signTransactions d req w = (.ok resp, w.signed d req env) := by
  unfold Emulator.signTransactions
  rw [Go.bind_of_ok (m := record (.signing d req)) rfl]
  refine Go.wrap_eq_ok.mpr (Go.zoom_eq_ok.mpr ⟨env, h, rfl⟩)

theorem addCovenantSignature_of_passes (h : Passes ce d w w₁ req resp env) :
    ce.addCovenantSignature (some d) w =
      (.ok (.ok (ce.covenantSigsOf req resp)), w₁.signed d req env) := by
  obtain ⟨ud, hud⟩ := h.undelegation
  obtain ⟨P, req₀, hP, hcheck, hreq⟩ := h.request
  have hsign : ce.signDelegation d P w =
      (.ok (ce.covenantSigsOf req resp), w₁.signed d req env) := by
    unfold Emulator.signDelegation
    rw [Go.bind_of_ok (Go.lift_eq_ok.mpr ⟨hcheck, rfl⟩), Go.bind_of_ok hreq,
      Go.bind_of_ok (signTransactions_of_signer h.signer)]
    rfl
  rw [ce.addCovenantSignature_some hud,
    Go.bind_of_ok (Go.wrap_eq_ok.mpr (paramsGet_of_cached hP)), Go.attempt_apply, hsign]
  rfl

theorem collectSigs_of_passes (h : Passes ce d w w₁ req resp env) :
    ce.collectSigs [some d] w = (.ok [ce.covenantSigsOf req resp], w₁.signed d req env) := by
  unfold Emulator.collectSigs
  rw [List.foldlM_cons, Emulator.collectStep, bind_assoc,
    Go.bind_of_ok (addCovenantSignature_of_passes h)]
  rfl

/-- The delegation alone in a batch is signed, and its entry submitted. -/
theorem addCovenantSignatures_of_passes (h : Passes ce d w w₁ req resp env) :
    ce.addCovenantSignatures [some d] w =
      ((ce.cc.submitCovenantSigs [ce.covenantSigsOf req resp] env).1,
        (w₁.signed d req env).submitted ce.cc [ce.covenantSigsOf req resp]) :=
  ce.addCovenantSignatures_of_collected (by simp) (collectSigs_of_passes h)

theorem delegationsToBatches_single {α : Type} (d : α) (hsize : 1 ≤ ce.sigsBatchSize.toNat) :
    ce.delegationsToBatches [d] = .ok [[d]] := by
  have hlen : [d].length < 2 ^ 63 := by simp
  have hfuel : [d].length - (0 : UInt64).toNat < 2 := by simp
  obtain ⟨batches, hbatches, hflat, hne⟩ := batchesFrom_covers hsize hlen (Or.inl rfl) hfuel
  rw [Emulator.delegationsToBatches]
  simp only [List.length_cons, List.length_nil, Nat.zero_add, hbatches, Outcome.ok.injEq]
  rcases batches with _ | ⟨batch, _ | ⟨batch', rest⟩⟩
  · simp at hflat
  · simpa using hflat
  · have hlen := congrArg List.length hflat
    have hpos := List.length_pos_of_ne_nil (hne batch (by simp)).1
    have hpos' := List.length_pos_of_ne_nil (hne batch' (by simp)).1
    simp at hlen
    omega

/-- The delegation alone among the pending ones makes a batch of its own. -/
theorem processPending_of_passes (hsize : 1 ≤ ce.sigsBatchSize.toNat)
    (h : Passes ce d w w₁ req resp env)
    (hsubmit : (ce.cc.submitCovenantSigs [ce.covenantSigsOf req resp] env).1.Returns) :
    ce.processPending [d] w =
      (.ok (), (w₁.signed d req env).submitted ce.cc [ce.covenantSigsOf req resp]) := by
  have hbatches := delegationsToBatches_single d hsize
  obtain ⟨res, hres⟩ := hsubmit.attempt
  have hone : Go.attempt (ce.addCovenantSignatures ([d].map some)) w =
      (.ok res, (w₁.signed d req env).submitted ce.cc [ce.covenantSigsOf req resp]) := by
    rw [Go.attempt_apply]
    simp only [List.map_cons, List.map_nil, addCovenantSignatures_of_passes h, hres]
  unfold Emulator.processPending
  rw [if_neg (by simp), Go.bind_of_ok (Go.lift_eq_ok.mpr ⟨hbatches, rfl⟩),
    Emulator.submitBatches, Go.bind_of_ok hone]
  rfl

/-- An accepted delegation below the limit is added, and the pass goes on. -/
theorem scanPage_of_accepted {r : BTCDelegationResponse} {rs : List BTCDelegationResponse}
    {dels : List Delegation} (hconv : delegationRespToDelegation ce.lib r = .ok d)
    (haccept : ce.acceptDelegationToSign d w = (.ok true, w₁))
    (hroom : dels.length + 1 < ce.delegationLimit.toNat) :
    scanPage ce.lib ce.delegationLimit (some ce.acceptDelegationToSign) (r :: rs) dels w =
      scanPage ce.lib ce.delegationLimit (some ce.acceptDelegationToSign) rs (dels ++ [d]) w₁ := by
  rw [scanPage, Go.bind_of_ok (Go.lift_eq_ok.mpr ⟨hconv, rfl⟩), runFilter, Go.bind_of_ok haccept,
    if_neg (by simp), if_neg (by simp; omega)]

/-- A first page that is not full ends the query. -/
theorem queryPendingDelegations_of_page {page : BTCDelegationsPage} {dels : List Delegation}
    (haddr : Addressable pointerSize ce.delegationLimit.toNat)
    (hpos : 0 < ce.delegationLimit.toNat)
    (hpage : ce.cc.btcDelegations .pending ⟨[], minUint64 maxPaginationLimit ce.delegationLimit⟩
      w.env = (.ok page, env))
    (hshort : page.btcDelegations.length ≠
      (minUint64 maxPaginationLimit ce.delegationLimit).toNat)
    (hscan : scanPage ce.lib ce.delegationLimit (some ce.acceptDelegationToSign)
      page.btcDelegations [] { w with env := env } = (.ok (.more dels), w₁)) (fuel : ℕ) :
    ce.queryPendingDelegations (fuel + 1) w = (.ok dels, w₁) := by
  rw [Emulator.queryPendingDelegations, queryDelegationsWithStatus_of_addressable haddr,
    queryLoop, if_pos (by simpa using hpos)]
  refine (Go.bind_of_ok (Go.wrap_eq_ok.mpr (Go.zoom_eq_ok.mpr ⟨env, hpage, rfl⟩))).trans ?_
  refine (Go.bind_of_ok hscan).trans ?_
  simp only [if_pos hshort]
  rfl

/-- A first page whose only delegation is accepted ends the query. -/
theorem queryPendingDelegations_of_accepted {r : BTCDelegationResponse} {page : Option PageResponse}
    (hpage : ce.cc.btcDelegations .pending ⟨[], minUint64 maxPaginationLimit ce.delegationLimit⟩
      w.env = (.ok ⟨[r], page⟩, env))
    (hconv : delegationRespToDelegation ce.lib r = .ok d) (hlimit : 2 ≤ ce.delegationLimit.toNat)
    (haddr : Addressable pointerSize ce.delegationLimit.toNat)
    (haccept : ce.acceptDelegationToSign d { w with env := env } = (.ok true, w₁)) (fuel : ℕ) :
    ce.queryPendingDelegations (fuel + 1) w = (.ok [d], w₁) := by
  have hshort : ([r] : List BTCDelegationResponse).length ≠
      (minUint64 maxPaginationLimit ce.delegationLimit).toNat := by
    rw [toNat_minUint64]
    simp [maxPaginationLimit]
    omega
  refine queryPendingDelegations_of_page haddr (by omega) hpage hshort ?_ fuel
  rw [scanPage_of_accepted hconv haccept (by simp; omega)]
  rfl

/-- In a tick whose only pending delegation is accepted and passes, the signer gets its request
and the chain its entry. -/
theorem tick_of_pending {w₂ : World σ} {env' : σ} {fuel : ℕ}
    (hquery : ce.queryPendingDelegations fuel w = (.ok [d], w₁))
    (hsize : 1 ≤ ce.sigsBatchSize.toNat) (h : Passes ce d w₁ w₂ req resp env')
    (hsubmit : (ce.cc.submitCovenantSigs [ce.covenantSigsOf req resp] env').1.Returns) :
    ce.tick fuel w =
      (.ok (), (w₂.signed d req env').submitted ce.cc [ce.covenantSigsOf req resp]) := by
  have hattempt : Go.attempt (ce.queryPendingDelegations fuel) w = (.ok (.ok [d]), w₁) := by
    rw [Go.attempt_apply, hquery]
    rfl
  unfold Emulator.tick
  rw [Go.bind_of_ok hattempt]
  exact processPending_of_passes hsize h hsubmit

end CovenantEmulator
