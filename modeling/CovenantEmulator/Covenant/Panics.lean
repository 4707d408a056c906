import CovenantEmulator.Sample

/-! Which delegations crash the emulator. -/
namespace CovenantEmulator

open Golang

section
variable {σ : Type} {ce : Emulator σ} {lib : BabylonLib} {net : NetParams} {d : Delegation}
  {P : StakingParams} {w : World σ}

/-- The checks before `GetStakingTime` pass and the time does not fit in 16 bits. -/
def TimePanics (d : Delegation) (P : StakingParams) : Prop :=
  d.hasCovenantQuorum P.covenantQuorum = .ok false ∧
    d.unbondingTime.toUInt32 = P.unbondingTimeBlocks ∧ 65535 < d.stakingTime.toNat

theorem encKeyOf_not_panics (pk : PublicKey) : ¬ (encKeyOf lib pk).Panics := by
  simp [encKeyOf]

theorem pkScriptPathSlashAndUnbond_panics :
    (pkScriptPathSlashAndUnbond lib d P net).Panics ↔ 65535 < d.stakingTime.toNat := by
  unfold pkScriptPathSlashAndUnbond
  rw [Outcome.bind_panics, ← Delegation.getStakingTime_panics]
  refine or_iff_left ?_
  rintro ⟨t, -, h⟩
  simp [Outcome.bind_panics] at h

theorem decodeDelegationTransactions_not_panics :
    ¬ (decodeDelegationTransactions lib d P net).Panics := by
  simp [decodeDelegationTransactions, Outcome.bind_panics]

theorem decodeUndelegationTransactions_not_panics {ud : Undelegation}
    (hud : d.btcUndelegation = some ud) :
    ¬ (decodeUndelegationTransactions lib d P net).Panics := by
  simp [decodeUndelegationTransactions, Outcome.bind_panics, hud, Outcome.deref]

/-- Past `GetStakingTime`, every index was checked by `CheckSlashingTxMatchFundingTx`. -/
theorem generateSigningRequest_not_panics (hidx : lib.ChecksFundingIndex) {ud : Undelegation}
    (hud : d.btcUndelegation = some ud) (htime : d.stakingTime.toNat ≤ 65535) :
    ¬ (generateSigningRequest lib d P net).Panics := by
  intro h
  rcases Outcome.bind_panics.mp h with h | ⟨⟨stakingTx, slashingTx⟩, hdel, h⟩
  · exact decodeDelegationTransactions_not_panics (Outcome.wrap_panics.mp h)
  rcases Outcome.bind_panics.mp h with h | ⟨⟨unbondingTx, slashUnbondingTx⟩, hundel, h⟩
  · exact decodeUndelegationTransactions_not_panics hud (Outcome.wrap_panics.mp h)
  obtain ⟨-, -, hacc⟩ := decodeDelegationTransactions_ok (Outcome.wrap_eq_ok.mp hdel)
  obtain ⟨-, hacc'⟩ := decodeUndelegationTransactions_ok (Outcome.wrap_eq_ok.mp hundel)
  have hstaked : d.stakingOutputIdx.toNat < stakingTx.txOut.length := hidx hacc
  have hunbonded : 0 < unbondingTx.txOut.length := hidx hacc'
  rcases Outcome.bind_panics.mp h with h | ⟨staked, -, h⟩
  · exact absurd (Outcome.index_panics.mp h) (by omega)
  rcases Outcome.bind_panics.mp h with h | ⟨unbonded, -, h⟩
  · exact absurd (Outcome.index_panics.mp h) (by omega)
  split at h
  · exact h
  rcases Outcome.bind_panics.mp h with h | ⟨keys, -, h⟩
  · exact Outcome.mapM_not_panics encKeyOf_not_panics _ (Outcome.wrap_panics.mp h)
  rcases Outcome.bind_panics.mp h with h | ⟨⟨slash, unbond, unbondSlash⟩, -, h⟩
  · rcases Outcome.bind_panics.mp (Outcome.wrap_panics.mp h) with h | ⟨⟨slash, unbond⟩, -, h⟩
    · exact absurd (pkScriptPathSlashAndUnbond_panics.mp h) (by omega)
    · simp only [pkScriptPathUnbondingSlash, Outcome.bind_panics, Outcome.index_panics,
        Outcome.ofExcept_not_panics, Outcome.pure_eq, Outcome.ok_panics, and_false, exists_false,
        or_false] at h
      omega
  · exact h

theorem checkDelegation_panics (hidx : lib.ChecksFundingIndex) {ud : Undelegation}
    (hud : d.btcUndelegation = some ud) :
    (checkDelegation lib d P net).Panics ↔ TimePanics d P := by
  unfold checkDelegation TimePanics
  rw [d.hasCovenantQuorum_of_undelegation hud, Outcome.bind_ok]
  split
  · rename_i hquorum
    simp [hquorum]
  rename_i hquorum
  split
  · rename_i hunbond
    simp [hunbond]
  rename_i hunbond
  rw [Outcome.bind_panics, Delegation.getStakingTime_panics]
  constructor
  · rintro (h | ⟨t, ht, h⟩)
    · exact ⟨by simpa using hquorum, not_not.mp hunbond, h⟩
    · have htime := (Delegation.getStakingTime_eq_ok.mp ht).1
      split at h
      · exact h.elim
      · split at h
        · exact h.elim
        · exact (generateSigningRequest_not_panics hidx hud htime h).elim
  · exact fun h => Or.inl h.2.2

/-- The parameter query, the signer and the submission come back with a value or an error. -/
structure CallsReturn (ce : Emulator σ) : Prop where
  params : ∀ version s, ¬ (ce.cc.queryStakingParamsByVersion version s).1.Panics
  signer : ∀ req s, ¬ (ce.signer req s).1.Panics
  submit : ∀ sigs s, ¬ (ce.cc.submitCovenantSigs sigs s).1.Panics

theorem paramsGet_not_panics (hret : CallsReturn ce) (v : UInt32) (w : World σ) :
    ¬ (paramsGet ce.retry ce.cc v w).1.Panics := by
  unfold paramsGet
  split
  · exact id
  · rw [getMissing, Go.bind_panics]
    rintro (h | ⟨P, w₁, -, h⟩)
    · refine ce.retry.not_panics (fun w₁ => ?_) _ w h
      rw [queryParamsOnce, Go.bind_panics, Go.attempt_panics]
      rintro (h | ⟨answer, w₂, -, h⟩)
      · exact hret.params v w₁.env h
      · exact Outcome.ofExcept_not_panics answer h
    · exact h

theorem stakeExpValidateBasic_not_panics : ¬ (stakeExpValidateBasic lib d).Panics := by
  unfold stakeExpValidateBasic
  split
  · exact id
  intro h
  rcases Outcome.bind_panics.mp h with h | ⟨tx, -, h⟩
  · exact Outcome.ofExcept_not_panics _ h
  split at h
  · rcases Outcome.bind_panics.mp h with h | ⟨hash, -, h⟩
    · exact Outcome.ofExcept_not_panics _ h
    split at h
    · exact h
    rcases Outcome.bind_panics.mp h with h | ⟨out, -, h⟩
    · exact Outcome.ofExcept_not_panics _ h
    split at h <;> exact h
  · exact h

/-- The query for the previous delegation panics, or answers with a staking time that does not
fit in 16 bits. -/
def PrevPanics (ce : Emulator σ) (d : Delegation) (w : World σ) : Prop :=
  ∃ exp out, d.stakeExpansion = some exp ∧ stakeExpValidateBasic ce.lib d = .ok out ∧
    ((ce.cc.queryBTCDelegation exp.previousStakingTxHashHex w.env).1.Panics ∨
      ∃ prevDel env tx P w', ce.cc.queryBTCDelegation exp.previousStakingTxHashHex w.env =
          (.ok prevDel, env) ∧
        ce.lib.newBTCTxFromHex prevDel.stakingTxHex = .ok tx ∧
        paramsGet ce.retry ce.cc prevDel.paramsVersion { w with env := env } = (.ok P, w') ∧
        65535 < prevDel.stakingTime.toNat)

theorem buildStkExpSigningRequest_panics (hret : CallsReturn ce) :
    (ce.buildStkExpSigningRequest d w).1.Panics ↔ PrevPanics ce d w := by
  unfold Emulator.buildStkExpSigningRequest PrevPanics
  cases hexp : d.stakeExpansion with
  | none => simp
  | some exp =>
    constructor
    · intro h
      rcases Go.bind_panics.mp h with h | ⟨out, w₁, hout, h⟩
      · exact (stakeExpValidateBasic_not_panics h).elim
      obtain ⟨hvalid, rfl⟩ := Go.lift_eq_ok.mp hout
      refine ⟨exp, out, rfl, hvalid, ?_⟩
      rcases Go.bind_panics.mp h with h | ⟨prevDel, w₂, hprev, h⟩
      · exact Or.inl h
      obtain ⟨env, hans, rfl⟩ := Go.zoom_eq_ok.mp hprev
      rcases Go.bind_panics.mp h with h | ⟨tx, w₃, htx, h⟩
      · exact (Outcome.ofExcept_not_panics _ h).elim
      obtain ⟨hdecode, rfl⟩ := Go.lift_eq_ok.mp htx
      rcases Go.bind_panics.mp h with h | ⟨P, w₄, hP, h⟩
      · exact (paramsGet_not_panics hret _ _ (Go.wrap_panics.mp h)).elim
      rcases Go.bind_panics.mp h with h | ⟨paths, w₅, -, h⟩
      · exact Or.inr ⟨prevDel, env, tx, P, w₄, hans, Outcome.ofExcept_eq_ok.mp hdecode,
          Go.wrap_eq_ok.mp hP, pkScriptPathSlashAndUnbond_panics.mp h⟩
      · exact h.elim
    · rintro ⟨exp', out, ⟨rfl⟩, hvalid, h⟩
      refine Go.bind_panics.mpr (Or.inr ⟨out, w, by simp [hvalid], ?_⟩)
      rcases h with h | ⟨prevDel, env, tx, P, w', hans, htx, hP, htime⟩
      · exact Go.bind_panics.mpr (Or.inl h)
      · refine Go.bind_panics.mpr (Or.inr ⟨prevDel, _, Go.zoom_eq_ok.mpr ⟨env, hans, rfl⟩, ?_⟩)
        refine Go.bind_panics.mpr (Or.inr
          ⟨tx, _, Go.lift_eq_ok.mpr ⟨Outcome.ofExcept_eq_ok.mpr htx, rfl⟩, ?_⟩)
        refine Go.bind_panics.mpr (Or.inr ⟨P, w', Go.wrap_eq_ok.mpr hP, ?_⟩)
        exact Go.bind_panics.mpr (Or.inl (pkScriptPathSlashAndUnbond_panics.mpr htime))

theorem withStakeExp_panics (hret : CallsReturn ce) {req : SigningRequest} :
    (ce.withStakeExp d req w).1.Panics ↔ PrevPanics ce d w := by
  rw [← buildStkExpSigningRequest_panics hret]
  unfold Emulator.withStakeExp
  split
  · rw [Go.bind_panics, Go.wrap_panics]
    exact or_iff_left (by simp)
  · rename_i hplain
    simp [Emulator.buildStkExpSigningRequest, Delegation.isStakeExpansion] at hplain ⊢
    simp [hplain]

theorem signDelegation_panics (hidx : ce.lib.ChecksFundingIndex) (hret : CallsReturn ce)
    {ud : Undelegation} (hud : d.btcUndelegation = some ud) :
    (ce.signDelegation d P w).1.Panics ↔ TimePanics d P ∨
      ((∃ req, checkDelegation ce.lib d P ce.btcNetParams = .ok req) ∧ PrevPanics ce d w) := by
  unfold Emulator.signDelegation
  rw [Go.bind_panics, Go.lift_panics, checkDelegation_panics hidx hud]
  refine or_congr_right ?_
  constructor
  · rintro ⟨req, w₁, hreq, h⟩
    obtain ⟨hcheck, rfl⟩ := Go.lift_eq_ok.mp hreq
    refine ⟨⟨req, hcheck⟩, ?_⟩
    rcases Go.bind_panics.mp h with h | ⟨req', w₂, -, h⟩
    · exact (withStakeExp_panics hret).mp h
    rcases Go.bind_panics.mp h with h | ⟨resp, w₃, -, h⟩
    · rcases Go.bind_panics.mp h with h | ⟨_, w₃, -, h⟩
      · exact h.elim
      · rw [Go.wrap_panics] at h
        exact (hret.signer req' w₃.env h).elim
    · exact h.elim
  · rintro ⟨⟨req, hreq⟩, h⟩
    exact ⟨req, w, by simp [hreq], Go.bind_panics.mpr (Or.inl ((withStakeExp_panics hret).mpr h))⟩

/-- The state and the delegation at which the loop body panics. -/
def StepPanics (ce : Emulator σ) (btcDel : Option Delegation) (w : World σ) : Prop :=
  match btcDel with
  | none => True
  | some d => d.btcUndelegation ≠ none ∧
    ∃ P w₁, paramsGet ce.retry ce.cc d.paramsVersion w = (.ok P, w₁) ∧ (TimePanics d P ∨
      ((∃ req, checkDelegation ce.lib d P ce.btcNetParams = .ok req) ∧ PrevPanics ce d w₁))

theorem addCovenantSignature_panics (hidx : ce.lib.ChecksFundingIndex) (hret : CallsReturn ce)
    {btcDel : Option Delegation} :
    (ce.addCovenantSignature btcDel w).1.Panics ↔ StepPanics ce btcDel w := by
  unfold StepPanics
  cases btcDel with
  | none => simp [Emulator.addCovenantSignature, Outcome.deref, Go.bind_panics]
  | some d =>
    cases hud : d.btcUndelegation with
    | none => simp [ce.addCovenantSignature_empty hud, hud]
    | some ud =>
      rw [ce.addCovenantSignature_some hud, Go.bind_panics, Go.wrap_panics]
      simp only [paramsGet_not_panics hret, false_or, hud, ne_eq, reduceCtorEq,
        not_false_eq_true, true_and, Go.wrap_eq_ok, Go.attempt_panics,
        signDelegation_panics hidx hret hud]

theorem collectSigs_panics (hidx : ce.lib.ChecksFundingIndex) (hret : CallsReturn ce)
    {btcDels : List (Option Delegation)} :
    (ce.collectSigs btcDels w).1.Panics ↔ ∃ pre btcDel post sigs w',
      btcDels = pre ++ btcDel :: post ∧ ce.collectSigs pre w = (.ok sigs, w') ∧
      StepPanics ce btcDel w' := by
  unfold Emulator.collectSigs
  simp only [Go.foldlM_panics, Emulator.collectStep, Go.bind_panics,
    addCovenantSignature_panics hidx hret, Go.pure_apply, Outcome.ok_panics, and_false,
    exists_false, or_false]

theorem addCovenantSignatures_panics (hidx : ce.lib.ChecksFundingIndex) (hret : CallsReturn ce)
    {btcDels : List (Option Delegation)} (hne : btcDels ≠ []) :
    (ce.addCovenantSignatures btcDels w).1.Panics ↔ ∃ pre btcDel post sigs w',
      btcDels = pre ++ btcDel :: post ∧ ce.collectSigs pre w = (.ok sigs, w') ∧
      StepPanics ce btcDel w' := by
  rw [← collectSigs_panics hidx hret]
  unfold Emulator.addCovenantSignatures
  rw [if_neg (by simpa using hne), Go.bind_panics]
  refine or_iff_left ?_
  rintro ⟨sigs, w₁, -, h⟩
  rcases Go.bind_panics.mp h with h | ⟨_, w₂, -, h⟩
  · exact h
  · exact hret.submit sigs w₂.env h

/-- A stake expansion that is malformed, or whose previous delegation is. -/
inductive MalformedExpansion (ce : Emulator σ) (d : Delegation) (exp : DelegationStakeExpansion)
    (w : World σ) : Prop
  | invalid (h : ∀ out, stakeExpValidateBasic ce.lib d ≠ .ok out) : MalformedExpansion ce d exp w
  | prevTx {prevDel : Delegation} {env : σ}
      (hans : ce.cc.queryBTCDelegation exp.previousStakingTxHashHex w.env = (.ok prevDel, env))
      (h : ∀ tx, ce.lib.newBTCTxFromHex prevDel.stakingTxHex ≠ .ok tx) :
      MalformedExpansion ce d exp w
  | prevPaths {prevDel : Delegation} {P : StakingParams} {env : σ} {w₁ : World σ}
      (hans : ce.cc.queryBTCDelegation exp.previousStakingTxHashHex w.env = (.ok prevDel, env))
      (hP : paramsGet ce.retry ce.cc prevDel.paramsVersion { w with env := env } = (.ok P, w₁))
      (h : ∀ info slash unbond, ¬ StakingPaths ce.lib ce.btcNetParams prevDel P info slash unbond) :
      MalformedExpansion ce d exp w

/-- A delegation that is nil, out of range or malformed under the parameters of its version. -/
inductive Malformed (ce : Emulator σ) : Option Delegation → World σ → Prop
  | nil {w : World σ} : Malformed ce none w
  | noUndelegation {d : Delegation} {w : World σ} (hud : d.btcUndelegation = none) :
      Malformed ce (some d) w
  | unchecked {d : Delegation} {P : StakingParams} {w w₁ : World σ}
      (hP : paramsGet ce.retry ce.cc d.paramsVersion w = (.ok P, w₁))
      (h : ∀ req, ¬ Checked ce.lib ce.btcNetParams d P req) : Malformed ce (some d) w
  | expansion {d : Delegation} {exp : DelegationStakeExpansion} {P : StakingParams}
      {w w₁ : World σ} (hP : paramsGet ce.retry ce.cc d.paramsVersion w = (.ok P, w₁))
      (hexp : d.stakeExpansion = some exp) (h : MalformedExpansion ce d exp w₁) :
      Malformed ce (some d) w

/-- A malformed stake expansion is not built. -/
theorem MalformedExpansion.build_error {exp : DelegationStakeExpansion}
    (h : MalformedExpansion ce d exp w) (hexp : d.stakeExpansion = some exp)
    (hpanic : ¬ (ce.buildStkExpSigningRequest d w).1.Panics) :
    ∃ e w', ce.buildStkExpSigningRequest d w = (.error e, w') := by
  unfold Emulator.buildStkExpSigningRequest at hpanic ⊢
  simp only [hexp] at hpanic ⊢
  have hquery : ∀ {prevDel env}, ce.cc.queryBTCDelegation exp.previousStakingTxHashHex w.env =
      (.ok prevDel, env) → onEnv (ce.cc.queryBTCDelegation exp.previousStakingTxHashHex) w =
        (.ok prevDel, { w with env := env }) :=
    fun hans => Go.zoom_eq_ok.mpr ⟨_, hans, rfl⟩
  by_cases hvalid : ∃ out, stakeExpValidateBasic ce.lib d = .ok out
  · obtain ⟨out, hout⟩ := hvalid
    rw [Go.bind_of_ok (Go.lift_eq_ok.mpr ⟨hout, rfl⟩)] at hpanic ⊢
    cases h with
    | invalid h => exact (h out hout).elim
    | prevTx hans h =>
      obtain ⟨e, he⟩ := Outcome.error_of_others (o := .ofExcept _)
        (fun tx htx => h tx (Outcome.ofExcept_eq_ok.mp htx)) (Outcome.ofExcept_not_panics _)
        (Outcome.ofExcept_ne_diverged _)
      rw [Go.bind_of_ok (hquery hans)]
      exact ⟨e, _, Go.bind_of_error (by rw [Go.lift_apply, he])⟩
    | @prevPaths prevDel P env w₁ hans hP h =>
      rw [Go.bind_of_ok (hquery hans)] at hpanic ⊢
      cases htx : ce.lib.newBTCTxFromHex prevDel.stakingTxHex with
      | error e => exact ⟨e, _, Go.bind_of_error (by rw [Go.lift_apply, Outcome.ofExcept])⟩
      | ok tx =>
        rw [htx, Go.bind_of_ok (Go.lift_eq_ok.mpr ⟨Outcome.ofExcept_eq_ok.mpr rfl, rfl⟩),
          Go.bind_of_ok (Go.wrap_eq_ok.mpr hP)] at hpanic
        rw [Go.bind_of_ok (Go.lift_eq_ok.mpr ⟨Outcome.ofExcept_eq_ok.mpr rfl, rfl⟩),
          Go.bind_of_ok (Go.wrap_eq_ok.mpr hP)]
        obtain ⟨e, he⟩ := Outcome.error_of_others
          (o := pkScriptPathSlashAndUnbond ce.lib prevDel P ce.btcNetParams)
          (fun paths hpaths => by
            obtain ⟨info, hinfo⟩ := pkScriptPathSlashAndUnbond_ok hpaths
            exact h info _ _ hinfo)
          (fun hpaths => hpanic (Go.bind_panics.mpr (.inl hpaths)))
          pkScriptPathSlashAndUnbond_ne_diverged
        exact ⟨e, _, Go.bind_of_error (by rw [Go.lift_apply, he])⟩
  · obtain ⟨e, he⟩ := Outcome.error_of_others (fun out hout => hvalid ⟨out, hout⟩)
      stakeExpValidateBasic_not_panics stakeExpValidateBasic_ne_diverged
    exact ⟨e, w, Go.bind_of_error (by rw [Go.lift_apply, he])⟩

/-- A failed check ends the delegation. -/
theorem signDelegation_unchecked (h : ∀ req, ¬ Checked ce.lib ce.btcNetParams d P req)
    (hpanic : ¬ (ce.signDelegation d P w).1.Panics) :
    ∃ line w', ce.signDelegation d P w = (.error line, w') := by
  have hcheck : ¬ (checkDelegation ce.lib d P ce.btcNetParams).Panics :=
    fun hcheck => hpanic (Go.bind_panics.mpr (.inl hcheck))
  obtain ⟨line, hline⟩ := Outcome.error_of_others
    (fun req hreq => h req (checkDelegation_ok hreq).1) hcheck checkDelegation_ne_diverged
  exact ⟨line, w, Go.bind_of_error (by rw [Go.lift_apply, hline])⟩

theorem signDelegation_malformedExpansion {exp : DelegationStakeExpansion}
    (hexp : d.stakeExpansion = some exp) (h : MalformedExpansion ce d exp w)
    (hpanic : ¬ (ce.signDelegation d P w).1.Panics) :
    ∃ line w', ce.signDelegation d P w = (.error line, w') := by
  by_cases hreq : ∃ req, checkDelegation ce.lib d P ce.btcNetParams = .ok req
  · obtain ⟨req, hreq⟩ := hreq
    unfold Emulator.signDelegation Emulator.withStakeExp at hpanic ⊢
    have hstk : d.isStakeExpansion = true := by simp [Delegation.isStakeExpansion, hexp]
    simp only [hstk, if_true] at hpanic ⊢
    rw [Go.bind_of_ok (Go.lift_eq_ok.mpr ⟨hreq, rfl⟩)] at hpanic ⊢
    have hbuild : ¬ (ce.buildStkExpSigningRequest d w).1.Panics := fun hbuild =>
      hpanic (Go.bind_panics.mpr (.inl (Go.bind_panics.mpr (.inl (Go.wrap_panics.mpr hbuild)))))
    obtain ⟨e, w', he⟩ := h.build_error hexp hbuild
    have hwrapped : Go.wrap ("error building stake expansion request: " ++ ·)
        (ce.buildStkExpSigningRequest d) w =
          (.error ("error building stake expansion request: " ++ e), w') :=
      Go.wrap_eq_error.mpr ⟨e, he, rfl⟩
    exact ⟨_, w', Go.bind_of_error (Go.bind_of_error hwrapped)⟩
  · refine signDelegation_unchecked (fun req hchecked => hreq ?_) hpanic
    exact ⟨_, checkDelegation_of_checked (hchecked.withStakeExp none) rfl⟩

/-- A malformed delegation is skipped with a line in the log, as long as the body does not panic. -/
theorem Malformed.skipped {btcDel : Option Delegation} (h : Malformed ce btcDel w)
    (hpanic : ¬ (ce.addCovenantSignature btcDel w).1.Panics) :
    ∃ line w', ce.addCovenantSignature btcDel w = (.ok (.error line), w') := by
  have hattempt : ∀ {d : Delegation} {P : StakingParams} {w₁ : World σ},
      paramsGet ce.retry ce.cc d.paramsVersion w = (.ok P, w₁) →
      ¬ (ce.addCovenantSignature (some d) w).1.Panics →
      (¬ (ce.signDelegation d P w₁).1.Panics →
        ∃ line w', ce.signDelegation d P w₁ = (.error line, w')) →
      ∃ line w', ce.addCovenantSignature (some d) w = (.ok (.error line), w') := by
    intro d P w₁ hP hpanic hsign
    cases hud : d.btcUndelegation with
    | none => exact ⟨_, w, by rw [ce.addCovenantSignature_empty hud, Go.pure_apply]⟩
    | some ud =>
      rw [ce.addCovenantSignature_some hud, Go.bind_of_ok (Go.wrap_eq_ok.mpr hP),
        Go.attempt_panics] at hpanic
      obtain ⟨line, w', hline⟩ := hsign hpanic
      refine ⟨line, w', ?_⟩
      rw [ce.addCovenantSignature_some hud, Go.bind_of_ok (Go.wrap_eq_ok.mpr hP),
        Go.attempt_apply, hline]
      rfl
  cases h with
  | nil => exact (hpanic trivial).elim
  | noUndelegation hud => exact ⟨_, w, by rw [ce.addCovenantSignature_empty hud, Go.pure_apply]⟩
  | unchecked hP h => exact hattempt hP hpanic (signDelegation_unchecked h)
  | expansion hP hexp h => exact hattempt hP hpanic (signDelegation_malformedExpansion hexp h)

/-- The call does not panic, each malformed delegation that is reached is skipped, and the loop goes
on after it with what it had collected. -/
def SkipsAndGoesOn (ce : Emulator σ) (btcDels : List (Option Delegation)) (w : World σ) : Prop :=
  ¬ (ce.addCovenantSignatures btcDels w).1.Panics ∧
    ∀ pre btcDel post sigs w₁, btcDels = pre ++ btcDel :: post →
      ce.collectSigs pre w = (.ok sigs, w₁) → Malformed ce btcDel w₁ →
      ∃ line w₂, ce.addCovenantSignature btcDel w₁ = (.ok (.error line), w₂) ∧
        ce.collectSigs (pre ++ [btcDel]) w = (.ok sigs, w₂)

theorem collectSigs_skip {pre : List (Option Delegation)} {btcDel : Option Delegation}
    {sigs : List CovenantSigs} {line : String} {w₁ w₂ : World σ}
    (hpre : ce.collectSigs pre w = (.ok sigs, w₁))
    (hstep : ce.addCovenantSignature btcDel w₁ = (.ok (.error line), w₂)) :
    ce.collectSigs (pre ++ [btcDel]) w = (.ok sigs, w₂) := by
  unfold Emulator.collectSigs at hpre ⊢
  rw [List.foldlM_append, Go.bind_of_ok hpre, List.foldlM_cons, Emulator.collectStep,
    bind_assoc, Go.bind_of_ok hstep]
  simp [Except.toOption]

/-- No delegation crashes the call exactly when none that the loop reaches is nil, or gets to a
staking time that does not fit in 16 bits, its own or that of its previous delegation. -/
theorem skipsAndGoesOn_iff (ce : Emulator σ) (hidx : ce.lib.ChecksFundingIndex)
    (hret : CallsReturn ce) {btcDels : List (Option Delegation)} (hne : btcDels ≠ [])
    (w : World σ) :
    SkipsAndGoesOn ce btcDels w ↔ ∀ pre btcDel post sigs w', btcDels = pre ++ btcDel :: post →
      ce.collectSigs pre w = (.ok sigs, w') → ¬ StepPanics ce btcDel w' := by
  unfold SkipsAndGoesOn
  rw [addCovenantSignatures_panics hidx hret hne]
  constructor
  · rintro ⟨h, -⟩ pre btcDel post sigs w' hsplit hpre hstep
    exact h ⟨pre, btcDel, post, sigs, w', hsplit, hpre, hstep⟩
  · intro h
    refine ⟨?_, fun pre btcDel post sigs w₁ hsplit hpre hmalformed => ?_⟩
    · rintro ⟨pre, btcDel, post, sigs, w', hsplit, hpre, hstep⟩
      exact h pre btcDel post sigs w' hsplit hpre hstep
    · have hstep := h pre btcDel post sigs w₁ hsplit hpre
      rw [← addCovenantSignature_panics hidx hret] at hstep
      obtain ⟨line, w₂, hline⟩ := hmalformed.skipped hstep
      exact ⟨line, w₂, hline, collectSigs_skip hpre hline⟩

end

namespace Sample

theorem callsReturn (pending : List BTCDelegationResponse) :
    CallsReturn (emulator (node pending) signer) where
  params _ _ := id
  signer req _ := Outcome.ofExcept_not_panics (sign req)
  submit _ _ := id

/-- Only a staking time of 17 bits makes a plain delegation panic. -/
theorem not_stepPanics_plain {d : Delegation} (htime : d.stakingTime = plainDelegation.stakingTime)
    (hexp : d.stakeExpansion = none) (w : World Unit) :
    ¬ StepPanics (emulator (node []) signer) (some d) w := by
  rintro ⟨-, P, w₁, -, ⟨-, -, hlong⟩ | ⟨-, exp, out, hexp', -⟩⟩
  · rw [htime] at hlong
    exact absurd hlong (by decide)
  · simp [hexp] at hexp'

/-- A delegation without an undelegation, one with another unbonding time, and one to be signed. -/
def mixedDelegations : List (Option Delegation) :=
  [some { plainDelegation with btcUndelegation := none },
    some { plainDelegation with unbondingTime := 102 }, some plainDelegation]

theorem malformed_unbondingTime : Malformed (emulator (node []) signer)
    (some { plainDelegation with unbondingTime := 102 }) (world () 10000) := by
  refine .unchecked rfl fun req hchecked => ?_
  exact absurd hchecked.unbondingTime (by decide)

/-- The first two are skipped, and the third is reached with nothing collected. -/
theorem mixed_skipsAndGoesOn :
    SkipsAndGoesOn (emulator (node []) signer) mixedDelegations (world () 10000) ∧
      ∃ line w, (emulator (node []) signer).addCovenantSignature
          (some { plainDelegation with unbondingTime := 102 }) (world () 10000) =
            (.ok (.error line), w) ∧
        (emulator (node []) signer).collectSigs (mixedDelegations.take 2) (world () 10000) =
          (.ok [], w) := by
  have hmixed : SkipsAndGoesOn (emulator (node []) signer) mixedDelegations (world () 10000) := by
    refine (skipsAndGoesOn_iff (emulator (node []) signer) (table_checksFundingIndex table)
      (callsReturn []) (by simp [mixedDelegations]) (world () 10000)).mpr ?_
    intro pre btcDel post sigs w' hsplit _
    have hmem : btcDel ∈ mixedDelegations := by
      rw [hsplit]
      exact List.mem_append_right _ List.mem_cons_self
    simp only [mixedDelegations, List.mem_cons, List.not_mem_nil, or_false] at hmem
    rcases hmem with rfl | rfl | rfl
    all_goals
      refine not_stepPanics_plain ?_ ?_ w' <;> rfl
  have hfirst : (emulator (node []) signer).collectSigs
      [some { plainDelegation with btcUndelegation := none }] (world () 10000) =
        (.ok [], world () 10000) := rfl
  exact ⟨hmixed, hmixed.2 _ _ _ _ _ rfl hfirst malformed_unbondingTime⟩

/-- The staking time of this delegation takes 17 bits. -/
def longDelegation : Delegation := { plainDelegation with stakingTime := 70000 }

/-- The call panics on a nil delegation, and on one with a long staking time from the chain. -/
theorem nil_and_long_delegations_panic :
    ¬ SkipsAndGoesOn (emulator (node []) signer) [none] (world () 10000) ∧
      delegationRespToDelegation lib { plainResponse [] with stakingTime := 70000 } =
        .ok longDelegation ∧
      ¬ SkipsAndGoesOn (emulator (node []) signer) [some longDelegation] (world () 10000) := by
  refine ⟨fun h => h.1 trivial,
    delegationRespToDelegation_stakingTime delegationRespToDelegation_plain 70000,
    fun h => h.1 ?_⟩
  have hstep : StepPanics (emulator (node []) signer) (some longDelegation) (world () 10000) :=
    ⟨by simp [longDelegation, plainDelegation, delegation], params 10000, world () 10000, rfl,
      .inl ⟨rfl, rfl, by decide⟩⟩
  exact (addCovenantSignatures_panics (table_checksFundingIndex table) (callsReturn [])
    (by simp)).mpr ⟨[], _, [], [], _, rfl, rfl, hstep⟩

end Sample

end CovenantEmulator
