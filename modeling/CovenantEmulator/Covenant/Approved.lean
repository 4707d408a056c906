import CovenantEmulator.Covenant.Accepted

/-! What stands behind every request sent to the signer and every entry submitted. -/
namespace CovenantEmulator

open Golang

/-- How the stake expansion part of a request was put together. -/
structure BuiltFrom {σ : Type} (ce : Emulator σ) (cache : UInt32 → Option StakingParams)
    (d : Delegation) (hash : String) (prevDel : Delegation) (stk : SigningRequestStkExp) :
    Prop where
  answered : Answered ce.cc hash prevDel
  valid : stakeExpValidateBasic ce.lib d = .ok stk.otherFundingOutput
  prevTx : ce.lib.newBTCTxFromHex prevDel.stakingTxHex = .ok stk.previousActiveStakeTx
  script : ∃ P info slash, cache prevDel.paramsVersion = some P ∧
    StakingPaths ce.lib ce.btcNetParams prevDel P info slash
      stk.previousActiveStakeUnbondingPkScriptPath
  index : stk.previousStakingOutputIdx = prevDel.stakingOutputIdx

/-- The request was made for `d`, with the cached parameters of its version. -/
structure Approved {σ : Type} (ce : Emulator σ) (cache : UInt32 → Option StakingParams)
    (d : Delegation) (req : SigningRequest) : Prop where
  checked : ∃ P, cache d.paramsVersion = some P ∧
    Checked ce.lib ce.btcNetParams d P req
  plain : d.stakeExpansion = none → req.stakeExp = none
  stakeExp : ∀ exp, d.stakeExpansion = some exp → ∃ stk prevDel, req.stakeExp = some stk ∧
    BuiltFrom ce cache d exp.previousStakingTxHashHex prevDel stk

/-- The entry holds the signer's answer to an approved request. -/
def SignedEntry {σ : Type} (ce : Emulator σ) (cache : UInt32 → Option StakingParams)
    (D : Delegation → Prop) (entry : CovenantSigs) : Prop :=
  ∃ d req resp s s', D d ∧ Approved ce cache d req ∧ ce.signer req s = (.ok resp, s') ∧
    entry = ce.covenantSigsOf req resp

/-- Events a run over delegations in `D` may record. -/
inductive Justified {σ : Type} (ce : Emulator σ) (cache : UInt32 → Option StakingParams)
    (D : Delegation → Prop) : Event → Prop where
  | paramsAnswer (v answer) : Justified ce cache D (.paramsAnswer v answer)
  | signing {d req} (hd : D d) (h : Approved ce cache d req) : Justified ce cache D (.signing d req)
  | submitting {sigs} (h : ∀ entry ∈ sigs, SignedEntry ce cache D entry) :
    Justified ce cache D (.submitting sigs)

/-- The run from `w` to `w'` recorded only justified events and overwrote no parameters. -/
structure Runs {σ : Type} (ce : Emulator σ) (R : σ → σ → Prop) (D : Delegation → Prop)
    (w w' : World σ) : Prop where
  env : R w.env w'.env
  cache : ∀ {v P}, w.paramsByVersion v = some P → w'.paramsByVersion v = some P
  trace : ∃ new, w'.trace = w.trace ++ new ∧ ∀ e ∈ new, Justified ce w'.paramsByVersion D e

section
variable {σ : Type} {ce : Emulator σ} {R : σ → σ → Prop} {D D' : Delegation → Prop}
  {w w' w'' : World σ} {d : Delegation} {req : SigningRequest} {P : StakingParams}
  {cache cache' : UInt32 → Option StakingParams}

theorem BuiltFrom.mono {hash : String} {prevDel : Delegation} {stk : SigningRequestStkExp}
    (h : BuiltFrom ce cache d hash prevDel stk)
    (hcache : ∀ {v P}, cache v = some P → cache' v = some P) :
    BuiltFrom ce cache' d hash prevDel stk := by
  obtain ⟨P, info, slash, hP, hpaths⟩ := h.script
  exact { h with script := ⟨P, info, slash, hcache hP, hpaths⟩ }

theorem Approved.mono (h : Approved ce cache d req)
    (hcache : ∀ {v P}, cache v = some P → cache' v = some P) : Approved ce cache' d req := by
  obtain ⟨P, hP, hchecked⟩ := h.checked
  refine ⟨⟨P, hcache hP, hchecked⟩, h.plain, fun exp hexp => ?_⟩
  obtain ⟨stk, prevDel, hstk, hbuilt⟩ := h.stakeExp exp hexp
  exact ⟨stk, prevDel, hstk, hbuilt.mono hcache⟩

theorem SignedEntry.mono {entry : CovenantSigs} (h : SignedEntry ce cache D entry)
    (hcache : ∀ {v P}, cache v = some P → cache' v = some P) (hD : ∀ d, D d → D' d) :
    SignedEntry ce cache' D' entry := by
  obtain ⟨d, req, resp, s, s', hd, happr, hsign, hentry⟩ := h
  exact ⟨d, req, resp, s, s', hD d hd, happr.mono hcache, hsign, hentry⟩

theorem Justified.mono {e : Event} (h : Justified ce cache D e)
    (hcache : ∀ {v P}, cache v = some P → cache' v = some P) (hD : ∀ d, D d → D' d) :
    Justified ce cache' D' e := by
  cases h with
  | paramsAnswer v answer => exact .paramsAnswer v answer
  | signing hd h => exact .signing (hD _ hd) (h.mono hcache)
  | submitting h => exact .submitting fun entry hentry => (h entry hentry).mono hcache hD

theorem Runs.of_quiet (h : Quiet R w w') : Runs ce R D w w' := by
  obtain ⟨new, hnew, hq⟩ := h.trace
  refine ⟨h.env, h.cache, new, hnew, fun e he => ?_⟩
  obtain ⟨v, answer, rfl⟩ := hq e he
  exact .paramsAnswer v answer

theorem Runs.trans (hR : Respects ce.cc R) (h : Runs ce R D w w') (h' : Runs ce R D w' w'') :
    Runs ce R D w w'' := by
  obtain ⟨new, hnew, hj⟩ := h.trace
  obtain ⟨new', hnew', hj'⟩ := h'.trace
  refine ⟨hR.trans h.env h'.env, fun hv => h'.cache (h.cache hv), new ++ new',
    by simp [hnew, hnew'], ?_⟩
  intro e he
  rcases List.mem_append.mp he with he | he
  · exact (hj e he).mono h'.cache fun _ hd => hd
  · exact hj' e he

/-- Recording a justified event. -/
theorem record_spec (hR : Respects ce.cc R) {e : Event} (w : World σ)
    (he : Justified ce w.paramsByVersion D e) (F : World σ → Prop) :
    Triple (record e) w (fun _ w' => Runs ce R D w w' ∧ w'.paramsByVersion = w.paramsByVersion)
      F :=
  Triple.modify ⟨⟨hR.refl _, id, [e], rfl, by simpa using he⟩, rfl⟩

theorem buildStkExpSigningRequest_spec (hR : Respects ce.cc R) {exp : DelegationStakeExpansion}
    (hexp : d.stakeExpansion = some exp) (w : World σ) :
    Triple (ce.buildStkExpSigningRequest d) w
      (fun stk w' => Quiet R w w' ∧ ∃ prevDel,
        BuiltFrom ce w'.paramsByVersion d exp.previousStakingTxHashHex prevDel stk)
      (fun w' => Quiet R w w') := by
  have hrefl := Quiet.refl hR w
  unfold Emulator.buildStkExpSigningRequest
  simp only [hexp]
  refine Triple.bind (Q := fun out w' => w = w' ∧ stakeExpValidateBasic ce.lib d = .ok out)
    (Triple.lift (fun _ h => ⟨rfl, h⟩) hrefl) ?_
  rintro out _ ⟨rfl, hout⟩
  refine Triple.bind (onEnv_spec w (hR.delegation _)) ?_
  rintro prevDel w₁ ⟨hq₁, hans⟩
  refine Triple.bind (Q := fun tx w' => w₁ = w' ∧
    ce.lib.newBTCTxFromHex prevDel.stakingTxHex = .ok tx)
    (Triple.lift (fun _ h => ⟨rfl, Outcome.ofExcept_eq_ok.mp h⟩) hq₁) ?_
  rintro tx _ ⟨rfl, htx⟩
  refine Triple.bind (Triple.wrap ((paramsGet_spec hR prevDel.paramsVersion w₁).mono
    (fun _ _ h => And.intro (hq₁.trans hR h.1) h.2) fun _ h => hq₁.trans hR h)) ?_
  rintro P w₂ ⟨hq₂, hP⟩
  refine Triple.bind (Q := fun paths w' => w₂ = w' ∧
    pkScriptPathSlashAndUnbond ce.lib prevDel P ce.btcNetParams = .ok paths)
    (Triple.lift (fun _ h => ⟨rfl, h⟩) hq₂) ?_
  rintro ⟨slash, unbond⟩ _ ⟨rfl, hpaths⟩
  obtain ⟨info, hinfo⟩ := pkScriptPathSlashAndUnbond_ok hpaths
  exact Triple.pure ⟨hq₂, prevDel, ⟨_, _, hans⟩, hout, htx, ⟨P, info, slash, hP, hinfo⟩, rfl⟩

theorem withStakeExp_spec (hR : Respects ce.cc R) (w : World σ)
    (hP : w.paramsByVersion d.paramsVersion = some P)
    (hchecked : Checked ce.lib ce.btcNetParams d P req) (hplain : req.stakeExp = none) :
    Triple (ce.withStakeExp d req) w
      (fun req' w' => Quiet R w w' ∧ Approved ce w'.paramsByVersion d req')
      (fun w' => Quiet R w w') := by
  unfold Emulator.withStakeExp Delegation.isStakeExpansion
  cases hexp : d.stakeExpansion with
  | none =>
    exact Triple.pure ⟨Quiet.refl hR w, ⟨P, hP, hchecked⟩, fun _ => hplain, by simp [hexp]⟩
  | some exp =>
    refine Triple.bind (Triple.wrap (buildStkExpSigningRequest_spec hR hexp w)) ?_
    rintro stk w' ⟨hq, prevDel, hbuilt⟩
    refine Triple.pure ⟨hq, ⟨P, hq.cache hP, hchecked.withStakeExp _⟩, by simp [hexp], ?_⟩
    intro exp' hexp'
    obtain rfl : exp = exp' := by simpa [hexp] using hexp'
    exact ⟨stk, prevDel, rfl, hbuilt⟩

variable (hR : Respects ce.cc R) (hS : ∀ req s, R s (ce.signer req s).2)
include hR hS

theorem signTransactions_spec (w : World σ) (hd : D d)
    (happr : Approved ce w.paramsByVersion d req) :
    Triple (ce.signTransactions d req) w
      (fun resp w' => Runs ce R D w w' ∧ ∃ s s', ce.signer req s = (.ok resp, s'))
      (fun w' => Runs ce R D w w') := by
  refine Triple.bind (record_spec hR w (.signing hd happr) _) ?_
  rintro _ w₁ ⟨hrun, -⟩
  refine Triple.wrap ((onEnv_spec w₁ (hS req)).mono ?_ fun _ h => hrun.trans hR (.of_quiet h))
  exact fun resp w₂ h => ⟨hrun.trans hR (.of_quiet h.1), _, _, h.2⟩

theorem signDelegation_spec (w : World σ) (hd : D d)
    (hP : w.paramsByVersion d.paramsVersion = some P) :
    Triple (ce.signDelegation d P) w
      (fun entry w' => Runs ce R D w w' ∧ SignedEntry ce w'.paramsByVersion D entry)
      (fun w' => Runs ce R D w w') := by
  have hrefl : Runs ce R D w w := .of_quiet (Quiet.refl hR w)
  refine Triple.bind (Q := fun req w' => w = w' ∧ Checked ce.lib ce.btcNetParams d P req ∧
    req.stakeExp = none) (Triple.lift (fun _ h => ⟨rfl, checkDelegation_ok h⟩) hrefl) ?_
  rintro req _ ⟨rfl, hchecked, hplain⟩
  refine Triple.bind ((withStakeExp_spec hR w hP hchecked hplain).mono
    (fun _ _ h => h) fun _ h => .of_quiet h) ?_
  rintro req' w₁ ⟨hq, happr⟩
  refine Triple.bind ((signTransactions_spec hR hS w₁ hd happr).mono
    (fun _ _ h => h) fun _ h => (Runs.of_quiet hq).trans hR h) ?_
  rintro resp w₂ ⟨hrun, s, s', hsign⟩
  exact Triple.pure ⟨(Runs.of_quiet hq).trans hR hrun,
    d, req', resp, s, s', hd, happr.mono hrun.cache, hsign, rfl⟩

theorem addCovenantSignature_spec (w : World σ) {btcDel : Option Delegation}
    (hD : ∀ d, btcDel = some d → D d) :
    Triple (ce.addCovenantSignature btcDel) w
      (fun signed w' => Runs ce R D w w' ∧
        ∀ entry ∈ signed.toOption, SignedEntry ce w'.paramsByVersion D entry)
      (fun w' => Runs ce R D w w') := by
  have hrefl : Runs ce R D w w := .of_quiet (Quiet.refl hR w)
  refine Triple.bind (Q := fun d w' => w = w' ∧ btcDel = some d)
    (Triple.lift (fun _ h => ⟨rfl, Outcome.deref_eq_ok.mp h⟩) hrefl) ?_
  rintro d _ ⟨rfl, hdel⟩
  split
  · exact Triple.pure ⟨hrefl, by simp [Except.toOption]⟩
  · refine Triple.bind (Triple.wrap ((paramsGet_spec hR _ w).mono
      (fun _ _ h => h) fun _ h => Runs.of_quiet h)) ?_
    rintro P w₁ ⟨hq, hP⟩
    have hrun : Runs ce R D w w₁ := .of_quiet hq
    refine Triple.attempt ((signDelegation_spec hR hS w₁ (hD d hdel) hP).mono ?_ ?_) ?_
    · exact fun entry w₂ h => ⟨hrun.trans hR h.1, by simpa [Except.toOption] using h.2⟩
    · exact fun w₂ h => hrun.trans hR h
    · exact fun w₂ h e => ⟨h, by simp [Except.toOption]⟩

theorem collectSigs_spec (w : World σ) {btcDels : List (Option Delegation)}
    (hD : ∀ d, some d ∈ btcDels → D d) :
    Triple (ce.collectSigs btcDels) w
      (fun sigs w' => Runs ce R D w w' ∧
        ∀ entry ∈ sigs, SignedEntry ce w'.paramsByVersion D entry)
      (fun w' => Runs ce R D w w') := by
  refine Triple.foldlM (fun _ sigs w' => Runs ce R D w w' ∧
    ∀ entry ∈ sigs, SignedEntry ce w'.paramsByVersion D entry)
    ⟨.of_quiet (Quiet.refl hR w), by simp⟩ ?_
  rintro pre btcDel post sigs w₁ hdels ⟨hrun, hsigs⟩
  have hmem : ∀ d, btcDel = some d → D d := fun d hd => hD d (by simp [hdels, hd])
  refine Triple.bind ((addCovenantSignature_spec hR hS w₁ hmem).mono
    (fun _ _ h => h) fun _ h => hrun.trans hR h) ?_
  rintro signed w₂ ⟨hrun', hsigned⟩
  refine Triple.pure ⟨hrun.trans hR hrun', fun entry hentry => ?_⟩
  rcases List.mem_append.mp hentry with hentry | hentry
  · exact (hsigs entry hentry).mono hrun'.cache fun _ h => h
  · exact hsigned entry (by simpa using hentry)

/-- Everything `AddCovenantSignatures` records is justified by the delegations it was given. -/
theorem addCovenantSignatures_spec (w : World σ) {btcDels : List (Option Delegation)}
    (hD : ∀ d, some d ∈ btcDels → D d) :
    Triple (ce.addCovenantSignatures btcDels) w (fun _ w' => Runs ce R D w w')
      (fun w' => Runs ce R D w w') := by
  unfold Emulator.addCovenantSignatures
  split
  · exact Triple.fail (.of_quiet (Quiet.refl hR w))
  · refine Triple.bind (collectSigs_spec hR hS w hD) ?_
    rintro sigs w₁ ⟨hrun, hsigs⟩
    refine Triple.bind (record_spec hR w₁ (.submitting hsigs) _) ?_
    rintro _ w₂ ⟨hrun', -⟩
    have hrun₂ := hrun.trans hR hrun'
    exact (onEnv_spec w₂ (hR.submit sigs)).mono (fun _ _ h => hrun₂.trans hR (.of_quiet h.1))
      fun _ h => hrun₂.trans hR (.of_quiet h)

theorem submitBatches_spec (w : World σ) {batches : List (List Delegation)}
    (hD : ∀ batch ∈ batches, ∀ d ∈ batch, D d) :
    Triple (ce.submitBatches batches) w (fun _ w' => Runs ce R D w w')
      (fun w' => Runs ce R D w w') := by
  induction batches generalizing w with
  | nil => exact Triple.pure (.of_quiet (Quiet.refl hR w))
  | cons batch batches ih =>
    have hbatch : ∀ d, some d ∈ batch.map some → D d :=
      fun d hd => hD batch List.mem_cons_self d (by simpa using hd)
    refine Triple.bind (Triple.attempt (R := fun _ w' => Runs ce R D w w')
      (addCovenantSignatures_spec hR hS w hbatch) fun _ h _ => h) ?_
    intro _ w₁ hrun
    exact (ih w₁ fun b hb => hD b (List.mem_cons_of_mem _ hb)).mono
      (fun _ _ h => hrun.trans hR h) fun _ h => hrun.trans hR h

omit hR hS in
/-- A call of `AddCovenantSignatures` records justified events only, whatever is around it. -/
theorem justified_of_run {btcDels : List (Option Delegation)} {env : σ} {o : Outcome TxResponse}
    (hrun : ce.addCovenantSignatures btcDels ⟨env, cache, []⟩ = (o, w')) {e : Event}
    (he : e ∈ w'.trace) : Justified ce w'.paramsByVersion (some · ∈ btcDels) e := by
  have hruns : Runs ce (fun _ _ => True) (some · ∈ btcDels) ⟨env, cache, []⟩ w' := by
    have hspec := Triple.state_iff.mp (addCovenantSignatures_spec (respects_any ce.cc)
      (fun _ _ => trivial) ⟨env, cache, []⟩ fun d (hd : some d ∈ btcDels) => hd)
    rwa [hrun] at hspec
  obtain ⟨new, hnew, hj⟩ := hruns.trace
  rw [hnew, List.nil_append] at he
  exact hj e he

end

end CovenantEmulator
