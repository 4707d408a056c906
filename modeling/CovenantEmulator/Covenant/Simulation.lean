import CovenantEmulator.ClientController.QueryFilter
import CovenantEmulator.Covenant.CacheRuns
import CovenantEmulator.Covenant.Tick
import CovenantEmulator.Golang.Coupling

/-! The loop sees no more of the chain and of the signer than what they answer: over two
environments that answer alike it does the same. -/
namespace CovenantEmulator

open Golang

/-- The emulator with another chain and another signer. -/
def Emulator.behind {σ τ : Type} (ce : Emulator σ) (retry : ParamsRetry τ)
    (cc : ClientController τ) (signer : SigningRequest → Go τ SignaturesResponse) : Emulator τ where
  lib := ce.lib
  retry := retry
  cc := cc
  signer := signer
  pk := ce.pk
  btcNetParams := ce.btcNetParams
  delegationLimit := ce.delegationLimit
  sigsBatchSize := ce.sigsBatchSize

/-- The worlds differ in their environments alone, and these are related. -/
structure Aligned {σ τ : Type} (R : σ → τ → Prop) (w : World σ) (v : World τ) : Prop where
  env : R w.env v.env
  cache : w.paramsByVersion = v.paramsByVersion
  trace : w.trace = v.trace

/-- Related environments answer queries alike, and submissions of a batch and signing requests in
`A` up to what the loop ignores of the answer. -/
structure Shadows {σ τ : Type} (R : σ → τ → Prop) (A : SigningRequest → Prop) (ce : Emulator σ)
    (cc : ClientController τ) (signer : SigningRequest → Go τ SignaturesResponse) : Prop where
  pages : ∀ status req, Coupled R (ce.cc.btcDelegations status req) (cc.btcDelegations status req)
  delegation : ∀ hash, Coupled R (ce.cc.queryBTCDelegation hash) (cc.queryBTCDelegation hash)
  params : ∀ v, Coupled R (ce.cc.queryStakingParamsByVersion v) (cc.queryStakingParamsByVersion v)
  submits : ∀ sigs : List CovenantSigs, sigs.length ≤ ce.sigsBatchSize.toNat → ∀ s t, R s t →
    Ends R (ce.cc.submitCovenantSigs sigs) (cc.submitCovenantSigs sigs) s t
  signs : ∀ req, A req → ∀ s t, R s t → Echoes R (ce.signer req) (signer req) s t

/-- Every request that was made is in `A`. -/
def Stays {τ : Type} (A : SigningRequest → Prop) (v : World τ) : Prop :=
  ∀ d req, Event.signing d req ∈ v.trace → A req

section
variable {σ τ α : Type} {R : σ → τ → Prop} {A : SigningRequest → Prop}

theorem onEnv_coupled {m : Go σ α} {n : Go τ α} (h : Coupled R m n) :
    Coupled (Aligned R) (onEnv m) (onEnv n) := by
  intro w v hwv
  refine Relates.zoom (h w.env v.env hwv.env) ?_ ?_
  · exact fun a s' b t' hab => ⟨hab.1, hab.2, hwv.cache, hwv.trace⟩
  · exact fun s' t' hR => ⟨hR, hwv.cache, hwv.trace⟩

theorem onEnv_echoes {m : Go σ α} {n : Go τ α} {w : World σ} {v : World τ} (hwv : Aligned R w v)
    (h : Echoes R m n w.env v.env) : Echoes (Aligned R) (onEnv m) (onEnv n) w v :=
  Echoes.zoom h fun _ _ hR => ⟨hR, hwv.cache, hwv.trace⟩

theorem Aligned.recorded {w : World σ} {v : World τ} (h : Aligned R w v) (e : Event) :
    Aligned R { w with trace := w.trace ++ [e] } { v with trace := v.trace ++ [e] } :=
  ⟨h.env, h.cache, congrArg (· ++ [e]) h.trace⟩

theorem record_coupled (e : Event) : Coupled (Aligned R) (record e) (record e) :=
  fun _ _ h => .modify ⟨rfl, h.recorded e⟩

theorem Aligned.cacheParams {w : World σ} {v : World τ} (h : Aligned R w v) (version : UInt32)
    (P : StakingParams) : Aligned R (w.cacheParams version P) (v.cacheParams version P) := by
  refine ⟨h.env, ?_, h.trace⟩
  simp only [World.cacheParams, h.cache]

theorem Stays.of_grown {v v' : World τ} {new : List Event} (h : Stays A v')
    (hgrown : v'.trace = v.trace ++ new) : Stays A v := by
  intro d req hmem
  apply h d req
  rw [hgrown]
  exact List.mem_append_left _ hmem

section
variable {retry : ParamsRetry σ} {retry' : ParamsRetry τ} {cc : ClientController σ}
  {cc' : ClientController τ}
  (hparams : ∀ v, Coupled R (cc.queryStakingParamsByVersion v) (cc'.queryStakingParamsByVersion v))
include hparams

theorem queryParamsOnce_coupled (version : UInt32) :
    Coupled (Aligned R) (queryParamsOnce cc version) (queryParamsOnce cc' version) :=
  (onEnv_coupled (hparams version)).attempt.bind fun answer =>
    (record_coupled (.paramsAnswer version answer)).bind fun _ => .lift _

theorem getMissing_coupled (version : UInt32) :
    Coupled (Aligned R) (getMissing retry cc version) (getMissing retry' cc' version) := by
  have hget : Coupled (Aligned R) (getParamsByVersion retry cc version)
      (getParamsByVersion retry' cc' version) :=
    fun _ _ h => retry.relates retry' (queryParamsOnce_coupled hparams version) _ h
  refine hget.bind fun P => Coupled.bind (fun w v h => ?_) fun _ => .pure P
  exact .modify ⟨rfl, h.cacheParams version P⟩

theorem paramsGet_coupled (version : UInt32) :
    Coupled (Aligned R) (paramsGet retry cc version) (paramsGet retry' cc' version) := by
  intro w v h
  have hcache : w.paramsByVersion version = v.paramsByVersion version := by rw [h.cache]
  unfold Relates paramsGet
  rw [← hcache]
  cases w.paramsByVersion version with
  | some P => exact .ok ⟨rfl, h⟩
  | none => exact getMissing_coupled hparams version w v h

theorem isKeyInCommittee_coupled (bytes : Bytes) (del : Delegation) :
    Coupled (Aligned R) (isKeyInCommittee retry cc bytes del)
      (isKeyInCommittee retry' cc' bytes del) :=
  (paramsGet_coupled hparams del.paramsVersion).wrap.bind fun _ => .pure _

theorem validateStakeExpansion_coupled (lib : BabylonLib) (bytes : Bytes) (del : Delegation)
    (prevDel : Option Delegation) :
    Coupled (Aligned R) (validateStakeExpansion lib retry cc bytes del prevDel)
      (validateStakeExpansion lib retry' cc' bytes del prevDel) := by
  cases prevDel with
  | none => exact (Coupled.lift _).bind fun _ => .fail _
  | some prevDel =>
    refine (Coupled.lift _).wrap.bind fun tx => (Coupled.lift _).bind fun exp => ?_
    split
    · exact .fail _
    · exact (isKeyInCommittee_coupled hparams bytes prevDel).wrap

theorem acceptDelegationToSign_coupled (lib : BabylonLib) (pk : PublicKey) (del : Delegation)
    (prevDel : Option Delegation) :
    Coupled (Aligned R) (acceptDelegationToSign lib retry cc pk del prevDel)
      (acceptDelegationToSign lib retry' cc' pk del prevDel) := by
  unfold acceptDelegationToSign
  split
  · exact .pure false
  · refine (isKeyInCommittee_coupled hparams _ del).wrap.bind fun isInCommittee => ?_
    split
    · exact .pure false
    · split
      · exact validateStakeExpansion_coupled hparams lib _ del prevDel
      · exact .pure true

end

end

/-- No batch exceeds the batch size, whatever it is. -/
theorem length_le_of_batchesFrom {α : Type} {batchSize : UInt64} {dels : List α}
    {batches : List (List α)} {fuel : ℕ} {i : UInt64}
    (h : Emulator.batchesFrom batchSize dels fuel i = .ok batches) :
    ∀ batch ∈ batches, batch.length ≤ batchSize.toNat := by
  induction fuel generalizing i batches with
  | zero => cases h
  | succ fuel ih =>
    rw [Emulator.batchesFrom] at h
    split at h
    · obtain ⟨batch, hbatch, h⟩ := Outcome.bind_eq_ok.mp h
      obtain ⟨rest, hrest, h⟩ := Outcome.bind_eq_ok.mp h
      cases h
      obtain ⟨⟨-, hstop⟩, rfl⟩ := Outcome.slice_eq_ok.mp hbatch
      -- the sum may wrap around, but then it is smaller still
      have hsum : (i + batchSize).toNat ≤ i.toNat + batchSize.toNat := by
        rw [UInt64.toNat_add]
        exact Nat.mod_le _ _
      refine List.forall_mem_cons.mpr ⟨?_, ih hrest⟩
      rw [List.length_drop, List.length_take]
      split
      · rename_i hmore
        rw [gt_iff_lt, UInt64.lt_iff_toNat_lt] at hmore
        omega
      · omega
    · cases h
      simp

section
variable {τ : Type} {ce : Emulator τ} {A : SigningRequest → Prop} {v : World τ}

theorem Runs.grown {D : Delegation → Prop} {v' : World τ}
    (h : Runs ce (fun _ _ => True) D v v') (hstays : Stays A v') : Stays A v := by
  obtain ⟨new, hnew, -⟩ := h.trace
  exact hstays.of_grown hnew

theorem stays_of_collectFrom {btcDels : List (Option Delegation)} {sigs : List CovenantSigs}
    (hstays : Stays A (btcDels.foldlM ce.collectStep sigs v).2) : Stays A v := by
  have hR := respects_any ce.cc
  have hrun : Triple (btcDels.foldlM ce.collectStep sigs) v
      (fun _ v' => Runs ce (fun _ _ => True) (fun _ => True) v v')
      (fun v' => Runs ce (fun _ _ => True) (fun _ => True) v v') := by
    refine Triple.foldlM (fun _ _ v' => Runs ce (fun _ _ => True) (fun _ => True) v v')
      (.of_quiet (Quiet.refl hR v)) ?_
    intro pre btcDel post sigs v₁ _ hv₁
    refine Triple.bind ((addCovenantSignature_spec hR (fun _ _ => trivial) v₁
      fun _ _ => trivial).mono (fun _ _ h => h) fun _ h => hv₁.trans hR h) ?_
    exact fun signed v₂ hv₂ => Triple.pure (hv₁.trans hR hv₂.1)
  exact Runs.grown (Triple.state_iff.mp hrun) hstays

theorem stays_of_submitBatches {batches : List (List Delegation)}
    (hstays : Stays A (ce.submitBatches batches v).2) : Stays A v :=
  Runs.grown (Triple.state_iff.mp (submitBatches_spec (D := fun _ => True) (respects_any ce.cc)
    (fun _ _ => trivial) v fun _ _ _ _ => trivial)) hstays

theorem stays_of_tick {fuel : ℕ} (hstays : Stays A (ce.tick fuel v).2) : Stays A v := by
  obtain ⟨dels, v₁, hquiet, -, hruns⟩ := tick_runs (B := fun _ => True) (respects_any ce.cc)
    (fun _ _ => trivial) v fuel fun _ _ _ _ _ _ _ _ => trivial
  obtain ⟨new, hnew, -⟩ := hquiet.trace
  exact (hruns.grown hstays).of_grown hnew

end

namespace Shadows

variable {σ τ : Type} {R : σ → τ → Prop} {A : SigningRequest → Prop} {ce : Emulator σ}
  {retry : ParamsRetry τ} {cc : ClientController τ}
  {signer : SigningRequest → Go τ SignaturesResponse} (h : Shadows R A ce cc signer)
include h

theorem filter (del : Delegation) :
    Coupled (Aligned R) (ce.acceptDelegationToSign del)
      ((ce.behind retry cc signer).acceptDelegationToSign del) := by
  refine Coupled.bind ?_ fun prevDel =>
    acceptDelegationToSign_coupled h.params ce.lib ce.pk del prevDel
  unfold Emulator.queryPrevDel
  cases del.stakeExpansion with
  | none => exact .pure none
  | some exp => exact (onEnv_coupled (h.delegation _)).wrap.bind fun prevDel => .pure (some prevDel)

theorem queryPendingDelegations (fuel : ℕ) :
    Coupled (Aligned R) (ce.queryPendingDelegations fuel)
      ((ce.behind retry cc signer).queryPendingDelegations fuel) := by
  refine (Coupled.lift _).bind fun dels w v hwv => ?_
  refine queryLoop_pages_relates (B := fun _ => True) ?_ ?_ _ _ _ _ _ hwv
  · intro req w v hwv
    refine (onEnv_coupled (h.pages .pending req) w v hwv).mono ?_ fun _ _ h => h
    exact fun page w' page' v' hp => ⟨hp.1, hp.2, fun _ _ => trivial⟩
  · exact fun _ _ d _ => h.filter d

theorem withStakeExp (btcDel : Delegation) (req : SigningRequest) :
    Coupled (Aligned R) (ce.withStakeExp btcDel req)
      ((ce.behind retry cc signer).withStakeExp btcDel req) := by
  unfold Emulator.withStakeExp
  split
  · refine Coupled.bind (Coupled.wrap ?_) fun stk => .pure _
    unfold Emulator.buildStkExpSigningRequest
    cases btcDel.stakeExpansion with
    | none => exact .fail _
    | some exp =>
      refine (Coupled.lift _).bind fun out => (onEnv_coupled (h.delegation _)).bind fun prev => ?_
      refine (Coupled.lift _).bind fun tx => (paramsGet_coupled h.params _).wrap.bind fun P => ?_
      exact (Coupled.lift _).bind fun paths => .pure _
  · exact .pure req

omit h in
theorem signTransactions_trace (btcDel : Delegation) (req : SigningRequest) (w : World σ) :
    (ce.signTransactions btcDel req w).2.trace = w.trace ++ [.signing btcDel req] := by
  simp [Emulator.signTransactions, record, onEnv, Go.bind_apply, Go.wrap_state]

/-- The request is recorded before the call. -/
theorem signTransactions (btcDel : Delegation) (req : SigningRequest) {w : World σ} {v : World τ}
    (hwv : Aligned R w v)
    (hstays : Stays A ((ce.behind retry cc signer).signTransactions btcDel req v).2) :
    Echoes (Aligned R) (ce.signTransactions btcDel req)
      ((ce.behind retry cc signer).signTransactions btcDel req) w v := by
  have hA : A req := by
    apply hstays btcDel req
    rw [signTransactions_trace]
    exact List.mem_append_right _ List.mem_cons_self
  refine (record_coupled (.signing btcDel req)).bind_echoes (G := fun _ => True) hwv ?_ trivial
  intro _ w' v' hwv' _
  exact (onEnv_echoes hwv' (h.signs req hA w'.env v'.env hwv'.env)).wrap

theorem signDelegation (btcDel : Delegation) (P : StakingParams) {w : World σ} {v : World τ}
    (hwv : Aligned R w v)
    (hstays : Stays A ((ce.behind retry cc signer).signDelegation btcDel P v).2) :
    Echoes (Aligned R) (ce.signDelegation btcDel P)
      ((ce.behind retry cc signer).signDelegation btcDel P) w v := by
  refine (Coupled.lift _).bind_echoes (G := Stays A) hwv ?_ hstays
  intro req w₁ v₁ hwv₁ hstays₁
  refine (h.withStakeExp btcDel req).bind_echoes (G := Stays A) hwv₁ ?_ hstays₁
  intro req' w₂ v₂ hwv₂ hstays₂
  exact Echoes.map (h.signTransactions btcDel req' hwv₂ (by rwa [Go.map_state] at hstays₂))

/-- One delegation: its entry, or some line in the log. -/
theorem addCovenantSignature (btcDel : Option Delegation) {w : World σ} {v : World τ}
    (hwv : Aligned R w v)
    (hstays : Stays A ((ce.behind retry cc signer).addCovenantSignature btcDel v).2) :
    Relates (ce.addCovenantSignature btcDel)
      ((ce.behind retry cc signer).addCovenantSignature btcDel) w v
      (fun a w' b v' => a.toOption = b.toOption ∧ Aligned R w' v') (Aligned R) := by
  cases btcDel with
  | none => exact .panic hwv
  | some d =>
    cases hud : d.btcUndelegation with
    | none =>
      rw [Emulator.addCovenantSignature_empty _ hud, Emulator.addCovenantSignature_empty _ hud]
      exact .pure ⟨rfl, hwv⟩
    | some ud =>
      rw [Emulator.addCovenantSignature_some _ hud] at hstays ⊢
      rw [Emulator.addCovenantSignature_some _ hud]
      refine Relates.bind_within (G := Stays A)
        ((paramsGet_coupled h.params d.paramsVersion).wrap w v hwv) ?_ hstays
      rintro P w₁ _ v₁ ⟨rfl, hwv₁⟩ hstays₁
      rw [Go.attempt_state] at hstays₁
      exact (h.signDelegation d P hwv₁ hstays₁).attempt

/-- The loop over a batch, from any entries collected before. -/
theorem collectFrom (btcDels : List (Option Delegation)) (sigs : List CovenantSigs) {w : World σ}
    {v : World τ} (hwv : Aligned R w v)
    (hstays : Stays A (btcDels.foldlM (ce.behind retry cc signer).collectStep sigs v).2) :
    Relates (btcDels.foldlM ce.collectStep sigs)
      (btcDels.foldlM (ce.behind retry cc signer).collectStep sigs) w v
      (fun a w' b v' => a = b ∧ Aligned R w' v' ∧ a.length ≤ sigs.length + btcDels.length)
      (Aligned R) := by
  induction btcDels generalizing sigs w v with
  | nil => exact .pure ⟨rfl, hwv, Nat.le_refl _⟩
  | cons btcDel btcDels ih =>
    rw [List.foldlM_cons] at hstays ⊢
    rw [List.foldlM_cons]
    refine Relates.bind_inside (G := Stays A) (Q := fun a w' b v' => a = b ∧ Aligned R w' v' ∧
      a.length ≤ sigs.length + 1) (fun hstep => ?_) ?_ ?_ hstays
    · rw [Emulator.collectStep, Go.map_state] at hstep
      refine Relates.bind (h.addCovenantSignature btcDel hwv hstep) ?_
      rintro signed w₁ signed' v₁ ⟨hsigned, hwv₁⟩
      refine .pure ⟨by rw [hsigned], hwv₁, ?_⟩
      rw [List.length_append]
      exact Nat.add_le_add_left Option.length_toList_le _
    · exact fun b v' hrest => stays_of_collectFrom hrest
    · rintro sigs' w₁ _ v₁ ⟨rfl, hwv₁, hlen⟩ hrest
      refine (ih sigs' hwv₁ hrest).mono ?_ fun _ _ h => h
      rintro a w₂ _ v₂ ⟨rfl, hwv₂, ha⟩
      rw [List.length_cons]
      exact ⟨rfl, hwv₂, by omega⟩

omit h in
theorem submitting_trace (cc : ClientController τ) (sigs : List CovenantSigs) (w : World τ) :
    ((record (.submitting sigs) >>= fun _ => onEnv (cc.submitCovenantSigs sigs)) w).2.trace =
      w.trace ++ [.submitting sigs] := rfl

/-- One batch. What the chain answers to the submission is of no account to the caller. -/
theorem addCovenantSignatures (btcDels : List (Option Delegation))
    (hsize : btcDels.length ≤ ce.sigsBatchSize.toNat) {w : World σ} {v : World τ}
    (hwv : Aligned R w v)
    (hstays : Stays A ((ce.behind retry cc signer).addCovenantSignatures btcDels v).2) :
    Ends (Aligned R) (ce.addCovenantSignatures btcDels)
      ((ce.behind retry cc signer).addCovenantSignatures btcDels) w v := by
  unfold Emulator.addCovenantSignatures at hstays ⊢
  split
  · exact .ok hwv
  · rename_i hne
    rw [if_neg hne] at hstays
    refine Ends.bind_inside (G := Stays A) (h.collectFrom btcDels [] hwv) ?_ ?_ hstays
    · exact fun sigs v' hrest => hrest.of_grown (submitting_trace cc sigs v')
    · rintro sigs w₁ _ v₁ ⟨rfl, hwv₁, hlen⟩ hrest
      have hbatch : sigs.length ≤ ce.sigsBatchSize.toNat := by
        rw [List.length_nil] at hlen
        omega
      have hwv₂ := hwv₁.recorded (.submitting sigs)
      change Ends (Aligned R) (onEnv (ce.cc.submitCovenantSigs sigs))
        (onEnv (cc.submitCovenantSigs sigs)) { w₁ with trace := w₁.trace ++ [.submitting sigs] }
        { v₁ with trace := v₁.trace ++ [.submitting sigs] }
      exact Ends.zoom (h.submits sigs hbatch w₁.env v₁.env hwv₁.env)
        fun s' t' hR => ⟨hR, hwv₂.cache, hwv₂.trace⟩

theorem submitBatches {batches : List (List Delegation)}
    (hsize : ∀ batch ∈ batches, batch.length ≤ ce.sigsBatchSize.toNat) {w : World σ} {v : World τ}
    (hwv : Aligned R w v)
    (hstays : Stays A ((ce.behind retry cc signer).submitBatches batches v).2) :
    Relates (ce.submitBatches batches) ((ce.behind retry cc signer).submitBatches batches) w v
      (fun _ w' _ v' => Aligned R w' v') (Aligned R) := by
  induction batches generalizing w v with
  | nil => exact .pure hwv
  | cons batch batches ih =>
    refine Relates.bind_inside (G := Stays A) (Q := fun _ w' _ v' => Aligned R w' v')
      (fun hbatch => ?_) ?_ ?_ hstays
    · rw [Go.attempt_state] at hbatch
      refine h.addCovenantSignatures (batch.map some) ?_ hwv hbatch
      rw [List.length_map]
      exact hsize batch List.mem_cons_self
    · exact fun _ v' hrest => stays_of_submitBatches hrest
    · intro _ w₁ _ v₁ hwv₁ hrest
      exact ih (fun b hb => hsize b (List.mem_cons_of_mem _ hb)) hwv₁ hrest

/-- One tick over the one environment does what one tick over the other does. -/
theorem tick (fuel : ℕ) {w : World σ} {v : World τ} (hwv : Aligned R w v)
    (hstays : Stays A ((ce.behind retry cc signer).tick fuel v).2) :
    Relates (ce.tick fuel) ((ce.behind retry cc signer).tick fuel) w v
      (fun _ w' _ v' => Aligned R w' v') (Aligned R) := by
  refine Relates.bind_within (G := Stays A) ((h.queryPendingDelegations fuel).attempt w v hwv) ?_
    hstays
  rintro res w₁ _ v₁ ⟨rfl, hwv₁⟩ hrest
  cases res with
  | error e => exact .pure hwv₁
  | ok dels =>
    dsimp only at hrest ⊢
    unfold Emulator.processPending at hrest ⊢
    split
    · exact .pure hwv₁
    · rename_i hne
      rw [if_neg hne] at hrest
      refine Relates.bind_within (G := Stays A) (Q := fun batches w' batches' v' =>
        batches = batches' ∧ Aligned R w' v' ∧ ce.delegationsToBatches dels = .ok batches)
        (.lift (fun batches h => ⟨rfl, hwv₁, h⟩) hwv₁) ?_ hrest
      rintro batches w₂ _ v₂ ⟨rfl, hwv₂, hsplit⟩ hbatches
      exact h.submitBatches (length_le_of_batchesFrom hsplit) hwv₂ hbatches

end Shadows

end CovenantEmulator
