import CovenantEmulator.Covenant.StakeExpansion
import CovenantEmulator.Sample

/-! The signatures of a tick, whatever the batches and their fate. -/
namespace CovenantEmulator

open Golang

section
variable {σ : Type} (ce : Emulator σ) (cache : UInt32 → Option StakingParams)
  (answers : String → Except String Delegation)
  (sign : SigningRequest → Except String SignaturesResponse)

def cachedParams (version : UInt32) : Outcome StakingParams :=
  match cache version with
  | some P => .ok P
  | none => .error "not cached"

theorem cachedParams_eq {cache : UInt32 → Option StakingParams} {v : UInt32} {P : StakingParams}
    (h : cache v = some P) : cachedParams cache v = .ok P := by
  simp [cachedParams, h]

/-- The stake expansion part of a request, from cached parameters and fixed answers. -/
def stkExpFrom (d : Delegation) : Outcome SigningRequestStkExp :=
  match d.stakeExpansion with
  | none => .error "stake expansion is nil in the delegation"
  | some exp => do
    let out ← stakeExpValidateBasic ce.lib d
    let prevDel ← .ofExcept (answers exp.previousStakingTxHashHex)
    let tx ← .ofExcept (ce.lib.newBTCTxFromHex prevDel.stakingTxHex)
    let P ← cachedParams cache prevDel.paramsVersion
    let paths ← pkScriptPathSlashAndUnbond ce.lib prevDel P ce.btcNetParams
    pure
      { previousActiveStakeTx := tx
        otherFundingOutput := out
        previousStakingOutputIdx := prevDel.stakingOutputIdx
        previousActiveStakeUnbondingPkScriptPath := paths.2 }

def requestFrom (d : Delegation) (req : SigningRequest) : Outcome SigningRequest :=
  if d.isStakeExpansion then do
    let stk ← (stkExpFrom ce cache answers d).wrap ("error building stake expansion request: " ++ ·)
    pure { req with stakeExp := some stk }
  else pure req

def signatureUnder (d : Delegation) (P : StakingParams) : Outcome CovenantSigs := do
  let req ← checkDelegation ce.lib d P ce.btcNetParams
  let req ← requestFrom ce cache answers d req
  let resp ← (Outcome.ofExcept (sign req)).wrap ("failed to sign transactions: " ++ ·)
  pure (ce.covenantSigsOf req resp)

/-- The entry of one delegation, as a function of that delegation alone. -/
def signatureFor (d : Delegation) : Outcome CovenantSigs :=
  match d.btcUndelegation with
  | none => .error "empty undelegation"
  | some _ => do
    let P ← cachedParams cache d.paramsVersion
    signatureUnder ce cache answers sign d P

/-- Every parameter version the delegation needs is cached. -/
structure Cached (d : Delegation) : Prop where
  own : ∃ P, cache d.paramsVersion = some P
  previous : ∀ exp prevDel, d.stakeExpansion = some exp →
    answers exp.previousStakingTxHashHex = .ok prevDel →
    ∃ P, cache prevDel.paramsVersion = some P

end

/-- Only requests were recorded, and the cache is the same. -/
structure SignsOnly {σ : Type} (w w' : World σ) : Prop where
  cache : w'.paramsByVersion = w.paramsByVersion
  trace : ∃ new, w'.trace = w.trace ++ new ∧ ∀ e ∈ new, ∃ d req, e = .signing d req

/-- From `w` the call gives the outcome `o`, which does not depend on the environment. -/
def Mirrors {σ α : Type} (m : Go (World σ) α) (w : World σ) (o : Outcome α) : Prop :=
  ∃ w', m w = (o, w') ∧ SignsOnly w w'

section
variable {σ α β : Type} {w w' w'' : World σ} {m : Go (World σ) α} {o : Outcome α}

theorem SignsOnly.refl (w : World σ) : SignsOnly w w := ⟨rfl, [], by simp, by simp⟩

theorem SignsOnly.trans (h : SignsOnly w w') (h' : SignsOnly w' w'') : SignsOnly w w'' := by
  obtain ⟨new, hnew, hs⟩ := h.trace
  obtain ⟨new', hnew', hs'⟩ := h'.trace
  refine ⟨h'.cache.trans h.cache, new ++ new', by simp [hnew, hnew'], fun e he => ?_⟩
  rcases List.mem_append.mp he with he | he
  · exact hs e he
  · exact hs' e he

namespace Mirrors

theorem lift (o : Outcome α) : Mirrors (Go.lift o) w o := ⟨w, rfl, .refl w⟩

theorem bind {f : α → Go (World σ) β} {g : α → Outcome β} (h : Mirrors m w o)
    (hf : ∀ a w', o = .ok a → w'.paramsByVersion = w.paramsByVersion → Mirrors (f a) w' (g a)) :
    Mirrors (m >>= f) w (o >>= g) := by
  obtain ⟨w₁, hm, hs⟩ := h
  cases o with
  | ok a =>
    obtain ⟨w₂, hfa, hs'⟩ := hf a w₁ rfl hs.cache
    exact ⟨w₂, by rw [Go.bind_of_ok hm, hfa]; rfl, hs.trans hs'⟩
  | error e => exact ⟨w₁, by simp [Go.bind_apply, hm], hs⟩
  | panic p => exact ⟨w₁, by simp [Go.bind_apply, hm], hs⟩
  | diverged => exact ⟨w₁, by simp [Go.bind_apply, hm], hs⟩

theorem wrap (f : String → String) (h : Mirrors m w o) : Mirrors (Go.wrap f m) w (o.wrap f) := by
  obtain ⟨w₁, hm, hs⟩ := h
  refine ⟨w₁, ?_, hs⟩
  unfold Go.wrap
  rw [hm]
  cases o <;> rfl

theorem attempt (h : Mirrors m w o) : Mirrors (Go.attempt m) w o.attempt := by
  obtain ⟨w₁, hm, hs⟩ := h
  exact ⟨w₁, by rw [Go.attempt_apply, hm], hs⟩

theorem onEnv {m : Go σ α} (h : (m w.env).1 = o) : Mirrors (CovenantEmulator.onEnv m) w o :=
  ⟨{ w with env := (m w.env).2 }, by simp [CovenantEmulator.onEnv, h], rfl, [], by simp, by simp⟩

theorem recordSigning (d : Delegation) (req : SigningRequest) :
    Mirrors (record (.signing d req)) w (.ok ()) :=
  ⟨_, rfl, rfl, [.signing d req], rfl, by simp⟩

/-- A cached version is never asked for. -/
theorem paramsGet {retry : ParamsRetry σ} {cc : ClientController σ} {v : UInt32}
    {P : StakingParams} (f : String → String) (h : w.paramsByVersion v = some P) :
    Mirrors (Go.wrap f (CovenantEmulator.paramsGet retry cc v)) w (.ok P) :=
  ⟨w, Go.wrap_eq_ok.mpr (paramsGet_of_cached h), .refl w⟩

end Mirrors

end

section
variable {σ : Type} {ce : Emulator σ} {cache : UInt32 → Option StakingParams}
  {answers : String → Except String Delegation}
  {sign : SigningRequest → Except String SignaturesResponse} {d : Delegation} {w : World σ}

theorem buildStkExpSigningRequest_mirrors (hstable : StableDelegations ce.cc answers)
    (hd : Cached w.paramsByVersion answers d) :
    Mirrors (ce.buildStkExpSigningRequest d) w (stkExpFrom ce w.paramsByVersion answers d) := by
  unfold Emulator.buildStkExpSigningRequest stkExpFrom
  cases hexp : d.stakeExpansion with
  | none => exact .lift _
  | some exp =>
    refine .bind (.lift _) fun out w₁ _ h₁ => ?_
    refine .bind (.onEnv (hstable _ _)) fun prevDel w₂ hprev h₂ => ?_
    obtain ⟨P, hP⟩ := hd.previous exp prevDel hexp (Outcome.ofExcept_eq_ok.mp hprev)
    refine .bind (.lift _) fun tx w₃ _ h₃ => ?_
    rw [cachedParams_eq hP]
    refine .bind (.paramsGet _ (by rw [h₃, h₂, h₁, hP])) fun P' w₄ hP' _ => ?_
    exact .bind (.lift _) fun paths w₅ _ _ => .lift _

theorem withStakeExp_mirrors (hstable : StableDelegations ce.cc answers)
    (hd : Cached w.paramsByVersion answers d) (req : SigningRequest) :
    Mirrors (ce.withStakeExp d req) w (requestFrom ce w.paramsByVersion answers d req) := by
  unfold Emulator.withStakeExp requestFrom
  split
  · exact .bind (.wrap _ (buildStkExpSigningRequest_mirrors hstable hd)) fun _ _ _ _ => .lift _
  · exact .lift _

theorem signDelegation_mirrors (hstable : StableDelegations ce.cc answers)
    (hsign : ∀ req s, (ce.signer req s).1 = .ofExcept (sign req))
    (hd : Cached w.paramsByVersion answers d) (P : StakingParams) :
    Mirrors (ce.signDelegation d P) w
      (signatureUnder ce w.paramsByVersion answers sign d P) := by
  refine .bind (.lift _) fun req w₁ _ h₁ => ?_
  rw [← h₁] at hd ⊢
  refine .bind (withStakeExp_mirrors hstable hd req) fun req' w₂ _ _ => ?_
  refine .bind ?_ fun resp w₃ _ _ => .lift _
  change Mirrors (ce.signTransactions d req') w₂ (.ok () >>= fun _ =>
    (Outcome.ofExcept (sign req')).wrap ("failed to sign transactions: " ++ ·))
  exact .bind (.recordSigning d req') fun _ w₃ _ _ => .wrap _ (.onEnv (hsign req' w₃.env))

/-- The loop body computes the per-delegation function. -/
theorem addCovenantSignature_mirrors (hstable : StableDelegations ce.cc answers)
    (hsign : ∀ req s, (ce.signer req s).1 = .ofExcept (sign req))
    (hd : Cached w.paramsByVersion answers d) :
    Mirrors (ce.addCovenantSignature (some d)) w
      (signatureFor ce w.paramsByVersion answers sign d).attempt := by
  unfold signatureFor
  cases hud : d.btcUndelegation with
  | none =>
    rw [ce.addCovenantSignature_empty hud]
    exact .lift _
  | some ud =>
    obtain ⟨P, hP⟩ := hd.own
    rw [ce.addCovenantSignature_some hud, cachedParams_eq hP]
    change Mirrors _ w (.ok P >>= fun P =>
      (signatureUnder ce w.paramsByVersion answers sign d P).attempt)
    refine .bind (.paramsGet _ hP) fun P' w₁ _ h₁ => ?_
    rw [← h₁] at hd ⊢
    exact .attempt (signDelegation_mirrors hstable hsign hd P')

theorem signatureFor_ne_diverged : signatureFor ce cache answers sign d ≠ .diverged := by
  have hcached : ∀ v, cachedParams cache v ≠ .diverged := by
    intro v
    unfold cachedParams
    cases cache v <;> simp
  have hstk : stkExpFrom ce cache answers d ≠ .diverged := by
    unfold stkExpFrom
    split <;> simp [Outcome.bind_eq_diverged, stakeExpValidateBasic_ne_diverged, hcached,
      pkScriptPathSlashAndUnbond_ne_diverged]
  unfold signatureFor signatureUnder requestFrom
  split <;> simp [Outcome.bind_eq_diverged, checkDelegation_ne_diverged, hcached, hstk, ite_eq_iff]

/-- The signature a delegation gets, if any. -/
def entryFor (ce : Emulator σ) (cache : UInt32 → Option StakingParams)
    (answers : String → Except String Delegation)
    (sign : SigningRequest → Except String SignaturesResponse) (d : Delegation) :
    Option CovenantSigs :=
  match signatureFor ce cache answers sign d with
  | .ok entry => some entry
  | _ => none

/-- The lists handed to `SubmitCovenantSigs`, in order. -/
def submissions (trace : List Event) : List (List CovenantSigs) :=
  trace.filterMap fun
    | .submitting sigs => some sigs
    | _ => none

/-- These lists were submitted between the two worlds, and the cache is the same. -/
structure Submits (subs : List (List CovenantSigs)) (w w' : World σ) : Prop where
  cache : w'.paramsByVersion = w.paramsByVersion
  trace : ∃ new, w'.trace = w.trace ++ new ∧ submissions new = subs

theorem SignsOnly.submits {w w' : World σ} (h : SignsOnly w w') : Submits [] w w' := by
  obtain ⟨new, hnew, hs⟩ := h.trace
  refine ⟨h.cache, new, hnew, List.filterMap_eq_nil_iff.mpr fun e he => ?_⟩
  obtain ⟨d, req, rfl⟩ := hs e he
  rfl

theorem Submits.trans {w w' w'' : World σ} {subs subs' : List (List CovenantSigs)}
    (h : Submits subs w w') (h' : Submits subs' w' w'') : Submits (subs ++ subs') w w'' := by
  obtain ⟨new, hnew, rfl⟩ := h.trace
  obtain ⟨new', hnew', rfl⟩ := h'.trace
  exact ⟨h'.cache.trans h.cache, new ++ new', by simp [hnew, hnew'],
    by simp [submissions, List.filterMap_append]⟩

section
variable (hstable : StableDelegations ce.cc answers)
  (hsign : ∀ req s, (ce.signer req s).1 = .ofExcept (sign req))
include hstable hsign

/-- One turn of the loop adds the entry of its delegation, unless that panics. -/
theorem collectStep_eq (acc : List CovenantSigs) (hw : w.paramsByVersion = cache)
    (hd : Cached cache answers d) (hpanic : ¬ (ce.collectStep acc (some d) w).1.Panics) :
    ∃ w', ce.collectStep acc (some d) w =
      (.ok (acc ++ (entryFor ce cache answers sign d).toList), w') ∧ SignsOnly w w' := by
  subst hw
  obtain ⟨w', hone, hs⟩ := addCovenantSignature_mirrors hstable hsign hd
  unfold Emulator.collectStep at hpanic ⊢
  rw [Go.bind_apply, hone] at hpanic ⊢
  refine ⟨w', ?_, hs⟩
  unfold entryFor
  cases hsig : signatureFor ce w.paramsByVersion answers sign d with
  | ok entry => rfl
  | error line => simp [Outcome.attempt, Except.toOption]
  | panic p => simp [hsig, Outcome.attempt] at hpanic
  | diverged => exact (signatureFor_ne_diverged hsig).elim

/-- The loop collects the entries in order, unless a delegation panics. -/
theorem foldlM_collectStep_eq {dels : List Delegation} (acc : List CovenantSigs)
    (hw : w.paramsByVersion = cache) (hd : ∀ d ∈ dels, Cached cache answers d)
    (hpanic : ¬ ((dels.map some).foldlM ce.collectStep acc w).1.Panics) :
    ∃ w', (dels.map some).foldlM ce.collectStep acc w =
      (.ok (acc ++ dels.filterMap (entryFor ce cache answers sign)), w') ∧ SignsOnly w w' := by
  induction dels generalizing acc w with
  | nil => exact ⟨w, by simp, .refl w⟩
  | cons d dels ih =>
    rw [List.map_cons, List.foldlM_cons] at hpanic ⊢
    rw [Go.bind_panics, not_or] at hpanic
    obtain ⟨w₁, hone, hs⟩ := collectStep_eq hstable hsign acc hw (hd d List.mem_cons_self)
      hpanic.1
    have hrest := fun h => hpanic.2 ⟨_, w₁, hone, h⟩
    obtain ⟨w₂, hfold, hs'⟩ := ih _ (hs.cache.trans hw)
      (fun d' hd' => hd d' (List.mem_cons_of_mem _ hd')) hrest
    refine ⟨w₂, ?_, hs.trans hs'⟩
    rw [Go.bind_of_ok hone, hfold]
    cases hentry : entryFor ce cache answers sign d <;> simp [hentry]

/-- A batch is submitted whole: the early return on a params error is not taken. -/
theorem addCovenantSignatures_submits
    (hsubmit : ∀ sigs s, (ce.cc.submitCovenantSigs sigs s).1.Returns) {batch : List Delegation}
    (hne : batch ≠ []) (hw : w.paramsByVersion = cache)
    (hd : ∀ d ∈ batch, Cached cache answers d)
    (hpanic : ¬ (ce.addCovenantSignatures (batch.map some) w).1.Panics) :
    ∃ res w', Go.attempt (ce.addCovenantSignatures (batch.map some)) w = (.ok res, w') ∧
      Submits [batch.filterMap (entryFor ce cache answers sign)] w w' := by
  have hne' : batch.map some ≠ [] := by simpa using hne
  have hcollects : ¬ (ce.collectSigs (batch.map some) w).1.Panics := by
    intro h
    refine hpanic ?_
    unfold Emulator.addCovenantSignatures
    rw [if_neg (by simpa using hne)]
    exact Go.bind_panics.mpr (Or.inl h)
  obtain ⟨w₁, hcollect, hs⟩ := foldlM_collectStep_eq hstable hsign [] hw hd hcollects
  rw [List.nil_append] at hcollect
  have hcall := ce.addCovenantSignatures_of_collected hne' hcollect
  obtain ⟨res, hres⟩ :=
    (hsubmit (batch.filterMap (entryFor ce cache answers sign)) w₁.env).attempt
  have hlast : Submits [batch.filterMap (entryFor ce cache answers sign)] w₁
      (ce.addCovenantSignatures (batch.map some) w).2 := by
    rw [hcall]
    exact ⟨rfl, [.submitting _], rfl, rfl⟩
  refine ⟨res, _, Prod.ext ?_ rfl, hs.submits.trans hlast⟩
  rw [Go.attempt_apply, hcall]
  exact hres

/-- The loop over the batches submits each of them. -/
theorem submitBatches_submits
    (hsubmit : ∀ sigs s, (ce.cc.submitCovenantSigs sigs s).1.Returns)
    {batches : List (List Delegation)} (hne : ∀ batch ∈ batches, batch ≠ [])
    (hw : w.paramsByVersion = cache) (hd : ∀ batch ∈ batches, ∀ d ∈ batch, Cached cache answers d)
    (hpanic : ¬ (ce.submitBatches batches w).1.Panics) :
    ∃ w', ce.submitBatches batches w = (.ok (), w') ∧
      Submits (batches.map (List.filterMap (entryFor ce cache answers sign))) w w' := by
  induction batches generalizing w with
  | nil => exact ⟨w, rfl, (SignsOnly.refl w).submits⟩
  | cons batch batches ih =>
    unfold Emulator.submitBatches at hpanic ⊢
    rw [Go.bind_panics, not_or, Go.attempt_panics] at hpanic
    obtain ⟨res, w₁, hone, hs⟩ := addCovenantSignatures_submits hstable hsign hsubmit
      (hne batch List.mem_cons_self) hw (hd batch List.mem_cons_self) hpanic.1
    obtain ⟨w₂, hrest, hs'⟩ := ih (fun b hb => hne b (List.mem_cons_of_mem _ hb))
      (hs.cache.trans hw) (fun b hb => hd b (List.mem_cons_of_mem _ hb))
      (fun h => hpanic.2 ⟨res, w₁, hone, h⟩)
    exact ⟨w₂, by rw [Go.bind_of_ok hone, hrest], hs.trans hs'⟩

end

end

/-- What the filter accepts is cached, with the previous delegation of a stake expansion. -/
theorem Accepted.cached {σ : Type} {ce : Emulator σ} {cache : UInt32 → Option StakingParams}
    {answers : String → Except String Delegation} {d : Delegation} (h : Accepted ce cache d)
    (hstable : StableDelegations ce.cc answers) : Cached cache answers d := by
  obtain ⟨P, hP, -⟩ := h.committee
  refine ⟨⟨P, hP⟩, fun exp prevDel hexp hans => ?_⟩
  obtain ⟨prevDel', hprev⟩ := h.previous exp hexp
  obtain ⟨P', hP', -⟩ := hprev.committee
  have hans' := hprev.answered.eq_ok hstable
  obtain rfl : prevDel = prevDel' := by simpa [hans] using hans'
  exact ⟨P', hP'⟩

/-- The batches of a tick partition its delegations, every one of them is submitted, and what is
submitted is one function of each delegation, in order. -/
theorem tick_submits_entries {σ : Type} (ce : Emulator σ)
    {answers : String → Except String Delegation}
    {sign : SigningRequest → Except String SignaturesResponse}
    (hstable : StableDelegations ce.cc answers)
    (hsign : ∀ req s, (ce.signer req s).1 = .ofExcept (sign req))
    (hsubmit : ∀ sigs s, (ce.cc.submitCovenantSigs sigs s).1.Returns)
    (hsize : 1 ≤ ce.sigsBatchSize.toNat) {fuel : Nat} {w w₁ : World σ} {dels : List Delegation}
    (hquery : ce.queryPendingDelegations fuel w = (.ok dels, w₁)) (hlen : dels.length < 2 ^ 63)
    (hpanic : ¬ (ce.processPending dels w₁).1.Panics) :
    ∃ batches w₂ new, ce.delegationsToBatches dels = .ok batches ∧ batches.flatten = dels ∧
      ce.processPending dels w₁ = (.ok (), w₂) ∧ w₂.trace = w₁.trace ++ new ∧
      submissions new =
        batches.map (List.filterMap (entryFor ce w₁.paramsByVersion answers sign)) ∧
      (submissions new).flatten =
        dels.filterMap (entryFor ce w₁.paramsByVersion answers sign) := by
  obtain ⟨-, hacc⟩ := (queryPendingDelegations_spec (respects_any ce.cc) w fuel
    (B := fun _ => True) (fun _ _ _ _ _ _ _ _ => trivial)).run hquery
  obtain ⟨batches, hbatches, hflat, hne⟩ := batchesFrom_covers (i := 0) hsize hlen (Or.inl rfl)
    (Nat.lt_succ_of_le (Nat.sub_le _ _))
  rw [UInt64.toNat_zero, List.drop_zero] at hflat
  have hcached : ∀ batch ∈ batches, ∀ d ∈ batch, Cached w₁.paramsByVersion answers d :=
    fun batch hb d hd => (hacc d (mem_of_batchesFrom hbatches batch hb d hd)).1.cached hstable
  have hrun : ce.processPending dels w₁ = ce.submitBatches batches w₁ := by
    unfold Emulator.processPending
    split
    · rename_i hzero
      have hnil : batches = [] := by
        cases batches with
        | nil => rfl
        | cons batch batches =>
          rw [List.length_eq_zero_iff.mp hzero, List.flatten_cons] at hflat
          exact ((hne batch List.mem_cons_self).1 (List.append_eq_nil_iff.mp hflat).1).elim
      rw [hnil]
      rfl
    · exact Go.bind_of_ok (by rw [Go.lift_apply, Emulator.delegationsToBatches, hbatches])
  rw [hrun] at hpanic
  obtain ⟨w₂, hsub, hs⟩ := submitBatches_submits hstable hsign hsubmit
    (fun batch hb => (hne batch hb).1) rfl hcached hpanic
  obtain ⟨new, hnew, hsubs⟩ := hs.trace
  refine ⟨batches, w₂, new, hbatches, hflat, hrun.trans hsub, hnew, hsubs, ?_⟩
  rw [hsubs, ← hflat, List.filterMap_flatten]

namespace Sample

/-- A node with two pending delegations that refuses the entry of the first. -/
def refusingNode : ClientController Unit :=
  { node [plainResponse [], expansionResponse] with
    submitCovenantSigs := fun sigs =>
      if sigs.any fun entry => decide (entry.stakingTxHash = stakingHash)
      then Go.fail "insufficient fee" else pure ⟨"", []⟩ }

def oneByOne : Emulator Unit := { emulator refusingNode signer with sigsBatchSize := 1 }

/-- Nothing is cached. -/
def freshWorld : World Unit := ⟨(), fun _ => none, []⟩

def filteredWorld : World Unit :=
  { freshWorld.cacheParams 0 (params 10000) with
    trace := [.paramsAnswer 0 (.ok (params 10000))] }

/-- The filter asks for the parameters of the first delegation and finds them for the second. -/
theorem queryPendingDelegations_two :
    oneByOne.queryPendingDelegations 1 freshWorld =
      (.ok [plainDelegation, expansionDelegation], filteredWorld) := by
  have hplain : delegationRespToDelegation oneByOne.lib (plainResponse []) = .ok plainDelegation :=
    delegationRespToDelegation_plain
  have hexpansion : delegationRespToDelegation oneByOne.lib expansionResponse =
      .ok expansionDelegation := delegationRespToDelegation_expansion
  have haccept : oneByOne.acceptDelegationToSign plainDelegation freshWorld =
      (.ok true, filteredWorld) := rfl
  have hcommittee (d : Delegation) (h : d.paramsVersion = 0) :
      KnownCommittee oneByOne filteredWorld d :=
    ⟨params 10000, by rw [h]; rfl, key 3, by simp [params, committee], rfl⟩
  have hhash : lib.hashString (lib.txHash stakingTx) = stakeExpansion.previousStakingTxHashHex :=
    rfl
  have haccept' : oneByOne.acceptDelegationToSign expansionDelegation filteredWorld =
      (.ok true, filteredWorld) :=
    acceptDelegationToSign_expansion (w := filteredWorld) rfl
      (queryBTCDelegation_previous []) (newBTCTxFromHex_previous rfl) hhash rfl
      (hcommittee _ rfl) (hcommittee _ rfl)
  have hpage : oneByOne.cc.btcDelegations .pending ⟨[], 100⟩ () =
      (.ok ⟨[plainResponse [], expansionResponse], some ⟨[]⟩⟩, ()) := rfl
  refine queryPendingDelegations_of_page (by decide) (by decide) hpage (by decide) ?_ 0
  rw [scanPage_of_accepted hplain haccept (by decide),
    scanPage_of_accepted hexpansion haccept' (by decide)]
  rfl

/-- The responses of the signer, in the emulator's form. -/
def responseOf (stakeExpSig : Option Signature) : SignaturesResponse :=
  signerResponseToCovenantResponse (signatures stakeExpSig)

theorem passes_first : Passes oneByOne plainDelegation filteredWorld filteredWorld plainRequest
    (responseOf none) () where
  undelegation := ⟨_, rfl⟩
  request := ⟨params 10000, plainRequest, rfl, checkDelegation_of_checked checked_plain rfl,
    by rw [withStakeExp_plain rfl]; rfl⟩
  signer := signer_of_signWith signWith_plain ()

theorem submitCovenantSigs_refusing (req : SigningRequest) (resp : SignaturesResponse) {hash : Hash}
    (hhash : lib.txHash req.stakingTx = hash) :
    refusingNode.submitCovenantSigs [oneByOne.covenantSigsOf req resp] () =
      if hash = stakingHash then (.error "insufficient fee", ()) else (.ok ⟨"", []⟩, ()) := by
  have hany : ([oneByOne.covenantSigsOf req resp].any fun entry =>
      decide (entry.stakingTxHash = stakingHash)) = decide (hash = stakingHash) := by
    rw [List.any_cons, List.any_nil, Bool.or_false, ← hhash]
    rfl
  simp only [refusingNode, hany, decide_eq_true_eq]
  split <;> rfl

/-- The first batch is refused. -/
def refusedWorld : World Unit :=
  (filteredWorld.signed plainDelegation plainRequest ()).submitted oneByOne.cc
    [oneByOne.covenantSigsOf plainRequest (responseOf none)]

theorem addCovenantSignatures_refused :
    oneByOne.addCovenantSignatures [some plainDelegation] filteredWorld =
      (.error "insufficient fee", refusedWorld) := by
  have hrun := addCovenantSignatures_of_passes passes_first
  have hrefused := submitCovenantSigs_refusing plainRequest (responseOf none)
    (show lib.txHash stakingTx = stakingHash from rfl)
  rw [if_pos rfl] at hrefused
  rw [hrun, show oneByOne.cc = refusingNode from rfl, hrefused]
  rfl

theorem passes_second {w : World Unit} (hP : w.paramsByVersion 0 = some (params 10000)) :
    Passes oneByOne expansionDelegation w w (stakeExpRequest 0)
      (responseOf (some ⟨List.replicate 64 3⟩)) () :=
  passes_expansion rfl rfl hP (queryBTCDelegation_previous [])
    (signer_of_signWith signWith_expansion ())

theorem processPending_two : ∃ w₂,
    oneByOne.processPending [plainDelegation, expansionDelegation] filteredWorld =
      (.ok (), w₂) := by
  have hbatches : oneByOne.delegationsToBatches [plainDelegation, expansionDelegation] =
      .ok [[plainDelegation], [expansionDelegation]] := rfl
  have hfirst : Go.attempt (oneByOne.addCovenantSignatures ([plainDelegation].map some))
      filteredWorld = (.ok (.error "insufficient fee"), refusedWorld) :=
    Go.attempt_eq_error.mpr addCovenantSignatures_refused
  have hsubmit : (oneByOne.cc.submitCovenantSigs [oneByOne.covenantSigsOf (stakeExpRequest 0)
      (responseOf (some ⟨List.replicate 64 3⟩))] ()).1.Returns := by
    have htaken := submitCovenantSigs_refusing (stakeExpRequest 0)
      (responseOf (some ⟨List.replicate 64 3⟩))
      (show lib.txHash expansionTx = expansionHash from rfl)
    rw [if_neg (by decide)] at htaken
    rw [show oneByOne.cc = refusingNode from rfl, htaken]
    trivial
  obtain ⟨res, hres⟩ := hsubmit.attempt
  have hsecond : ∃ w₂, Go.attempt (oneByOne.addCovenantSignatures ([expansionDelegation].map some))
      refusedWorld = (.ok res, w₂) := by
    rw [Go.attempt_apply]
    simp only [List.map_cons, List.map_nil,
      addCovenantSignatures_of_passes (passes_second (w := refusedWorld) rfl), hres]
    exact ⟨_, rfl⟩
  obtain ⟨w₂, hsecond⟩ := hsecond
  refine ⟨w₂, ?_⟩
  rw [Emulator.processPending, if_neg (by simp),
    Go.bind_of_ok (Go.lift_eq_ok.mpr ⟨hbatches, rfl⟩), Emulator.submitBatches,
    Go.bind_of_ok hfirst, Emulator.submitBatches, Go.bind_of_ok hsecond]
  rfl

/-- Two batches of one delegation. The first is refused, and the second is submitted all the
same. -/
theorem two_submit_entries : ∃ batches w₂ new,
    oneByOne.queryPendingDelegations 1 freshWorld =
        (.ok [plainDelegation, expansionDelegation], filteredWorld) ∧
      (oneByOne.addCovenantSignatures [some plainDelegation] filteredWorld).1 =
        .error "insufficient fee" ∧
      oneByOne.delegationsToBatches [plainDelegation, expansionDelegation] = .ok batches ∧
      batches = [[plainDelegation], [expansionDelegation]] ∧
      oneByOne.processPending [plainDelegation, expansionDelegation] filteredWorld =
        (.ok (), w₂) ∧
      w₂.trace = filteredWorld.trace ++ new ∧
      submissions new = batches.map (List.filterMap
        (entryFor oneByOne filteredWorld.paramsByVersion answers sign)) ∧
      (submissions new).flatten = [plainDelegation, expansionDelegation].filterMap
        (entryFor oneByOne filteredWorld.paramsByVersion answers sign) := by
  obtain ⟨w₂, hrun⟩ := processPending_two
  have hanswers : ∀ hash s, (oneByOne.cc.queryBTCDelegation hash s).1 = .ofExcept (answers hash) :=
    fun _ _ => rfl
  have hsign : ∀ req s, (oneByOne.signer req s).1 = .ofExcept (sign req) := fun _ _ => rfl
  have hsubmit : ∀ sigs s, (oneByOne.cc.submitCovenantSigs sigs s).1.Returns := by
    intro sigs s
    unfold oneByOne refusingNode emulator
    dsimp only
    split <;> trivial
  obtain ⟨batches, w₂, new, hbatches, -, h⟩ := tick_submits_entries oneByOne hanswers hsign hsubmit
    (by decide) queryPendingDelegations_two (by simp) (by rw [hrun]; exact id)
  exact ⟨batches, w₂, new, queryPendingDelegations_two,
    congrArg Prod.fst addCovenantSignatures_refused, hbatches, (Outcome.ok.inj hbatches).symm, h⟩

end Sample

end CovenantEmulator
