import CovenantEmulator.Covenant.Serving
import Mathlib.Data.List.Pairwise

/-! Runs of ticks: which waiting delegations are ever signed, and when. -/
namespace CovenantEmulator

open Golang Paging Backlog

namespace Emulator

variable {σ : Type} (ce : Emulator σ)

/-- The batches of a tick, none without a pending delegation. -/
def splitPending (dels : List Delegation) : Outcome (List (List Delegation)) :=
  if dels.length = 0 then .ok [] else ce.delegationsToBatches dels

/-- The loop from one access to the chain to the next, with the batches that are left: without any,
the next tick queries; otherwise the first is signed and submitted. -/
def loopStep (fuel : ℕ) : List (List Delegation) → Go (World σ) (List (List Delegation))
  | [] => do
    let dels ← Go.attempt (ce.queryPendingDelegations fuel)
    match dels with
    | .error _ => pure []
    | .ok dels => Go.lift (ce.splitPending dels)
  | delBatch :: batches => do
    let _ ← Go.attempt (ce.addCovenantSignatures (delBatch.map some))
    pure batches

theorem processPending_eq (dels : List Delegation) :
    ce.processPending dels = Go.lift (ce.splitPending dels) >>= ce.submitBatches := by
  unfold processPending splitPending
  split
  · rfl
  · rfl

/-- A tick is its first step and then the batches this leaves. -/
theorem tick_eq_loopStep (fuel : ℕ) :
    ce.tick fuel = ce.loopStep fuel [] >>= ce.submitBatches := by
  funext w
  rw [tick, loopStep, bind_assoc, Go.bind_apply, Go.bind_apply]
  rcases Go.attempt (ce.queryPendingDelegations fuel) w with ⟨(_ | dels) | _ | _ | _, w₁⟩
  · rfl
  · exact congrFun (ce.processPending_eq dels) w₁
  all_goals rfl

end Emulator

section
variable {σ : Type} {ce : Emulator σ} {cache : UInt32 → Option StakingParams}
  {answers : String → Except String Delegation} {params P : UInt32 → StakingParams}
  {sign : SigningRequest → Except String SignaturesResponse} {d : Delegation}
  {entry : CovenantSigs} {w w₀ w' : World σ}

/-- An entry carries the key of the emulator and the hash of its delegation. -/
theorem entryFor_spec (h : entryFor ce cache answers sign d = some entry) :
    entry.publicKey = ce.pk ∧ hashOfHex ce.lib d.stakingTxHex = some entry.stakingTxHash := by
  have hsig : signatureFor ce cache answers sign d = .ok entry := by
    unfold entryFor at h
    split at h
    · rename_i hsig
      cases h
      exact hsig
    · cases h
  unfold signatureFor at hsig
  split at hsig
  · cases hsig
  · obtain ⟨P, -, hsig⟩ := Outcome.bind_eq_ok.mp hsig
    obtain ⟨req, hcheck, hsig⟩ := Outcome.bind_eq_ok.mp hsig
    obtain ⟨req', hreq, hsig⟩ := Outcome.bind_eq_ok.mp hsig
    obtain ⟨resp, -, hsig⟩ := Outcome.bind_eq_ok.mp hsig
    cases hsig
    have hsame : req'.stakingTx = req.stakingTx := by
      unfold requestFrom at hreq
      split at hreq
      · obtain ⟨stk, -, hreq⟩ := Outcome.bind_eq_ok.mp hreq
        cases hreq
        rfl
      · cases hreq
        rfl
    refine ⟨rfl, ?_⟩
    rw [hashOfHex, (checkDelegation_ok hcheck).1.stakingTx, ← hsame]
    rfl

/-- The entry of a delegation that passes the checks and whose request is signed. -/
theorem entryFor_of_signed {ud : Undelegation} {p : StakingParams} {req req' : SigningRequest}
    {resp : SignaturesResponse} (hud : d.btcUndelegation = some ud)
    (hp : cache d.paramsVersion = some p)
    (hcheck : checkDelegation ce.lib d p ce.btcNetParams = .ok req)
    (hreq : requestFrom ce cache answers d req = .ok req') (hsign : sign req' = .ok resp) :
    signatureFor ce cache answers sign d = .ok (ce.covenantSigsOf req' resp) ∧
      entryFor ce cache answers sign d = some (ce.covenantSigsOf req' resp) := by
  have hsig : signatureFor ce cache answers sign d = .ok (ce.covenantSigsOf req' resp) := by
    simp only [signatureFor, hud, cachedParams_eq hp, Outcome.bind_ok, signatureUnder, hcheck,
      hreq, hsign]
    rfl
  exact ⟨hsig, by rw [entryFor, hsig]⟩

theorem cachedParams_of_knows (hw : Knows params P w) {v : UInt32} {p : StakingParams}
    (h : w.paramsByVersion v = some p) : cachedParams w.paramsByVersion v = .ok (P v) := by
  rcases hw v with hv | ⟨hv, -⟩
  · exact cachedParams_eq hv
  · cases hv.symm.trans h

/-- With the parameters it needs in the cache, a delegation gets the entry that the parameters of
the chain give it. -/
theorem signatureFor_of_knows (hw : Knows params P w)
    (hd : Cached w.paramsByVersion answers d) :
    signatureFor ce w.paramsByVersion answers sign d =
      signatureFor ce (fun v => some (P v)) answers sign d := by
  have hstk : stkExpFrom ce w.paramsByVersion answers d =
      stkExpFrom ce (fun v => some (P v)) answers d := by
    unfold stkExpFrom
    cases hexp : d.stakeExpansion with
    | none => rfl
    | some exp =>
      dsimp only
      cases hans : answers exp.previousStakingTxHashHex with
      | error e => rfl
      | ok prevDel =>
        obtain ⟨p, hp⟩ := hd.previous exp prevDel hexp hans
        simp only [Outcome.ofExcept_ok, Outcome.bind_ok, cachedParams_of_knows hw hp]
        rfl
  obtain ⟨p, hp⟩ := hd.own
  unfold signatureFor signatureUnder requestFrom
  rw [cachedParams_of_knows hw hp, hstk]
  rfl

theorem entryFor_of_knows (hw : Knows params P w) (hd : Cached w.paramsByVersion answers d) :
    entryFor ce w.paramsByVersion answers sign d =
      entryFor ce (fun v => some (P v)) answers sign d := by
  rw [entryFor, entryFor, signatureFor_of_knows hw hd]

end

section
variable {σ : Type} {ce : Emulator σ} {answers : String → Except String Delegation}
  {params P : UInt32 → StakingParams}
  {sign : SigningRequest → Except String SignaturesResponse}
  {pending : σ → Store BTCDelegationResponse} {w w₀ w' w'' : World σ} {dels : List Delegation}
  {entries entries' : List CovenantSigs}

/-- These entries were submitted on the way from `w` to `w'`, and the chain took them. -/
structure Served (ce : Emulator σ) (pending : σ → Store BTCDelegationResponse)
    (entries : List CovenantSigs) (w w' : World σ) : Prop where
  cache : w'.paramsByVersion = w.paramsByVersion
  trace : ∃ new, w'.trace = w.trace ++ new ∧ (submissions new).flatten = entries
  takes : Takes ce.lib ce.pk (entries.map (·.stakingTxHash)) (pending w.env).values
    (pending w'.env).values

theorem Served.trans (h : Served ce pending entries w w')
    (h' : Served ce pending entries' w' w'') :
    Served ce pending (entries ++ entries') w w'' := by
  obtain ⟨new, hnew, rfl⟩ := h.trace
  obtain ⟨new', hnew', rfl⟩ := h'.trace
  refine ⟨h'.cache.trans h.cache, ⟨new ++ new', by simp [hnew, hnew'], ?_⟩, ?_⟩
  · simp [submissions, List.filterMap_append]
  · rw [List.map_append]
    exact h.takes.trans h'.takes

section
variable (h : Serving ce answers params sign pending) (hw : Knows params P w)
  (hd : ∀ d ∈ dels, Cached w.paramsByVersion answers d)
  (hpanic : ∀ d ∈ dels, ¬ (signatureFor ce (fun v => some (P v)) answers sign d).Panics)
include h hw hd hpanic

theorem Serving.collectSigs_not_panics : ¬ (ce.collectSigs (dels.map some) w).1.Panics := by
  intro hp
  obtain ⟨pre, btcDel, post, sigs, w₁, hsplit, hpre, hp⟩ := Go.foldlM_panics.mp hp
  obtain ⟨before, rest, rfl, rfl, hrest⟩ := List.map_eq_append_iff.mp hsplit
  obtain ⟨d, after, rfl, rfl, rfl⟩ := List.map_eq_cons_iff.mp hrest
  have hmem : d ∈ before ++ d :: after := by simp
  obtain ⟨w₂, hfold, hs⟩ := foldlM_collectStep_eq h.static.delegations h.signs [] rfl
    (fun d' hd' => hd d' (List.mem_append_left _ hd')) (by rw [hpre]; exact id)
  obtain rfl : w₁ = w₂ := by
    rw [hpre] at hfold
    exact (Prod.mk.inj hfold).2
  have hcached : Cached w₁.paramsByVersion answers d := by
    rw [hs.cache]
    exact hd d hmem
  obtain ⟨w₃, hone, -⟩ := addCovenantSignature_mirrors h.static.delegations h.signs hcached
  rw [signatureFor_of_knows (hw.of_cache_eq hs.cache) hcached] at hone
  unfold Emulator.collectStep at hp
  rw [Go.bind_panics, hone] at hp
  rcases hp with hp | ⟨a, s, -, hp⟩
  · have hnot := hpanic d hmem
    cases hsig : signatureFor ce (fun v => some (P v)) answers sign d with
    | panic p => exact hnot (by rw [hsig]; trivial)
    | ok _ | error _ | diverged => simp [hsig, Outcome.attempt, Outcome.Panics] at hp
  · exact hp

/-- The loop over a batch collects the entry of each delegation that has one. -/
theorem Serving.collectSigs :
    ∃ w₁, ce.collectSigs (dels.map some) w =
        (.ok (dels.filterMap (entryFor ce (fun v => some (P v)) answers sign)), w₁) ∧
      SignsOnly w w₁ := by
  obtain ⟨w₁, hfold, hs⟩ := foldlM_collectStep_eq h.static.delegations h.signs [] rfl hd
    (h.collectSigs_not_panics hw hd hpanic)
  refine ⟨w₁, ?_, hs⟩
  rw [Emulator.collectSigs, hfold, List.nil_append]
  have hsame : dels.filterMap (entryFor ce w.paramsByVersion answers sign) =
      dels.filterMap (entryFor ce (fun v => some (P v)) answers sign) :=
    List.filterMap_congr fun d hmem => entryFor_of_knows hw (hd d hmem)
  rw [hsame]

theorem Serving.addCovenantSignatures (hne : dels ≠ []) (hlen : dels.length < 2 ^ 63) :
    ∃ res w', Go.attempt (ce.addCovenantSignatures (dels.map some)) w = (.ok res, w') ∧
      Served ce pending (dels.filterMap (entryFor ce (fun v => some (P v)) answers sign)) w w' := by
  have hkeeps := h.collect_keeps (dels.map some) w
  obtain ⟨w₁, hcollect, hs⟩ := h.collectSigs hw hd hpanic
  rw [hcollect] at hkeeps
  generalize hentries : dels.filterMap (entryFor ce (fun v => some (P v)) answers sign) = entries
    at hcollect ⊢
  have hcall := ce.addCovenantSignatures_of_collected (by simpa using hne) hcollect
  have hfew : entries.length < 2 ^ 63 := by
    rw [← hentries]
    exact Nat.lt_of_le_of_lt (List.length_filterMap_le ..) hlen
  have hkeys : ∀ entry ∈ entries, entry.publicKey = ce.pk := by
    intro entry hentry
    rw [← hentries] at hentry
    obtain ⟨d, -, hd⟩ := List.mem_filterMap.mp hentry
    exact (entryFor_spec hd).1
  obtain ⟨hreturns, htakes⟩ := h.submit entries w₁.env hfew hkeys
  obtain ⟨res, hres⟩ := hreturns.attempt
  refine ⟨res, _, by rw [Go.attempt_apply, hcall, hres], ?_, ?_, ?_⟩
  · exact hs.cache
  · obtain ⟨new, hnew, hsigning⟩ := hs.submits.trace
    have hlast : submissions (new ++ [.submitting entries]) = submissions new ++ [entries] := by
      simp [submissions, List.filterMap_append]
    refine ⟨new ++ [.submitting entries], by simp [hnew], ?_⟩
    rw [hlast, hsigning]
    simp
  · dsimp only at hkeeps ⊢
    rwa [hkeeps] at htakes

end

theorem Serving.submitBatches (h : Serving ce answers params sign pending)
    (hw : Knows params P w) {batches : List (List Delegation)}
    (hne : ∀ batch ∈ batches, batch ≠ []) (hlen : batches.flatten.length < 2 ^ 63)
    (hd : ∀ batch ∈ batches, ∀ d ∈ batch, Cached w.paramsByVersion answers d)
    (hpanic : ∀ batch ∈ batches, ∀ d ∈ batch,
      ¬ (signatureFor ce (fun v => some (P v)) answers sign d).Panics) :
    ∃ w', ce.submitBatches batches w = (.ok (), w') ∧
      Served ce pending
        (batches.flatten.filterMap (entryFor ce (fun v => some (P v)) answers sign)) w w' := by
  induction batches generalizing w with
  | nil => exact ⟨w, rfl, rfl, ⟨[], by simp, rfl⟩, .refl _ _ _⟩
  | cons batch batches ih =>
    rw [List.flatten_cons, List.length_append] at hlen
    obtain ⟨res, w₁, hone, hserved⟩ := h.addCovenantSignatures hw (hd batch List.mem_cons_self)
      (hpanic batch List.mem_cons_self) (hne batch List.mem_cons_self) (by omega)
    have hrest : ∀ b ∈ batches, ∀ d ∈ b, Cached w₁.paramsByVersion answers d := by
      rw [hserved.cache]
      exact fun b hb => hd b (List.mem_cons_of_mem _ hb)
    obtain ⟨w₂, hrun, hserved'⟩ := ih (hw.of_cache_eq hserved.cache)
      (fun b hb => hne b (List.mem_cons_of_mem _ hb)) (by omega) hrest
      (fun b hb => hpanic b (List.mem_cons_of_mem _ hb))
    refine ⟨w₂, by rw [Emulator.submitBatches, Go.bind_of_ok hone, hrun], ?_⟩
    rw [List.flatten_cons, List.filterMap_append]
    exact hserved.trans hserved'

/-- The delegations of a tick are split into batches that cover them. -/
theorem splitPending_covers (ce : Emulator σ) (hsize : 1 ≤ ce.sigsBatchSize.toNat)
    (hlen : dels.length < 2 ^ 63) :
    ∃ batches, ce.splitPending dels = .ok batches ∧ batches.flatten = dels ∧
      ∀ batch ∈ batches, batch ≠ [] := by
  by_cases hnil : dels = []
  · subst hnil
    exact ⟨[], rfl, rfl, by simp⟩
  · obtain ⟨batches, hbatches, hflat, hne⟩ := batchesFrom_covers (i := 0) hsize hlen (Or.inl rfl)
      (Nat.lt_succ_of_le (Nat.sub_le _ _))
    rw [UInt64.toNat_zero, List.drop_zero] at hflat
    refine ⟨batches, ?_, hflat, fun batch hb => (hne batch hb).1⟩
    unfold Emulator.splitPending Emulator.delegationsToBatches
    rw [if_neg (by simpa using hnil), hbatches]

end

/-- The delegations that wait and do not get an entry are those a round cannot serve. -/
def signable {σ : Type} (ce : Emulator σ) (P : UInt32 → StakingParams)
    (answers : String → Except String Delegation)
    (sign : SigningRequest → Except String SignaturesResponse) (d : Delegation) : Bool :=
  (entryFor ce (fun v => some (P v)) answers sign d).isSome

/-- What holds at every tick: known parameters, responses that convert and are decided, each
staking transaction at most once, and no request that panics. -/
structure Steady {σ : Type} (ce : Emulator σ) (answers : String → Except String Delegation)
    (params P : UInt32 → StakingParams)
    (sign : SigningRequest → Except String SignaturesResponse)
    (pending : σ → Store BTCDelegationResponse) (w₀ : World σ) (fuel : ℕ) (w : World σ) :
    Prop where
  knows : Knows params P w
  opens : ∀ r ∈ (pending w.env).values, ¬ Blocks ce w₀ r
  distinct : ((pending w.env).values.map (·.stakingTxHex)).Pairwise (Apart ce.lib)
  fuel_gt : (pending w.env).values.length < fuel
  quiet : ∀ d ∈ ce.waiting w₀ (pending w.env).values,
    ¬ (signatureFor ce (fun v => some (P v)) answers sign d).Panics

/-- The batches that a query leaves: the first of the delegations that wait. -/
structure Fetched {σ : Type} (ce : Emulator σ) (answers : String → Except String Delegation)
    (params P : UInt32 → StakingParams) (pending : σ → Store BTCDelegationResponse)
    (w₀ : World σ) (batches : List (List Delegation)) (w w₁ : World σ) : Prop where
  flatten : batches.flatten =
    (ce.waiting w₀ (pending w.env).values).take ce.delegationLimit.toNat
  nonempty : ∀ batch ∈ batches, batch ≠ []
  knows : Knows params P w₁
  pending : pending w₁.env = pending w.env
  cached : ∀ d ∈ batches.flatten, Cached w₁.paramsByVersion answers d
  trace : ∃ asked, w₁.trace = w.trace ++ asked ∧ submissions asked = []

section
variable {σ : Type} {ce : Emulator σ} {answers : String → Except String Delegation}
  {params P : UInt32 → StakingParams}
  {sign : SigningRequest → Except String SignaturesResponse}
  {pending : σ → Store BTCDelegationResponse} {w w₀ : World σ} {fuel : ℕ}
  {waiting : List Delegation}

theorem waiting_apart {rs : List BTCDelegationResponse}
    (h : (rs.map (·.stakingTxHex)).Pairwise (Apart ce.lib)) :
    (ce.waiting w rs).Pairwise fun d d' => Apart ce.lib d.stakingTxHex d'.stakingTxHex := by
  rw [List.pairwise_map] at h
  refine List.pairwise_filterMap.mpr (h.imp ?_)
  intro r r' hapart d hd d' hd'
  rw [(delegationRespToDelegation_ok (waits_eq_some hd).1).1,
    (delegationRespToDelegation_ok (waits_eq_some hd').1).1]
  exact hapart

/-- Of delegations apart from each other, a staking transaction belongs to one. -/
theorem eq_of_hashOfHex_eq {d d' : Delegation} {hash : Hash}
    (h : waiting.Pairwise fun d d' => Apart ce.lib d.stakingTxHex d'.stakingTxHex)
    (hd : d ∈ waiting) (hd' : d' ∈ waiting)
    (hhash : hashOfHex ce.lib d.stakingTxHex = some hash)
    (hhash' : hashOfHex ce.lib d'.stakingTxHex = some hash) : d = d' := by
  by_contra hne
  have : Std.Symm fun d d' : Delegation => Apart ce.lib d.stakingTxHex d'.stakingTxHex :=
    ⟨fun _ _ hapart hash hb ha => hapart hash ha hb⟩
  exact h.forall hd hd' hne hash hhash hhash'

/-- What stops waiting when the chain takes the entries of the first delegations is what a round
serves. -/
theorem filter_stakes_eq_serve {limit : ℕ}
    (h : waiting.Pairwise fun d d' => Apart ce.lib d.stakingTxHex d'.stakingTxHex) :
    waiting.filter (fun d => !stakesOneOf ce.lib
      (((waiting.take limit).filterMap
        (entryFor ce (fun v => some (P v)) answers sign)).map (·.stakingTxHash)) d.stakingTxHex) =
      serve limit (signable ce P answers sign) waiting := by
  generalize hhashes : ((waiting.take limit).filterMap
    (entryFor ce (fun v => some (P v)) answers sign)).map (·.stakingTxHash) = hashes
  have hfrom : ∀ d : Delegation, stakesOneOf ce.lib hashes d.stakingTxHex = true ↔
      ∃ d' ∈ waiting.take limit, signable ce P answers sign d' = true ∧
        ∃ hash, hashOfHex ce.lib d'.stakingTxHex = some hash ∧
          hashOfHex ce.lib d.stakingTxHex = some hash := by
    intro d
    rw [stakesOneOf_iff, ← hhashes]
    constructor
    · rintro ⟨hash, hmem, hhash⟩
      obtain ⟨entry, hentry, rfl⟩ := List.mem_map.mp hmem
      obtain ⟨d', hd', hfor⟩ := List.mem_filterMap.mp hentry
      exact ⟨d', hd', by rw [signable, hfor]; rfl, _, (entryFor_spec hfor).2, hhash⟩
    · rintro ⟨d', hd', hsignable, hash, hhash', hhash⟩
      obtain ⟨entry, hfor⟩ := Option.isSome_iff_exists.mp hsignable
      have hsame : hash = entry.stakingTxHash := by
        simpa [hhash'] using (entryFor_spec hfor).2
      refine ⟨hash, List.mem_map.mpr ⟨entry, List.mem_filterMap.mpr ⟨d', hd', hfor⟩, ?_⟩, hhash⟩
      exact hsame.symm
  rw [serve]
  conv_lhs => rw [← List.take_append_drop limit waiting]
  rw [List.filter_append]
  congr 1
  · refine List.filter_congr fun d hd => congrArg (! ·) ?_
    rw [Bool.eq_iff_iff, hfrom d]
    constructor
    · rintro ⟨d', hd', hsignable, hash, hhash', hhash⟩
      rwa [eq_of_hashOfHex_eq h (List.mem_of_mem_take hd) (List.mem_of_mem_take hd') hhash
        hhash']
    · intro hsignable
      obtain ⟨entry, hfor⟩ := Option.isSome_iff_exists.mp hsignable
      exact ⟨d, hd, hsignable, _, (entryFor_spec hfor).2, (entryFor_spec hfor).2⟩
  · refine List.filter_eq_self.mpr fun d hd => ?_
    rw [Bool.not_eq_true', Bool.eq_false_iff, ne_eq, hfrom d]
    rintro ⟨d', hd', -, hash, hhash', hhash⟩
    rw [← List.take_append_drop limit waiting, List.pairwise_append] at h
    exact h.2.2 d' hd' d hd hash hhash' hhash

section
variable (h : Serving ce answers params sign pending) (hw₀ : Knows params P w₀)
  (hlimit : 0 < ce.delegationLimit.toNat) (haddr : Addressable pointerSize ce.delegationLimit.toNat)
  (hsize : 1 ≤ ce.sigsBatchSize.toNat)
include h hw₀ hlimit haddr hsize

/-- The step that queries takes the first of the delegations that wait, in batches. -/
theorem Serving.fetch (hw : Knows params P w)
    (hopen : ∀ r ∈ (pending w.env).values, ¬ Blocks ce w₀ r)
    (hends : ¬ FullPages ce (pending w.env)) (hfuel : (pending w.env).values.length < fuel) :
    ∃ batches w₁, ce.loopStep fuel [] w = (.ok batches, w₁) ∧
      Fetched ce answers params P pending w₀ batches w w₁ := by
  obtain ⟨w₁, hquery, hknows, hsame⟩ :=
    h.queryPendingDelegations hw₀ hw hopen hends hlimit haddr hfuel
  obtain ⟨hquiet, hacc⟩ := (queryPendingDelegations_spec (respects_any ce.cc) w fuel
    (B := fun _ => True) (fun _ _ _ _ _ _ _ _ => trivial)).run hquery
  have hfew : ((ce.waiting w₀ (pending w.env).values).take ce.delegationLimit.toNat).length <
      2 ^ 63 := by
    have hint := lt_of_addressable haddr
    rw [List.length_take]
    omega
  obtain ⟨batches, hsplit, hflat, hne⟩ := splitPending_covers ce hsize hfew
  refine ⟨batches, w₁, ?_, hflat, hne, hknows, hsame, ?_, ?_⟩
  · rw [Emulator.loopStep, Go.bind_of_ok (m := Go.attempt (ce.queryPendingDelegations fuel))
      (by rw [Go.attempt_apply, hquery]; rfl)]
    exact (Go.lift_apply _ w₁).trans (by rw [hsplit])
  · intro d hd
    rw [hflat] at hd
    exact (hacc d hd).1.cached h.static.delegations
  · obtain ⟨asked, hasked, hparams⟩ := hquiet.trace
    refine ⟨asked, hasked, List.filterMap_eq_nil_iff.mpr fun e he => ?_⟩
    obtain ⟨v, answer, rfl⟩ := hparams e he
    rfl

/-- A tick signs and submits the first of the delegations that wait, as far as they can be signed,
and serves the others of the backlog not at all. -/
theorem Serving.tick (hw : Steady ce answers params P sign pending w₀ fuel w)
    (hends : ¬ FullPages ce (pending w.env)) :
    ∃ w', ce.tick fuel w = (.ok (), w') ∧
      Steady ce answers params P sign pending w₀ fuel w' ∧
      (∃ new, w'.trace = w.trace ++ new ∧ (submissions new).flatten =
        ((ce.waiting w₀ (pending w.env).values).take ce.delegationLimit.toNat).filterMap
          (entryFor ce (fun v => some (P v)) answers sign)) ∧
      ce.waiting w₀ (pending w'.env).values =
        serve ce.delegationLimit.toNat (signable ce P answers sign)
          (ce.waiting w₀ (pending w.env).values) := by
  have hapart := waiting_apart (w := w₀) hw.distinct
  obtain ⟨batches, w₁, hfetch, hfetched⟩ := h.fetch hw₀ hlimit haddr hsize hw.knows hw.opens hends
    hw.fuel_gt
  have hwaits : ∀ d ∈ batches.flatten, d ∈ ce.waiting w₀ (pending w.env).values := by
    intro d hd
    rw [hfetched.flatten] at hd
    exact List.mem_of_mem_take hd
  have hfew : batches.flatten.length < 2 ^ 63 := by
    have hint := lt_of_addressable haddr
    rw [hfetched.flatten, List.length_take]
    omega
  obtain ⟨w₂, hrun, hserved⟩ := h.submitBatches hfetched.knows hfetched.nonempty hfew
    (fun batch hb d hd => hfetched.cached d (List.mem_flatten_of_mem hb hd))
    (fun batch hb d hd => hw.quiet d (hwaits d (List.mem_flatten_of_mem hb hd)))
  rw [hfetched.flatten] at hserved
  have htakes := hserved.takes
  rw [hfetched.pending] at htakes
  obtain ⟨hopens, hwaiting⟩ := htakes.waiting h.lifts hw.opens
  rw [filter_stakes_eq_serve hapart] at hwaiting
  refine ⟨w₂, ?_, ⟨hfetched.knows.of_cache_eq hserved.cache, hopens, ?_, ?_, ?_⟩, ?_, hwaiting⟩
  · rw [ce.tick_eq_loopStep, Go.bind_of_ok hfetch, hrun]
  · exact hw.distinct.sublist htakes.sublist
  · exact Nat.lt_of_le_of_lt htakes.length_le hw.fuel_gt
  · intro d hd
    rw [hwaiting] at hd
    exact hw.quiet d (serve_subset _ hd)
  · obtain ⟨asked, hasked, hnone⟩ := hfetched.trace
    obtain ⟨new, hnew, hsubs⟩ := hserved.trace
    refine ⟨asked ++ new, by rw [hnew, hasked, List.append_assoc], ?_⟩
    rw [submissions, List.filterMap_append, List.flatten_append]
    change (submissions asked).flatten ++ (submissions new).flatten = _
    rw [hnone, hsubs]
    rfl

end

end

section
variable {σ : Type}

/-- The world after so many ticks. -/
def Emulator.afterTicks (ce : Emulator σ) (fuel n : ℕ) (w : World σ) : World σ :=
  (fun w => (ce.tick fuel w).2)^[n] w

/-- The entries handed to `SubmitCovenantSigs` since `w`, in order. -/
def World.submittedSince (w w' : World σ) : List CovenantSigs :=
  (submissions (w.since w')).flatten

end

section
variable {σ : Type} {ce : Emulator σ} {answers : String → Except String Delegation}
  {params P : UInt32 → StakingParams}
  {sign : SigningRequest → Except String SignaturesResponse}
  {pending : σ → Store BTCDelegationResponse} {w : World σ} {fuel : ℕ}

theorem World.submittedSince_of_append {w' : World σ} {new : List Event}
    (h : w'.trace = w.trace ++ new) : w.submittedSince w' = (submissions new).flatten := by
  rw [submittedSince, since_of_append h]

section
variable (h : Serving ce answers params sign pending)
  (hlimit : 0 < ce.delegationLimit.toNat) (haddr : Addressable pointerSize ce.delegationLimit.toNat)
  (hsize : 1 ≤ ce.sigsBatchSize.toNat)
  (hw : Steady ce answers params P sign pending w fuel w)
  (hends : ∀ n, ¬ FullPages ce (pending (ce.afterTicks fuel n w).env))
include h hlimit haddr hsize hw hends

/-- The ticks of a run keep what they need, and serve the backlog round by round. -/
theorem Serving.afterTicks (n : ℕ) :
    Steady ce answers params P sign pending w fuel (ce.afterTicks fuel n w) ∧
      ce.waiting w (pending (ce.afterTicks fuel n w).env).values =
        (serve ce.delegationLimit.toNat (signable ce P answers sign))^[n]
          (ce.waiting w (pending w.env).values) ∧
      ∃ new, (ce.afterTicks fuel n w).trace = w.trace ++ new ∧
        (submissions new).flatten = (List.range n).flatMap fun k =>
          (((serve ce.delegationLimit.toNat (signable ce P answers sign))^[k]
            (ce.waiting w (pending w.env).values)).take ce.delegationLimit.toNat).filterMap
              (entryFor ce (fun v => some (P v)) answers sign) := by
  induction n with
  | zero => exact ⟨hw, rfl, [], by simp [Emulator.afterTicks], rfl⟩
  | succ n ih =>
    obtain ⟨hsteady, hwaiting, new, hnew, hsubs⟩ := ih
    obtain ⟨w', htick, hsteady', ⟨new', hnew', hsubs'⟩, hserve⟩ :=
      h.tick hw.knows hlimit haddr hsize hsteady (hends n)
    have hstep : ce.afterTicks fuel (n + 1) w = w' := by
      rw [Emulator.afterTicks, Function.iterate_succ_apply']
      change (ce.tick fuel (ce.afterTicks fuel n w)).2 = w'
      rw [htick]
    rw [hstep]
    refine ⟨hsteady', ?_, new ++ new', by rw [hnew', hnew, List.append_assoc], ?_⟩
    · rw [hserve, hwaiting, Function.iterate_succ_apply']
    · rw [submissions, List.filterMap_append, List.flatten_append]
      change (submissions new).flatten ++ (submissions new').flatten = _
      rw [hsubs, hsubs', hwaiting, List.range_succ, List.flatMap_append]
      simp

/-- An entry is submitted in the ticks in which its delegation is among the first. -/
theorem Serving.submitted_iff {d : Delegation} {entry : CovenantSigs}
    (hd : d ∈ ce.waiting w (pending w.env).values)
    (hentry : entryFor ce (fun v => some (P v)) answers sign d = some entry) (n : ℕ) :
    entry ∈ w.submittedSince (ce.afterTicks fuel n w) ↔ ∃ k < n,
      d ∈ ((serve ce.delegationLimit.toNat (signable ce P answers sign))^[k]
        (ce.waiting w (pending w.env).values)).take ce.delegationLimit.toNat := by
  obtain ⟨-, -, new, hnew, hsubs⟩ := h.afterTicks hlimit haddr hsize hw hends n
  rw [World.submittedSince_of_append hnew, hsubs, List.mem_flatMap]
  simp only [List.mem_range, List.mem_filterMap]
  constructor
  · rintro ⟨k, hk, d', hd', hentry'⟩
    -- The hash of the entry tells which delegation it is for.
    have hwaits : d' ∈ ce.waiting w (pending w.env).values :=
      iterate_serve_subset k _ (List.mem_of_mem_take hd')
    have hsame : d = d' := eq_of_hashOfHex_eq (waiting_apart hw.distinct) hd hwaits
      (entryFor_spec hentry).2 (entryFor_spec hentry').2
    exact ⟨k, hk, hsame ▸ hd'⟩
  · rintro ⟨k, hk, hd'⟩
    exact ⟨k, hk, d, hd', hentry⟩

end

end

end CovenantEmulator
