import CovenantEmulator.Covenant.Progress
import CovenantEmulator.Covenant.Quorum
import Mathlib.Data.List.Forall2

/-! What more signatures on the pending delegations change for a member of the committee: the filter
skips what the member has signed, and nothing else depends on them below the quorum. -/
namespace CovenantEmulator

open Golang

section
variable {σ : Type} {ce : Emulator σ} {w : World σ} {lib : BabylonLib} {d d' : Delegation}
  {r r' : BTCDelegationResponse} {bytes : Bytes}

theorem alreadySigned_bare (bytes : Bytes) (d : Delegation) :
    alreadySigned bytes d.bare = false := rfl

/-- A signature that is reported stays. -/
theorem Grown.alreadySigned (h : Grown r r') (hd : delegationRespToDelegation lib r = .ok d)
    (hd' : delegationRespToDelegation lib r' = .ok d')
    (hsigned : alreadySigned bytes d = true) : alreadySigned bytes d' = true := by
  unfold CovenantEmulator.alreadySigned at hsigned ⊢
  rw [List.any_eq_true] at hsigned ⊢
  obtain ⟨info, hinfo, hbytes⟩ := hsigned
  obtain ⟨sigs, hsigs, hone⟩ :=
    Outcome.exists_of_mem_of_mapM (delegationRespToDelegation_ok hd).2 hinfo
  obtain ⟨info', hinfo', hone'⟩ :=
    Outcome.exists_of_mem_mapM (delegationRespToDelegation_ok hd').2 (h.covenantSigs.mem hsigs)
  obtain rfl : info = info' := Outcome.ok.inj (hone.symm.trans hone')
  exact ⟨info, hinfo', hbytes⟩

/-- Signatures apart, the filter does not look at them. -/
theorem acceptDelegationToSign_bare (h : alreadySigned (serializePubKey ce.pk) d = false) :
    ce.acceptDelegationToSign d = ce.acceptDelegationToSign d.bare := by
  unfold Emulator.acceptDelegationToSign acceptDelegationToSign
  rw [h, alreadySigned_bare]
  rfl

theorem not_alreadySigned_of_accepts (h : ce.accepts w d = true) :
    alreadySigned (serializePubKey ce.pk) d = false := by
  have hacc : (ce.acceptDelegationToSign d w).1 = .ok true := of_decide_eq_true h
  obtain ⟨prevDel, w₁, -, hdecide⟩ := Go.bind_eq_ok.mp (Prod.ext hacc rfl)
  by_contra hsigned
  rw [Bool.not_eq_false] at hsigned
  rw [acceptDelegationToSign, if_pos hsigned] at hdecide
  cases hdecide

theorem accepts_of_bare (h : ce.accepts w d = true) (hbare : d'.bare = d.bare)
    (hsigned : alreadySigned (serializePubKey ce.pk) d' = false) : ce.accepts w d' = true := by
  unfold Emulator.accepts at h ⊢
  rw [acceptDelegationToSign_bare hsigned, hbare,
    ← acceptDelegationToSign_bare (not_alreadySigned_of_accepts h)]
  exact h

theorem exists_delegation_of_open (h : ¬ Blocks ce w r) :
    ∃ d, delegationRespToDelegation ce.lib r = .ok d := by
  obtain ⟨b, hb⟩ := not_blocks_iff.mp h
  obtain ⟨d, hd, -⟩ := Outcome.bind_eq_ok.mp hb
  exact ⟨d, hd⟩

/-- A delegation that has grown waits only if it did before. -/
theorem Grown.waits (h : Grown r r') (hopen : ¬ Blocks ce w r) (hd' : ce.waits w r' = some d') :
    ∃ d, ce.waits w r = some d ∧ d'.bare = d.bare := by
  obtain ⟨hconv', hacc'⟩ := waits_eq_some hd'
  obtain ⟨d, hconv⟩ := exists_delegation_of_open hopen
  have hbare := h.delegation hconv hconv'
  have hsigned : CovenantEmulator.alreadySigned (serializePubKey ce.pk) d = false := by
    by_contra hsigned
    rw [Bool.not_eq_false] at hsigned
    have hnot := not_alreadySigned_of_accepts hacc'
    rw [h.alreadySigned hconv hconv' hsigned] at hnot
    cases hnot
  have hacc := accepts_of_bare hacc' hbare.symm hsigned
  exact ⟨d, by rw [waits_of_converts hconv, if_pos hacc], hbare⟩

end

section
variable {σ : Type} {ce : Emulator σ} {cache : UInt32 → Option StakingParams}
  {answers : String → Except String Delegation}
  {sign : SigningRequest → Except String SignaturesResponse} {P : UInt32 → StakingParams}
  {p : StakingParams} {d d' : Delegation}

/-- Below the quorum, and without signatures. -/
theorem hasCovenantQuorum_bare {ud : Undelegation} (hud : d.btcUndelegation = some ud)
    {quorum : UInt32} (h : d.hasCovenantQuorum quorum ≠ .ok true) :
    d.hasCovenantQuorum quorum = .ok false ∧ d.bare.hasCovenantQuorum quorum = .ok false := by
  have hpos : quorum.toNat ≠ 0 := by
    intro hzero
    refine h ((hasCovenantQuorum_eq_true hud).mpr ?_)
    rw [hzero]
    exact ⟨Nat.zero_le _, Nat.zero_le _⟩
  constructor
  · rw [Delegation.hasCovenantQuorum_of_undelegation hud] at h ⊢
    rw [ne_eq, Outcome.ok.injEq, Bool.not_eq_true] at h
    rw [h]
  · have hnot : ¬ (d.bare.covenantSigs.length ≥ quorum.toNat) := by
      change ¬ (0 ≥ quorum.toNat)
      omega
    rw [Delegation.hasCovenantQuorum, if_neg hnot]

theorem decodeUndelegationTransactions_bare (lib : BabylonLib) (net : NetParams) :
    decodeUndelegationTransactions lib d.bare p net =
      decodeUndelegationTransactions lib d p net := by
  unfold decodeUndelegationTransactions
  cases hud : d.btcUndelegation with
  | none => simp [Delegation.bare, hud, Outcome.deref]
  | some ud =>
    simp only [Delegation.bare, hud, Option.map_some, Outcome.deref, Outcome.bind_ok]
    rfl

theorem generateSigningRequest_bare (lib : BabylonLib) (net : NetParams) :
    generateSigningRequest lib d.bare p net = generateSigningRequest lib d p net := by
  unfold generateSigningRequest
  rw [decodeUndelegationTransactions_bare]
  rfl

theorem checkDelegation_bare (lib : BabylonLib) (net : NetParams) {ud : Undelegation}
    (hud : d.btcUndelegation = some ud) (h : d.hasCovenantQuorum p.covenantQuorum ≠ .ok true) :
    checkDelegation lib d.bare p net = checkDelegation lib d p net := by
  obtain ⟨hd, hbare⟩ := hasCovenantQuorum_bare hud h
  unfold checkDelegation
  rw [hd, hbare, generateSigningRequest_bare]
  rfl

/-- Below the quorum an entry does not depend on the signatures. -/
theorem signatureFor_bare
    (h : d.hasCovenantQuorum (P d.paramsVersion).covenantQuorum ≠ .ok true) :
    signatureFor ce (fun v => some (P v)) answers sign d.bare =
      signatureFor ce (fun v => some (P v)) answers sign d := by
  unfold signatureFor
  cases hud : d.btcUndelegation with
  | none => simp [Delegation.bare, hud]
  | some ud =>
    have hparams : cachedParams (fun v => some (P v)) d.paramsVersion = .ok (P d.paramsVersion) :=
      cachedParams_eq rfl
    have hparams' : cachedParams (fun v => some (P v)) d.bare.paramsVersion =
        .ok (P d.paramsVersion) := hparams
    have hud' : d.bare.btcUndelegation = some ud.bare := by simp [Delegation.bare, hud]
    rw [hud']
    dsimp only
    rw [hparams, hparams', Outcome.bind_ok, Outcome.bind_ok]
    unfold signatureUnder
    rw [checkDelegation_bare _ _ hud h]
    rfl

theorem signable_bare (h : d.hasCovenantQuorum (P d.paramsVersion).covenantQuorum ≠ .ok true) :
    signable ce P answers sign d.bare = signable ce P answers sign d := by
  rw [signable, signable, entryFor, entryFor, signatureFor_bare h]

end

section
variable (lib : BabylonLib) (hash : Hash)

def stakes (r : BTCDelegationResponse) : Bool := decide (hashOfHex lib r.stakingTxHex = some hash)

/-- The pending delegation of a staking transaction. -/
def pendingOf (rs : List BTCDelegationResponse) : Option BTCDelegationResponse :=
  rs.find? (stakes lib hash)

/-- The delegations that are reported before it. -/
def aheadOf (rs : List BTCDelegationResponse) : List BTCDelegationResponse :=
  rs.takeWhile fun r => !stakes lib hash r

/-- As long as the delegation is pending, it and those before it only gain signatures or leave. What
comes behind it is of no concern. -/
def Shifts (rs rs' : List BTCDelegationResponse) : Prop :=
  ∀ r', pendingOf lib hash rs' = some r' → ∃ r, pendingOf lib hash rs = some r ∧ Grown r r' ∧
    List.SublistForall₂ (fun x' x => Grown x x') (aheadOf lib hash rs') (aheadOf lib hash rs)

end

section
variable {lib : BabylonLib} {hash : Hash} {pk : PublicKey} {hashes : List Hash}
  {r r' : BTCDelegationResponse} {rs rs' : List BTCDelegationResponse}

theorem stakes_iff : stakes lib hash r = true ↔ hashOfHex lib r.stakingTxHex = some hash :=
  decide_eq_true_iff

theorem Grown.stakes (h : Grown r r') : stakes lib hash r' = stakes lib hash r := by
  rw [CovenantEmulator.stakes, CovenantEmulator.stakes, h.stakingTxHex]

theorem pendingOf_cons_of_stakes (h : stakes lib hash r = true)
    (rs : List BTCDelegationResponse) :
    pendingOf lib hash (r :: rs) = some r ∧ aheadOf lib hash (r :: rs) = [] := by
  simp [pendingOf, aheadOf, h]

theorem pendingOf_cons_of_not (h : stakes lib hash r = false)
    (rs : List BTCDelegationResponse) :
    pendingOf lib hash (r :: rs) = pendingOf lib hash rs ∧
      aheadOf lib hash (r :: rs) = r :: aheadOf lib hash rs := by
  simp [pendingOf, aheadOf, h]

theorem pendingOf_eq_none :
    pendingOf lib hash rs = none ↔ ∀ r ∈ rs, hashOfHex lib r.stakingTxHex ≠ some hash := by
  simp [pendingOf, stakes]

/-- The delegation and what is reported before it. -/
theorem eq_append_of_pendingOf (h : pendingOf lib hash rs = some r) :
    ∃ behind, rs = aheadOf lib hash rs ++ r :: behind := by
  induction rs with
  | nil => cases h
  | cons x rs ih =>
    cases hx : stakes lib hash x with
    | true =>
      obtain ⟨hpending, hahead⟩ := pendingOf_cons_of_stakes hx rs
      rw [hpending] at h
      cases h
      exact ⟨rs, by rw [hahead]; rfl⟩
    | false =>
      obtain ⟨hpending, hahead⟩ := pendingOf_cons_of_not hx rs
      rw [hpending] at h
      obtain ⟨behind, hbehind⟩ := ih h
      refine ⟨behind, ?_⟩
      rw [hahead, List.cons_append, ← hbehind]

theorem mem_of_pendingOf (h : pendingOf lib hash rs = some r) : r ∈ rs :=
  List.mem_of_find?_eq_some h

theorem Shifts.refl (lib : BabylonLib) (hash : Hash) (rs : List BTCDelegationResponse) :
    Shifts lib hash rs rs := by
  intro r' hr'
  refine ⟨r', hr', .refl r', ?_⟩
  exact List.sublistForall₂_iff.mpr
    ⟨aheadOf lib hash rs, List.forall₂_same.mpr fun x _ => Grown.refl x, .refl _⟩

theorem shifts_cons (hgrown : Grown r r') (h : Shifts lib hash rs rs') :
    Shifts lib hash (r :: rs) (r' :: rs') := by
  intro x' hx'
  cases hr : stakes lib hash r with
  | true =>
    have hr' : stakes lib hash r' = true := hgrown.stakes.trans hr
    obtain ⟨hpending', hahead'⟩ := pendingOf_cons_of_stakes hr' rs'
    rw [hpending'] at hx'
    cases hx'
    refine ⟨r, (pendingOf_cons_of_stakes hr rs).1, hgrown, ?_⟩
    rw [hahead']
    exact .nil
  | false =>
    have hr' : stakes lib hash r' = false := hgrown.stakes.trans hr
    obtain ⟨hpending', hahead'⟩ := pendingOf_cons_of_not hr' rs'
    obtain ⟨hpending, hahead⟩ := pendingOf_cons_of_not hr rs
    rw [hpending'] at hx'
    obtain ⟨x, hx, hgrown', hrest⟩ := h x' hx'
    refine ⟨x, hpending.trans hx, hgrown', ?_⟩
    rw [hahead, hahead']
    exact .cons hgrown hrest

/-- A delegation that was not pending has not become so by signatures. -/
theorem Takes.pendingOf_none (h : Takes lib pk hashes rs rs')
    (hnone : pendingOf lib hash rs = none) : pendingOf lib hash rs' = none := by
  rw [pendingOf_eq_none] at hnone ⊢
  intro r' hr'
  have hmem : r'.stakingTxHex ∈ rs.map (·.stakingTxHex) :=
    h.sublist.subset (List.mem_map_of_mem hr')
  obtain ⟨r, hr, heq⟩ := List.mem_map.mp hmem
  rw [← heq]
  exact hnone r hr

/-- The signatures of one key shift the pending delegations. -/
theorem Takes.shifts (h : Takes lib pk hashes rs rs')
    (hdistinct : (rs.map (·.stakingTxHex)).Pairwise (Apart lib)) : Shifts lib hash rs rs' := by
  induction h with
  | nil => exact .refl _ _ _
  | @other r rs rs' _ hrest ih =>
    rw [List.map_cons, List.pairwise_cons] at hdistinct
    exact shifts_cons (.refl r) (ih hdistinct.2)
  | @signed r r' rs rs' _ hgrown _ _ hrest ih =>
    rw [List.map_cons, List.pairwise_cons] at hdistinct
    exact shifts_cons hgrown (ih hdistinct.2)
  | @left r rs rs' _ hrest ih =>
    rw [List.map_cons, List.pairwise_cons] at hdistinct
    intro r' hr'
    cases hr : stakes lib hash r with
    | true =>
      have hnone : pendingOf lib hash rs = none := by
        refine pendingOf_eq_none.mpr fun x hx => ?_
        exact hdistinct.1 _ (List.mem_map_of_mem hx) hash (stakes_iff.mp hr)
      rw [hrest.pendingOf_none hnone] at hr'
      cases hr'
    | false =>
      obtain ⟨x, hx, hgrown, hahead⟩ := ih hdistinct.2 r' hr'
      obtain ⟨hpending, hcons⟩ := pendingOf_cons_of_not hr rs
      exact ⟨x, hpending.trans hx, hgrown, by rw [hcons]; exact .cons_right hahead⟩

end

section
variable {σ : Type} {ce : Emulator σ} {w : World σ} {rs rs' : List BTCDelegationResponse}
  {r : BTCDelegationResponse}

theorem waiting_cons_none (h : ce.waits w r = none) :
    ce.waiting w (r :: rs) = ce.waiting w rs := by
  rw [Emulator.waiting, List.filterMap_cons, h]
  rfl

theorem waiting_cons_some {d : Delegation} (h : ce.waits w r = some d) :
    ce.waiting w (r :: rs) = d :: ce.waiting w rs := by
  rw [Emulator.waiting, List.filterMap_cons, h]
  rfl

/-- What waits, signatures apart, only becomes less. -/
theorem waiting_bare_sublist (hopen : ∀ r ∈ rs, ¬ Blocks ce w r)
    (h : List.SublistForall₂ (fun x' x => Grown x x') rs' rs) :
    ((ce.waiting w rs').map (·.bare)).Sublist ((ce.waiting w rs).map (·.bare)) := by
  induction h with
  | nil => exact List.nil_sublist _
  | @cons x' x rs' rs hgrown _ ih =>
    have hrest := ih fun r hr => hopen r (List.mem_cons_of_mem _ hr)
    cases hx' : ce.waits w x' with
    | none =>
      rw [waiting_cons_none hx']
      cases hx : ce.waits w x with
      | none =>
        rw [waiting_cons_none hx]
        exact hrest
      | some d =>
        rw [waiting_cons_some hx]
        exact hrest.cons _
    | some d' =>
      obtain ⟨d, hx, hbare⟩ := hgrown.waits (hopen x List.mem_cons_self) hx'
      rw [waiting_cons_some hx', waiting_cons_some hx, List.map_cons, List.map_cons, hbare]
      exact hrest.cons_cons _
  | @cons_right x rs' rs _ ih =>
    have hrest := ih fun r hr => hopen r (List.mem_cons_of_mem _ hr)
    cases hx : ce.waits w x with
    | none =>
      rw [waiting_cons_none hx]
      exact hrest
    | some d =>
      rw [waiting_cons_some hx]
      exact hrest.cons _

end

end CovenantEmulator
