import CovenantEmulator.Sample

/-! Which signatures a delegation skipped as fulfilled already has. -/
namespace CovenantEmulator

open Golang

/-- How many signatures of each kind there are for a delegation. -/
structure SigCounts where
  slashing : ℕ
  unbonding : ℕ
  unbondingSlashing : ℕ

/-- All three kinds reach the quorum. -/
def SigCounts.Quorum (c : SigCounts) (quorum : UInt32) : Prop :=
  quorum.toNat ≤ c.slashing ∧ quorum.toNat ≤ c.unbonding ∧ quorum.toNat ≤ c.unbondingSlashing

/-- Only the signatures on the slashing of the unbonding are too few. -/
def SigCounts.LacksUnbondingSlashing (c : SigCounts) (quorum : UInt32) : Prop :=
  quorum.toNat ≤ c.slashing ∧ quorum.toNat ≤ c.unbonding ∧ c.unbondingSlashing < quorum.toNat

def Delegation.sigCounts (d : Delegation) (ud : Undelegation) : SigCounts :=
  ⟨d.covenantSigs.length, ud.covenantUnbondingSigs.length, ud.covenantSlashingSigs.length⟩

/-- What the chain holds. -/
def BTCDelegationResponse.sigCounts (r : BTCDelegationResponse) (undel : BTCUndelegationResponse) :
    SigCounts :=
  ⟨r.covenantSigs.length, undel.covenantUnbondingSigList.length,
    undel.covenantSlashingSigs.length⟩

/-- The line logged for a delegation that needs no more signatures. -/
def fulfilled : String := "covenant signatures already fulfilled"

/-- The loop over the delegations comes to `d`, in the state `wd`. -/
def Emulator.Reaches {σ : Type} (ce : Emulator σ) (w : World σ) (btcDels : List (Option Delegation))
    (d : Delegation) (wd : World σ) : Prop :=
  ∃ before after sigs, btcDels = before ++ some d :: after ∧
    ce.collectSigs before w = (.ok sigs, wd)

section
variable {d : Delegation} {ud : Undelegation} {quorum : UInt32}

theorem hasCovenantQuorum_eq_true (hud : d.btcUndelegation = some ud) :
    d.hasCovenantQuorum quorum = .ok true ↔
      quorum.toNat ≤ d.covenantSigs.length ∧ quorum.toNat ≤ ud.covenantUnbondingSigs.length := by
  rw [Delegation.hasCovenantQuorum_of_undelegation hud]
  simp [Undelegation.hasAllSignatures, Undelegation.hasCovenantQuorumOnSlashing,
    Undelegation.hasCovenantQuorumOnUnbonding]

/-- The check misses one of three counts. -/
theorem quorum_iff_of_two (c : SigCounts) (quorum : UInt32) :
    ((quorum.toNat ≤ c.slashing ∧ quorum.toNat ≤ c.unbonding) ↔ c.Quorum quorum) ↔
      ¬ c.LacksUnbondingSlashing quorum := by
  unfold SigCounts.Quorum SigCounts.LacksUnbondingSlashing
  omega

end

section
variable {lib : BabylonLib} {d : Delegation} {P : StakingParams} {net : NetParams}

/-- The other lines of the loop start with other words. -/
theorem generateSigningRequest_ne_fulfilled :
    generateSigningRequest lib d P net ≠ .error fulfilled := by
  intro h
  rcases Outcome.bind_eq_error.mp h with h | ⟨⟨stakingTx, slashingTx⟩, -, h⟩
  · exact Outcome.wrap_ne_error (by decide) _ h
  rcases Outcome.bind_eq_error.mp h with h | ⟨⟨unbondingTx, slashUnbondingTx⟩, -, h⟩
  · exact Outcome.wrap_ne_error (by decide) _ h
  rcases Outcome.bind_eq_error.mp h with h | ⟨stakingOutput, -, h⟩
  · exact Outcome.index_ne_error h
  rcases Outcome.bind_eq_error.mp h with h | ⟨unbondingOutput, -, h⟩
  · exact Outcome.index_ne_error h
  split at h
  · revert h
    decide
  rcases Outcome.bind_eq_error.mp h with h | ⟨keys, -, h⟩
  · exact Outcome.wrap_ne_error (by decide) _ h
  rcases Outcome.bind_eq_error.mp h with h | ⟨⟨slash, unbond, unbondSlash⟩, -, h⟩
  · exact Outcome.wrap_ne_error (by decide) _ h
  cases h

theorem checkDelegation_fulfilled :
    checkDelegation lib d P net = .error fulfilled ↔
      d.hasCovenantQuorum P.covenantQuorum = .ok true := by
  unfold checkDelegation
  constructor
  · intro h
    rcases Outcome.bind_eq_error.mp h with h | ⟨hasQuorum, hquorum, h⟩
    · exact absurd h (d.hasCovenantQuorum_ne_error P.covenantQuorum _)
    cases hasQuorum with
    | true => exact hquorum
    | false =>
      exfalso
      simp only [Bool.false_eq_true, if_false] at h
      split at h
      · revert h
        decide
      rcases Outcome.bind_eq_error.mp h with h | ⟨stakingTime, -, h⟩
      · exact d.getStakingTime_ne_error _ h
      split at h
      · revert h
        decide
      split at h
      · revert h
        decide
      exact generateSigningRequest_ne_fulfilled h
  · intro h
    rw [h]
    rfl

end

section
variable {σ : Type} {ce : Emulator σ} {d : Delegation} {ud : Undelegation} {P : StakingParams}
  {w w' w₁ : World σ}

theorem withStakeExp_ne_fulfilled {req : SigningRequest} :
    ce.withStakeExp d req w ≠ (.error fulfilled, w') := by
  unfold Emulator.withStakeExp
  split
  · intro h
    rcases Go.bind_eq_error.mp h with h | ⟨stk, w₂, -, h⟩
    · exact Go.wrap_ne_error (by decide) h
    · cases h
  · intro h
    cases h

theorem signTransactions_ne_fulfilled {req : SigningRequest} :
    ce.signTransactions d req w ≠ (.error fulfilled, w') := by
  intro h
  rcases Go.bind_eq_error.mp h with h | ⟨_, w₂, -, h⟩
  · cases h
  · exact Go.wrap_ne_error (by decide) h

theorem signDelegation_fulfilled :
    ce.signDelegation d P w = (.error fulfilled, w') →
      d.hasCovenantQuorum P.covenantQuorum = .ok true := by
  intro h
  rcases Go.bind_eq_error.mp h with h | ⟨req, w₂, -, h⟩
  · exact checkDelegation_fulfilled.mp (congrArg Prod.fst h)
  rcases Go.bind_eq_error.mp h with h | ⟨req', w₃, -, h⟩
  · exact (withStakeExp_ne_fulfilled h).elim
  rcases Go.bind_eq_error.mp h with h | ⟨resp, w₄, -, h⟩
  · exact (signTransactions_ne_fulfilled h).elim
  · cases h

/-- The loop logs the line exactly when the check passes. -/
theorem addCovenantSignature_fulfilled (hud : d.btcUndelegation = some ud)
    (hP : paramsGet ce.retry ce.cc d.paramsVersion w = (.ok P, w₁)) :
    (ce.addCovenantSignature (some d) w).1 = .ok (.error fulfilled) ↔
      d.hasCovenantQuorum P.covenantQuorum = .ok true := by
  rw [ce.addCovenantSignature_some hud, Go.bind_of_ok (Go.wrap_eq_ok.mpr hP), Go.attempt_apply]
  constructor
  · intro h
    rcases hrun : ce.signDelegation d P w₁ with ⟨entry | e | p | _, w₂⟩ <;> rw [hrun] at h
    · cases h
    · obtain rfl : e = fulfilled := by simpa [Outcome.attempt] using h
      exact signDelegation_fulfilled hrun
    · cases h
    · cases h
  · intro h
    have hcheck : checkDelegation ce.lib d P ce.btcNetParams = .error fulfilled :=
      checkDelegation_fulfilled.mpr h
    have hrun : ce.signDelegation d P w₁ = (.error fulfilled, w₁) :=
      Go.bind_eq_error.mpr (Or.inl (by rw [Go.lift_apply, hcheck]))
    rw [hrun]
    rfl

/-- The conversion keeps the number of signatures of each kind. -/
theorem ConvertsTo.sigCounts_eq {lib : BabylonLib} {r : BTCDelegationResponse}
    {undel : BTCUndelegationResponse} (h : ConvertsTo lib r d)
    (hundel : r.undelegationResponse = some undel) :
    ∃ ud, d.btcUndelegation = some ud ∧ d.sigCounts ud = r.sigCounts undel := by
  have hsigs := (Outcome.mapM_eq_ok.mp h.covenantSigs).length_eq
  have hud := h.btcUndelegation
  rw [hundel] at hud
  obtain ⟨ud, hconv, heq⟩ := Outcome.bind_eq_ok.mp hud
  refine ⟨ud, (Outcome.ok.inj heq).symm, ?_⟩
  unfold undelegationRespToUndelegation at hconv
  split at hconv
  · cases hconv
  split at hconv
  · cases hconv
  obtain ⟨unbonding, hunbonding, hconv⟩ := Outcome.bind_eq_ok.mp hconv
  obtain ⟨slashing, hslashing, hconv⟩ := Outcome.bind_eq_ok.mp hconv
  cases hconv
  have hunb := (Outcome.mapM_eq_ok.mp hunbonding).length_eq
  have hslash := (Outcome.mapM_eq_ok.mp hslashing).length_eq
  simp only [Delegation.sigCounts, BTCDelegationResponse.sigCounts, hsigs, hunb, hslash]

/-- A delegation counts as fulfilled with a quorum of all three kinds, unless the signatures on
the slashing of the unbonding are the only ones too few: they are never counted. -/
theorem fulfilled_counts_all_iff (ce : Emulator σ) :
    (∀ (d : Delegation) (ud : Undelegation) (quorum : UInt32), d.btcUndelegation = some ud →
      ((d.hasCovenantQuorum quorum = .ok true ↔ (d.sigCounts ud).Quorum quorum) ↔
        ¬ (d.sigCounts ud).LacksUnbondingSlashing quorum)) ∧
    ∀ (r : BTCDelegationResponse) (undel : BTCUndelegationResponse) (d : Delegation)
      (btcDels : List (Option Delegation)) (P : StakingParams) (w wd w₁ : World σ),
      delegationRespToDelegation ce.lib r = .ok d → r.undelegationResponse = some undel →
      ce.Reaches w btcDels d wd → paramsGet ce.retry ce.cc d.paramsVersion wd = (.ok P, w₁) →
      (((ce.addCovenantSignature (some d) wd).1 = .ok (.error fulfilled) →
          (r.sigCounts undel).Quorum P.covenantQuorum) ↔
        ¬ (r.sigCounts undel).LacksUnbondingSlashing P.covenantQuorum) := by
  constructor
  · intro d ud quorum hud
    rw [hasCovenantQuorum_eq_true hud]
    exact quorum_iff_of_two (d.sigCounts ud) quorum
  · intro r undel d btcDels P w wd w₁ hconv hundel _ hP
    obtain ⟨ud, hud, hcounts⟩ :=
      (convertsTo_of_delegationRespToDelegation hconv).sigCounts_eq hundel
    rw [addCovenantSignature_fulfilled hud hP, hasCovenantQuorum_eq_true hud, ← hcounts,
      ← quorum_iff_of_two]
    have hfewer : (d.sigCounts ud).Quorum P.covenantQuorum →
        P.covenantQuorum.toNat ≤ d.covenantSigs.length ∧
          P.covenantQuorum.toNat ≤ ud.covenantUnbondingSigs.length := fun h => ⟨h.1, h.2.1⟩
    exact ⟨fun h => ⟨h, hfewer⟩, fun h => h.mp⟩

end

namespace Sample

/-- The signature of one member of the committee, as the chain reports it. -/
def memberSig (pk : PublicKey) : CovenantAdaptorSignatures := ⟨serializePubKey pk, adaptorSigs⟩

/-- Two members signed the slashing and the unbonding, none the slashing of the unbonding. -/
def unevenUndelegation : BTCUndelegationResponse where
  unbondingTxHex := txHex unbondingTx
  covenantUnbondingSigList :=
    [⟨serializePubKey (key 4), List.replicate 64 2⟩, ⟨serializePubKey (key 6), List.replicate 64 2⟩]
  slashingTxHex := txHex slashUnbondingTx
  covenantSlashingSigs := []
  delegatorUnbondingInfo := none

def unevenResponse : BTCDelegationResponse :=
  { plainResponse [memberSig (key 4), memberSig (key 6)] with
    undelegationResponse := some unevenUndelegation }

def unevenDelegation : Delegation :=
  { plainDelegation with
    covenantSigs := [⟨key 4, adaptorSigs⟩, ⟨key 6, adaptorSigs⟩]
    btcUndelegation := some
      { unbondingTxHex := txHex unbondingTx
        slashingTxHex := txHex slashUnbondingTx
        covenantSlashingSigs := []
        covenantUnbondingSigs :=
          [⟨key 4, ⟨List.replicate 64 2⟩⟩, ⟨key 6, ⟨List.replicate 64 2⟩⟩]
        spendStakeTxHex := "" } }

theorem delegationRespToDelegation_uneven :
    delegationRespToDelegation lib unevenResponse = .ok unevenDelegation := by
  have hplain := convertsTo_of_delegationRespToDelegation delegationRespToDelegation_plain
  have hkey : ∀ x, lib.mustToBTCPK (serializePubKey (key x)) = .ok (key x) := fun x =>
    BabylonLib.mustToBTCPK_serializePubKey (table_liftsToEven table (key x))
  refine delegationRespToDelegation_of_convertsTo { hplain with
    covenantSigs := ?_
    btcUndelegation := ?_ }
  · rfl
  · simp only [unevenResponse, unevenUndelegation, undelegationOf, undelegationRespToUndelegation,
      txHex_ne_empty, if_false, List.mapM_cons, List.mapM_nil, unbondingSigInfo, hkey]
    rfl

/-- It is skipped as fulfilled without one signature on the slashing of its unbonding. -/
theorem uneven_skipped_as_fulfilled :
    delegationRespToDelegation lib unevenResponse = .ok unevenDelegation ∧
      unevenResponse.undelegationResponse = some unevenUndelegation ∧
      unevenDelegation.hasCovenantQuorum 2 = .ok true ∧
      ((emulator (node []) signer).addCovenantSignature (some unevenDelegation)
        (world () 10000)).1 = .ok (.error fulfilled) ∧
      ¬ (unevenResponse.sigCounts unevenUndelegation).Quorum 2 := by
  have hquorum : unevenDelegation.hasCovenantQuorum 2 = .ok true := rfl
  have hP : paramsGet .loop (node []) unevenDelegation.paramsVersion
      (world () 10000) = (.ok (params 10000), world () 10000) := rfl
  refine ⟨delegationRespToDelegation_uneven, rfl, hquorum, ?_, ?_⟩
  · exact (addCovenantSignature_fulfilled rfl hP).mpr hquorum
  · rintro ⟨-, -, hslashing⟩
    revert hslashing
    decide

/-- The same two members signed the slashing of the unbonding as well. -/
def evenUndelegation : BTCUndelegationResponse :=
  { unevenUndelegation with covenantSlashingSigs := [memberSig (key 4), memberSig (key 6)] }

def evenResponse : BTCDelegationResponse :=
  { unevenResponse with undelegationResponse := some evenUndelegation }

def evenDelegation : Delegation :=
  { unevenDelegation with
    btcUndelegation := some
      { unbondingTxHex := txHex unbondingTx
        slashingTxHex := txHex slashUnbondingTx
        covenantSlashingSigs := [⟨key 4, adaptorSigs⟩, ⟨key 6, adaptorSigs⟩]
        covenantUnbondingSigs :=
          [⟨key 4, ⟨List.replicate 64 2⟩⟩, ⟨key 6, ⟨List.replicate 64 2⟩⟩]
        spendStakeTxHex := "" } }

theorem delegationRespToDelegation_even :
    delegationRespToDelegation lib evenResponse = .ok evenDelegation := by
  have huneven := convertsTo_of_delegationRespToDelegation delegationRespToDelegation_uneven
  have hkey : ∀ x, lib.mustToBTCPK (serializePubKey (key x)) = .ok (key x) := fun x =>
    BabylonLib.mustToBTCPK_serializePubKey (table_liftsToEven table (key x))
  refine delegationRespToDelegation_of_convertsTo { huneven with btcUndelegation := ?_ }
  simp only [evenResponse, evenUndelegation, unevenUndelegation, undelegationOf,
    undelegationRespToUndelegation, txHex_ne_empty, if_false, List.mapM_cons, List.mapM_nil,
    unbondingSigInfo, covenantSigInfo, memberSig, hkey]
  rfl

/-- With two signatures of each kind it is skipped as fulfilled, and it is. -/
theorem even_skipped_as_fulfilled :
    (evenDelegation.hasCovenantQuorum 2 = .ok true ↔
        (evenResponse.sigCounts evenUndelegation).Quorum 2) ∧
      ((emulator (node []) signer).addCovenantSignature (some evenDelegation)
        (world () 10000)).1 = .ok (.error fulfilled) ∧
      (evenResponse.sigCounts evenUndelegation).Quorum 2 := by
  obtain ⟨hcounts, hskip⟩ := fulfilled_counts_all_iff (emulator (node []) signer)
  have hreached : (emulator (node []) signer).Reaches (world () 10000) [some evenDelegation]
      evenDelegation (world () 10000) := ⟨[], [], [], rfl, rfl⟩
  have henough : ¬ (evenResponse.sigCounts evenUndelegation).LacksUnbondingSlashing 2 := by
    rintro ⟨-, -, h⟩
    exact absurd h (by decide)
  have hP : paramsGet .loop (node []) evenDelegation.paramsVersion
      (world () 10000) = (.ok (params 10000), world () 10000) := rfl
  have hskipped : ((emulator (node []) signer).addCovenantSignature (some evenDelegation)
      (world () 10000)).1 = .ok (.error fulfilled) :=
    (addCovenantSignature_fulfilled rfl hP).mpr rfl
  refine ⟨(hcounts evenDelegation _ 2 rfl).mpr henough, hskipped, ?_⟩
  exact (hskip evenResponse _ evenDelegation _ (params 10000) _ _ _
    delegationRespToDelegation_even rfl hreached hP).mpr henough hskipped

end Sample

end CovenantEmulator
