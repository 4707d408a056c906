import CovenantEmulator.Covenant.Emulator

/-! What the filter of a tick has established about the delegations it lets through. -/
namespace CovenantEmulator

open Golang

/-- The key, up to parity, is one of the committee's. -/
def InCommittee (P : StakingParams) (pk : PublicKey) : Prop :=
  ∃ k ∈ P.covenantPks, serializePubKey k = serializePubKey pk

/-- The chain has answered this hash with this delegation. -/
def Answered {σ : Type} (cc : ClientController σ) (hash : String) (del : Delegation) : Prop :=
  ∃ s s', cc.queryBTCDelegation hash s = (.ok del, s')

/-- The previous delegation of a stake expansion that the filter approved. -/
structure ApprovedPrev {σ : Type} (ce : Emulator σ) (cache : UInt32 → Option StakingParams)
    (hash : String) (prevDel : Delegation) : Prop where
  answered : Answered ce.cc hash prevDel
  hashes : ∃ tx, ce.lib.newBTCTxFromHex prevDel.stakingTxHex = .ok tx ∧
    ce.lib.hashString (ce.lib.txHash tx) = hash
  committee : ∃ P, cache prevDel.paramsVersion = some P ∧ InCommittee P ce.pk

structure Accepted {σ : Type} (ce : Emulator σ) (cache : UInt32 → Option StakingParams)
    (d : Delegation) : Prop where
  unsigned : alreadySigned (serializePubKey ce.pk) d = false
  committee : ∃ P, cache d.paramsVersion = some P ∧ InCommittee P ce.pk
  previous : ∀ exp, d.stakeExpansion = some exp →
    ∃ prevDel, ApprovedPrev ce cache exp.previousStakingTxHashHex prevDel

section
variable {σ : Type} {lib : BabylonLib} {cc : ClientController σ} {ce : Emulator σ}
  {R : σ → σ → Prop} {w w' : World σ} {d : Delegation}

theorem Accepted.mono {cache cache' : UInt32 → Option StakingParams} (h : Accepted ce cache d)
    (hcache : ∀ {v P}, cache v = some P → cache' v = some P) : Accepted ce cache' d := by
  obtain ⟨P, hP, hin⟩ := h.committee
  refine ⟨h.unsigned, ⟨P, hcache hP, hin⟩, fun exp hexp => ?_⟩
  obtain ⟨prevDel, hprev⟩ := h.previous exp hexp
  obtain ⟨P', hP', hin'⟩ := hprev.committee
  exact ⟨prevDel, hprev.answered, hprev.hashes, P', hcache hP', hin'⟩

theorem isKeyInCommittee_spec (retry : ParamsRetry σ) (hR : Respects cc R) (pk : PublicKey)
    (d : Delegation) (w : World σ) :
    Triple (isKeyInCommittee retry cc (serializePubKey pk) d) w
      (fun b w' => Quiet R w w' ∧
        (b = true → ∃ P, w'.paramsByVersion d.paramsVersion = some P ∧ InCommittee P pk))
      (fun w' => Quiet R w w') := by
  refine Triple.bind (Triple.wrap (paramsGet_spec hR _ w)) ?_
  rintro P w' ⟨hq, hP⟩
  refine Triple.pure ⟨hq, fun hb => ⟨P, hP, ?_⟩⟩
  simpa [InCommittee] using hb

theorem validateStakeExpansion_spec (hR : Respects ce.cc R) {exp : DelegationStakeExpansion}
    (hexp : d.stakeExpansion = some exp) {prevDel : Delegation}
    (hans : Answered ce.cc exp.previousStakingTxHashHex prevDel) (w : World σ) :
    Triple (validateStakeExpansion ce.lib ce.retry ce.cc (serializePubKey ce.pk) d (some prevDel)) w
      (fun b w' => Quiet R w w' ∧ (b = true →
        ApprovedPrev ce w'.paramsByVersion exp.previousStakingTxHashHex prevDel))
      (fun w' => Quiet R w w') := by
  have hrefl := Quiet.refl hR w
  refine Triple.bind (Q := fun tx w' => w = w' ∧
    ce.lib.newBTCTxFromHex prevDel.stakingTxHex = .ok tx) (Triple.wrap (Triple.lift ?_ hrefl)) ?_
  · exact fun tx htx => ⟨rfl, Outcome.ofExcept_eq_ok.mp htx⟩
  rintro tx _ ⟨rfl, htx⟩
  refine Triple.bind (Q := fun e w' => w = w' ∧ exp = e) (Triple.lift ?_ hrefl) ?_
  · intro e he
    rw [hexp] at he
    cases he
    exact ⟨rfl, rfl⟩
  rintro _ _ ⟨rfl, rfl⟩
  split
  · exact Triple.fail hrefl
  · rename_i hhash
    refine Triple.wrap ((isKeyInCommittee_spec ce.retry hR ce.pk prevDel w).mono ?_ fun _ h => h)
    exact fun b w' h => ⟨h.1, fun hb => ⟨hans, ⟨tx, htx, not_not.mp hhash⟩, h.2 hb⟩⟩

theorem queryPrevDel_spec (hR : Respects ce.cc R) (d : Delegation) (w : World σ) :
    Triple (ce.queryPrevDel d) w
      (fun prevDel w' => Quiet R w w' ∧ ∀ exp, d.stakeExpansion = some exp →
        ∃ prev, prevDel = some prev ∧ Answered ce.cc exp.previousStakingTxHashHex prev)
      (fun w' => Quiet R w w') := by
  unfold Emulator.queryPrevDel
  cases hexp : d.stakeExpansion with
  | none => exact Triple.pure ⟨Quiet.refl hR w, by simp⟩
  | some exp =>
    refine Triple.bind (Triple.wrap (onEnv_spec w (hR.delegation _))) ?_
    rintro prev w' ⟨hq, hans⟩
    refine Triple.pure ⟨hq, ?_⟩
    rintro _ ⟨rfl⟩
    exact ⟨prev, rfl, _, _, hans⟩

/-- The filter queries quietly, and what it accepts is `Accepted`. -/
theorem acceptDelegationToSign_spec (hR : Respects ce.cc R) (d : Delegation) (w : World σ) :
    Triple (ce.acceptDelegationToSign d) w
      (fun b w' => Quiet R w w' ∧ (b = true → Accepted ce w'.paramsByVersion d))
      (fun w' => Quiet R w w') := by
  refine Triple.bind (queryPrevDel_spec hR d w) ?_
  rintro prevDel w₁ ⟨hq₁, hprev⟩
  unfold acceptDelegationToSign
  cases hsigned : alreadySigned (serializePubKey ce.pk) d with
  | true => exact Triple.pure ⟨hq₁, by simp⟩
  | false =>
    have hcommittee := (isKeyInCommittee_spec ce.retry hR ce.pk d w₁).mono
      (fun _ _ h => And.intro (hq₁.trans hR h.1) h.2) fun _ h => hq₁.trans hR h
    refine Triple.bind (Triple.wrap hcommittee) ?_
    rintro isIn w₂ ⟨hq₂, hin⟩
    cases isIn with
    | false => exact Triple.pure ⟨hq₂, by simp⟩
    | true =>
      obtain ⟨P, hP, hkey⟩ := hin rfl
      unfold Delegation.isStakeExpansion
      cases hexp : d.stakeExpansion with
      | none => exact Triple.pure ⟨hq₂, fun _ => ⟨hsigned, ⟨P, hP, hkey⟩, by simp [hexp]⟩⟩
      | some exp =>
        obtain ⟨prev, rfl, hans⟩ := hprev exp hexp
        refine (validateStakeExpansion_spec hR hexp hans w₂).mono ?_ fun _ h => hq₂.trans hR h
        rintro b w₃ ⟨hq₃, happr⟩
        refine ⟨hq₂.trans hR hq₃, fun hb => ⟨hsigned, ⟨P, hq₃.cache hP, hkey⟩, ?_⟩⟩
        intro exp' hexp'
        obtain rfl : exp = exp' := by simpa [hexp] using hexp'
        exact ⟨prev, happr hb⟩

/-- The pending delegations of a tick were all accepted, and each comes from a response the
chain gave during the query. -/
theorem queryPendingDelegations_spec (hR : Respects ce.cc R) (w : World σ) (fuel : Nat)
    {B : BTCDelegationResponse → Prop}
    (hB : ∀ req s page s', R w.env s → ce.cc.btcDelegations .pending req s = (.ok page, s') →
      ∀ r ∈ page.btcDelegations, B r) :
    Triple (ce.queryPendingDelegations fuel) w
      (fun dels w' => Quiet R w w' ∧ ∀ d ∈ dels, Accepted ce w'.paramsByVersion d ∧
        ∃ r, B r ∧ delegationRespToDelegation ce.lib r = .ok d)
      (fun w' => Quiet R w w') := by
  refine Triple.bind (Q := fun dels w' => w = w' ∧ dels = [])
    (Triple.lift (fun dels h => ⟨rfl, (Outcome.makeSlice_eq_ok.mp h).2⟩) (Quiet.refl hR w)) ?_
  rintro _ _ ⟨rfl, rfl⟩
  refine queryLoop_spec (B := B) ?_ ?_ (Quiet.refl hR w) (by simp)
  · intro r d w₁ hr hd hq₁
    refine (acceptDelegationToSign_spec hR d w₁).mono ?_ fun _ h => hq₁.trans hR h
    rintro b w₂ ⟨hq₂, hacc⟩
    refine ⟨hq₁.trans hR hq₂, fun d' h => ⟨h.1.mono hq₂.cache, h.2⟩, fun hb => ?_⟩
    exact ⟨hacc hb, r, hr, hd⟩
  · intro req w₁ hq₁
    refine (onEnv_spec w₁ (hR.pages .pending req)).mono ?_ fun _ h => hq₁.trans hR h
    rintro page w₂ ⟨hq₂, hpage⟩
    exact ⟨hq₁.trans hR hq₂, fun d h => ⟨h.1.mono hq₂.cache, h.2⟩, hB req _ page _ hq₁.env hpage⟩

end

end CovenantEmulator
