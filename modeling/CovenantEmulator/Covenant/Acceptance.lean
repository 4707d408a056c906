import CovenantEmulator.Covenant.CacheRuns
import CovenantEmulator.Sample

/-! Exactly which delegations `AcceptDelegationToSign` accepts, whatever the parity of the keys. -/
namespace CovenantEmulator

open Golang

/-- One of the keys has the x coordinate of `pk`. -/
def HasX (keys : List PublicKey) (pk : PublicKey) : Prop := ∃ k ∈ keys, k.x = pk.x

/-- No signature of the delegation is by a key with the x coordinate of `pk`. -/
def Unsigned (pk : PublicKey) (del : Delegation) : Prop :=
  ∀ covSig ∈ del.covenantSigs, covSig.pk.x ≠ pk.x

section
variable {σ : Type} (lib : BabylonLib) (retry : ParamsRetry σ) (cc : ClientController σ)
  (pk : PublicKey)

/-- The parameters of the version are available and their committee has the key. -/
def CommitteeHas (version : UInt32) (w w' : World σ) : Prop :=
  ∃ P, paramsGet retry cc version w = (.ok P, w') ∧ HasX P.covenantPks pk

/-- The staking transaction of the delegation decodes and has this hash string. -/
def StakesAs (prevDel : Delegation) (hash : String) : Prop :=
  ∃ tx, lib.newBTCTxFromHex prevDel.stakingTxHex = .ok tx ∧ lib.hashString (lib.txHash tx) = hash

/-- The previous delegation of a stake expansion is the one it names, and its committee had the
key. -/
def PreviousFits (exp : DelegationStakeExpansion) (prevDel : Option Delegation) (w : World σ) :
    Prop :=
  ∃ prev w', prevDel = some prev ∧ StakesAs lib prev exp.previousStakingTxHashHex ∧
    CommitteeHas retry cc pk prev.paramsVersion w w'

structure ToBeAccepted (del : Delegation) (prevDel : Option Delegation) (w : World σ) : Prop where
  unsigned : Unsigned pk del
  committee : ∃ w', CommitteeHas retry cc pk del.paramsVersion w w' ∧
    ∀ exp, del.stakeExpansion = some exp → PreviousFits lib retry cc pk exp prevDel w'

/-- What keeps the previous delegation of a stake expansion from being judged. -/
inductive PreviousUnknown (exp : DelegationStakeExpansion) (w : World σ) :
    Option Delegation → Prop
  | missing : PreviousUnknown exp w none
  | undecodable {prev e} (h : lib.newBTCTxFromHex prev.stakingTxHex = .error e) :
    PreviousUnknown exp w (some prev)
  | mismatching {prev tx} (h : lib.newBTCTxFromHex prev.stakingTxHex = .ok tx)
    (hne : lib.hashString (lib.txHash tx) ≠ exp.previousStakingTxHashHex) :
    PreviousUnknown exp w (some prev)
  | noParams {prev} (h : StakesAs lib prev exp.previousStakingTxHashHex)
    (hfail : (paramsGet retry cc prev.paramsVersion w).1.Fails) : PreviousUnknown exp w (some prev)

/-- When an error is returned: each cause after the rejections that come before it. -/
structure Undecided (del : Delegation) (prevDel : Option Delegation) (w : World σ) : Prop where
  unsigned : Unsigned pk del
  cause : (paramsGet retry cc del.paramsVersion w).1.Fails ∨
    ∃ w' exp, CommitteeHas retry cc pk del.paramsVersion w w' ∧ del.stakeExpansion = some exp ∧
      PreviousUnknown lib retry cc exp w' prevDel

end

section
variable {σ : Type} {lib : BabylonLib} {retry : ParamsRetry σ} {cc : ClientController σ}
  {pk : PublicKey} {del : Delegation} {prevDel : Option Delegation} {w w' : World σ}

theorem alreadySigned_eq_false :
    alreadySigned (serializePubKey pk) del = false ↔ Unsigned pk del := by
  simp [alreadySigned, Unsigned, serializePubKey_inj]

theorem isKeyInCommittee_eq_ok {b : Bool} :
    isKeyInCommittee retry cc (serializePubKey pk) del w = (.ok b, w') ↔
      ∃ P, paramsGet retry cc del.paramsVersion w = (.ok P, w') ∧
        (b = true ↔ HasX P.covenantPks pk) := by
  unfold isKeyInCommittee
  simp only [Go.bind_eq_ok, Go.wrap_eq_ok, Go.pure_eq_ok]
  constructor
  · rintro ⟨P, w₁, hP, rfl, rfl⟩
    exact ⟨P, hP, by simp [HasX, serializePubKey_inj]⟩
  · rintro ⟨P, hP, hb⟩
    refine ⟨P, w', hP, ?_, rfl⟩
    rw [Bool.eq_iff_iff, hb]
    simp [HasX, serializePubKey_inj]

theorem isKeyInCommittee_eq_true :
    isKeyInCommittee retry cc (serializePubKey pk) del w = (.ok true, w') ↔
      CommitteeHas retry cc pk del.paramsVersion w w' := by
  simp [isKeyInCommittee_eq_ok, CommitteeHas]

theorem isKeyInCommittee_fails :
    (isKeyInCommittee retry cc (serializePubKey pk) del w).1.Fails ↔
      (paramsGet retry cc del.paramsVersion w).1.Fails := by
  unfold isKeyInCommittee
  rw [Go.bind_fails, Go.wrap_fails]
  simp only [Go.pure_not_fails, and_false, exists_false, or_false]

/-- The staking transaction is one of the two errors, or has the hash string. -/
theorem stakesAs_cases (lib : BabylonLib) (prev : Delegation) (hash : String) :
    (∃ e, lib.newBTCTxFromHex prev.stakingTxHex = .error e) ∨
    (∃ tx, lib.newBTCTxFromHex prev.stakingTxHex = .ok tx ∧
      lib.hashString (lib.txHash tx) ≠ hash) ∨ StakesAs lib prev hash := by
  cases htx : lib.newBTCTxFromHex prev.stakingTxHex with
  | error e => exact .inl ⟨e, rfl⟩
  | ok tx =>
    by_cases hhash : lib.hashString (lib.txHash tx) = hash
    · exact .inr (.inr ⟨tx, htx, hhash⟩)
    · exact .inr (.inl ⟨tx, rfl, hhash⟩)

theorem validateStakeExpansion_undecodable {prev : Delegation} {e : String}
    (htx : lib.newBTCTxFromHex prev.stakingTxHex = .error e) :
    validateStakeExpansion lib retry cc (serializePubKey pk) del (some prev) w =
      (.error ("failed to decode previous delegation staking tx: " ++ e), w) := by
  simp [validateStakeExpansion, htx, Go.wrap, Go.bind_apply]

section
variable {exp : DelegationStakeExpansion} (hexp : del.stakeExpansion = some exp)
include hexp

theorem validateStakeExpansion_none :
    validateStakeExpansion lib retry cc (serializePubKey pk) del none w =
      (.error ("previous delegation is nil for stake expansion delegation: " ++
        exp.previousStakingTxHashHex), w) := by
  simp [validateStakeExpansion, hexp, Outcome.deref, Go.bind_apply]

theorem validateStakeExpansion_mismatching {prev : Delegation} {tx : MsgTx}
    (htx : lib.newBTCTxFromHex prev.stakingTxHex = .ok tx)
    (hne : lib.hashString (lib.txHash tx) ≠ exp.previousStakingTxHashHex) :
    (validateStakeExpansion lib retry cc (serializePubKey pk) del (some prev) w).1.Fails := by
  simp [validateStakeExpansion, htx, hexp, hne, Outcome.deref, Go.wrap, Go.bind_apply,
    Outcome.Fails]

theorem validateStakeExpansion_matching {prev : Delegation}
    (hstakes : StakesAs lib prev exp.previousStakingTxHashHex) :
    validateStakeExpansion lib retry cc (serializePubKey pk) del (some prev) w =
      Go.wrap ("unable to verify if covenant key is in committee: " ++ ·)
        (isKeyInCommittee retry cc (serializePubKey pk) prev) w := by
  obtain ⟨tx, htx, hhash⟩ := hstakes
  simp [validateStakeExpansion, htx, hexp, hhash, Outcome.deref, Go.wrap, Go.bind_apply]

theorem validateStakeExpansion_eq_true :
    (∃ w', validateStakeExpansion lib retry cc (serializePubKey pk) del prevDel w =
        (.ok true, w')) ↔
      PreviousFits lib retry cc pk exp prevDel w := by
  constructor
  · rintro ⟨w', hrun⟩
    cases prevDel with
    | none =>
      rw [validateStakeExpansion_none hexp] at hrun
      cases hrun
    | some prev =>
      rcases stakesAs_cases lib prev exp.previousStakingTxHashHex with
        ⟨e, htx⟩ | ⟨tx, htx, hne⟩ | hstakes
      · rw [validateStakeExpansion_undecodable htx] at hrun
        cases hrun
      · have hfails :
            (validateStakeExpansion lib retry cc (serializePubKey pk) del (some prev) w).1.Fails :=
          validateStakeExpansion_mismatching hexp htx hne
        rw [hrun] at hfails
        exact hfails.elim
      · rw [validateStakeExpansion_matching hexp hstakes, Go.wrap_eq_ok,
          isKeyInCommittee_eq_true] at hrun
        exact ⟨prev, w', rfl, hstakes, hrun⟩
  · rintro ⟨prev, w', rfl, hstakes, hhas⟩
    refine ⟨w', ?_⟩
    rw [validateStakeExpansion_matching hexp hstakes, Go.wrap_eq_ok, isKeyInCommittee_eq_true]
    exact hhas

theorem validateStakeExpansion_fails :
    (validateStakeExpansion lib retry cc (serializePubKey pk) del prevDel w).1.Fails ↔
      PreviousUnknown lib retry cc exp w prevDel := by
  constructor
  · intro hfails
    cases prevDel with
    | none => exact .missing
    | some prev =>
      rcases stakesAs_cases lib prev exp.previousStakingTxHashHex with
        ⟨e, htx⟩ | ⟨tx, htx, hne⟩ | hstakes
      · exact .undecodable htx
      · exact .mismatching htx hne
      · rw [validateStakeExpansion_matching hexp hstakes, Go.wrap_fails,
          isKeyInCommittee_fails] at hfails
        exact .noParams hstakes hfails
  · intro hunknown
    cases hunknown with
    | missing =>
      rw [validateStakeExpansion_none hexp]
      trivial
    | undecodable htx =>
      rw [validateStakeExpansion_undecodable htx]
      trivial
    | mismatching htx hne => exact validateStakeExpansion_mismatching hexp htx hne
    | noParams hstakes hfail =>
      rw [validateStakeExpansion_matching hexp hstakes, Go.wrap_fails, isKeyInCommittee_fails]
      exact hfail

end

/-- What the last of the three checks returns once the first two have passed. -/
def expansionCheck (lib : BabylonLib) (retry : ParamsRetry σ) (cc : ClientController σ)
    (pk : PublicKey) (del : Delegation) (prevDel : Option Delegation) : Go (World σ) Bool :=
  if del.isStakeExpansion then validateStakeExpansion lib retry cc (serializePubKey pk) del prevDel
  else pure true

theorem acceptDelegationToSign_signed (h : ¬ Unsigned pk del) :
    acceptDelegationToSign lib retry cc pk del prevDel w = (.ok false, w) := by
  rw [← alreadySigned_eq_false, Bool.not_eq_false] at h
  simp [acceptDelegationToSign, h]

theorem acceptDelegationToSign_unsigned (h : Unsigned pk del) :
    acceptDelegationToSign lib retry cc pk del prevDel = (do
      let isInCommittee ← Go.wrap ("unable to verify if covenant key is in committee: " ++ ·)
        (isKeyInCommittee retry cc (serializePubKey pk) del)
      if isInCommittee = false then pure false
      else expansionCheck lib retry cc pk del prevDel) := by
  simp [acceptDelegationToSign, alreadySigned_eq_false.mpr h, expansionCheck]

theorem expansionCheck_eq_true :
    (∃ w', expansionCheck lib retry cc pk del prevDel w = (.ok true, w')) ↔
      ∀ exp, del.stakeExpansion = some exp → PreviousFits lib retry cc pk exp prevDel w := by
  unfold expansionCheck Delegation.isStakeExpansion
  cases hexp : del.stakeExpansion with
  | none => simp
  | some exp => simpa using validateStakeExpansion_eq_true hexp

theorem expansionCheck_fails :
    (expansionCheck lib retry cc pk del prevDel w).1.Fails ↔
      ∃ exp, del.stakeExpansion = some exp ∧ PreviousUnknown lib retry cc exp w prevDel := by
  unfold expansionCheck Delegation.isStakeExpansion
  cases hexp : del.stakeExpansion with
  | none => simp [Outcome.Fails]
  | some exp => simpa using validateStakeExpansion_fails hexp

theorem acceptDelegationToSign_eq_true :
    (∃ w', acceptDelegationToSign lib retry cc pk del prevDel w = (.ok true, w')) ↔
      ToBeAccepted lib retry cc pk del prevDel w := by
  constructor
  · rintro ⟨w', hrun⟩
    by_cases hun : Unsigned pk del
    · rw [acceptDelegationToSign_unsigned hun] at hrun
      obtain ⟨isIn, w₁, hin, hrest⟩ := Go.bind_eq_ok.mp hrun
      cases isIn with
      | false => cases hrest
      | true =>
        rw [Go.wrap_eq_ok, isKeyInCommittee_eq_true] at hin
        exact ⟨hun, w₁, hin, expansionCheck_eq_true.mp ⟨w', hrest⟩⟩
    · rw [acceptDelegationToSign_signed hun] at hrun
      cases hrun
  · rintro ⟨hun, w₁, hin, hexp⟩
    obtain ⟨w', hrest⟩ := expansionCheck_eq_true.mpr hexp
    refine ⟨w', ?_⟩
    rw [acceptDelegationToSign_unsigned hun]
    refine Go.bind_eq_ok.mpr ⟨true, w₁, ?_, hrest⟩
    rw [Go.wrap_eq_ok, isKeyInCommittee_eq_true]
    exact hin

theorem acceptDelegationToSign_fails :
    (acceptDelegationToSign lib retry cc pk del prevDel w).1.Fails ↔
      Undecided lib retry cc pk del prevDel w := by
  constructor
  · intro hfails
    by_cases hun : Unsigned pk del
    · rw [acceptDelegationToSign_unsigned hun, Go.bind_fails, Go.wrap_fails,
        isKeyInCommittee_fails] at hfails
      refine ⟨hun, ?_⟩
      rcases hfails with hfails | ⟨isIn, w₁, hin, hrest⟩
      · exact .inl hfails
      · cases isIn with
        | false => exact hrest.elim
        | true =>
          rw [Go.wrap_eq_ok, isKeyInCommittee_eq_true] at hin
          obtain ⟨exp, hexp, hunknown⟩ := expansionCheck_fails.mp hrest
          exact .inr ⟨w₁, exp, hin, hexp, hunknown⟩
    · rw [acceptDelegationToSign_signed hun] at hfails
      exact hfails.elim
  · rintro ⟨hun, hcause⟩
    rw [acceptDelegationToSign_unsigned hun, Go.bind_fails, Go.wrap_fails, isKeyInCommittee_fails]
    rcases hcause with hfails | ⟨w₁, exp, hin, hexp, hunknown⟩
    · exact .inl hfails
    · refine .inr ⟨true, w₁, ?_, expansionCheck_fails.mpr ⟨exp, hexp, hunknown⟩⟩
      rw [Go.wrap_eq_ok, isKeyInCommittee_eq_true]
      exact hin

end

/-- The same point, or its negation. -/
def UpToSign (k k' : PublicKey) : Prop := k' = k ∨ k' = k.neg

/-- Parameters that differ only in the signs of the committee's keys. -/
def SignedParams (P P' : StakingParams) : Prop :=
  ∃ keys, P' = { P with covenantPks := keys } ∧ List.Forall₂ UpToSign P.covenantPks keys

/-- Delegations that differ only in the signs of the keys that have signed. -/
def SignedDelegation (del del' : Delegation) : Prop :=
  ∃ sigs, del' = { del with covenantSigs := sigs } ∧
    List.Forall₂ (fun a b => UpToSign a.pk b.pk ∧ a.sigs = b.sigs) del.covenantSigs sigs

section
variable {σ : Type}

/-- Chains whose parameters differ only in the signs of the committee's keys. -/
def SignedChain (cc cc' : ClientController σ) : Prop :=
  ∀ v s, Relates (cc.queryStakingParamsByVersion v) (cc'.queryStakingParamsByVersion v) s s
    (fun P s' P' t' => SignedParams P P' ∧ s' = t') Eq

/-- The same outside, and caches that differ only in the signs of the committee's keys. -/
structure SignedWorld (w w' : World σ) : Prop where
  env : w.env = w'.env
  cache : ∀ v, Option.Rel SignedParams (w.paramsByVersion v) (w'.paramsByVersion v)

/-- The parameters two caches return differ only in the signs of the committee's keys. -/
def ParamsAlike (J : World σ → World σ → Prop) (retry retry' : ParamsRetry σ)
    (cc cc' : ClientController σ) : Prop :=
  ∀ v w w', J w w' → Relates (paramsGet retry cc v) (paramsGet retry' cc' v) w w'
    (fun P w₁ P' w₁' => SignedParams P P' ∧ J w₁ w₁') J

variable {retry retry' : ParamsRetry σ} {cc cc' : ClientController σ} {w w' : World σ}
  {pk pk' : PublicKey} {del del' : Delegation}

theorem UpToSign.x_eq {k k' : PublicKey} (h : UpToSign k k') : k'.x = k.x := by
  rcases h with rfl | rfl <;> rfl

theorem UpToSign.serializePubKey_eq {k k' : PublicKey} (h : UpToSign k k') :
    serializePubKey k' = serializePubKey k :=
  serializePubKey_inj.mpr h.x_eq

theorem queryParamsOnce_signed (hcc : SignedChain cc cc') (v : UInt32) (hw : SignedWorld w w') :
    Relates (queryParamsOnce cc v) (queryParamsOnce cc' v) w w'
      (fun P w₁ P' w₁' => SignedParams P P' ∧ SignedWorld w₁ w₁') SignedWorld := by
  have hquery : Relates (onEnv (cc.queryStakingParamsByVersion v))
      (onEnv (cc'.queryStakingParamsByVersion v)) w w'
      (fun P w₁ P' w₁' => SignedParams P P' ∧ SignedWorld w₁ w₁') SignedWorld := by
    have henv := hcc v w.env
    nth_rewrite 2 [hw.env] at henv
    refine Relates.zoom henv ?_ ?_
    · rintro P s P' _ ⟨hP, rfl⟩
      exact ⟨hP, rfl, hw.cache⟩
    · rintro s _ rfl
      exact ⟨rfl, hw.cache⟩
  refine Relates.bind hquery.attempt ?_
  intro answer w₁ answer' w₁' hanswer
  cases hanswer with
  | ok h =>
    refine Relates.bind (Q := fun _ w₂ _ w₂' => SignedWorld w₂ w₂') (.modify ?_) ?_
    · exact ⟨h.2.env, h.2.cache⟩
    · intro _ w₂ _ w₂' hw₂
      exact .ok ⟨h.1, hw₂⟩
  | error h =>
    refine Relates.bind (Q := fun _ w₂ _ w₂' => SignedWorld w₂ w₂') (.modify ?_) ?_
    · exact ⟨h.env, h.cache⟩
    · intro _ w₂ _ w₂' hw₂
      exact .error hw₂

theorem SignedWorld.cacheParams {P P' : StakingParams} (hw : SignedWorld w w')
    (hP : SignedParams P P') (v : UInt32) :
    SignedWorld (w.cacheParams v P) (w'.cacheParams v P') := by
  refine ⟨hw.env, ?_⟩
  intro v'
  by_cases hv : v' = v
  · simpa [World.cacheParams, hv] using hP
  · simpa [World.cacheParams, hv] using hw.cache v'

theorem paramsGet_signed (hcc : SignedChain cc cc') :
    ParamsAlike SignedWorld retry retry' cc cc' := by
  intro v w w' hw
  have hmiss : Relates (getMissing retry cc v) (getMissing retry' cc' v) w w'
      (fun P w₁ P' w₁' => SignedParams P P' ∧ SignedWorld w₁ w₁') SignedWorld := by
    refine Relates.bind (retry.relates retry' (fun _ _ h => queryParamsOnce_signed hcc v h) _ hw) ?_
    rintro P w₁ P' w₁' ⟨hP, hw₁⟩
    refine Relates.bind (Q := fun _ w₂ _ w₂' => SignedWorld w₂ w₂') (.modify ?_) ?_
    · exact hw₁.cacheParams hP v
    · intro _ w₂ _ w₂' hw₂
      exact .ok ⟨hP, hw₂⟩
  unfold Relates paramsGet at *
  have hcached := hw.cache v
  generalize w.paramsByVersion v = c, w'.paramsByVersion v = c' at hcached
  cases hcached with
  | some hP => exact .ok ⟨hP, hw⟩
  | none => exact hmiss

theorem any_upToSign {keys keys' : List PublicKey} (h : List.Forall₂ UpToSign keys keys')
    (bytes : Bytes) :
    keys.any (fun pk => decide (serializePubKey pk = bytes)) =
      keys'.any (fun pk => decide (serializePubKey pk = bytes)) := by
  induction h with
  | nil => rfl
  | cons hk _ ih => simp [hk.serializePubKey_eq, ih]

theorem signedDelegation_refl (del : Delegation) : SignedDelegation del del :=
  ⟨del.covenantSigs, rfl, List.forall₂_same.mpr fun _ _ => ⟨.inl rfl, rfl⟩⟩

theorem signedParams_refl (P : StakingParams) : SignedParams P P :=
  ⟨P.covenantPks, rfl, List.forall₂_same.mpr fun _ _ => .inl rfl⟩

theorem SignedDelegation.alreadySigned_eq (h : SignedDelegation del del') (bytes : Bytes) :
    alreadySigned bytes del = alreadySigned bytes del' := by
  obtain ⟨sigs, rfl, hsigs⟩ := h
  have hkeys : List.Forall₂ UpToSign (del.covenantSigs.map (·.pk)) (sigs.map (·.pk)) := by
    rw [List.forall₂_map_left_iff, List.forall₂_map_right_iff]
    exact hsigs.imp fun _ _ h => h.1
  simpa [alreadySigned, List.any_map, Function.comp_def] using any_upToSign hkeys bytes

variable {J : World σ → World σ → Prop}

theorem isKeyInCommittee_signed (hget : ParamsAlike J retry retry' cc cc') (bytes : Bytes)
    (hdel : SignedDelegation del del') (hw : J w w') :
    Relates (isKeyInCommittee retry cc bytes del) (isKeyInCommittee retry' cc' bytes del') w w'
      (fun b w₁ b' w₁' => b = b' ∧ J w₁ w₁') J := by
  obtain ⟨sigs, rfl, -⟩ := hdel
  refine Relates.bind (Relates.wrap (hget _ _ _ hw)) ?_
  rintro P w₁ P' w₁' ⟨⟨keys, rfl, hkeys⟩, hw₁⟩
  exact .ok ⟨any_upToSign hkeys bytes, hw₁⟩

theorem SignedDelegation.stakeExpansion_eq (h : SignedDelegation del del') :
    del'.stakeExpansion = del.stakeExpansion := by
  obtain ⟨sigs, rfl, -⟩ := h
  rfl

theorem SignedDelegation.stakingTxHex_eq (h : SignedDelegation del del') :
    del'.stakingTxHex = del.stakingTxHex := by
  obtain ⟨sigs, rfl, -⟩ := h
  rfl

theorem validateStakeExpansion_signed (lib : BabylonLib) (hget : ParamsAlike J retry retry' cc cc')
    (bytes : Bytes) (hdel : SignedDelegation del del') {prevDel prevDel' : Option Delegation}
    (hprev : Option.Rel SignedDelegation prevDel prevDel') (hw : J w w') :
    Relates (validateStakeExpansion lib retry cc bytes del prevDel)
      (validateStakeExpansion lib retry' cc' bytes del' prevDel') w w'
      (fun b w₁ b' w₁' => b = b' ∧ J w₁ w₁') J := by
  unfold validateStakeExpansion
  cases hprev with
  | none =>
    rw [hdel.stakeExpansion_eq]
    refine Relates.bind (Q := fun e w₁ e' w₁' => e = e' ∧ J w₁ w₁') (.lift ?_ hw) ?_
    · exact fun e _ => ⟨rfl, hw⟩
    · rintro exp w₁ _ w₁' ⟨rfl, hw₁⟩
      exact .fail hw₁
  | some hprev =>
    dsimp only
    rw [hdel.stakeExpansion_eq, hprev.stakingTxHex_eq]
    refine Relates.bind (Q := fun e w₁ e' w₁' => e = e' ∧ J w₁ w₁')
      (.wrap (.lift ?_ hw)) ?_
    · exact fun e _ => ⟨rfl, hw⟩
    rintro tx w₁ _ w₁' ⟨rfl, hw₁⟩
    refine Relates.bind (Q := fun e w₁ e' w₁' => e = e' ∧ J w₁ w₁') (.lift ?_ hw₁) ?_
    · exact fun e _ => ⟨rfl, hw₁⟩
    rintro exp w₂ _ w₂' ⟨rfl, hw₂⟩
    split
    · exact .fail hw₂
    · exact .wrap (isKeyInCommittee_signed hget bytes hprev hw₂)

theorem acceptDelegationToSign_relates (lib : BabylonLib) (hget : ParamsAlike J retry retry' cc cc')
    (hpk : UpToSign pk pk') (hdel : SignedDelegation del del')
    {prevDel prevDel' : Option Delegation} (hprev : Option.Rel SignedDelegation prevDel prevDel')
    (hw : J w w') :
    Relates (acceptDelegationToSign lib retry cc pk del prevDel)
      (acceptDelegationToSign lib retry' cc' pk' del' prevDel') w w'
      (fun b w₁ b' w₁' => b = b' ∧ J w₁ w₁') J := by
  unfold acceptDelegationToSign
  rw [hpk.serializePubKey_eq, ← hdel.alreadySigned_eq]
  split
  · exact .pure ⟨rfl, hw⟩
  refine Relates.bind (.wrap (isKeyInCommittee_signed hget _ hdel hw)) ?_
  rintro isIn w₁ _ w₁' ⟨rfl, hw₁⟩
  rw [show del'.isStakeExpansion = del.isStakeExpansion by
    simp [Delegation.isStakeExpansion, hdel.stakeExpansion_eq]]
  split
  · exact .pure ⟨rfl, hw₁⟩
  · split
    · exact validateStakeExpansion_signed lib hget _ hdel hprev hw₁
    · exact .pure ⟨rfl, hw₁⟩

/-- `AcceptDelegationToSign` accepts exactly what it should, fails only when it cannot decide, and
does not see the signs of the keys. -/
theorem acceptDelegationToSign_exact (lib : BabylonLib) (retry : ParamsRetry σ)
    (cc : ClientController σ) (pk : PublicKey) (del : Delegation) (prevDel : Option Delegation)
    (w : World σ) :
    ((acceptDelegationToSign lib retry cc pk del prevDel w).1 = .ok true ↔
      ToBeAccepted lib retry cc pk del prevDel w) ∧
    ((acceptDelegationToSign lib retry cc pk del prevDel w).1.Fails ↔
      Undecided lib retry cc pk del prevDel w) ∧
    ∀ retry' cc' pk' del' prevDel' w', SignedChain cc cc' → UpToSign pk pk' →
      SignedDelegation del del' → Option.Rel SignedDelegation prevDel prevDel' →
      SignedWorld w w' →
      (acceptDelegationToSign lib retry' cc' pk' del' prevDel' w').1 =
        (acceptDelegationToSign lib retry cc pk del prevDel w).1 := by
  refine ⟨?_, acceptDelegationToSign_fails, ?_⟩
  · rw [← acceptDelegationToSign_eq_true]
    constructor
    · intro h
      exact ⟨_, Prod.ext h rfl⟩
    · rintro ⟨w', h⟩
      rw [h]
  · intro retry' cc' pk' del' prevDel' w' hcc hpk hdel hprev hw
    have hget : ParamsAlike SignedWorld retry retry' cc cc' := paramsGet_signed hcc
    have hrel := acceptDelegationToSign_relates lib hget hpk hdel hprev hw
    exact (hrel.mono (fun _ _ _ _ h => h.1) fun _ _ h => h).outcome_eq.symm

end

namespace Sample

/-- The committee's keys negated. -/
def negatedWorld : World Unit :=
  ⟨(), fun _ => some { params 10000 with covenantPks := committee.map PublicKey.neg }, []⟩

theorem signedWorld_negated : SignedWorld (world () 10000) negatedWorld where
  env := rfl
  cache _ := by
    refine .some ⟨committee.map PublicKey.neg, rfl, ?_⟩
    rw [List.forall₂_map_right_iff]
    exact List.forall₂_same.mpr fun k _ => .inr rfl

theorem signedChain_node : SignedChain (node []) (node []) := by
  intro v s
  exact .ok ⟨signedParams_refl _, rfl⟩

theorem toBeAccepted_expansion : ToBeAccepted lib .loop (node []) covenantKey expansionDelegation
    (some plainDelegation) (world () 10000) where
  unsigned := by
    intro covSig hmem
    cases hmem
  committee := by
    have hhas : CommitteeHas .loop (node []) covenantKey 0 (world () 10000) (world () 10000) :=
      ⟨params 10000, rfl, key 3, by simp [params, committee], rfl⟩
    refine ⟨world () 10000, hhas, ?_⟩
    rintro exp ⟨rfl⟩
    exact ⟨plainDelegation, world () 10000, rfl, ⟨stakingTx, checked_plain.stakingTx, rfl⟩, hhas⟩

/-- An expansion is accepted by the negated key, and with the committee's keys negated. -/
theorem accepts_expansion_negated :
    (acceptDelegationToSign lib .loop (node []) covenantKey.neg expansionDelegation
      (some plainDelegation) negatedWorld).1 = .ok true := by
  obtain ⟨haccepts, -, hsigns⟩ := acceptDelegationToSign_exact lib .loop (node []) covenantKey
    expansionDelegation (some plainDelegation) (world () 10000)
  rw [hsigns .loop (node []) covenantKey.neg expansionDelegation (some plainDelegation) negatedWorld
    signedChain_node (.inr rfl) (signedDelegation_refl _) (.some (signedDelegation_refl _))
    signedWorld_negated]
  exact haccepts.mpr toBeAccepted_expansion

end Sample

end CovenantEmulator
