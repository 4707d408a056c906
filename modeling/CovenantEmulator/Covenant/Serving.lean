import CovenantEmulator.Backlog.Rounds
import CovenantEmulator.Covenant.Batching
import CovenantEmulator.Covenant.Failures
import CovenantEmulator.Covenant.Isolation

/-! One tick against a chain that pages honestly and shows the signatures it has taken: what it
leaves waiting is what one round of a backlog leaves. -/
namespace CovenantEmulator

open Golang Paging Backlog

def BTCUndelegationResponse.bare (u : BTCUndelegationResponse) : BTCUndelegationResponse :=
  { u with covenantUnbondingSigList := [], covenantSlashingSigs := [] }

/-- The response without the signatures of the covenant. -/
def BTCDelegationResponse.bare (r : BTCDelegationResponse) : BTCDelegationResponse :=
  { r with covenantSigs := [], undelegationResponse := r.undelegationResponse.map (·.bare) }

def Undelegation.bare (ud : Undelegation) : Undelegation :=
  { ud with covenantSlashingSigs := [], covenantUnbondingSigs := [] }

/-- The delegation without the signatures of the covenant. -/
def Delegation.bare (d : Delegation) : Delegation :=
  { d with covenantSigs := [], btcUndelegation := d.btcUndelegation.map (·.bare) }

/-- The same delegation with more signatures. -/
structure Grown (r r' : BTCDelegationResponse) : Prop where
  bare : r'.bare = r.bare
  covenantSigs : r.covenantSigs <+: r'.covenantSigs

section
variable {lib : BabylonLib} {r r' r'' : BTCDelegationResponse} {d d' : Delegation}

theorem Grown.refl (r : BTCDelegationResponse) : Grown r r := ⟨rfl, List.prefix_refl _⟩

theorem Grown.trans (h : Grown r r') (h' : Grown r' r'') : Grown r r'' :=
  ⟨h'.bare.trans h.bare, h.covenantSigs.trans h'.covenantSigs⟩

theorem Grown.stakingTxHex (h : Grown r r') : r'.stakingTxHex = r.stakingTxHex := by
  have hsame : r'.bare.stakingTxHex = r.bare.stakingTxHex := by rw [h.bare]
  exact hsame

theorem undelegationOf_bare {u : Option BTCUndelegationResponse} {ud : Option Undelegation}
    (h : undelegationOf lib u = .ok ud) :
    undelegationOf lib (u.map (·.bare)) = .ok (ud.map (·.bare)) := by
  cases u with
  | none =>
    cases h
    rfl
  | some u =>
    obtain ⟨ud, hud, heq⟩ := Outcome.bind_eq_ok.mp h
    cases heq
    refine Outcome.bind_eq_ok.mpr ⟨ud.bare, ?_, rfl⟩
    unfold undelegationRespToUndelegation at hud ⊢
    split at hud
    · cases hud
    rename_i hunbonding
    split at hud
    · cases hud
    rename_i hslashing
    obtain ⟨_, -, hud⟩ := Outcome.bind_eq_ok.mp hud
    obtain ⟨_, -, hud⟩ := Outcome.bind_eq_ok.mp hud
    cases hud
    exact (if_neg hunbonding).trans (if_neg hslashing)

/-- Signatures apart, what is converted does not depend on the signatures. -/
theorem delegationRespToDelegation_bare (h : delegationRespToDelegation lib r = .ok d) :
    delegationRespToDelegation lib r.bare = .ok d.bare := by
  have hto := convertsTo_of_delegationRespToDelegation h
  exact delegationRespToDelegation_of_convertsTo
    { hto with
      covenantSigs := rfl
      btcUndelegation := undelegationOf_bare hto.btcUndelegation }

theorem Grown.delegation (h : Grown r r') (hd : delegationRespToDelegation lib r = .ok d)
    (hd' : delegationRespToDelegation lib r' = .ok d') : d'.bare = d.bare := by
  have hbare := delegationRespToDelegation_bare hd'
  rw [h.bare, delegationRespToDelegation_bare hd] at hbare
  exact (Outcome.ok.inj hbare).symm

end

section
variable (lib : BabylonLib)

def hashOfHex (stakingTxHex : String) : Option Hash :=
  (lib.newBTCTxFromHex stakingTxHex).toOption.map lib.txHash

/-- Whether the staking transaction has one of these hashes. -/
def stakesOneOf (hashes : List Hash) (stakingTxHex : String) : Bool :=
  (hashOfHex lib stakingTxHex).any fun hash => decide (hash ∈ hashes)

/-- Not two registrations of one staking transaction. -/
def Apart (stakingTxHex stakingTxHex' : String) : Prop :=
  ∀ hash, hashOfHex lib stakingTxHex = some hash → hashOfHex lib stakingTxHex' ≠ some hash

/-- What the chain reports before and after it was sent the signatures of one key for these staking
transactions: each of the delegations concerned has left the list, or reports the key. -/
inductive Takes (pk : PublicKey) (hashes : List Hash) :
    List BTCDelegationResponse → List BTCDelegationResponse → Prop
  | nil : Takes pk hashes [] []
  | other {r rs rs'} (h : stakesOneOf lib hashes r.stakingTxHex = false)
    (hrest : Takes pk hashes rs rs') : Takes pk hashes (r :: rs) (r :: rs')
  | signed {r r' rs rs'} (h : stakesOneOf lib hashes r.stakingTxHex = true)
    (hgrown : Grown r r')
    (hconv : ∀ d, delegationRespToDelegation lib r = .ok d →
      ∃ d', delegationRespToDelegation lib r' = .ok d')
    (hreports : ∃ sigs ∈ r'.covenantSigs, sigs.covPk = serializePubKey pk)
    (hrest : Takes pk hashes rs rs') : Takes pk hashes (r :: rs) (r' :: rs')
  | left {r rs rs'} (h : stakesOneOf lib hashes r.stakingTxHex = true)
    (hrest : Takes pk hashes rs rs') : Takes pk hashes (r :: rs) rs'

end

section
variable {lib : BabylonLib} {pk : PublicKey} {hashes hashes' : List Hash} {hex : String}
  {rs rs' rs'' : List BTCDelegationResponse}

theorem stakesOneOf_iff : stakesOneOf lib hashes hex = true ↔
    ∃ hash ∈ hashes, hashOfHex lib hex = some hash := by
  rw [stakesOneOf, Option.any_eq_true]
  constructor
  · rintro ⟨hash, hhash, hmem⟩
    exact ⟨hash, of_decide_eq_true hmem, hhash⟩
  · rintro ⟨hash, hmem, hhash⟩
    exact ⟨hash, hhash, decide_eq_true hmem⟩

theorem stakesOneOf_append :
    stakesOneOf lib (hashes ++ hashes') hex =
      (stakesOneOf lib hashes hex || stakesOneOf lib hashes' hex) := by
  unfold stakesOneOf
  cases hashOfHex lib hex <;> simp

theorem Takes.refl (lib : BabylonLib) (pk : PublicKey) (rs : List BTCDelegationResponse) :
    Takes lib pk [] rs rs := by
  induction rs with
  | nil => exact .nil
  | cons r rs ih =>
    refine .other ?_ ih
    unfold stakesOneOf
    cases hashOfHex lib r.stakingTxHex <;> simp

/-- Two submissions one after the other. -/
theorem Takes.trans (h : Takes lib pk hashes rs rs') (h' : Takes lib pk hashes' rs' rs'') :
    Takes lib pk (hashes ++ hashes') rs rs'' := by
  induction h generalizing rs'' with
  | nil =>
    cases h'
    exact .nil
  | other hr hrest ih =>
    cases h' with
    | other hr' hrest' => exact .other (by rw [stakesOneOf_append, hr, hr']; rfl) (ih hrest')
    | signed hr' hgrown hconv hreports hrest' =>
      exact .signed (by simp [stakesOneOf_append, hr']) hgrown hconv hreports (ih hrest')
    | left hr' hrest' => exact .left (by simp [stakesOneOf_append, hr']) (ih hrest')
  | @signed r r' rs rs' hr hgrown hconv hreports hrest ih =>
    have hboth : stakesOneOf lib (hashes ++ hashes') r.stakingTxHex = true := by
      simp [stakesOneOf_append, hr]
    cases h' with
    | other _ hrest' => exact .signed hboth hgrown hconv hreports (ih hrest')
    | signed _ hgrown' hconv' hreports' hrest' =>
      refine .signed hboth (hgrown.trans hgrown') (fun d hd => ?_) hreports' (ih hrest')
      obtain ⟨d', hd'⟩ := hconv d hd
      exact hconv' d' hd'
    | left _ hrest' => exact .left hboth (ih hrest')
  | left hr hrest ih => exact .left (by simp [stakesOneOf_append, hr]) (ih h')

/-- No delegation is added. -/
theorem Takes.sublist (h : Takes lib pk hashes rs rs') :
    (rs'.map (·.stakingTxHex)).Sublist (rs.map (·.stakingTxHex)) := by
  induction h with
  | nil => exact .slnil
  | other _ _ ih => exact ih.cons_cons _
  | signed _ hgrown _ _ _ ih =>
    rw [List.map_cons, List.map_cons, hgrown.stakingTxHex]
    exact ih.cons_cons _
  | left _ _ ih => exact ih.cons _

theorem Takes.length_le (h : Takes lib pk hashes rs rs') : rs'.length ≤ rs.length := by
  simpa using h.sublist.length_le

end

section
variable {σ : Type}

/-- The delegation of a response, if the filter accepts it. -/
def Emulator.waits (ce : Emulator σ) (w : World σ) (r : BTCDelegationResponse) :
    Option Delegation :=
  match delegationRespToDelegation ce.lib r with
  | .ok d => if ce.accepts w d then some d else none
  | _ => none

def Emulator.waiting (ce : Emulator σ) (w : World σ) (rs : List BTCDelegationResponse) :
    List Delegation :=
  rs.filterMap (ce.waits w)

end

section
variable {σ : Type} {ce : Emulator σ} {w w' : World σ} {r : BTCDelegationResponse}
  {rs rs' : List BTCDelegationResponse} {d d' : Delegation} {hashes : List Hash}

theorem waits_of_converts (h : delegationRespToDelegation ce.lib r = .ok d) :
    ce.waits w r = if ce.accepts w d then some d else none := by
  simp only [Emulator.waits, h]

theorem waits_eq_some (h : ce.waits w r = some d) :
    delegationRespToDelegation ce.lib r = .ok d ∧ ce.accepts w d = true := by
  unfold Emulator.waits at h
  split at h
  · rename_i d' hconv
    split at h
    · rename_i hacc
      cases h
      exact ⟨hconv, hacc⟩
    · cases h
  · cases h

theorem waiting_of_converts {S : Store BTCDelegationResponse} {ds : List Delegation}
    (h : Converts ce.lib S ds) : ce.waiting w S.values = ds.filter (ce.accepts w) := by
  have hall := Outcome.mapM_eq_ok.mp h
  clear h
  generalize S.values = rs at hall ⊢
  induction hall with
  | nil => rfl
  | @cons r d rs ds hone _ ih =>
    rw [Emulator.waiting, List.filterMap_cons, waits_of_converts hone, List.filter_cons, ← ih]
    cases ce.accepts w d <;> rfl

/-- What the chain reports a signature of the key for is skipped, not refused. -/
theorem acceptDelegationToSign_reported {b : Bool}
    (hopen : (ce.acceptDelegationToSign d w).1 = .ok b)
    (hexp : d'.stakeExpansion = d.stakeExpansion)
    (hsigned : alreadySigned (serializePubKey ce.pk) d' = true) :
    (ce.acceptDelegationToSign d' w).1 = .ok false := by
  obtain ⟨prevDel, w₁, hquery, -⟩ := Go.bind_eq_ok.mp (Prod.ext hopen rfl)
  have hquery' : ce.queryPrevDel d' w = (.ok prevDel, w₁) := by
    rw [← hquery, Emulator.queryPrevDel, Emulator.queryPrevDel, hexp]
  rw [Emulator.acceptDelegationToSign, Go.bind_of_ok hquery', acceptDelegationToSign,
    if_pos hsigned]
  rfl

/-- A response that has grown to report the key does not wait any more. -/
theorem waits_of_signed {r' : BTCDelegationResponse} (hlift : ce.lib.LiftsToEven ce.pk)
    (hopen : ¬ Blocks ce w r) (hgrown : Grown r r')
    (hconv : ∀ d, delegationRespToDelegation ce.lib r = .ok d →
      ∃ d', delegationRespToDelegation ce.lib r' = .ok d')
    (hreports : ∃ sigs ∈ r'.covenantSigs, sigs.covPk = serializePubKey ce.pk) :
    ¬ Blocks ce w r' ∧ ce.waits w r' = none := by
  obtain ⟨b, hb⟩ := not_blocks_iff.mp hopen
  obtain ⟨d, hd, hfilter⟩ := Outcome.bind_eq_ok.mp hb
  obtain ⟨d', hd'⟩ := hconv d hd
  have hbare := hgrown.delegation hd hd'
  have hexp : d'.bare.stakeExpansion = d.bare.stakeExpansion := by rw [hbare]
  have hskip : (ce.acceptDelegationToSign d' w).1 = .ok false :=
    acceptDelegationToSign_reported hfilter hexp (alreadySigned_of_reported hlift hd' hreports)
  refine ⟨not_blocks_iff.mpr ⟨false, by rw [judges_eq hd', hskip]⟩, ?_⟩
  rw [waits_of_converts hd', if_neg (by simp [Emulator.accepts, hskip])]

/-- Nothing else changes for the filter: the delegations concerned stop waiting. -/
theorem Takes.waiting (hlift : ce.lib.LiftsToEven ce.pk)
    (h : Takes ce.lib ce.pk hashes rs rs') (hopen : ∀ r ∈ rs, ¬ Blocks ce w r) :
    (∀ r ∈ rs', ¬ Blocks ce w r) ∧
      ce.waiting w rs' =
        (ce.waiting w rs).filter fun d => !stakesOneOf ce.lib hashes d.stakingTxHex := by
  induction h with
  | nil => exact ⟨by simp, rfl⟩
  | @other r rs rs' hr _ ih =>
    obtain ⟨hopen', heq⟩ := ih fun r' hr' => hopen r' (List.mem_cons_of_mem _ hr')
    refine ⟨List.forall_mem_cons.mpr ⟨hopen r List.mem_cons_self, hopen'⟩, ?_⟩
    rw [Emulator.waiting, Emulator.waiting, List.filterMap_cons, List.filterMap_cons]
    cases hwaits : ce.waits w r with
    | none => exact heq
    | some d =>
      have hhex := (delegationRespToDelegation_ok (waits_eq_some hwaits).1).1
      rw [List.filter_cons_of_pos (by rw [hhex, hr]; rfl)]
      exact congrArg _ heq
  | @signed r r' rs rs' hr hgrown hconv hreports _ ih =>
    obtain ⟨hopen', heq⟩ := ih fun r' hr' => hopen r' (List.mem_cons_of_mem _ hr')
    obtain ⟨hnot, hnone⟩ :=
      waits_of_signed hlift (hopen r List.mem_cons_self) hgrown hconv hreports
    refine ⟨List.forall_mem_cons.mpr ⟨hnot, hopen'⟩, ?_⟩
    rw [Emulator.waiting, Emulator.waiting, List.filterMap_cons, List.filterMap_cons, hnone]
    cases hwaits : ce.waits w r with
    | none => exact heq
    | some d =>
      have hhex := (delegationRespToDelegation_ok (waits_eq_some hwaits).1).1
      rw [List.filter_cons_of_neg (by rw [hhex, hr]; simp)]
      exact heq
  | @left r rs rs' hr _ ih =>
    obtain ⟨hopen', heq⟩ := ih fun r' hr' => hopen r' (List.mem_cons_of_mem _ hr')
    refine ⟨hopen', ?_⟩
    rw [heq, Emulator.waiting, Emulator.waiting, List.filterMap_cons]
    cases hwaits : ce.waits w r with
    | none => rfl
    | some d =>
      have hhex := (delegationRespToDelegation_ok (waits_eq_some hwaits).1).1
      rw [List.filter_cons_of_neg (by rw [hhex, hr]; simp)]

end

/-- What the loop needs of chain and signer to make progress: answers that do not change, honest
pages of the pending delegations, and signatures that show in them once they are sent. -/
structure Serving {σ : Type} (ce : Emulator σ) (answers : String → Except String Delegation)
    (params : UInt32 → StakingParams)
    (sign : SigningRequest → Except String SignaturesResponse)
    (pending : σ → Store BTCDelegationResponse) : Prop where
  static : StaticChain ce.cc answers params
  signs : ∀ req s, (ce.signer req s).1 = .ofExcept (sign req)
  lifts : ce.lib.LiftsToEven ce.pk
  pages : ∀ req s, ce.cc.btcDelegations .pending req s =
    honestPager (fun _ => pending s) .pending req s
  delegation : ∀ hash s, pending (ce.cc.queryBTCDelegation hash s).2 = pending s
  params : ∀ v s, pending (ce.cc.queryStakingParamsByVersion v s).2 = pending s
  signer : ∀ req s, pending (ce.signer req s).2 = pending s
  submit : ∀ sigs s, sigs.length < 2 ^ 63 → (∀ entry ∈ sigs, entry.publicKey = ce.pk) →
    (ce.cc.submitCovenantSigs sigs s).1.Returns ∧
      Takes ce.lib ce.pk (sigs.map (·.stakingTxHash)) (pending s).values
        (pending (ce.cc.submitCovenantSigs sigs s).2).values

/-- The emulator without its submissions, which neither the filter nor the loop over the
delegations uses. -/
def Emulator.asking {σ : Type} (ce : Emulator σ) : Emulator σ :=
  { ce with cc :=
    { ce.cc with
      submitCovenantSigs := fun _ => pure ⟨"", []⟩
      btcDelegations := fun _ => ce.cc.btcDelegations .pending } }

section
variable {σ : Type} {ce : Emulator σ} {answers : String → Except String Delegation}
  {params P : UInt32 → StakingParams}
  {sign : SigningRequest → Except String SignaturesResponse}
  {pending : σ → Store BTCDelegationResponse} {w w₀ : World σ} {d : Delegation}

theorem Serving.respects (h : Serving ce answers params sign pending) :
    Respects ce.asking.cc fun s s' => pending s' = pending s where
  refl _ := rfl
  trans h h' := h'.trans h
  submit _ _ := rfl
  pages _ req s := by
    have hpage : (ce.cc.btcDelegations .pending req s).2 = s := by
      rw [h.pages]
      rfl
    exact congrArg pending hpage
  delegation := h.delegation
  params := h.params

theorem Serving.accept_keeps (h : Serving ce answers params sign pending) (d : Delegation)
    (w : World σ) : pending (ce.acceptDelegationToSign d w).2.env = pending w.env := by
  have hquiet := Triple.state_iff.mp ((acceptDelegationToSign_spec h.respects d w).mono
    (fun _ _ h => h.1) fun _ h => h)
  exact hquiet.env

theorem Serving.collect_keeps (h : Serving ce answers params sign pending)
    (btcDels : List (Option Delegation)) (w : World σ) :
    pending (ce.collectSigs btcDels w).2.env = pending w.env :=
  (collectSigs_grows h.respects h.signer btcDels w).1

/-- The query returns the first of the delegations that wait, and leaves the chain as it is. -/
theorem Serving.queryPendingDelegations (h : Serving ce answers params sign pending)
    (hw₀ : Knows params P w₀) (hw : Knows params P w)
    (hopen : ∀ r ∈ (pending w.env).values, ¬ Blocks ce w₀ r)
    (hends : ¬ FullPages ce (pending w.env)) (hlimit : 0 < ce.delegationLimit.toNat)
    (haddr : Addressable pointerSize ce.delegationLimit.toNat)
    {fuel : ℕ} (hfuel : (pending w.env).values.length < fuel) :
    ∃ w₁, ce.queryPendingDelegations fuel w =
        (.ok ((ce.waiting w₀ (pending w.env).values).take ce.delegationLimit.toNat), w₁) ∧
      Knows params P w₁ ∧ pending w₁.env = pending w.env := by
  obtain ⟨ds, hconv⟩ := converts_of_open hopen
  have hlen : (pending w.env).values.length = ds.length :=
    (pending w.env).length_values.trans hconv.length
  let J (w₁ : World σ) (_ : Unit) : Prop :=
    Knows params P w₁ ∧ pending w₁.env = pending w.env
  have hpages : ∀ req w₁ u, J w₁ u → Relates (onEnv (ce.cc.btcDelegations .pending req))
      (honestPager (fun _ => pending w.env) .pending req) w₁ u
      (fun p w₂ p' u' => p = p' ∧ J w₂ u' ∧
        ∀ r ∈ p.btcDelegations, r ∈ (pending w.env).values) J := by
    rintro req w₁ u ⟨hknows, hsame⟩
    have hpage := h.pages req w₁.env
    rw [hsame] at hpage
    unfold Relates
    rw [onEnv, Go.zoom_apply, hpage]
    exact .ok ⟨rfl, ⟨hknows, hsame⟩, fun r hr => (pending w.env).mem_values_of_page hr⟩
  have hfilter : ∀ r, r ∈ (pending w.env).values → ∀ d,
      delegationRespToDelegation ce.lib r = .ok d →
        DecideAlike J ce.acceptDelegationToSign (fun d => pure (ce.accepts w₀ d)) d := by
    rintro r hr d hd w₁ u ⟨hknows, hsame⟩
    obtain ⟨w₂, hrun, hkeep⟩ := acceptDelegationToSign_of_open h.static hw₀ hknows hd (hopen r hr)
    have hpending := h.accept_keeps d w₁
    rw [hrun] at hpending
    unfold Relates
    rw [hrun]
    exact .ok ⟨rfl, hkeep, hpending.trans hsame⟩
  have htotal := pureQuery_of_not_full (w := w₀) hconv hends hlimit (hlen ▸ hfuel)
  have hrel := queryLoop_pages_relates (t := ()) hpages hfilter
    (minUint64 maxPaginationLimit ce.delegationLimit) ce.delegationLimit fuel [] [] ⟨hw, rfl⟩
  obtain ⟨l, w₁, hrun, rfl, hknows, hsame⟩ := hrel.of_right_ok htotal
  refine ⟨w₁, ?_, hknows, hsame⟩
  rw [waiting_of_converts hconv, Emulator.queryPendingDelegations,
    queryDelegationsWithStatus_of_addressable haddr]
  exact hrun

end

end CovenantEmulator
