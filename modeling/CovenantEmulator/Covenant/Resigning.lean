import CovenantEmulator.Sample

/-! Runs of ticks against a chain that records signatures: no delegation is signed again. -/
namespace CovenantEmulator

open Golang

section
variable {τ : Type}

/-- The message is about the delegation of this response. -/
def ForDelegation (lib : BabylonLib) (m : MsgAddCovenantSigs) (r : BTCDelegationResponse) : Prop :=
  ∃ tx, lib.newBTCTxFromHex r.stakingTxHex = .ok tx ∧
    lib.hashString (lib.txHash tx) = m.stakingTxHash

/-- A chain that forgets no committed message, and reports the key of each with the
delegation it is about. -/
structure RecordingChain (bc : BabylonController τ) (committed : τ → List MsgAddCovenantSigs) :
    Prop where
  checkpoint : ∀ s, committed s ⊆ committed (bc.bbnClient.btcCheckpointParams s).2
  params : ∀ v s, committed s ⊆ committed (bc.bbnClient.btcStakingParamsByVersion v s).2
  delegation : ∀ hash s, committed s ⊆ committed (bc.bbnClient.btcDelegation hash s).2
  pages : ∀ status req s, committed s ⊆ committed (bc.bbnClient.btcDelegations status req s).2
  send : ∀ msgs s, committed s ⊆ committed (bc.bbnClient.reliablySendMsgs msgs s).2
  reports : ∀ {status req s page s'},
    bc.bbnClient.btcDelegations status req s = (.ok page, s') →
    ∀ r ∈ page.btcDelegations, ∀ m ∈ committed s, ForDelegation bc.lib m r →
      ∃ sigs ∈ r.covenantSigs, sigs.covPk = m.pk

/-- Nothing committed is forgotten. -/
def Remembers (committed : τ → List MsgAddCovenantSigs) (n n' : Net MsgAddCovenantSigs τ) : Prop :=
  committed n.chain ⊆ committed n'.chain

section
variable {bc : BabylonController τ} {committed : τ → List MsgAddCovenantSigs}
  {n n' n'' : Net MsgAddCovenantSigs τ}

theorem Remembers.refl (n : Net MsgAddCovenantSigs τ) : Remembers committed n n := fun _ h => h

theorem Remembers.trans (h : Remembers committed n n') (h' : Remembers committed n' n'') :
    Remembers committed n n'' := fun _ hm => h' (h hm)

theorem onChain_remembers {α : Type} {m : Go τ α} (hm : ∀ s, committed s ⊆ committed (m s).2)
    (n : Net MsgAddCovenantSigs τ) :
    Triple (onChain m : Go (Net MsgAddCovenantSigs τ) α) n (fun _ n' => Remembers committed n n')
      (fun n' => Remembers committed n n') := by
  have hfinal : Remembers committed n { n with chain := (m n.chain).2 } := hm n.chain
  exact Triple.zoom (fun _ s' hs => by simpa [hs] using hfinal) hfinal

theorem reliablySendMsgs_remembers (hbc : RecordingChain bc committed)
    (msgs : List MsgAddCovenantSigs) (n : Net MsgAddCovenantSigs τ) :
    Triple (reliablySendMsgs bc.bbnClient.reliablySendMsgs msgs) n
      (fun _ n' => Remembers committed n n') (fun n' => Remembers committed n n') := by
  refine Triple.bind (Triple.attempt (R := fun _ n' => Remembers committed n n')
    (onChain_remembers (hbc.send msgs) n) fun _ h _ => h) ?_
  intro res n₁ h₁
  refine Triple.bind (Q := fun _ n' => Remembers committed n n') (Triple.modify h₁) ?_
  exact fun _ n₂ h₂ => Triple.lift (fun _ _ => h₂) h₂

theorem resendLoop_remembers (hbc : RecordingChain bc committed) (k : Nat)
    (msgs : List MsgAddCovenantSigs) (err : Option String) (n : Net MsgAddCovenantSigs τ) :
    Triple (resendLoop bc.errDuplicatedCovenantSig bc.bbnClient.reliablySendMsgs k msgs err) n
      (fun _ n' => Remembers committed n n') (fun n' => Remembers committed n n') := by
  induction k generalizing msgs err n with
  | zero =>
    unfold resendLoop afterRetries
    split
    · exact Triple.fail (.refl n)
    · split
      · exact Triple.pure (.refl n)
      · exact Triple.fail (.refl n)
  | succ k ih =>
    refine Triple.bind (Triple.attempt (R := fun _ n' => Remembers committed n n')
      (reliablySendMsgs_remembers hbc msgs n) fun _ h _ => h) ?_
    intro res n₁ h₁
    split
    · split
      · split
        · exact Triple.fail h₁
        · exact (ih _ _ n₁).mono (fun _ _ h => h₁.trans h) fun _ h => h₁.trans h
      · exact Triple.fail h₁
    · exact Triple.pure h₁
    · exact Triple.pure h₁

/-- Every call of the Babylon controller keeps what is committed. -/
theorem babylon_respects (hbc : RecordingChain bc committed) :
    Respects bc.toClientController (Remembers committed) where
  refl := .refl
  trans := .trans
  submit sigs n := by
    rw [show bc.toClientController.submitCovenantSigs sigs = _ from bc.submitCovenantSigs_eq sigs]
    exact Triple.state_iff.mp (resendLoop_remembers hbc _ _ none n)
  pages status req n := hbc.pages status req n.chain
  delegation hash := queryBTCDelegation_moves fun n => hbc.delegation hash n.chain
  params v := queryStakingParamsByVersion_moves .trans (fun n => hbc.checkpoint n.chain)
    fun n => hbc.params v n.chain

end

/-- Ticks of the loop, with anything that forgets no message happening between them. -/
inductive TickSteps (ce : Emulator (Net MsgAddCovenantSigs τ))
    (committed : τ → List MsgAddCovenantSigs) (w : World (Net MsgAddCovenantSigs τ)) :
    World (Net MsgAddCovenantSigs τ) → Prop where
  | refl : TickSteps ce committed w w
  | tick {w'} (fuel : Nat) (h : TickSteps ce committed w w') :
    TickSteps ce committed w (ce.tick fuel w').2
  | outside {w'} {env : Net MsgAddCovenantSigs τ} (h : TickSteps ce committed w w')
    (henv : Remembers committed w'.env env) : TickSteps ce committed w { w' with env := env }

/-- The event sends a request, or submits an entry, for the delegation with this hash. -/
def Concerns (lib : BabylonLib) (hash : String) : Event → Prop
  | .signing _ req => lib.hashString (lib.txHash req.stakingTx) = hash
  | .submitting sigs => ∃ entry ∈ sigs, lib.hashString entry.stakingTxHash = hash
  | .paramsAnswer _ _ => False

section
variable {bc : BabylonController τ} {committed : τ → List MsgAddCovenantSigs}
  {ce : Emulator (Net MsgAddCovenantSigs τ)} {w w' : World (Net MsgAddCovenantSigs τ)}

/-- A response that reports the covenant's key is not accepted. -/
theorem alreadySigned_of_reported {lib : BabylonLib} {pk : PublicKey}
    {r : BTCDelegationResponse} {d : Delegation} (hlift : lib.LiftsToEven pk)
    (hconv : delegationRespToDelegation lib r = .ok d)
    (hrep : ∃ sigs ∈ r.covenantSigs, sigs.covPk = serializePubKey pk) :
    alreadySigned (serializePubKey pk) d = true := by
  obtain ⟨sigs, hmem, hpk⟩ := hrep
  obtain ⟨-, hsigs⟩ := delegationRespToDelegation_ok hconv
  obtain ⟨info, hinfo, hone⟩ := Outcome.exists_of_mem_mapM hsigs hmem
  rw [covenantSigInfo, hpk, BabylonLib.mustToBTCPK_serializePubKey hlift] at hone
  have heven : info.pk = pk.even := by
    cases hone
    rfl
  refine List.any_eq_true.mpr ⟨info, hinfo, ?_⟩
  rw [heven]
  exact decide_eq_true (serializePubKey_even pk)

/-- What a tick does after the message for a delegation is committed does not concern it. -/
theorem tick_not_concerns (hbc : RecordingChain bc committed) (hcc : ce.cc = bc.toClientController)
    (hlib : ce.lib = bc.lib) (hlift : ce.lib.LiftsToEven ce.pk)
    (hS : ∀ req n, Remembers committed n (ce.signer req n).2) {m : MsgAddCovenantSigs}
    (hpk : m.pk = serializePubKey ce.pk) (hm : m ∈ committed w.env.chain) (fuel : Nat) :
    ∃ new, (ce.tick fuel w).2.trace = w.trace ++ new ∧
      ∀ e ∈ new, ¬ Concerns ce.lib m.stakingTxHash e := by
  have hR : Respects ce.cc (Remembers committed) := hcc ▸ babylon_respects hbc
  have hB : ∀ req n page n', Remembers committed w.env n →
      ce.cc.btcDelegations .pending req n = (.ok page, n') → ∀ r ∈ page.btcDelegations,
      ForDelegation ce.lib m r → ∃ sigs ∈ r.covenantSigs, sigs.covPk = serializePubKey ce.pk := by
    intro req n page n' hn hpage r hr hfor
    rw [hcc] at hpage
    have hchain : onChain (bc.bbnClient.btcDelegations .pending req) n = (.ok page, n') := hpage
    obtain ⟨s', hs', -⟩ := Go.zoom_eq_ok.mp hchain
    exact hpk ▸ hbc.reports hs' r hr m (hn hm) (hlib ▸ hfor)
  obtain ⟨dels, w₁, hq, hacc, hrun⟩ := tick_runs hR hS w fuel hB
  have hother : ∀ d ∈ dels, ∀ tx, ce.lib.newBTCTxFromHex d.stakingTxHex = .ok tx →
      ce.lib.hashString (ce.lib.txHash tx) ≠ m.stakingTxHash := by
    intro d hd tx htx hhash
    obtain ⟨hd, r, hr, hconv⟩ := hacc d hd
    obtain ⟨hhex, -⟩ := delegationRespToDelegation_ok hconv
    have hsigned := alreadySigned_of_reported hlift hconv (hr ⟨tx, hhex ▸ htx, hhash⟩)
    simp [hd.unsigned] at hsigned
  obtain ⟨quiet, hquiet, hparams⟩ := hq.trace
  obtain ⟨new, hnew, hj⟩ := hrun.trace
  refine ⟨quiet ++ new, by simp [hnew, hquiet], fun e he hcon => ?_⟩
  rcases List.mem_append.mp he with he | he
  · obtain ⟨v, answer, rfl⟩ := hparams e he
    exact hcon
  · cases hj e he with
    | paramsAnswer v answer => exact hcon
    | signing hd happr =>
      obtain ⟨P, -, hchecked⟩ := happr.checked
      exact hother _ hd _ hchecked.stakingTx hcon
    | submitting hsigs =>
      obtain ⟨entry, hentry, hhash⟩ := hcon
      obtain ⟨d, req, resp, s, s', hd, happr, -, rfl⟩ := hsigs entry hentry
      obtain ⟨P, -, hchecked⟩ := happr.checked
      exact hother d hd _ hchecked.stakingTx hhash

theorem tick_remembers (hR : Respects ce.cc (Remembers committed))
    (hS : ∀ req n, Remembers committed n (ce.signer req n).2) (fuel : Nat) :
    Remembers committed w.env (ce.tick fuel w).2.env := by
  obtain ⟨dels, w₁, hq, -, hrun⟩ := tick_runs (B := fun _ => True) hR hS w fuel
    (fun _ _ _ _ _ _ _ _ => trivial)
  exact hq.env.trans hrun.env

/-- Every entry the emulator has submitted carries its own key. -/
theorem submitted_publicKey (hR : Respects ce.cc (Remembers committed))
    (hS : ∀ req n, Remembers committed n (ce.signer req n).2)
    (h : TickSteps ce committed w w') (hstart : w.trace = []) {sigs : List CovenantSigs}
    (hsub : Event.submitting sigs ∈ w'.trace) {entry : CovenantSigs} (hentry : entry ∈ sigs) :
    entry.publicKey = ce.pk := by
  induction h with
  | refl => simp [hstart] at hsub
  | outside _ _ ih => exact ih hsub
  | @tick w' fuel h ih =>
    obtain ⟨dels, w₁, hq, -, hrun⟩ := tick_runs (B := fun _ => True) hR hS w' fuel
      (fun _ _ _ _ _ _ _ _ => trivial)
    obtain ⟨quiet, hquiet, hparams⟩ := hq.trace
    obtain ⟨new, hnew, hj⟩ := hrun.trace
    rw [hnew, hquiet] at hsub
    rcases List.mem_append.mp hsub with hsub | hsub
    · rcases List.mem_append.mp hsub with hsub | hsub
      · exact ih hsub
      · obtain ⟨v, answer, he⟩ := hparams _ hsub
        cases he
    · cases hj _ hsub with
      | submitting hsigs =>
        obtain ⟨d, req, resp, s, s', -, -, -, rfl⟩ := hsigs entry hentry
        rfl

/-- Once a message of this emulator for a delegation is committed, no later tick sends a request
or submits an entry for that delegation. -/
theorem committed_never_signed_again (bc : BabylonController τ)
    {committed : τ → List MsgAddCovenantSigs} (hbc : RecordingChain bc committed)
    {ce : Emulator (Net MsgAddCovenantSigs τ)} (hcc : ce.cc = bc.toClientController)
    (hlib : ce.lib = bc.lib) (hlift : ce.lib.LiftsToEven ce.pk)
    (hS : ∀ req n, Remembers committed n (ce.signer req n).2)
    {w₀ w₁ w₂ : World (Net MsgAddCovenantSigs τ)} (hstart : w₀.trace = [])
    (hist : TickSteps ce committed w₀ w₁) {sigs : List CovenantSigs} {entry : CovenantSigs}
    (hsub : Event.submitting sigs ∈ w₁.trace) (hentry : entry ∈ sigs)
    (hcommit : bc.msgAddCovenantSigs entry ∈ committed w₁.env.chain)
    (hlater : TickSteps ce committed w₁ w₂) :
    ∃ new, w₂.trace = w₁.trace ++ new ∧
      ∀ e ∈ new, ¬ Concerns ce.lib (ce.lib.hashString entry.stakingTxHash) e := by
  have hR : Respects ce.cc (Remembers committed) := hcc ▸ babylon_respects hbc
  have hpk : (bc.msgAddCovenantSigs entry).pk = serializePubKey ce.pk := by
    rw [← submitted_publicKey hR hS hist hstart hsub hentry]
    rfl
  have hhash : (bc.msgAddCovenantSigs entry).stakingTxHash =
      ce.lib.hashString entry.stakingTxHash := by
    rw [hlib]
    rfl
  -- the message stays committed from tick to tick, so each of them sees it reported
  suffices h : (∃ new, w₂.trace = w₁.trace ++ new ∧
      ∀ e ∈ new, ¬ Concerns ce.lib (ce.lib.hashString entry.stakingTxHash) e) ∧
      bc.msgAddCovenantSigs entry ∈ committed w₂.env.chain from h.1
  induction hlater with
  | refl => exact ⟨⟨[], by simp, by simp⟩, hcommit⟩
  | outside _ henv ih => exact ⟨ih.1, henv ih.2⟩
  | @tick w fuel _ ih =>
    obtain ⟨⟨new, hnew, hold⟩, hm⟩ := ih
    obtain ⟨new', hnew', hfresh⟩ := tick_not_concerns hbc hcc hlib hlift hS hpk hm fuel
    refine ⟨⟨new ++ new', by simp [hnew, hnew'], fun e he => ?_⟩, tick_remembers hR hS fuel hm⟩
    rcases List.mem_append.mp he with he | he
    · exact hold e he
    · exact hhash ▸ hfresh e he

end

end

namespace Sample

/-- The signatures of the committee that the committed messages hold for the staking
transaction. -/
def recorded (msgs : List MsgAddCovenantSigs) : List CovenantAdaptorSignatures :=
  (msgs.filter fun m => decide (m.stakingTxHash = lib.hashString stakingHash)).map fun m =>
    ⟨m.pk, m.slashingTxSigs⟩

def chainParams : ChainParams where
  covenantPks := committee.map serializePubKey
  covenantQuorum := 2
  minStakingValueSat := 10000
  maxStakingValueSat := 1000000
  minStakingTimeBlocks := 10
  maxStakingTimeBlocks := 10000
  slashingPkScript := slashingScript
  minSlashingTxFeeSat := 1000
  slashingRate := ⟨10 ^ 17⟩
  unbondingTimeBlocks := 101
  unbondingFeeSat := 1000
  minCommissionRate := ⟨3 * 10 ^ 16⟩

/-- A chain with one delegation, which commits every message. -/
def babylon : BabylonController (List MsgAddCovenantSigs) where
  lib := lib
  bbnClient :=
    { btcCheckpointParams := pure ⟨10, 100⟩
      btcStakingParamsByVersion := fun _ => pure chainParams
      btcDelegation := fun _ msgs => (.ok (plainResponse (recorded msgs)), msgs)
      btcDelegations := fun _ _ msgs =>
        (.ok ⟨[plainResponse (recorded msgs)], some ⟨[]⟩⟩, msgs)
      reliablySendMsgs := fun new msgs => (.ok (some ⟨"", []⟩), msgs ++ new) }
  keyAddress := .ok "bbn1member"
  txSigner := "bbn1member"
  keyed := rfl
  errDuplicatedCovenantSig := duplicated
  maxRetiresBatchRemovingMsgs := 0

theorem babylon_records : RecordingChain babylon id where
  checkpoint _ _ h := h
  params _ _ _ h := h
  delegation _ _ _ h := h
  pages _ _ _ _ h := h
  send _ _ _ h := List.mem_append_left _ h
  reports := by
    rintro status req msgs page s' ⟨rfl, rfl⟩ r hr m hm ⟨tx, htx, hhash⟩
    obtain rfl := List.mem_singleton.mp hr
    have hstaking : lib.newBTCTxFromHex (txHex stakingTx) = .ok stakingTx :=
      newBTCTxFromHex_txHex (by decide)
    obtain rfl : stakingTx = tx := by
      have h := hstaking.symm.trans htx
      simpa using h
    refine ⟨⟨m.pk, m.slashingTxSigs⟩, List.mem_map.mpr ⟨m, ?_, rfl⟩, rfl⟩
    exact List.mem_filter.mpr ⟨hm, decide_eq_true hhash.symm⟩

abbrev babylonEmulator : Emulator (Net MsgAddCovenantSigs (List MsgAddCovenantSigs)) :=
  emulator babylon.toClientController signer

def plainEntry : CovenantSigs :=
  babylonEmulator.covenantSigsOf plainRequest (signerResponseToCovenantResponse (signatures none))

abbrev start : World (Net MsgAddCovenantSigs (List MsgAddCovenantSigs)) := world ⟨[], []⟩ 10000

/-- The world after the first tick: the message is committed. -/
def committedWorld : World (Net MsgAddCovenantSigs (List MsgAddCovenantSigs)) :=
  (start.signed plainDelegation plainRequest ⟨[], []⟩).submitted
    babylonEmulator.cc [plainEntry]

theorem submitCovenantSigs_babylon :
    babylonEmulator.cc.submitCovenantSigs [plainEntry] ⟨[], []⟩ =
      (.ok ⟨"", []⟩, ⟨[babylon.msgAddCovenantSigs plainEntry],
        [⟨[babylon.msgAddCovenantSigs plainEntry], .ok (some ⟨"", []⟩)⟩]⟩) := rfl

theorem tick_babylon : babylonEmulator.tick 1 start = (.ok (), committedWorld) := by
  have hpage : ∀ req, babylonEmulator.cc.btcDelegations .pending req ⟨[], []⟩ =
      (.ok ⟨[plainResponse []], some ⟨[]⟩⟩, ⟨[], []⟩) := fun _ => rfl
  have hlimit : 2 ≤ babylonEmulator.delegationLimit.toNat := by decide
  have hconv : delegationRespToDelegation babylonEmulator.lib (plainResponse []) =
      .ok plainDelegation := delegationRespToDelegation_plain
  have hquery := queryPendingDelegations_of_accepted (w := start) (hpage _) hconv
    hlimit (by decide) (accepts_plain _) 0
  refine tick_of_pending hquery (by decide)
    (passes_plain babylon.toClientController (signer_of_signWith signWith_plain start.env)) ?_
  have hsubmit := submitCovenantSigs_babylon
  unfold plainEntry at hsubmit
  rw [hsubmit]
  trivial

/-- After the first tick the delegation is left alone. -/
theorem plain_never_signed_again : ∃ new,
    TickSteps babylonEmulator id start committedWorld ∧
      Event.submitting [plainEntry] ∈ committedWorld.trace ∧
      babylon.msgAddCovenantSigs plainEntry ∈ committedWorld.env.chain ∧
      (babylonEmulator.tick 1 committedWorld).2.trace = committedWorld.trace ++ new ∧
      ∀ e ∈ new, ¬ Concerns lib (lib.hashString plainEntry.stakingTxHash) e := by
  have hist : TickSteps babylonEmulator id start committedWorld := by
    have h : TickSteps babylonEmulator id start (babylonEmulator.tick 1 start).2 := .tick 1 .refl
    rwa [tick_babylon] at h
  have hsub : Event.submitting [plainEntry] ∈ committedWorld.trace := submitting_mem_trace _ _ _
  have hcommit : babylon.msgAddCovenantSigs plainEntry ∈ committedWorld.env.chain := by
    simp [committedWorld, World.submitted, World.signed, submitCovenantSigs_babylon]
  obtain ⟨new, h⟩ := committed_never_signed_again babylon babylon_records rfl rfl
    (table_liftsToEven table covenantKey) (fun _ _ _ h => h) rfl hist hsub List.mem_cons_self
    hcommit (.tick 1 .refl)
  exact ⟨new, hist, hsub, hcommit, h⟩

end Sample

end CovenantEmulator
