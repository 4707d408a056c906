import CovenantEmulator.ClientController.AtomicChain
import CovenantEmulator.Covenant.Progress

/-! The Babylon controller over an atomic chain that records signatures serves the loop, and what
runs of the loop then sign. -/
namespace CovenantEmulator

open Golang Ledger Paging Backlog

section
variable {τ : Type}

/-- A Babylon node whose transactions are atomic and whose queries are reads. A message is taken,
and its signature recorded, or refused because the signature is already there. The delegations
that are queried one by one are the previous ones of stake expansions: they are active and do not
change. -/
structure SigningChain (bc : BabylonController τ) (pk : PublicKey)
    (c : AtomicChain MsgAddCovenantSigs τ) (answers : String → Except String Delegation)
    (params : UInt32 → StakingParams) (pending : τ → Store BTCDelegationResponse) : Prop where
  send : bc.bbnClient.reliablySendMsgs = c.send
  checkpoint : ∀ s, (bc.bbnClient.btcCheckpointParams s).2 = s
  paramsReads : ∀ v s, (bc.bbnClient.btcStakingParamsByVersion v s).2 = s
  params : ∀ v n, (bc.queryStakingParamsByVersion v n).1 = .ok (params v)
  delegationReads : ∀ hash s, (bc.bbnClient.btcDelegation hash s).2 = s
  delegation : ∀ hash n, (bc.queryBTCDelegation hash n).1 = .ofExcept (answers hash)
  pages : ∀ req s, bc.bbnClient.btcDelegations .pending req s =
    honestPager (fun _ => pending s) .pending req s
  taken : ∀ {m hash s s'}, m.pk = serializePubKey pk → m.stakingTxHash = bc.lib.hashString hash →
    c.exec m s = .ok s' → Takes bc.lib pk [hash] (pending s).values (pending s').values
  refused : ∀ {m hash s e}, m.pk = serializePubKey pk → m.stakingTxHash = bc.lib.hashString hash →
    c.exec m s = .error e → Takes bc.lib pk [hash] (pending s).values (pending s).values

end

section
variable {τ : Type} {bc : BabylonController τ} {pk : PublicKey}
  {c : AtomicChain MsgAddCovenantSigs τ} {answers : String → Except String Delegation}
  {params : UInt32 → StakingParams} {pending : τ → Store BTCDelegationResponse}

/-- Best effort takes every entry: what is refused was there before. -/
theorem SigningChain.bestEffort (h : SigningChain bc pk c answers params pending)
    {sigs : List CovenantSigs} (hkeys : ∀ entry ∈ sigs, entry.publicKey = pk) (s : τ) :
    Takes bc.lib pk (sigs.map (·.stakingTxHash)) (pending s).values
      (pending (Ledger.bestEffort c.exec (sigs.map bc.msgAddCovenantSigs) s)).values := by
  induction sigs generalizing s with
  | nil => exact .refl _ _ _
  | cons entry sigs ih =>
    have hrest : ∀ entry' ∈ sigs, entry'.publicKey = pk :=
      fun entry' hmem => hkeys entry' (List.mem_cons_of_mem _ hmem)
    have hpk : (bc.msgAddCovenantSigs entry).pk = serializePubKey pk := by
      rw [BabylonController.msgAddCovenantSigs, BabylonController.msgFrom,
        hkeys entry List.mem_cons_self]
    rw [List.map_cons, List.map_cons]
    change Takes bc.lib pk ([entry.stakingTxHash] ++ sigs.map (·.stakingTxHash)) _ _
    cases hexec : c.exec (bc.msgAddCovenantSigs entry) s with
    | error e =>
      rw [bestEffort_cons_error hexec]
      exact (h.refused hpk rfl hexec).trans (ih hrest s)
    | ok s' =>
      rw [bestEffort_cons_ok hexec]
      exact (h.taken hpk rfl hexec).trans (ih hrest s')

theorem onChain_reads {α : Type} {m : Go τ α} (hm : ∀ s, (m s).2 = s)
    (n : Net MsgAddCovenantSigs τ) : (onChain m n).2 = n := by
  rw [onChain, Go.zoom_apply, hm]

/-- With as many retries as messages, the emulator over such a chain is served. -/
theorem SigningChain.serving {ce : Emulator (Net MsgAddCovenantSigs τ)}
    (h : SigningChain bc ce.pk c answers params pending)
    (hcc : ce.cc = bc.toClientController) (hlib : ce.lib = bc.lib)
    (hmax : bc.maxRetiresBatchRemovingMsgs = 0) (hlift : ce.lib.LiftsToEven ce.pk)
    {sign : SigningRequest → Except String SignaturesResponse}
    (hsigns : ∀ req n, (ce.signer req n).1 = .ofExcept (sign req))
    (hsigner : ∀ req n, (ce.signer req n).2.chain = n.chain) :
    Serving ce answers params sign fun n => pending n.chain where
  static := by
    rw [hcc]
    exact ⟨h.delegation, h.params⟩
  signs := hsigns
  lifts := hlift
  pages req n := by
    rw [hcc]
    change onChain (bc.bbnClient.btcDelegations .pending req) n = _
    rw [onChain, Go.zoom_apply, h.pages]
    rfl
  delegation hash n := by
    rw [hcc]
    exact queryBTCDelegation_moves (R := fun n n' => pending n'.chain = pending n.chain)
      (fun n => by rw [onChain_reads (h.delegationReads hash)]) n
  params v n := by
    rw [hcc]
    exact queryStakingParamsByVersion_moves (R := fun n n' => pending n'.chain = pending n.chain)
      (fun h h' => h'.trans h) (fun n => by rw [onChain_reads h.checkpoint])
      (fun n => by rw [onChain_reads (h.paramsReads v)]) n
  signer req n := congrArg pending (hsigner req n)
  submit sigs n hlen hkeys := by
    rw [hcc, hlib]
    change (bc.submitCovenantSigs sigs n).1.Returns ∧ Takes bc.lib ce.pk _ _
      (pending (bc.submitCovenantSigs sigs n).2.chain).values
    have htries : batchRetries (sigs.map bc.msgAddCovenantSigs) bc.maxRetiresBatchRemovingMsgs =
        (sigs.map bc.msgAddCovenantSigs).length := by
      rw [batchRetries, if_pos hmax]
    have hshort : (sigs.map bc.msgAddCovenantSigs).length < 2 ^ 63 := by simpa using hlen
    have hsubmit :=
      resend_bestEffort bc.errDuplicatedCovenantSig c bc.maxRetiresBatchRemovingMsgs hshort n
    rw [BabylonController.submitCovenantSigs_eq, h.send]
    refine ⟨hsubmit.ends, ?_⟩
    rw [hsubmit.chain, if_pos (.inl htries)]
    exact h.bestEffort hkeys n.chain

end

section
variable {σ : Type}

/-- What a run submits is what rounds of the backlog serve: in each tick the entries of the first
delegations that still wait, in the order of the chain. -/
theorem afterTicks_submits (ce : Emulator σ) {answers : String → Except String Delegation}
    {params P : UInt32 → StakingParams}
    {sign : SigningRequest → Except String SignaturesResponse}
    {pending : σ → Store BTCDelegationResponse}
    (h : Serving ce answers params sign pending) (hlimit : 0 < ce.delegationLimit.toNat)
    (haddr : Addressable pointerSize ce.delegationLimit.toNat)
    (hsize : 1 ≤ ce.sigsBatchSize.toNat) {w : World σ} {fuel : ℕ}
    (hw : Steady ce answers params P sign pending w fuel w)
    (hends : ∀ n, ¬ FullPages ce (pending (ce.afterTicks fuel n w).env)) (n : ℕ) :
    w.submittedSince (ce.afterTicks fuel n w) = (List.range n).flatMap fun k =>
      (((serve ce.delegationLimit.toNat (signable ce P answers sign))^[k]
        (ce.waiting w (pending w.env).values)).take ce.delegationLimit.toNat).filterMap
          (entryFor ce (fun v => some (P v)) answers sign) := by
  obtain ⟨-, -, new, hnew, hsubs⟩ := h.afterTicks hlimit haddr hsize hw hends n
  rw [World.submittedSince_of_append hnew, hsubs]

/-- A delegation that can be signed is signed exactly if fewer than the limit of those that wait
before it cannot be, and then after a number of ticks that the others before it bound. -/
theorem signed_iff_unblocked (ce : Emulator σ) {answers : String → Except String Delegation}
    {params P : UInt32 → StakingParams}
    {sign : SigningRequest → Except String SignaturesResponse}
    {pending : σ → Store BTCDelegationResponse}
    (h : Serving ce answers params sign pending) (hlimit : 0 < ce.delegationLimit.toNat)
    (haddr : Addressable pointerSize ce.delegationLimit.toNat)
    (hsize : 1 ≤ ce.sigsBatchSize.toNat) {w : World σ} {fuel : ℕ}
    (hw : Steady ce answers params P sign pending w fuel w)
    (hends : ∀ n, ¬ FullPages ce (pending (ce.afterTicks fuel n w).env))
    {before after : List Delegation} {d : Delegation} {entry : CovenantSigs}
    (hwaiting : ce.waiting w (pending w.env).values = before ++ d :: after)
    (hentry : entryFor ce (fun v => some (P v)) answers sign d = some entry) :
    ((∃ n, entry ∈ w.submittedSince (ce.afterTicks fuel n w)) ↔
      before.countP (fun d => !signable ce P answers sign d) < ce.delegationLimit.toNat) ∧
    (before.countP (fun d => !signable ce P answers sign d) < ce.delegationLimit.toNat →
      ∃ n, n * (ce.delegationLimit.toNat -
            before.countP fun d => !signable ce P answers sign d) ≤
          before.countP (signable ce P answers sign) ∧
        entry ∈ w.submittedSince (ce.afterTicks fuel (n + 1) w)) := by
  have hapart := waiting_apart (w := w) hw.distinct
  have hhash := (entryFor_spec hentry).2
  have hmem : d ∈ ce.waiting w (pending w.env).values := by simp [hwaiting]
  have hbefore : d ∉ before := by
    intro hd
    rw [hwaiting, List.pairwise_append] at hapart
    exact hapart.2.2 d hd d List.mem_cons_self _ hhash hhash
  have hsubmitted := h.submitted_iff hlimit haddr hsize hw hends hmem hentry
  rw [hwaiting] at hsubmitted
  refine ⟨?_, fun hfew => ?_⟩
  · rw [← reaches_iff hbefore]
    constructor
    · rintro ⟨n, hn⟩
      obtain ⟨k, -, hk⟩ := (hsubmitted n).mp hn
      exact ⟨k, hk⟩
    · rintro ⟨k, hk⟩
      exact ⟨k + 1, (hsubmitted (k + 1)).mpr ⟨k, Nat.lt_succ_self k, hk⟩⟩
  · obtain ⟨n, hn, hreach⟩ := iterate_serve_reaches d after hfew
    exact ⟨n, hn, (hsubmitted (n + 1)).mpr ⟨n, Nat.lt_succ_self n, hreach⟩⟩

end

namespace Sample

/-- A delegation without an undelegation, whose staking transaction does not decode: it is accepted
and cannot be signed. -/
def blocked : BTCDelegationResponse :=
  { plainResponse [] with stakingTxHex := "zz", undelegationResponse := none }

def blockedDelegation : Delegation :=
  { plainDelegation with stakingTxHex := "zz", btcUndelegation := none }

/-- Two such delegations and one that can be signed, which is the last one or between them. -/
def queue (last : Bool) (msgs : List MsgAddCovenantSigs) : Store BTCDelegationResponse where
  entries := ([1], blocked) ::
    if last then [([2], blocked), ([3], plainResponse (recorded msgs))]
    else [([2], plainResponse (recorded msgs)), ([3], blocked)]
  nodup := by cases last <;> simp
  keyed := by cases last <;> simp

def sameSigner (m m' : MsgAddCovenantSigs) : Bool :=
  decide (m'.pk = m.pk ∧ m'.stakingTxHash = m.stakingTxHash)

/-- A chain that takes one message of each key for each staking transaction. -/
def recordingChain : AtomicChain MsgAddCovenantSigs (List MsgAddCovenantSigs) where
  exec m msgs :=
    if msgs.any (sameSigner m) then .error "the covenant signature is already submitted"
    else .ok (msgs ++ [m])
  respond _ _ := ⟨"A1", []⟩
  before := "failed to execute message; "
  plain := executing_plain

def queueController (last : Bool) : BabylonController (List MsgAddCovenantSigs) where
  lib := lib
  bbnClient :=
    { btcCheckpointParams := pure ⟨10, 100⟩
      btcStakingParamsByVersion := fun _ => pure chainParams
      btcDelegation := fun _ => Go.fail "not found"
      btcDelegations := fun _ req msgs => honestPager (fun _ => queue last msgs) .pending req msgs
      reliablySendMsgs := recordingChain.send }
  keyAddress := .ok "bbn1queue"
  txSigner := "bbn1queue"
  keyed := rfl
  errDuplicatedCovenantSig := duplicated
  maxRetiresBatchRemovingMsgs := 0

def noAnswer (hash : String) : Except String Delegation :=
  .error ("failed to query BTC delegation " ++ hash ++ ": " ++ "not found")

theorem recorded_append (msgs extra : List MsgAddCovenantSigs) :
    recorded (msgs ++ extra) = recorded msgs ++ recorded extra := by
  simp [recorded]

theorem stakesOneOf_plain (hash : Hash) :
    stakesOneOf lib [hash] (txHex stakingTx) = decide (stakingHash = hash) := by
  have hstaking : lib.newBTCTxFromHex (txHex stakingTx) = .ok stakingTx :=
    newBTCTxFromHex_txHex (by decide)
  rw [stakesOneOf, hashOfHex, hstaking]
  simp [Except.toOption]
  rfl

/-- More signatures of a key that parses are converted as well. -/
theorem delegationRespToDelegation_more {r : BTCDelegationResponse} {d : Delegation}
    {pk : PublicKey} (hlift : lib.LiftsToEven pk) (hd : delegationRespToDelegation lib r = .ok d)
    {extra : List CovenantAdaptorSignatures}
    (hkey : ∀ sigs ∈ extra, sigs.covPk = serializePubKey pk) :
    ∃ d', delegationRespToDelegation lib { r with covenantSigs := r.covenantSigs ++ extra } =
      .ok d' := by
  have hto := convertsTo_of_delegationRespToDelegation hd
  obtain ⟨infos, hinfos⟩ : ∃ infos, extra.mapM (covenantSigInfo lib) = .ok infos := by
    refine Outcome.exists_mapM_eq_ok.mpr fun sigs hsigs => ⟨⟨pk.even, sigs.adaptorSigs⟩, ?_⟩
    rw [covenantSigInfo, hkey sigs hsigs, BabylonLib.mustToBTCPK_serializePubKey hlift]
    rfl
  have hsigs : (r.covenantSigs ++ extra).mapM (covenantSigInfo lib) =
      .ok (d.covenantSigs ++ infos) :=
    Outcome.mapM_eq_ok.mpr (List.rel_append (Outcome.mapM_eq_ok.mp hto.covenantSigs)
      (Outcome.mapM_eq_ok.mp hinfos))
  exact ⟨{ d with covenantSigs := d.covenantSigs ++ infos },
    delegationRespToDelegation_of_convertsTo { hto with covenantSigs := hsigs }⟩

section
variable {m : MsgAddCovenantSigs} {hash : Hash} {msgs : List MsgAddCovenantSigs}
  (hpk : m.pk = serializePubKey covenantKey) (hhash : m.stakingTxHash = lib.hashString hash)
  (extra : List MsgAddCovenantSigs) (hextra : ∀ m' ∈ extra, sameSigner m m' = true)
  (hone : ∃ m' ∈ msgs ++ extra, sameSigner m m' = true)
include hpk hhash hextra hone

theorem plain_takes {rs rs' : List BTCDelegationResponse}
    (hrest : Takes lib covenantKey [hash] rs rs') :
    Takes lib covenantKey [hash] (plainResponse (recorded msgs) :: rs)
      (plainResponse (recorded (msgs ++ extra)) :: rs') := by
  rw [recorded_append]
  by_cases hsame : stakingHash = hash
  · subst hsame
    have hstakes := (stakesOneOf_plain stakingHash).trans (decide_eq_true rfl)
    refine .signed hstakes ⟨rfl, List.prefix_append _ _⟩ (fun d hd => ?_) ?_ hrest
    · refine delegationRespToDelegation_more (table_liftsToEven table covenantKey) hd ?_
      intro sigs hsigs
      obtain ⟨m', hm', rfl⟩ := List.mem_map.mp hsigs
      exact (of_decide_eq_true (hextra m' (List.mem_of_mem_filter hm'))).1.trans hpk
    · obtain ⟨m', hm', hsigner⟩ := hone
      obtain ⟨hkey, htx⟩ := of_decide_eq_true hsigner
      refine ⟨⟨m'.pk, m'.slashingTxSigs⟩, ?_, hkey.trans hpk⟩
      change _ ∈ recorded msgs ++ recorded extra
      rw [← recorded_append]
      refine List.mem_map.mpr ⟨m', List.mem_filter.mpr ⟨hm', decide_eq_true ?_⟩, rfl⟩
      exact htx.trans hhash
  · have hnone : recorded extra = [] := by
      rw [recorded, List.map_eq_nil_iff, List.filter_eq_nil_iff]
      intro m' hm' htx
      have hstring : lib.hashString stakingHash = lib.hashString hash :=
        (of_decide_eq_true htx).symm.trans
          ((of_decide_eq_true (hextra m' hm')).2.trans hhash)
      have hback := table_hashRoundTrip table stakingHash
      rw [hstring, table_hashRoundTrip table hash] at hback
      exact hsame (by simpa using hback.symm)
    rw [hnone, List.append_nil]
    exact .other ((stakesOneOf_plain hash).trans (decide_eq_false hsame)) hrest

/-- The response about the staking transaction is the only one that a message changes. -/
theorem queue_takes (last : Bool) :
    Takes lib covenantKey [hash] (queue last msgs).values (queue last (msgs ++ extra)).values := by
  cases last with
  | true => exact .other rfl (.other rfl (plain_takes hpk hhash extra hextra hone .nil))
  | false => exact .other rfl (plain_takes hpk hhash extra hextra hone (.other rfl .nil))

end

theorem queue_signingChain (last : Bool) : SigningChain (queueController last) covenantKey
    recordingChain noAnswer (fun _ => params 10000) (queue last) where
  send := rfl
  checkpoint _ := rfl
  paramsReads _ _ := rfl
  params _ _ := rfl
  delegationReads _ _ := rfl
  delegation _ _ := rfl
  pages _ _ := rfl
  taken := by
    intro m hash msgs msgs' hpk hhash hexec
    unfold recordingChain at hexec
    dsimp only at hexec
    split at hexec
    · cases hexec
    · cases hexec
      have hself : sameSigner m m = true := decide_eq_true ⟨rfl, rfl⟩
      exact queue_takes hpk hhash [m] (by simpa using hself) ⟨m, by simp, hself⟩ last
  refused := by
    intro m hash msgs e hpk hhash hexec
    unfold recordingChain at hexec
    dsimp only at hexec
    split at hexec
    · rename_i hany
      obtain ⟨m', hm', hsigner⟩ := List.any_eq_true.mp hany
      have h := queue_takes hpk hhash [] (by simp) ⟨m', by simpa using hm', hsigner⟩ last
      rwa [List.append_nil] at h
    · cases hexec

/-- Two places in a tick. -/
def queueEmulator (last : Bool) : Emulator (Net MsgAddCovenantSigs (List MsgAddCovenantSigs)) :=
  { emulator (queueController last).toClientController signer with delegationLimit := 2 }

theorem queue_serving (last : Bool) : Serving (queueEmulator last) noAnswer
    (fun _ => params 10000) sign fun n => queue last n.chain :=
  (queue_signingChain last).serving rfl rfl rfl
    (table_liftsToEven table covenantKey) (fun _ _ => rfl) fun _ _ => rfl

theorem delegationRespToDelegation_blocked :
    delegationRespToDelegation lib blocked = .ok blockedDelegation :=
  delegationRespToDelegation_of_convertsTo
    { convertsTo_of_delegationRespToDelegation delegationRespToDelegation_plain with
      stakingTx_ne := by decide
      stakingTxHex := rfl
      btcUndelegation := rfl }

section
variable (last : Bool)

theorem accepts_queued {d : Delegation} (hplain : d.stakeExpansion = none)
    (hunsigned : alreadySigned (serializePubKey covenantKey) d = false) :
    ((queueEmulator last).acceptDelegationToSign d start).1 = .ok true := by
  have hknown : KnownCommittee (queueEmulator last) start d :=
    ⟨params 10000, rfl, key 3, by simp [params, committee], rfl⟩
  rw [acceptDelegationToSign_plain hplain hunsigned hknown]

theorem waits_queued {r : BTCDelegationResponse} {d : Delegation}
    (hconv : delegationRespToDelegation lib r = .ok d) (hplain : d.stakeExpansion = none)
    (hunsigned : alreadySigned (serializePubKey covenantKey) d = false) :
    ¬ Blocks (queueEmulator last) start r ∧ (queueEmulator last).waits start r = some d := by
  have hacc := accepts_queued last hplain hunsigned
  have hconv' : delegationRespToDelegation (queueEmulator last).lib r = .ok d := hconv
  refine ⟨not_blocks_iff.mpr ⟨true, (judges_eq hconv').trans hacc⟩, ?_⟩
  rw [waits_of_converts hconv', Emulator.accepts, if_pos (decide_eq_true hacc)]

theorem waits_blocked : ¬ Blocks (queueEmulator last) start blocked ∧
    (queueEmulator last).waits start blocked = some blockedDelegation :=
  waits_queued last delegationRespToDelegation_blocked rfl rfl

theorem waits_plain : ¬ Blocks (queueEmulator last) start (plainResponse []) ∧
    (queueEmulator last).waits start (plainResponse []) = some plainDelegation :=
  waits_queued last delegationRespToDelegation_plain rfl rfl

theorem mem_queue {r : BTCDelegationResponse} (h : r ∈ (queue last []).values) :
    r = blocked ∨ r = plainResponse [] := by
  cases last with
  | true =>
    change r ∈ [blocked, blocked, plainResponse []] at h
    simpa only [List.mem_cons, List.not_mem_nil, or_false, or_self_left] using h
  | false =>
    change r ∈ [blocked, plainResponse [], blocked] at h
    simp only [List.mem_cons, List.not_mem_nil, or_false] at h
    rcases h with h | h | h
    · exact .inl h
    · exact .inr h
    · exact .inl h

theorem waiting_queue : (queueEmulator last).waiting start (queue last []).values =
    blockedDelegation :: if last then [blockedDelegation, plainDelegation]
      else [plainDelegation, blockedDelegation] := by
  cases last with
  | true =>
    change [blocked, blocked, plainResponse []].filterMap ((queueEmulator true).waits start) = _
    simp [waits_blocked, waits_plain]
  | false =>
    change [blocked, plainResponse [], blocked].filterMap ((queueEmulator false).waits start) = _
    simp [waits_blocked, waits_plain]

theorem entryFor_queued :
    signatureFor (queueEmulator last) (fun _ => some (params 10000)) noAnswer sign plainDelegation =
        .ok plainEntry ∧
      entryFor (queueEmulator last) (fun _ => some (params 10000)) noAnswer sign plainDelegation =
        some plainEntry :=
  entryFor_of_signed rfl rfl (checkDelegation_of_checked checked_plain rfl) rfl
    (by simp [sign, signWith_plain])

theorem queue_steady : Steady (queueEmulator last) noAnswer (fun _ => params 10000)
    (fun _ => params 10000) sign (fun n => queue last n.chain) start 4 start where
  knows _ := .inl rfl
  opens := by
    intro r hr
    rcases mem_queue last hr with rfl | rfl
    · exact (waits_blocked last).1
    · exact (waits_plain last).1
  distinct := by
    have hblocked : hashOfHex lib blocked.stakingTxHex = none := rfl
    have happart : ∀ hex, Apart lib blocked.stakingTxHex hex := by
      intro hex hash h
      cases hblocked.symm.trans h
    have happart' : ∀ hex, Apart lib hex blocked.stakingTxHex := by
      intro hex hash _ h
      cases hblocked.symm.trans h
    cases last with
    | true => exact .cons (fun _ _ => happart _) (.cons (fun _ _ => happart _)
        (.cons (by simp) .nil))
    | false =>
      refine .cons (fun _ _ => happart _) (.cons ?_ (.cons (by simp) .nil))
      intro hex hmem
      rw [List.mem_singleton.mp hmem]
      exact happart' _
  fuel_gt := by cases last <;> decide
  quiet := by
    intro d hd
    obtain ⟨r, hr, hwaits⟩ := List.mem_filterMap.mp hd
    rcases mem_queue last hr with rfl | rfl
    · obtain rfl : blockedDelegation = d := by simpa [waits_blocked] using hwaits
      exact id
    · obtain rfl : plainDelegation = d := by simpa [waits_plain] using hwaits
      rw [(entryFor_queued last).1]
      exact id

theorem queue_ends (n : Net MsgAddCovenantSigs (List MsgAddCovenantSigs)) :
    ¬ FullPages (queueEmulator last) (queue last n.chain) := by
  rintro ⟨-, hdvd⟩
  have hthree : (queue last n.chain).values.length = 3 := by cases last <;> rfl
  have hpage : min maxPaginationLimit.toNat (queueEmulator last).delegationLimit.toNat = 2 := rfl
  rw [hthree, hpage] at hdvd
  exact absurd hdvd (by decide)

end

/-- Two ticks: the first signs the delegation between the two others, the second none. -/
theorem queue_submits :
    start.submittedSince ((queueEmulator false).afterTicks 4 2 start) = [plainEntry] := by
  have hblocked : entryFor (queueEmulator false) (fun _ => some (params 10000)) noAnswer sign
      blockedDelegation = none := rfl
  have hplain := (entryFor_queued false).2
  have hlimit : (queueEmulator false).delegationLimit.toNat = 2 := rfl
  rw [afterTicks_submits (queueEmulator false) (queue_serving false) (by decide) (by decide)
    (by decide) (queue_steady false) (fun n => queue_ends false _) 2,
    show (queueEmulator false).waiting start (queue false start.env.chain).values = _ from
      waiting_queue false, hlimit]
  simp [List.range_succ, serve, signable, hblocked, hplain]

/-- Between the two others it is signed in the first tick. Behind them it never is: they keep the
two places of every tick. -/
theorem signed_between_starved_behind :
    plainEntry ∈ start.submittedSince ((queueEmulator false).afterTicks 4 1 start) ∧
      ¬ ∃ n, plainEntry ∈ start.submittedSince ((queueEmulator true).afterTicks 4 n start) := by
  constructor
  · have hwaiting : (queueEmulator false).waiting start (queue false start.env.chain).values =
        [blockedDelegation] ++ plainDelegation :: [blockedDelegation] := waiting_queue false
    obtain ⟨-, hbound⟩ := signed_iff_unblocked (queueEmulator false) (queue_serving false)
      (by decide) (by decide) (by decide) (queue_steady false) (fun n => queue_ends false _)
      hwaiting (entryFor_queued false).2
    obtain ⟨n, hn, hsubmitted⟩ := hbound (by decide)
    obtain rfl : n = 0 := by
      have hplaces : n * (2 - 1) ≤ 0 := hn
      omega
    exact hsubmitted
  · have hwaiting : (queueEmulator true).waiting start (queue true start.env.chain).values =
        [blockedDelegation, blockedDelegation] ++ plainDelegation :: [] := waiting_queue true
    have hiff := (signed_iff_unblocked (queueEmulator true) (queue_serving true) (by decide)
      (by decide) (by decide) (queue_steady true) (fun n => queue_ends true _) hwaiting
      (entryFor_queued true).2).1
    rw [hiff]
    decide

end Sample

end CovenantEmulator
