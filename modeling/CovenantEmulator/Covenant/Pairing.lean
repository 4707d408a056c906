import CovenantEmulator.Covenant.EndToEnd
import Mathlib.Data.List.ReduceOption

/-! The messages submitted for a list of delegations: one pair of signatures for each finality
provider, or no message. -/
namespace CovenantEmulator

open Golang

/-- An encryption key made from a finality provider's key is read back from its bytes. -/
def EncKeysSurvive (lib : BabylonLib) : Prop :=
  ∀ fpPk ek, lib.newEncryptionKeyFromBTCPK fpPk = .ok ek → SurvivesKey lib ek

/-- The request as the signer application reads it. -/
def ArrivesAs (lib : BabylonLib) (req : SigningRequest) (p : ParsedSigningRequest) : Prop :=
  ∃ wire, toSignTransactionRequest lib (covenantRequestToSignerRequest req) = .ok wire ∧
    parseSigningRequest lib wire = .ok p

section
variable {σ τ : Type} (ce : Emulator σ) (rs : RemoteSigner σ) (bc : BabylonController τ)

/-- The request the loop body sends for the delegation from `w`, and the state it finds the
signer in. -/
def Sends (d : Delegation) (w : World σ) (req : SigningRequest) (s : σ) : Prop :=
  ∃ P req₀ w₁ w₂, paramsGet ce.retry ce.cc d.paramsVersion w = (.ok P, w₁) ∧
    checkDelegation ce.lib d P ce.btcNetParams = .ok req₀ ∧
    ce.withStakeExp d req₀ w₁ = (.ok req, w₂) ∧ s = w₂.env

/-- No key conversion and no signature for the delegation fails. -/
structure AllSucceed (d : Delegation) (w : World σ) : Prop where
  keys : ∀ fpPk ∈ d.fpBtcPks, ∃ ek, ce.lib.newEncryptionKeyFromBTCPK fpPk = .ok ek
  signatures : ∀ req s, Sends ce d w req s → ∃ p sk, ArrivesAs ce.lib req p ∧
    rs.srv.handler.s.pkr.privKey s = .ok sk ∧ StrictlySigns ce.lib sk p ∧
    ∃ sig, stakeExpSigOf ce.lib sk p = .ok sig

/-- The message has the two signatures for each finality provider, at its position. -/
structure Paired (d : Delegation) (w : World σ) (msg : MsgAddCovenantSigs) : Prop where
  atLeastOne : 1 ≤ d.fpBtcPks.length
  slashing : msg.slashingTxSigs.length = d.fpBtcPks.length
  slashingUnbonding : msg.slashingUnbondingTxSigs.length = d.fpBtcPks.length
  encrypted : ∃ req s p sk, Sends ce d w req s ∧ ArrivesAs ce.lib req p ∧
    rs.srv.handler.s.pkr.privKey s = .ok sk ∧
    ∀ (i : ℕ) (fpPk : PublicKey), d.fpBtcPks[i]? = some fpPk →
      ∃ ek a b, ce.lib.newEncryptionKeyFromBTCPK fpPk = .ok ek ∧
        ce.lib.encSignTxWithOneScriptSpendInputStrict p.slashingTx p.stakingTx
          p.stakingOutputIdx p.slashingScript sk ek = .ok a ∧
        msg.slashingTxSigs[i]? = some a.mustMarshal ∧
        ce.lib.encSignTxWithOneScriptSpendInputStrict p.slashUnbondingTx p.unbondingTx 0
          p.unbondingSlashingScript sk ek = .ok b ∧
        msg.slashingUnbondingTxSigs[i]? = some b.mustMarshal
  stakeExpansion : msg.stakeExpansionTxSig.isSome = d.stakeExpansion.isSome

/-- What becomes of a delegation the loop reaches in `w`. -/
structure Fate (d : Delegation) (w : World σ) (result : Option CovenantSigs) : Prop where
  paired : ∀ entry, result = some entry → Paired ce rs d w (bc.msgAddCovenantSigs entry)
  nothing : ¬ AllSucceed ce rs d w → result = none

/-- The loop over the delegations, with what becomes of each. -/
inductive Collects (F : Delegation → World σ → Option CovenantSigs → Prop) :
    World σ → List (Option Delegation) → List (Option CovenantSigs) → World σ → Prop
  | nil (w : World σ) : Collects F w [] [] w
  | cons {d : Delegation} {w w₁ w₂ : World σ} {signed : Except String CovenantSigs}
    {dels : List (Option Delegation)} {results : List (Option CovenantSigs)}
    (hstep : ce.addCovenantSignature (some d) w = (.ok signed, w₁)) (hfate : F d w signed.toOption)
    (hrest : Collects F w₁ dels results w₂) :
    Collects F w (some d :: dels) (signed.toOption :: results) w₂

end

section
variable {σ τ : Type} {ce : Emulator σ} {rs : RemoteSigner σ} {bc : BabylonController τ}
  {d : Delegation} {w w' : World σ} {req req' : SigningRequest} {s s' : σ}
  {resp : SignaturesResponse} {entry : CovenantSigs}

/-- The request is determined by where the loop is. -/
theorem Sends.unique (h : Sends ce d w req s) (h' : Sends ce d w req' s') :
    req = req' ∧ s = s' := by
  obtain ⟨P, req₀, w₁, w₂, hP, hcheck, hreq, rfl⟩ := h
  obtain ⟨P', req₀', w₁', w₂', hP', hcheck', hreq', rfl⟩ := h'
  cases hP.symm.trans hP'
  cases hcheck.symm.trans hcheck'
  cases hreq.symm.trans hreq'
  exact ⟨rfl, rfl⟩

theorem Sends.approved (h : Sends ce d w req s) :
    ∃ cache, Approved ce cache d req := by
  obtain ⟨P, req₀, w₁, w₂, hP, hcheck, hreq, -⟩ := h
  obtain ⟨-, hcached⟩ := (paramsGet_spec (respects_any ce.cc) d.paramsVersion w).run hP
  obtain ⟨hchecked, hplain⟩ := checkDelegation_ok hcheck
  exact ⟨_, ((withStakeExp_spec (respects_any ce.cc) w₁ hcached hchecked hplain).run hreq).2⟩

/-- An entry holds the signer's answer to the request that was sent. -/
theorem addCovenantSignature_eq_ok
    (h : ce.addCovenantSignature (some d) w = (.ok (.ok entry), w')) :
    ∃ req resp s s', Sends ce d w req s ∧ ce.signer req s = (.ok resp, s') ∧
      entry = ce.covenantSigsOf req resp := by
  cases hud : d.btcUndelegation with
  | none =>
    rw [ce.addCovenantSignature_empty hud] at h
    cases h
  | some ud =>
    rw [ce.addCovenantSignature_some hud] at h
    obtain ⟨P, w₁, hP, h⟩ := Go.bind_eq_ok.mp h
    rw [Go.wrap_eq_ok] at hP
    have hsign : ce.signDelegation d P w₁ = (.ok entry, w') := by
      rw [Go.attempt_apply, Prod.mk.injEq, Outcome.attempt_eq_ok] at h
      exact Prod.ext h.1 h.2
    obtain ⟨req₀, w₂, hlift, hsign⟩ := Go.bind_eq_ok.mp hsign
    obtain ⟨hcheck, rfl⟩ := Go.lift_eq_ok.mp hlift
    obtain ⟨req, w₃, hreq, hsign⟩ := Go.bind_eq_ok.mp hsign
    obtain ⟨resp, w₄, hresp, hsign⟩ := Go.bind_eq_ok.mp hsign
    obtain ⟨rfl, -⟩ := Go.pure_eq_ok.mp hsign
    obtain ⟨_, w₅, hrec, hresp⟩ := Go.bind_eq_ok.mp hresp
    cases hrec
    rw [Go.wrap_eq_ok] at hresp
    obtain ⟨s', hresp, -⟩ := Go.zoom_eq_ok.mp hresp
    exact ⟨req, resp, w₃.env, s', ⟨P, req₀, w₁, w₃, hP, hcheck, hreq, rfl⟩, hresp, rfl⟩

/-- The keys the signer encrypts to are those of the finality providers, in their order. -/
theorem fpEncKeys_of_arrives (hkeys : EncKeysSurvive ce.lib) {p : ParsedSigningRequest}
    {P : StakingParams} (hchecked : Checked ce.lib ce.btcNetParams d P req)
    (h : ArrivesAs ce.lib req p) : d.fpBtcPks.mapM (encKeyOf ce.lib) = .ok p.fpEncKeys := by
  obtain ⟨wire, hsent, hparsed⟩ := h
  have hsurvive : ∀ key ∈ req.fpEncKeys, SurvivesKey ce.lib key := by
    intro key hkey
    obtain ⟨fpPk, -, hfpPk⟩ := Outcome.exists_of_mem_of_mapM hchecked.fpEncKeys hkey
    exact hkeys _ _ (encKeyOf_eq_ok.mp hfpPk)
  rw [fpEncKeys_of_sent hsurvive hsent hparsed]
  exact hchecked.fpEncKeys

section
variable (hlib : rs.srv.handler.s.lib = ce.lib) (hsigs : SignaturesSurvive ce.lib)
  (hundo : rs.srv.handler.codec.Undoes) (hkeys : EncKeysSurvive ce.lib)
include hlib hsigs hundo

/-- An answer of the remote signer was signed over the request that arrived. -/
theorem signWith_of_remote (h : rs.signTransactions req s = (.ok resp, s')) :
    ∃ p sk r, ArrivesAs ce.lib req p ∧ rs.srv.handler.s.pkr.privKey s = .ok sk ∧
      signWith ce.lib sk p = .ok r ∧ r.slashAdaptorSigs ≠ [] ∧
      resp = signerResponseToCovenantResponse r := by
  obtain ⟨r, hr, hconverted⟩ := signTransactions_remote_eq_ok.mp h
  obtain rfl := hconverted.eq_converted
  rw [← hlib] at hsigs
  obtain ⟨wire, p, hsent, hparsed, happ, hne⟩ := requestCovenantSignaure_ok hundo hsigs hr
  obtain ⟨-, sk, hsk, hwith⟩ := rs.srv.handler.s.signTransactions_eq_ok.mp happ
  rw [hlib] at hsent hparsed hwith
  exact ⟨p, sk, r, ⟨wire, hsent, hparsed⟩, hsk, hwith, hne, rfl⟩

theorem allSucceed_of_signed (hsends : Sends ce d w req s)
    (hsign : rs.signTransactions req s = (.ok resp, s')) : AllSucceed ce rs d w := by
  obtain ⟨cache, happr⟩ := hsends.approved
  obtain ⟨P, -, hchecked⟩ := happr.checked
  obtain ⟨p, sk, r, harrives, hsk, hwith, -, -⟩ := signWith_of_remote hlib hsigs hundo hsign
  obtain ⟨hstrict, hexp⟩ := signWith_strictlySigns hwith
  refine ⟨?_, ?_⟩
  · intro fpPk hfpPk
    obtain ⟨ek, -, hek⟩ := Outcome.exists_of_mem_mapM hchecked.fpEncKeys hfpPk
    exact ⟨ek, encKeyOf_eq_ok.mp hek⟩
  · intro req' s₁ hsends'
    obtain ⟨rfl, rfl⟩ := hsends.unique hsends'
    exact ⟨p, sk, harrives, hsk, hstrict, hexp⟩

include hkeys

theorem paired_of_signed (hsends : Sends ce d w req s)
    (hsign : rs.signTransactions req s = (.ok resp, s')) :
    Paired ce rs d w (bc.msgAddCovenantSigs (ce.covenantSigsOf req resp)) := by
  obtain ⟨cache, happr⟩ := hsends.approved
  obtain ⟨P, -, hchecked⟩ := happr.checked
  obtain ⟨p, sk, r, harrives, hsk, hwith, hne, rfl⟩ := signWith_of_remote hlib hsigs hundo hsign
  have hfps := Outcome.mapM_eq_ok.mp (fpEncKeys_of_arrives hkeys hchecked harrives)
  obtain ⟨hlen, hlen'⟩ := signWith_length hwith
  have hcount : r.slashAdaptorSigs.length = d.fpBtcPks.length := hlen.trans hfps.length_eq.symm
  have hpos := List.length_pos_of_ne_nil hne
  refine ⟨by omega, hcount, hlen'.trans hfps.length_eq.symm, ?_, ?_⟩
  · refine ⟨req, s, p, sk, hsends, harrives, hsk, ?_⟩
    intro i fpPk hfpPk
    obtain ⟨hi, rfl⟩ := List.getElem?_eq_some_iff.mp hfpPk
    have hi' : i < p.fpEncKeys.length := hfps.length_eq ▸ hi
    obtain ⟨a, b, ha, hmsgA, hb, hmsgB⟩ :=
      signWith_getElem hwith (List.getElem?_eq_getElem hi')
    exact ⟨_, a, b, encKeyOf_eq_ok.mp (hfps.get hi hi'), ha, hmsgA, hb, hmsgB⟩
  · obtain ⟨wire, hsent, hparsed⟩ := harrives
    have hexp := (signWith_stakeExp hwith).trans (stakeExp_of_sent hsent hparsed)
    have hreq : req.stakeExp.isSome = d.stakeExpansion.isSome := by
      cases hd : d.stakeExpansion with
      | none =>
        rw [happr.plain hd]
        rfl
      | some exp =>
        obtain ⟨stk, -, hstk, -⟩ := happr.stakeExp exp hd
        rw [hstk]
        rfl
    rw [← hreq]
    simpa [BabylonController.msgAddCovenantSigs, BabylonController.msgFrom, Emulator.covenantSigsOf,
      signerResponseToCovenantResponse, covenantRequestToSignerRequest] using hexp

/-- One step of the loop. -/
theorem addCovenantSignature_fate (hsigner : ce.signer = rs.signTransactions)
    {signed : Except String CovenantSigs}
    (h : ce.addCovenantSignature (some d) w = (.ok signed, w')) :
    Fate ce rs bc d w signed.toOption := by
  cases signed with
  | error e => exact ⟨by simp [Except.toOption], fun _ => rfl⟩
  | ok entry =>
    obtain ⟨req, resp, s, s', hsends, hsign, rfl⟩ := addCovenantSignature_eq_ok h
    rw [hsigner] at hsign
    refine ⟨?_, ?_⟩
    · rintro _ ⟨rfl⟩
      exact paired_of_signed hlib hsigs hundo hkeys hsends hsign
    · intro hfails
      exact (hfails (allSucceed_of_signed hlib hsigs hundo hsends hsign)).elim

/-- The whole loop. -/
theorem foldlM_collects (bc : BabylonController τ) (hsigner : ce.signer = rs.signTransactions)
    {btcDels : List (Option Delegation)} {covenantSigs sigs : List CovenantSigs}
    (h : btcDels.foldlM ce.collectStep covenantSigs w = (.ok sigs, w')) :
    ∃ results, Collects ce (Fate ce rs bc) w btcDels results w' ∧
      sigs = covenantSigs ++ results.reduceOption := by
  induction btcDels generalizing covenantSigs w with
  | nil =>
    cases h
    exact ⟨[], .nil _, by simp⟩
  | cons btcDel btcDels ih =>
    rw [List.foldlM_cons] at h
    obtain ⟨covenantSigs', w₁, hstep, h⟩ := Go.bind_eq_ok.mp h
    obtain ⟨signed, w₂, hsigned, hstep⟩ := Go.bind_eq_ok.mp hstep
    cases hstep
    obtain ⟨results, hrest, hsigs'⟩ := ih h
    cases btcDel with
    | none => cases hsigned
    | some d =>
      have hfate : Fate ce rs bc d w signed.toOption :=
        addCovenantSignature_fate hlib hsigs hundo hkeys hsigner hsigned
      refine ⟨signed.toOption :: results, .cons hsigned hfate hrest, ?_⟩
      rw [hsigs']
      cases signed <;> simp [Except.toOption]

end

/-- Nothing was submitted on the way from `w` to `w'`. -/
def NoSubmission (w w' : World σ) : Prop :=
  ∀ sigs, Event.submitting sigs ∈ w'.trace → Event.submitting sigs ∈ w.trace

theorem NoSubmission.trans {w₁ w₂ w₃ : World σ} (h : NoSubmission w₁ w₂)
    (h' : NoSubmission w₂ w₃) : NoSubmission w₁ w₃ := fun sigs hmem => h sigs (h' sigs hmem)

theorem Quiet.noSubmission {R : σ → σ → Prop} (h : Quiet R w w') : NoSubmission w w' := by
  intro sigs hmem
  obtain ⟨new, hnew, hquiet⟩ := h.trace
  rw [hnew] at hmem
  rcases List.mem_append.mp hmem with hmem | hmem
  · exact hmem
  · obtain ⟨v, answer, he⟩ := hquiet _ hmem
    cases he

theorem signTransactions_noSubmission (ce : Emulator σ) (d : Delegation) (req : SigningRequest)
    (w : World σ) :
    Triple (ce.signTransactions d req) w (fun _ w' => NoSubmission w w') (NoSubmission w) := by
  refine Triple.bind (Q := fun _ w' => NoSubmission w w') (.modify ?_) ?_
  · intro sigs hmem
    simpa using hmem
  · intro _ w₁ hw₁
    refine .wrap ((onEnv_spec (R := fun _ _ => True) w₁ fun _ => trivial).mono ?_ ?_)
    · exact fun _ _ h => hw₁.trans h.1.noSubmission
    · exact fun _ h => hw₁.trans h.noSubmission

theorem signDelegation_noSubmission (ce : Emulator σ) {P : StakingParams}
    (hP : w.paramsByVersion d.paramsVersion = some P) :
    Triple (ce.signDelegation d P) w (fun _ w' => NoSubmission w w') (NoSubmission w) := by
  refine Triple.bind (Q := fun req w' => w = w' ∧ Checked ce.lib ce.btcNetParams d P req ∧
    req.stakeExp = none) (.lift (fun _ h => ⟨rfl, checkDelegation_ok h⟩) fun _ h => h) ?_
  rintro req _ ⟨rfl, hchecked, hplain⟩
  refine Triple.bind ((withStakeExp_spec (respects_any ce.cc) w hP hchecked hplain).mono
    (fun _ _ h => h.1.noSubmission) fun _ h => h.noSubmission) ?_
  intro req' w₁ hw₁
  refine Triple.bind ((signTransactions_noSubmission ce d req' w₁).mono
    (fun _ _ h => hw₁.trans h) fun _ h => hw₁.trans h) ?_
  intro resp w₂ hw₂
  exact .pure hw₂

theorem addCovenantSignature_noSubmission (ce : Emulator σ) (btcDel : Option Delegation)
    (w : World σ) :
    Triple (ce.addCovenantSignature btcDel) w (fun _ w' => NoSubmission w w') (NoSubmission w) := by
  have hrefl : NoSubmission w w := fun _ h => h
  refine Triple.bind (Q := fun _ w' => w = w') (.lift (fun _ _ => rfl) hrefl) ?_
  rintro d _ rfl
  split
  · exact .pure hrefl
  · refine Triple.bind (.wrap ((paramsGet_spec (respects_any ce.cc) _ w).mono
      (fun _ _ h => h) fun _ h => h.noSubmission)) ?_
    rintro P w₁ ⟨hq, hP⟩
    have hw₁ := hq.noSubmission
    have hsign := signDelegation_noSubmission ce (d := d) hP
    refine .attempt (hsign.mono (fun _ _ h => hw₁.trans h) fun _ h => hw₁.trans h) ?_
    exact fun _ h _ => h

theorem collectSigs_noSubmission (ce : Emulator σ) (btcDels : List (Option Delegation))
    (w : World σ) :
    Triple (ce.collectSigs btcDels) w (fun _ w' => NoSubmission w w') (NoSubmission w) := by
  refine Triple.foldlM (fun _ _ w' => NoSubmission w w') (fun _ h => h) ?_
  intro pre btcDel post sigs w₁ _ hw₁
  refine Triple.bind ((addCovenantSignature_noSubmission ce btcDel w₁).mono
    (fun _ _ h => hw₁.trans h) fun _ h => hw₁.trans h) ?_
  intro signed w₂ hw₂
  exact .pure hw₂

/-- What is submitted is what the loop has collected. -/
theorem collectSigs_of_submitting {btcDels : List (Option Delegation)} {env : σ}
    {cache : UInt32 → Option StakingParams} {o : Outcome TxResponse} {sigs : List CovenantSigs}
    (hrun : ce.addCovenantSignatures btcDels ⟨env, cache, []⟩ = (o, w'))
    (hmem : Event.submitting sigs ∈ w'.trace) :
    ∃ w₁, ce.collectSigs btcDels ⟨env, cache, []⟩ = (.ok sigs, w₁) := by
  have hsilent : ∀ w₁, NoSubmission ⟨env, cache, []⟩ w₁ → Event.submitting sigs ∉ w₁.trace := by
    intro w₁ h hmem
    cases h sigs hmem
  have hcollect := collectSigs_noSubmission ce btcDels ⟨env, cache, []⟩
  by_cases hne : btcDels = []
  · subst hne
    cases hrun
    cases hmem
  · rcases hsigs : ce.collectSigs btcDels ⟨env, cache, []⟩ with ⟨o₁, w₁⟩
    cases o₁ with
    | ok sigs' =>
      rw [ce.addCovenantSignatures_of_collected hne hsigs] at hrun
      cases hrun
      rcases List.mem_append.mp hmem with hmem | hmem
      · exact (hsilent w₁ (hcollect.run hsigs) hmem).elim
      · cases List.mem_singleton.mp hmem
        exact ⟨w₁, rfl⟩
    | _ =>
      have hw₁ := Triple.state_iff.mp hcollect
      rw [hsigs] at hw₁
      rw [Emulator.addCovenantSignatures, if_neg (by simpa using hne), Go.bind_apply, hsigs] at hrun
      cases hrun
      exact (hsilent _ hw₁ hmem).elim

/-- The messages submitted for a list of delegations, with the remote signer. -/
theorem submitted_messages_paired (bc : BabylonController τ)
    (hlib : rs.srv.handler.s.lib = ce.lib) (hsigs : SignaturesSurvive ce.lib)
    (hundo : rs.srv.handler.codec.Undoes) (hkeys : EncKeysSurvive ce.lib)
    (hsigner : ce.signer = rs.signTransactions) {btcDels : List (Option Delegation)} {env : σ}
    {cache : UInt32 → Option StakingParams} {o : Outcome TxResponse} {sigs : List CovenantSigs}
    (hrun : ce.addCovenantSignatures btcDels ⟨env, cache, []⟩ = (o, w'))
    (hmem : Event.submitting sigs ∈ w'.trace) :
    ∃ results w₁, Collects ce (Fate ce rs bc) ⟨env, cache, []⟩ btcDels results w₁ ∧
      sigs = results.reduceOption := by
  obtain ⟨w₁, hcollect⟩ := collectSigs_of_submitting hrun hmem
  obtain ⟨results, hcollects, hsigs'⟩ :=
    foldlM_collects hlib hsigs hundo hkeys bc hsigner hcollect
  exact ⟨results, w₁, hcollects, by simpa using hsigs'⟩

end

namespace Sample

theorem encKeysSurvive_table : EncKeysSurvive lib := by
  rintro fpPk ek ⟨rfl⟩
  have hlen : (serializeCompressed fpPk).length = 33 := by simp [serializeCompressed]
  simp [SurvivesKey, lib, TxTable.lib, hlen]

/-- A controller of a node that knows one delegation and takes every batch. -/
def controller : BabylonController Unit where
  lib := lib
  bbnClient :=
    { btcCheckpointParams := Go.fail "not asked"
      btcStakingParamsByVersion := fun _ => Go.fail "not asked"
      btcDelegation := fun _ => pure (plainResponse [])
      btcDelegations := fun _ _ => Go.fail "not asked"
      reliablySendMsgs := fun _ => pure (some ⟨"A1", []⟩) }
  keyAddress := .ok "bbn1remote"
  txSigner := "bbn1remote"
  keyed := rfl
  errDuplicatedCovenantSig := duplicated
  maxRetiresBatchRemovingMsgs := 0

/-- The emulator over that node and a remote signer. -/
abbrev remoteEmulator : Emulator (Net MsgAddCovenantSigs Unit) :=
  emulator controller.toClientController expansionRemote.signTransactions

theorem queryBTCDelegation_controller (hash : String) (n : Net MsgAddCovenantSigs Unit) :
    controller.toClientController.queryBTCDelegation hash n = (.ok plainDelegation, n) := by
  have h : controller.toClientController.queryBTCDelegation hash n =
      (delegationRespToDelegation lib (plainResponse []), n) := rfl
  rw [h, delegationRespToDelegation_plain]

/-- The message for the expansion: two signatures for each kind of slashing, one of the unbonding
and one of the expansion. -/
def expansionEntry : CovenantSigs where
  publicKey := covenantKey
  stakingTxHash := lib.txHash expansionTx
  slashingSigs := providers.map fun fpPk =>
    (TxTable.adaptorSignature ⟨serializeCompressed fpPk⟩).mustMarshal
  unbondingSig := ⟨List.replicate 64 2⟩
  slashingUnbondingSigs := providers.map fun fpPk =>
    (TxTable.adaptorSignature ⟨serializeCompressed fpPk⟩).mustMarshal
  stkExpSig := some ⟨List.replicate 64 3⟩

/-- A stake expansion with two finality providers, submitted with a pair of signatures for each. -/
theorem expansion_messages_paired : ∃ w' results w₁,
    remoteEmulator.addCovenantSignatures [some expansionDelegation] (world ⟨(), []⟩ 10000) =
        (.ok ⟨"A1", []⟩, w') ∧
      Event.submitting [expansionEntry] ∈ w'.trace ∧ expansionEntry.slashingSigs.length = 2 ∧
      Collects remoteEmulator (Fate remoteEmulator expansionRemote controller)
        (world ⟨(), []⟩ 10000) [some expansionDelegation] results w₁ ∧
      [expansionEntry] = results.reduceOption := by
  have hprev := queryBTCDelegation_controller stakeExpansion.previousStakingTxHashHex ⟨(), []⟩
  have hsigner : remoteEmulator.signer = expansionRemote.signTransactions := rfl
  have hsign := remote_expansion (⟨(), []⟩ : Net MsgAddCovenantSigs Unit)
  rw [← hsigner] at hsign
  have hpasses : Passes remoteEmulator expansionDelegation (world ⟨(), []⟩ 10000)
      (world ⟨(), []⟩ 10000) (stakeExpRequest 0) (signerResponseToCovenantResponse
        (signatures (some ⟨List.replicate 64 3⟩))) ⟨(), []⟩ :=
    passes_expansion rfl rfl rfl hprev hsign
  have hentry : remoteEmulator.covenantSigsOf (stakeExpRequest 0) (signerResponseToCovenantResponse
      (signatures (some ⟨List.replicate 64 3⟩))) = expansionEntry := rfl
  have hrun := addCovenantSignatures_of_passes hpasses
  rw [hentry] at hrun
  have hmem := submitting_mem_trace ((world ⟨(), []⟩ 10000).signed expansionDelegation
    (stakeExpRequest 0) ⟨(), []⟩) controller.toClientController [expansionEntry]
  obtain ⟨results, w₁, hcollects, hsigs⟩ := submitted_messages_paired controller rfl
    (table_signaturesSurvive table) (codec_undoes _ _) encKeysSurvive_table hsigner hrun hmem
  exact ⟨_, results, w₁, hrun, hmem, rfl, hcollects, hsigs⟩

end Sample

end CovenantEmulator
