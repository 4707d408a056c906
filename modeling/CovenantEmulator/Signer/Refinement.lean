import CovenantEmulator.Sample.Remote

/-! Remote signing against a direct call of the signer application. -/
namespace CovenantEmulator

open Golang

/-- A request of the emulator in the terms of the signer application, each field under its name
there. -/
def directRequest (req : SigningRequest) : ParsedSigningRequest where
  stakingTx := req.stakingTx
  slashingTx := req.slashingTx
  unbondingTx := req.unbondingTx
  slashUnbondingTx := req.slashUnbondingTx
  stakeExp := req.stakeExp.map fun stk =>
    { previousActiveStakeTx := stk.previousActiveStakeTx
      otherFundingOutput := stk.otherFundingOutput
      previousStakingOutputIdx := stk.previousStakingOutputIdx
      previousActiveStakeUnbondingScript := stk.previousActiveStakeUnbondingPkScriptPath }
  stakingOutputIdx := req.stakingOutputIdx
  slashingScript := req.slashingPkScriptPath
  unbondingScript := req.stakingTxUnbondingPkScriptPath
  unbondingSlashingScript := req.unbondingTxSlashingPkScriptPath
  fpEncKeys := req.fpEncKeys

/-- The four fields of a response are those of the application's response. -/
structure SameSignatures (resp : SignaturesResponse) (r : ParsedSigningResponse) : Prop where
  slashSigs : resp.slashSigs = r.slashAdaptorSigs
  unbondingSig : resp.unbondingSig = r.unbondingSig
  slashUnbondingSigs : resp.slashUnbondingSigs = r.slashUnbondingAdaptorSigs
  stkExtSig : resp.stkExtSig = r.stakeExpSig

/-- The conversion of the code keeps every field. -/
theorem covenantRequestToSignerRequest_eq (req : SigningRequest) :
    covenantRequestToSignerRequest req = directRequest req := rfl

theorem sameSignatures_converted (r : ParsedSigningResponse) :
    SameSignatures (signerResponseToCovenantResponse r) r := ⟨rfl, rfl, rfl, rfl⟩

theorem SameSignatures.eq_converted {resp : SignaturesResponse} {r : ParsedSigningResponse}
    (h : SameSignatures resp r) : resp = signerResponseToCovenantResponse r := by
  obtain ⟨h₁, h₂, h₃, h₄⟩ := h
  cases resp
  cases h₁
  cases h₂
  cases h₃
  cases h₄
  rfl

section
variable {σ : Type} (rs : RemoteSigner σ) (req : SigningRequest) (s : σ)

/-- The direct call. -/
def signLocally : Outcome ParsedSigningResponse × σ :=
  rs.srv.handler.s.signTransactions (directRequest req) s

/-- The requests on which both calls are to fail together. -/
structure InRange : Prop where
  slashingScript : req.slashingPkScriptPath ≠ []
  unbondingScript : req.stakingTxUnbondingPkScriptPath ≠ []
  unbondingSlashingScript : req.unbondingTxSlashingPkScriptPath ≠ []
  fpEncKeys : req.fpEncKeys ≠ []
  hmacKey : rs.cfg.hmacKey = rs.srv.hmacKey
  requestFits : ∃ wire bs, toSignTransactionRequest rs.srv.handler.s.lib (directRequest req) =
      .ok wire ∧
    rs.srv.handler.codec.marshalSignTransactionsRequest wire = .ok bs ∧
    bs.length ≤ rs.srv.maxContentLength.toNat
  responseFits : ∀ resp s', signLocally rs req s = (.ok resp, s') → ∃ bs,
    rs.srv.handler.codec.marshalResult (.signTransactions (toResponse resp)) = .ok bs ∧
    bs.length ≤ maxResponseSize

/-- The remote call returns an error or the four fields of the direct call, and in range it
returns an error exactly when the direct call does. -/
def RefinesLocal : Prop :=
  ((∃ e s', rs.signTransactions req s = (.error e, s')) ∨
    ∃ resp r s', rs.signTransactions req s = (.ok resp, s') ∧
      signLocally rs req s = (.ok r, s') ∧ SameSignatures resp r) ∧
  (InRange rs req s →
    ((∃ e s', rs.signTransactions req s = (.error e, s')) ↔
      ∃ e s', signLocally rs req s = (.error e, s')))

/-- The key is there and makes the signatures over the new stake, and the request names an
output of the previous stake that is not there. -/
def ReadsMissingOutput : Prop :=
  ∃ sk, rs.srv.handler.s.pkr.privKey s = .ok sk ∧
    StrictlySigns rs.srv.handler.s.lib sk (directRequest req) ∧
    PrevOutputMissing (directRequest req)

end

section
variable {σ : Type} {rs : RemoteSigner σ} {req : SigningRequest} {s s' : σ}

theorem signTransactions_remote_eq_ok {resp : SignaturesResponse} :
    rs.signTransactions req s = (.ok resp, s') ↔ ∃ r,
      requestCovenantSignaure rs.srv rs.cfg (directRequest req) s = (.ok r, s') ∧
        SameSignatures resp r := by
  unfold RemoteSigner.signTransactions
  rw [covenantRequestToSignerRequest_eq]
  constructor
  · intro h
    obtain ⟨r, s₁, hr, h⟩ := Go.bind_eq_ok.mp h
    cases h
    exact ⟨r, hr, sameSignatures_converted r⟩
  · rintro ⟨r, hr, hsame⟩
    rw [Go.bind_of_ok hr, hsame.eq_converted]
    rfl

/-- The remote call ends in a value or in an error. -/
theorem signTransactions_remote_cases (rs : RemoteSigner σ) (req : SigningRequest) (s : σ) :
    (∃ e s', rs.signTransactions req s = (.error e, s')) ∨
      ∃ resp s', rs.signTransactions req s = (.ok resp, s') := by
  have hret : (rs.signTransactions req s).1.Returns :=
    Go.bind_returns.mpr ⟨requestCovenantSignaure_returns, fun _ _ _ => trivial⟩
  revert hret
  rcases rs.signTransactions req s with ⟨resp | e | _ | _, s'⟩
  · exact fun _ => .inr ⟨resp, s', rfl⟩
  · exact fun _ => .inl ⟨e, s', rfl⟩
  · exact False.elim
  · exact False.elim

theorem signLocally_panics : (signLocally rs req s).1.Panics ↔ ReadsMissingOutput rs req s :=
  rs.srv.handler.s.signTransactions_panics

variable (hundo : rs.srv.handler.codec.Undoes)
  (hsurv : Survives rs.srv.handler.s.lib (directRequest req))
  (hsigs : SignaturesSurvive rs.srv.handler.s.lib)
include hundo hsurv hsigs

/-- A value from the remote call is the value of the direct call. -/
theorem signLocally_of_remote {resp : SignaturesResponse}
    (h : rs.signTransactions req s = (.ok resp, s')) : ∃ r,
      signLocally rs req s = (.ok r, s') ∧ SameSignatures resp r := by
  obtain ⟨r, hr, hsame⟩ := signTransactions_remote_eq_ok.mp h
  obtain ⟨wire, p', hsent, hparsed, hsign, -⟩ := requestCovenantSignaure_ok hundo hsigs hr
  obtain rfl := eq_of_parseSigningRequest hsurv hsent hparsed
  exact ⟨r, hsign, hsame⟩

/-- In range a value of the direct call comes back from the remote call. -/
theorem remote_of_signLocally (hrange : InRange rs req s) {r : ParsedSigningResponse}
    (h : signLocally rs req s = (.ok r, s')) :
    ∃ resp, rs.signTransactions req s = (.ok resp, s') ∧ SameSignatures resp r := by
  obtain ⟨-, sk, -, hwith⟩ := rs.srv.handler.s.signTransactions_eq_ok.mp h
  obtain ⟨hlen, hlen'⟩ := signWith_length hwith
  have hpos : 0 < req.fpEncKeys.length := List.length_pos_iff.mpr hrange.fpEncKeys
  have hkeys : (directRequest req).fpEncKeys.length = req.fpEncKeys.length := rfl
  obtain ⟨hunbonding, hstakeExp⟩ := signWith_survives hsigs hwith
  obtain ⟨wire, bs, hsent, hmarshal, hfits⟩ := hrange.requestFits
  have hparsed := parseSigningRequest_of_sent hsurv hrange.slashingScript hrange.unbondingScript
    hrange.unbondingSlashingScript hsent
  obtain ⟨bs', hbody, hfits'⟩ := hrange.responseFits r s' h
  have hback : toParsedSigningResponse rs.srv.handler.s.lib (toResponse r) = .ok r := by
    refine toParsedSigningResponse_toResponse ?_ ?_ hunbonding hstakeExp
    · exact List.length_pos_iff.mp (by omega)
    · exact List.length_pos_iff.mp (by omega)
  have hremote := (requestCovenantSignaure_eq_ok hundo).mpr
    ⟨wire, bs, _, r, bs', hsent, hmarshal, reaches_of_valid hfits (.inr (by rw [hrange.hmacKey])),
      hparsed, h, hbody, hfits', hback⟩
  exact ⟨_, signTransactions_remote_eq_ok.mpr ⟨r, hremote, sameSignatures_converted r⟩,
    sameSignatures_converted r⟩

/-- A panic of the direct call comes back from the remote call as an error. -/
theorem not_refinesLocal_of_missing (hrange : InRange rs req s)
    (hmissing : ReadsMissingOutput rs req s) : ¬ RefinesLocal rs req s := by
  rintro ⟨-, hiff⟩
  rcases signTransactions_remote_cases rs req s with herr | ⟨r, s', hr⟩
  · obtain ⟨e, s', hlocal⟩ := (hiff hrange).mp herr
    rw [← signLocally_panics, hlocal] at hmissing
    exact hmissing
  · obtain ⟨r', hlocal, -⟩ := signLocally_of_remote hundo hsurv hsigs hr
    rw [← signLocally_panics, hlocal] at hmissing
    exact hmissing

/-- Remote signing refines direct signing, but for the panic of the direct call. -/
theorem refinesLocal_iff :
    RefinesLocal rs req s ↔ (InRange rs req s → ¬ ReadsMissingOutput rs req s) := by
  have hdiv : (signLocally rs req s).1 ≠ .diverged :=
    rs.srv.handler.s.signTransactions_ne_diverged _ _
  constructor
  · intro h hrange hmissing
    exact not_refinesLocal_of_missing hundo hsurv hsigs hrange hmissing h
  · intro hok
    refine ⟨?_, fun hrange => ⟨?_, ?_⟩⟩
    · rcases signTransactions_remote_cases rs req s with herr | ⟨r, s', hr⟩
      · exact .inl herr
      · obtain ⟨r', hlocal, hsame⟩ := signLocally_of_remote hundo hsurv hsigs hr
        exact .inr ⟨r, r', s', hr, hlocal, hsame⟩
    · rintro ⟨e, s', herr⟩
      have hnot := signLocally_panics.not.mpr (hok hrange)
      rcases hlocal : signLocally rs req s with ⟨r | e' | msg | _, s₁⟩
      · obtain ⟨resp, hr, -⟩ := remote_of_signLocally hundo hsurv hsigs hrange hlocal
        rw [herr] at hr
        cases hr
      · exact ⟨e', s₁, rfl⟩
      · rw [hlocal] at hnot
        exact absurd trivial hnot
      · rw [hlocal] at hdiv
        exact absurd rfl hdiv
    · rintro ⟨e, s', hlocal⟩
      rcases signTransactions_remote_cases rs req s with herr | ⟨r, s₁, hr⟩
      · exact herr
      · obtain ⟨r', hlocal', -⟩ := signLocally_of_remote hundo hsurv hsigs hr
        rw [hlocal] at hlocal'
        cases hlocal'

end

namespace Sample

theorem length_jsonStakeExpansion_le (req : StakeExpansionRequest) :
    (jsonStakeExpansion req).length ≤ 150 + req.previousActiveStakeTxHex.toList.length +
      req.otherFundingOutputHex.toList.length +
      (Json.number req.prevStakingOutputIdx.toNat).length +
      req.previousActiveStakeUnbondingScriptHex.toList.length := by
  refine (Json.length_object_le _).trans ?_
  simp only [List.map_cons, List.map_nil, List.sum_cons, List.sum_nil, Json.length_string,
    String.reduceToList, List.length_cons, List.length_nil]
  omega

theorem length_jsonRequest_le {req : SignTransactionsRequest} {key key' : String}
    (hkeys : req.fpEncKeys = [key, key']) :
    (jsonRequest req).length ≤ 300 + req.stakingTxHex.toList.length +
      req.slashingTxHex.toList.length + req.unbondingTxHex.toList.length +
      req.slashUnbondingTxHex.toList.length + (Json.number req.stakingOutputIdx.toNat).length +
      req.slashingScriptHex.toList.length + req.unbondingScriptHex.toList.length +
      req.unbondingSlashingScriptHex.toList.length + key.toList.length + key'.toList.length +
      (req.stakeExpansion.toList.map fun e => (jsonStakeExpansion e).length).sum := by
  have harray := Json.length_array_le (req.fpEncKeys.map Json.string)
  refine (Json.length_object_le (requestFields req)).trans ?_
  cases hexp : req.stakeExpansion <;>
    simp only [requestFields, hkeys, hexp, Option.toList, List.map_append, List.map_cons,
      List.map_nil, List.sum_append, List.sum_cons, List.sum_nil, Json.length_string,
      String.reduceToList, List.length_cons, List.length_nil] at harray ⊢ <;> omega

theorem length_serializeCompressed (pk : PublicKey) : (serializeCompressed pk).length = 33 := by
  simp [serializeCompressed]

theorem length_wire_le : ∀ tx ∈ knownTxs.map KnownTx.tx, tx.wire.length ≤ 200 := by decide +kernel

/-- A request over known transactions is small. -/
theorem length_jsonRequest_wire {staking slashing unbonding slashUnbonding : MsgTx}
    (hknown : ∀ tx ∈ [staking, slashing, unbonding, slashUnbonding],
      tx ∈ knownTxs.map KnownTx.tx) {exp : Option StakeExpansionRequest}
    (hexp : ∀ e ∈ exp, (jsonStakeExpansion e).length ≤ 1000) :
    (jsonRequest (wireRequest staking slashing unbonding slashUnbonding exp)).length ≤ 5000 := by
  have hwire : ∀ tx ∈ [staking, slashing, unbonding, slashUnbonding], tx.wire.length ≤ 200 :=
    fun tx htx => length_wire_le tx (hknown tx htx)
  have hslashing : (slashingLeaf staker providers committee 2).length = 208 := by decide +kernel
  have hunbonding : (unbondingLeaf staker committee 2).length = 138 := by decide +kernel
  have hidx : (Json.number (0 : UInt32).toNat).length = 1 := by decide
  refine (length_jsonRequest_le rfl).trans ?_
  simp only [List.forall_mem_cons, wireRequest, txHex, Hex.length_toList_encodeToString,
    hslashing, hunbonding, length_serializeCompressed, hidx] at hwire ⊢
  cases exp with
  | none =>
    simp only [Option.toList, List.map_nil, List.sum_nil]
    omega
  | some e =>
    have hlen := hexp e rfl
    simp only [Option.toList, List.map_cons, List.map_nil, List.sum_cons, List.sum_nil]
    omega

theorem length_jsonRequest_expansion {idx : UInt32} (hidx : (Json.number idx.toNat).length = 1) :
    (jsonRequest (expansionWire idx)).length ≤ 5000 := by
  have hwire : stakingTx.wire.length = 125 := by decide +kernel
  have hout : fundingTxOut.wire.length = 31 := by decide +kernel
  have hunbonding : (unbondingLeaf staker committee 2).length = 138 := by decide +kernel
  have hexp : (jsonStakeExpansion (wireStakeExpansion idx)).length ≤ 1000 := by
    refine (length_jsonStakeExpansion_le _).trans ?_
    simp only [wireStakeExpansion, txHex, Hex.length_toList_encodeToString, hwire, hout,
      hunbonding, hidx]
    decide
  unfold expansionWire
  refine length_jsonRequest_wire (by decide) fun e he => ?_
  rw [Option.mem_some_iff] at he
  rwa [← he]

theorem toSignTransactionRequest_plain :
    toSignTransactionRequest lib (covenantRequestToSignerRequest plainRequest) = .ok plainWire :=
  rfl

theorem marshal_request (req : SignTransactionsRequest) (resp : SignTransactionsResponse) :
    (codec req resp).marshalSignTransactionsRequest req = .ok (jsonRequest req) := by
  simp [codec]

theorem marshal_response (req : SignTransactionsRequest) (resp : SignTransactionsResponse) :
    (codec req resp).marshalResult (.signTransactions resp) = .ok (jsonResponse resp) := by
  simp [codec]

theorem length_jsonResponse_le {resp : SignTransactionsResponse} {sig₁ sig₂ : String}
    (hsigs : resp.slashingTransactionsAdaptorSignatures = [sig₁, sig₂])
    (hsigs' : resp.slashUnbondingTransactionsAdaptorSignatures = [sig₁, sig₂]) :
    (jsonResponse resp).length ≤ 300 + 2 * (sig₁.toList.length + sig₂.toList.length) +
      resp.unbondingTransactionSignature.toList.length +
      resp.stakeExpansionTransactionSignature.toList.length := by
  have harray := Json.length_array_le (resp.slashingTransactionsAdaptorSignatures.map Json.string)
  have harray' :=
    Json.length_array_le (resp.slashUnbondingTransactionsAdaptorSignatures.map Json.string)
  have hdata := Json.length_object_le (responseFields resp)
  refine (Json.length_object_le _).trans ?_
  simp only [responseFields, hsigs, hsigs', List.map_cons, List.map_nil, List.sum_cons,
    List.sum_nil, Json.length_string, String.reduceToList, List.length_cons, List.length_nil]
    at harray harray' hdata ⊢
  omega

theorem length_jsonResponse_signatures {stakeExpSig : Option Signature}
    (h : (toResponse (signatures stakeExpSig)).stakeExpansionTransactionSignature.toList.length ≤
      128) :
    (jsonResponse (toResponse (signatures stakeExpSig))).length ≤ maxResponseSize := by
  have hlen : ∀ fpPk : PublicKey,
      (TxTable.adaptorSignature ⟨serializeCompressed fpPk⟩).mustMarshal.length = 65 := by
    intro fpPk
    simp [TxTable.adaptorSignature, length_serializeCompressed]
  have hunbonding :
      (toResponse (signatures stakeExpSig)).unbondingTransactionSignature.toList.length = 128 := by
    simp only [toResponse, signatures, Hex.length_toList_encodeToString, List.length_replicate]
  refine (length_jsonResponse_le rfl rfl).trans ?_
  rw [hunbonding, Hex.length_toList_encodeToString, Hex.length_toList_encodeToString, hlen, hlen]
  refine (Nat.add_le_add_left h _).trans ?_
  decide

section
variable {σ : Type} {req : SigningRequest} {wire : SignTransactionsRequest}
  {resp : ParsedSigningResponse}

theorem signLocally_of_signWith (h : signWith lib signingKey (directRequest req) = .ok resp)
    (s : σ) : signLocally (remote wire (toResponse resp)) req s = (.ok resp, s) :=
  (remote wire (toResponse resp)).srv.handler.s.signTransactions_eq_ok.mpr
    ⟨rfl, signingKey, rfl, h⟩

theorem inRange_request {staking slashing unbonding slashUnbonding : MsgTx}
    {stk : Option SigningRequestStkExp} {s : σ}
    (hreq : req = { request staking slashing unbonding slashUnbonding with stakeExp := stk })
    (hwire : toSignTransactionRequest lib (directRequest req) = .ok wire)
    (hfits : (jsonRequest wire).length ≤ 5000)
    (hresp : ∀ r s', signLocally (remote wire (toResponse resp)) req s = (.ok r, s') → r = resp)
    (hsize : (jsonResponse (toResponse resp)).length ≤ maxResponseSize) :
    InRange (remote wire (toResponse resp)) req s := by
  subst hreq
  exact
    { slashingScript := show slashingLeaf staker providers committee 2 ≠ [] by decide
      unbondingScript := show unbondingLeaf staker committee 2 ≠ [] by decide
      unbondingSlashingScript := show slashingLeaf staker providers committee 2 ≠ [] by decide
      fpEncKeys := List.cons_ne_nil _ _
      hmacKey := rfl
      requestFits := ⟨wire, jsonRequest wire, hwire, marshal_request _ _,
        hfits.trans (show 5000 ≤ (10 * 1024 * 1024 : UInt32).toNat by decide)⟩
      responseFits := fun r s' h => by
        rw [hresp r s' h]
        exact ⟨_, marshal_response _ _, hsize⟩ }

end

section
variable {σ : Type}

abbrev plainRemote : RemoteSigner σ := remote plainWire (toResponse (signatures none))

/-- The request names an output the previous stake has. -/
abbrev expansionRemote : RemoteSigner σ :=
  remote (expansionWire 0) (toResponse (signatures (some ⟨List.replicate 64 3⟩)))

theorem inRange_plain (s : σ) : InRange plainRemote plainRequest s := by
  refine inRange_request rfl toSignTransactionRequest_plain
    (length_jsonRequest_wire (by decide) (by simp)) (fun r s' h => ?_)
    (length_jsonResponse_signatures (by decide))
  rw [signLocally_of_signWith signWith_plain] at h
  cases h
  rfl

theorem inRange_expansion (s : σ) : InRange expansionRemote (stakeExpRequest 0) s := by
  refine inRange_request rfl (toSignTransactionRequest_expansion 0)
    (length_jsonRequest_expansion (by decide)) (fun r s' h => ?_)
    (length_jsonResponse_signatures (by simp [toResponse, signatures]))
  rw [signLocally_of_signWith signWith_expansion] at h
  cases h
  rfl

theorem survives_plain : Survives lib (directRequest plainRequest) :=
  survives_request (by decide) (by simp)

theorem survives_expansion (idx : UInt32) :
    Survives lib (directRequest (stakeExpRequest idx)) :=
  survives_request (by decide) (by simp)

theorem remote_plain (s : σ) : plainRemote.signTransactions plainRequest s =
    (.ok (signerResponseToCovenantResponse (signatures none)), s) := by
  obtain ⟨resp, hremote, hsame⟩ := remote_of_signLocally (codec_undoes _ _) survives_plain
    (table_signaturesSurvive table) (inRange_plain s) (signLocally_of_signWith signWith_plain s)
  rw [hremote, hsame.eq_converted]

theorem remote_expansion (s : σ) : expansionRemote.signTransactions (stakeExpRequest 0) s =
    (.ok (signerResponseToCovenantResponse (signatures (some ⟨List.replicate 64 3⟩))), s) := by
  obtain ⟨resp, hremote, hsame⟩ := remote_of_signLocally (codec_undoes _ _) (survives_expansion 0)
    (table_signaturesSurvive table) (inRange_expansion s)
    (signLocally_of_signWith signWith_expansion s)
  rw [hremote, hsame.eq_converted]

end

theorem expansion_refinesLocal :
    InRange expansionRemote (stakeExpRequest 0) () ∧
      RefinesLocal expansionRemote (stakeExpRequest 0) () := by
  refine ⟨inRange_expansion (), (refinesLocal_iff (codec_undoes _ _) (survives_expansion 0)
    (table_signaturesSurvive table)).mpr fun _ => ?_⟩
  rintro ⟨sk, -, -, stk, hstk, hmissing⟩
  cases hstk
  exact absurd hmissing (by decide)

/-- The request names output 7 of a previous stake with two outputs. -/
abbrev missingRemote : RemoteSigner Unit := remote (expansionWire 7) (toResponse (signatures none))

theorem readsMissingOutput_expansion : ReadsMissingOutput missingRemote (stakeExpRequest 7) () := by
  refine ⟨signingKey, rfl, strictlySigns_iff.mpr ⟨⟨_, rfl⟩, _, rfl⟩, _, rfl, ?_⟩
  decide

theorem inRange_missing : InRange missingRemote (stakeExpRequest 7) () := by
  refine inRange_request rfl (toSignTransactionRequest_expansion 7)
    (length_jsonRequest_expansion (by decide)) (fun r s' h => ?_)
    (length_jsonResponse_signatures (by decide))
  have hpanic := signLocally_panics.mpr readsMissingOutput_expansion
  rw [h] at hpanic
  exact hpanic.elim

theorem missingOutput_not_refinesLocal : ¬ RefinesLocal missingRemote (stakeExpRequest 7) () :=
  not_refinesLocal_of_missing (codec_undoes _ _) (survives_expansion 7)
    (table_signaturesSurvive table) inRange_missing readsMissingOutput_expansion

end Sample

end CovenantEmulator
