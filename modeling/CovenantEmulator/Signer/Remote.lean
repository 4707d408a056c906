import CovenantEmulator.Signer.Service

/-! The remote signer: what the emulator gets back is what the signer application returned. -/
namespace CovenantEmulator

open Golang

def covenantRequestToSignerRequestStkExp (req : SigningRequestStkExp) :
    ParsedSigningRequestStkExp where
  previousActiveStakeTx := req.previousActiveStakeTx
  previousStakingOutputIdx := req.previousStakingOutputIdx
  otherFundingOutput := req.otherFundingOutput
  previousActiveStakeUnbondingScript := req.previousActiveStakeUnbondingPkScriptPath

def covenantRequestToSignerRequest (req : SigningRequest) : ParsedSigningRequest where
  stakingTx := req.stakingTx
  slashingTx := req.slashingTx
  unbondingTx := req.unbondingTx
  slashUnbondingTx := req.slashUnbondingTx
  stakingOutputIdx := req.stakingOutputIdx
  slashingScript := req.slashingPkScriptPath
  unbondingScript := req.stakingTxUnbondingPkScriptPath
  unbondingSlashingScript := req.unbondingTxSlashingPkScriptPath
  fpEncKeys := req.fpEncKeys
  stakeExp := req.stakeExp.map covenantRequestToSignerRequestStkExp

def signerResponseToCovenantResponse (resp : ParsedSigningResponse) : SignaturesResponse where
  slashSigs := resp.slashAdaptorSigs
  unbondingSig := resp.unbondingSig
  slashUnbondingSigs := resp.slashUnbondingAdaptorSigs
  stkExtSig := resp.stakeExpSig

/-- The remote signer and the server behind its URL. -/
structure RemoteSigner (σ : Type) where
  cfg : RemoteSignerCfg
  srv : SigningServer σ

namespace RemoteSigner

variable {σ : Type} (rs : RemoteSigner σ)

def pubKey : Go σ PublicKey := requestPublicKey rs.srv rs.cfg

def signTransactions (req : SigningRequest) : Go σ SignaturesResponse := do
  let resp ← requestCovenantSignaure rs.srv rs.cfg (covenantRequestToSignerRequest req)
  pure (signerResponseToCovenantResponse resp)

end RemoteSigner

section
variable {σ : Type} {h : Handler σ} {s s' : σ} {req : SignTransactionsRequest}
  {p : ParsedSigningRequest} {r : HttpRequest} {result : Result} {err : ServiceError}

theorem sign_eq_ok : h.sign p s = (.ok (.ok result), s') ↔ ∃ resp,
    h.s.signTransactions p s = (.ok resp, s') ∧
      newResult (.signTransactions (toResponse resp)) = result := by
  unfold Handler.sign
  rw [Go.bind_apply, Go.attempt_apply]
  rcases h.s.signTransactions p s with ⟨_ | _ | _ | _, s₁⟩ <;>
    simp [Outcome.attempt, and_comm]

theorem sign_error (hsign : h.sign p s = (.ok (.error err), s')) : err.statusCode = 500 := by
  unfold Handler.sign at hsign
  rw [Go.bind_apply, Go.attempt_apply] at hsign
  revert hsign
  rcases h.s.signTransactions p s with ⟨_ | _ | _ | _, s₁⟩ <;> simp [Outcome.attempt]
  rintro rfl -
  rfl

/-- The handler once the payload is decoded. -/
theorem signTransactions_decoded
    (hdec : h.codec.decodeSignTransactionsRequest r.body.visible = .ok req) :
    h.signTransactions r s = match parseSigningRequest h.s.lib req with
      | .ok p => h.sign p s
      | .error err => (.ok (.error (newErrorWithMsg 400 .badRequest err)), s)
      | .panic msg => (.panic msg, s)
      | .diverged => (.diverged, s) := by
  unfold Handler.signTransactions
  rw [hdec]
  dsimp only
  rw [Go.bind_apply, Go.attempt_apply, Go.lift_apply]
  cases parseSigningRequest h.s.lib req <;> rfl

theorem signTransactions_eq_ok
    (hdec : h.codec.decodeSignTransactionsRequest r.body.visible = .ok req) :
    h.signTransactions r s = (.ok (.ok result), s') ↔ ∃ p resp,
      parseSigningRequest h.s.lib req = .ok p ∧ h.s.signTransactions p s = (.ok resp, s') ∧
        newResult (.signTransactions (toResponse resp)) = result := by
  rw [signTransactions_decoded hdec]
  cases parseSigningRequest h.s.lib req with
  | ok p => simp [sign_eq_ok]
  | error e => simp
  | panic msg => simp
  | diverged => simp

/-- An error of the handler is the caller's or an internal one. -/
theorem signTransactions_error (hsign : h.signTransactions r s = (.ok (.error err), s')) :
    err.statusCode = 400 ∨ err.statusCode = 500 := by
  cases hdec : h.codec.decodeSignTransactionsRequest r.body.visible with
  | error e =>
    simp only [Handler.signTransactions, hdec] at hsign
    obtain ⟨herr, -⟩ := Go.pure_eq_ok.mp hsign
    cases herr
    exact .inl rfl
  | ok req =>
    rw [signTransactions_decoded hdec] at hsign
    revert hsign
    cases parseSigningRequest h.s.lib req with
    | ok p => exact fun hsign => .inr (sign_error hsign)
    | error e =>
      intro hsign
      cases hsign
      exact .inl rfl
    | panic msg => simp
    | diverged => simp

theorem signTransactions_ne_diverged : (h.signTransactions r s).1 ≠ .diverged := by
  cases hdec : h.codec.decodeSignTransactionsRequest r.body.visible with
  | error e => simp [Handler.signTransactions, hdec]
  | ok req =>
    have hparse : (parseSigningRequest h.s.lib req).Returns := parseSigningRequest_returns req
    rw [signTransactions_decoded hdec]
    revert hparse
    cases parseSigningRequest h.s.lib req with
    | ok p =>
      intro _
      change (h.sign p s).1 ≠ .diverged
      unfold Handler.sign
      rw [ne_eq, Go.bind_eq_diverged, Go.attempt_eq_diverged]
      rintro (hsign | ⟨sig, s₁, -, hsig⟩)
      · exact h.s.signTransactions_ne_diverged p s hsign
      · cases sig <;> cases hsig
    | error e => simp
    | panic msg => simp
    | diverged => simp [Outcome.Returns]

end

section
variable {σ : Type} {srv : SigningServer σ} {cfg : RemoteSignerCfg} {s s' : σ}
  {req : SignTransactionsRequest} {bs bs' : Bytes}

/-- The server answers a signing request with 200 exactly when it lets it through, parses it,
and the application signs it. -/
theorem serve_signTransactions_eq_ok
    (hdec : srv.handler.codec.decodeSignTransactionsRequest bs = .ok req) :
    srv.serve (clientRequest srv cfg .signTransactions bs) s = (.ok ⟨200, bs'⟩, s') ↔
      Reaches srv cfg .signTransactions bs ∧ ∃ p resp,
        parseSigningRequest srv.handler.s.lib req = .ok p ∧
        srv.handler.s.signTransactions p s = (.ok resp, s') ∧
        srv.handler.codec.marshalResult (.signTransactions (toResponse resp)) = .ok bs' := by
  have hne : ∀ {r : HttpRequest} err s₁,
      srv.handle .signTransactions r s = (.ok (.error err), s₁) → err.statusCode ≠ 200 := by
    intro r err s₁ herr
    rcases signTransactions_error herr with h | h <;> simp [h]
  have hreached : ∀ b : Body, b.visible = bs →
      (registerHandler srv.handler.codec (srv.handle .signTransactions)
        { clientRequest srv cfg .signTransactions bs with body := b } s = (.ok ⟨200, bs'⟩, s') ↔
      ∃ p resp, parseSigningRequest srv.handler.s.lib req = .ok p ∧
        srv.handler.s.signTransactions p s = (.ok resp, s') ∧
        srv.handler.codec.marshalResult (.signTransactions (toResponse resp)) = .ok bs') := by
    intro b hb
    rw [registerHandler_eq_ok hne]
    constructor
    · rintro ⟨result, -, hres, hbs⟩
      obtain ⟨p, resp, hp, hresp, rfl⟩ :=
        (signTransactions_eq_ok (h := srv.handler) (by rw [hb, hdec])).mp hres
      exact ⟨p, resp, hp, hresp, hbs⟩
    · rintro ⟨p, resp, hp, hresp, hbs⟩
      exact ⟨newResult (.signTransactions (toResponse resp)), rfl,
        (signTransactions_eq_ok (h := srv.handler) (by rw [hb, hdec])).mpr
          ⟨p, resp, hp, hresp, rfl⟩, hbs⟩
  constructor
  · intro h
    rcases reaches_or_rejected srv cfg .signTransactions bs with hr | ⟨resp, hcode, hresp⟩
    · obtain ⟨b, hb, hserve⟩ := hr
      rw [hserve] at h
      exact ⟨⟨b, hb, hserve⟩, (hreached b hb).mp h⟩
    · rw [hresp] at h
      obtain ⟨rfl, -⟩ := Go.pure_eq_ok.mp h
      exact absurd rfl hcode
  · rintro ⟨⟨b, hb, hserve⟩, h⟩
    rw [hserve]
    exact (hreached b hb).mpr h

theorem serve_signTransactions_ne_diverged :
    (srv.serve (clientRequest srv cfg .signTransactions bs) s).1 ≠ .diverged := by
  rcases reaches_or_rejected srv cfg .signTransactions bs with ⟨b, -, hserve⟩ | ⟨resp, -, hserve⟩
  · rw [hserve, registerHandler, ne_eq, Go.bind_eq_diverged]
    rintro (hdiv | ⟨res, s₁, -, hres⟩)
    · exact signTransactions_ne_diverged hdiv
    · cases res with
      | error err => cases hres
      | ok result =>
        dsimp only at hres
        split at hres <;> cases hres
  · rw [hserve]
    simp

variable {p : ParsedSigningRequest} {resp : ParsedSigningResponse}

theorem requestCovenantSignaure_returns :
    (requestCovenantSignaure srv cfg p s).1.Returns := by
  refine Go.bind_returns.mpr ⟨toSignTransactionRequest_returns p, fun req s₁ _ => ?_⟩
  refine Go.bind_returns.mpr ⟨Outcome.ofExcept_returns _, fun bs s₂ _ => ?_⟩
  refine Go.bind_returns.mpr
    ⟨clientCall_returns serve_signTransactions_ne_diverged, fun resBody s₃ _ => ?_⟩
  exact Go.bind_returns.mpr
    ⟨Outcome.ofExcept_returns _, fun resp s₄ _ => toParsedSigningResponse_returns resp⟩

/-- What the client can return: the answer of the application to the request that arrived. -/
theorem requestCovenantSignaure_eq_ok (hundo : srv.handler.codec.Undoes) :
    requestCovenantSignaure srv cfg p s = (.ok resp, s') ↔
      ∃ req bs p' resp' bs', toSignTransactionRequest srv.handler.s.lib p = .ok req ∧
        srv.handler.codec.marshalSignTransactionsRequest req = .ok bs ∧
        Reaches srv cfg .signTransactions bs ∧
        parseSigningRequest srv.handler.s.lib req = .ok p' ∧
        srv.handler.s.signTransactions p' s = (.ok resp', s') ∧
        srv.handler.codec.marshalResult (.signTransactions (toResponse resp')) = .ok bs' ∧
        bs'.length ≤ maxResponseSize ∧
        toParsedSigningResponse srv.handler.s.lib (toResponse resp') = .ok resp := by
  constructor
  · intro h
    obtain ⟨req, _, hreq, h⟩ := Go.bind_eq_ok.mp h
    obtain ⟨hsent, rfl⟩ := Go.lift_eq_ok.mp hreq
    obtain ⟨bs, _, hbs, h⟩ := Go.bind_eq_ok.mp h
    obtain ⟨hmarshal, rfl⟩ := Go.lift_eq_ok.mp hbs
    obtain ⟨resBody, s₁, hcall, h⟩ := Go.bind_eq_ok.mp h
    obtain ⟨response, _, hresp, h⟩ := Go.bind_eq_ok.mp h
    obtain ⟨hunmarshal, rfl⟩ := Go.lift_eq_ok.mp hresp
    obtain ⟨hparsed, rfl⟩ := Go.lift_eq_ok.mp h
    rw [Outcome.ofExcept_eq_ok] at hmarshal hunmarshal
    obtain ⟨hserve, hlen⟩ := clientCall_eq_ok.mp hcall
    obtain ⟨hreach, p', resp', hp', hsign, hbody⟩ :=
      (serve_signTransactions_eq_ok (hundo.request hmarshal)).mp hserve
    obtain rfl : response = toResponse resp' := by simpa [hunmarshal] using hundo.response hbody
    exact ⟨req, bs, p', resp', resBody, hsent, hmarshal, hreach, hp', hsign, hbody, hlen, hparsed⟩
  · rintro ⟨req, bs, p', resp', bs', hsent, hmarshal, hreach, hp', hsign, hbody, hlen, hparsed⟩
    refine Go.bind_eq_ok.mpr ⟨req, s, Go.lift_eq_ok.mpr ⟨hsent, rfl⟩, ?_⟩
    refine Go.bind_eq_ok.mpr
      ⟨bs, s, Go.lift_eq_ok.mpr ⟨Outcome.ofExcept_eq_ok.mpr hmarshal, rfl⟩, ?_⟩
    refine Go.bind_eq_ok.mpr ⟨bs', s', clientCall_eq_ok.mpr
      ⟨(serve_signTransactions_eq_ok (hundo.request hmarshal)).mpr
        ⟨hreach, p', resp', hp', hsign, hbody⟩, hlen⟩, ?_⟩
    exact Go.bind_eq_ok.mpr ⟨_, s',
      Go.lift_eq_ok.mpr ⟨Outcome.ofExcept_eq_ok.mpr (hundo.response hbody), rfl⟩,
      Go.lift_eq_ok.mpr ⟨hparsed, rfl⟩⟩

/-- Every signature the library makes parses back from its own bytes. -/
structure SignaturesSurvive (lib : BabylonLib) : Prop where
  sign : ∀ {tx funding idx script sk sig},
    lib.signTxWithOneScriptSpendInputStrict tx funding idx script sk = .ok sig →
    SurvivesSig lib sig
  signStkExp : ∀ {tx first second sk script sig},
    lib.signTxForFirstScriptSpendWithTwoInputsFromScript tx first second sk script = .ok sig →
    SurvivesSig lib sig

theorem signWith_survives {lib : BabylonLib} {sk : PrivateKey} (hsigs : SignaturesSurvive lib)
    (h : signWith lib sk p = .ok resp) : SurvivesSig lib resp.unbondingSig ∧
      ∀ sig, resp.stakeExpSig = some sig → SurvivesSig lib sig := by
  obtain ⟨sigs, -, -, -, hunbonding, hstkExp⟩ := signWith_parts h
  refine ⟨hsigs.sign (unbondSig_eq_ok.mp hunbonding), ?_⟩
  intro sig hsig
  rw [hsig] at hstkExp
  rcases stakeExpSigOf_eq_ok.mp hstkExp with ⟨-, hnone⟩ | ⟨stk, sig', -, hsig', hsome⟩
  · cases hnone
  · cases hsome
    obtain ⟨out, -, hsigned⟩ := Outcome.bind_eq_ok.mp hsig'
    exact hsigs.signStkExp (Outcome.ofExcept_eq_ok.mp (Outcome.wrap_eq_ok.mp hsigned))

/-- The response that comes back is the one the application made. -/
theorem requestCovenantSignaure_ok (hundo : srv.handler.codec.Undoes)
    (hsigs : SignaturesSurvive srv.handler.s.lib)
    (h : requestCovenantSignaure srv cfg p s = (.ok resp, s')) :
    ∃ req p', toSignTransactionRequest srv.handler.s.lib p = .ok req ∧
      parseSigningRequest srv.handler.s.lib req = .ok p' ∧
      srv.handler.s.signTransactions p' s = (.ok resp, s') ∧ resp.slashAdaptorSigs ≠ [] := by
  obtain ⟨req, bs, p', resp', bs', hsent, -, -, hp', hsign, -, -, hparsed⟩ :=
    (requestCovenantSignaure_eq_ok hundo).mp h
  obtain ⟨-, sk, -, hwith⟩ := srv.handler.s.signTransactions_eq_ok.mp hsign
  obtain ⟨hslash, hslashUnbonding⟩ := ne_nil_of_toParsedSigningResponse hparsed
  obtain ⟨hunbonding, hstakeExp⟩ := signWith_survives hsigs hwith
  have hback := toParsedSigningResponse_toResponse hslash hslashUnbonding hunbonding hstakeExp
  obtain rfl : resp' = resp := by simpa [hback] using hparsed
  exact ⟨req, p', hsent, hp', hsign, hslash⟩

end

end CovenantEmulator
