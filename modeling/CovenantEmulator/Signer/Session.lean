import CovenantEmulator.Signer.Keyring
import CovenantEmulator.Signer.Refinement

/-! Sessions with the signing service: over the wire, the server and the keyring, it behaves like a
vault that is locked or holds a key. -/
namespace CovenantEmulator

open Golang

/-- What is asked of the service, by the emulator and by its operator. -/
inductive VaultRequest where
  | sign (req : SigningRequest)
  | publicKey
  | unlock (passphrase : String)
  | lock

inductive VaultReply where
  | signatures (resp : SignaturesResponse)
  | publicKey (pk : PublicKey)
  | done
  deriving DecidableEq, Repr

/-- The vault: its state is the key it holds, and a request it refuses changes nothing. -/
def vaultReply (lib : BabylonLib) (keyring : String → Except String (Option PrivateKey)) :
    VaultRequest → Option PrivateKey → Option VaultReply × Option PrivateKey
  | .sign req, some sk =>
    match signWith lib sk (directRequest req) with
    | .ok r =>
      (some (.signatures
        { slashSigs := r.slashAdaptorSigs
          unbondingSig := r.unbondingSig
          slashUnbondingSigs := r.slashUnbondingAdaptorSigs
          stkExtSig := r.stakeExpSig }), some sk)
    | _ => (none, some sk)
  | .sign _, none => (none, none)
  | .publicKey, held => (held.map fun sk => .publicKey (lib.pubKey sk), held)
  | .unlock _, some sk => (some .done, some sk)
  | .unlock passphrase, none =>
    match getChainPrivKey (keyring passphrase) with
    | .ok sk => (some .done, some sk)
    | .error _ => (none, none)
  | .lock, _ => (some .done, none)

/-- The vault through a session. -/
def vaultRun (lib : BabylonLib) (keyring : String → Except String (Option PrivateKey)) :
    List VaultRequest → Option PrivateKey → List (Option VaultReply) × Option PrivateKey
  | [], held => ([], held)
  | req :: reqs, held =>
    let (reply, held) := vaultReply lib keyring req held
    let (replies, held) := vaultRun lib keyring reqs held
    (reply :: replies, held)

/-- The key in use. -/
def KeyringRetriever.held (k : KeyringRetriever) : Option PrivateKey := k.btcecPrivKey.map k.read

namespace RemoteSigner

variable {σ : Type} (rs : RemoteSigner σ)

/-- The client functions, with what they return. -/
def request : VaultRequest → Go σ VaultReply
  | .sign req => do
    let resp ← rs.signTransactions req
    pure (.signatures resp)
  | .publicKey => do
    let pk ← rs.pubKey
    pure (.publicKey pk)
  | .unlock passphrase => do
    requestUnlock rs.srv rs.cfg passphrase
    pure .done
  | .lock => do
    requestLock rs.srv rs.cfg
    pure .done

/-- One request after another, whatever becomes of each. -/
def session (reqs : List VaultRequest) : Go σ (List (Except String VaultReply)) :=
  reqs.mapM fun req => Go.attempt (rs.request req)

/-- The answer is written and read back. -/
structure AnswerFits (data : ResultData) (bs : Bytes) : Prop where
  marshals : rs.srv.handler.codec.marshalResult data = .ok bs
  fits : bs.length ≤ maxResponseSize

/-- The messages of the request get through, with both sides on one HMAC key. -/
inductive GetsThrough : VaultRequest → Prop
  | sign {req : SigningRequest} (hrange : ∀ s, InRange rs req s)
    (hsurv : Survives rs.srv.handler.s.lib (directRequest req)) :
    GetsThrough (.sign req)
  | publicKey (hkey : rs.cfg.hmacKey = rs.srv.hmacKey)
    (hanswer : ∀ sk, ∃ bs, rs.AnswerFits (.getPublicKey
        (Hex.encodeToString (serializeCompressed (rs.srv.handler.s.lib.pubKey sk)))) bs ∧
      rs.srv.handler.codec.unmarshalGetPublicKeyResponse bs = .ok
        (Hex.encodeToString (serializeCompressed (rs.srv.handler.s.lib.pubKey sk))) ∧
      rs.srv.handler.s.lib.parseCompressedPubKey
        (serializeCompressed (rs.srv.handler.s.lib.pubKey sk)) =
          .ok (rs.srv.handler.s.lib.pubKey sk)) :
    GetsThrough .publicKey
  | unlock {passphrase : String} {bs : Bytes} (hkey : rs.cfg.hmacKey = rs.srv.hmacKey)
    (hmarshal : rs.srv.handler.codec.marshalUnlockRequest passphrase = .ok bs)
    (hfits : bs.length ≤ rs.srv.maxContentLength.toNat)
    (hdecode : rs.srv.handler.codec.decodeUnlockRequest bs = .ok passphrase)
    (hanswer : ∃ bs', rs.AnswerFits .unlock bs') : GetsThrough (.unlock passphrase)
  | lock (hkey : rs.cfg.hmacKey = rs.srv.hmacKey) (hanswer : ∃ bs, rs.AnswerFits .lock bs) :
    GetsThrough .lock

end RemoteSigner

section
variable {σ : Type} {srv : SigningServer σ} {cfg : RemoteSignerCfg} {route : Route} {body : Bytes}
  {s s' : σ}

/-- A result of the handler comes back to the client. -/
theorem clientCall_of_result (name : String) {r : HttpRequest} {data : ResultData} {bs : Bytes}
    (hserve : srv.serve (clientRequest srv cfg route body) =
      registerHandler srv.handler.codec (srv.handle route) r)
    (hres : srv.handle route r s = (.ok (.ok (newResult data)), s'))
    (hbs : srv.handler.codec.marshalResult data = .ok bs) (hlen : bs.length ≤ maxResponseSize) :
    clientCall srv cfg name route body s = (.ok bs, s') := by
  refine clientCall_eq_ok.mpr ⟨?_, hlen⟩
  rw [hserve, registerHandler, Go.bind_of_ok hres]
  simp [newResult, hasStatusText, writeResponse, hbs]

/-- An error of the handler is an error of the client. -/
theorem clientCall_of_error (name : String) {r : HttpRequest} {err : ServiceError}
    (hserve : srv.serve (clientRequest srv cfg route body) =
      registerHandler srv.handler.codec (srv.handle route) r)
    (hres : srv.handle route r s = (.ok (.error err), s')) (herr : err.statusCode ≠ 200) :
    ∃ e, clientCall srv cfg name route body s = (.error e, s') := by
  have hanswer : srv.serve (clientRequest srv cfg route body) s =
      (.ok (errorResponse srv.handler.codec err), s') := by
    rw [hserve, registerHandler, Go.bind_of_ok hres]
    rfl
  have hcode : (errorResponse srv.handler.codec err).statusCode ≠ 200 := by
    intro h
    have heq : errorResponse srv.handler.codec err =
        ⟨200, (errorResponse srv.handler.codec err).body⟩ := by rw [← h]
    exact errorResponse_ne_ok herr heq
  unfold clientCall
  rw [Go.bind_of_ok (clientDo_eq_ok.mpr hanswer)]
  cases hread : Body.readAll ⟨(errorResponse srv.handler.codec err).body, some maxResponseSize⟩ with
  | error e => exact ⟨e, rfl⟩
  | ok resBody =>
    rw [Go.bind_apply]
    simp [hcode]

end

section
variable {keyring : String → Except String (Option PrivateKey)} {k : KeyringRetriever}

theorem privKey_keyring : (keyringRetriever keyring).privKey k =
    match k.held with
    | none => .error "private key is not unlocked. Please call Unlock() first"
    | some sk => .ok sk := by
  simp only [keyringRetriever, KeyringRetriever.privKey, KeyringRetriever.held]
  cases k.btcecPrivKey <;> rfl

theorem held_unlock_of_some {sk : PrivateKey} (h : k.held = some sk)
    (answer : Except String (Option PrivateKey)) : k.unlock answer = (.ok (), k) := by
  unfold KeyringRetriever.held at h
  unfold KeyringRetriever.unlock
  cases hp : k.btcecPrivKey with
  | none => simp [hp] at h
  | some p => rfl

theorem unlock_of_locked (h : k.held = none) (answer : Except String (Option PrivateKey)) :
    (∃ e e', getChainPrivKey answer = .error e ∧ k.unlock answer = (.error e', k)) ∨
      ∃ sk k', getChainPrivKey answer = .ok sk ∧ k.unlock answer = (.ok (), k') ∧
        k'.held = some sk := by
  have hp : k.btcecPrivKey = none := by simpa [KeyringRetriever.held] using h
  unfold KeyringRetriever.unlock
  rw [hp]
  dsimp only
  cases getChainPrivKey answer with
  | error e => exact .inl ⟨e, _, rfl, rfl⟩
  | ok sk => exact .inr ⟨sk, _, rfl, rfl, by simp [KeyringRetriever.held, KeyringRetriever.read]⟩

theorem held_lock (k : KeyringRetriever) : k.lock.held = none := by
  rw [KeyringRetriever.held, KeyringRetriever.lock_btcecPrivKey]
  rfl

end

/-- The answer and the key left behind are those of the vault. -/
def AnswersAs (rs : RemoteSigner KeyringRetriever)
    (keyring : String → Except String (Option PrivateKey)) (req : VaultRequest)
    (k : KeyringRetriever) : Prop :=
  ∃ res k', Go.attempt (rs.request req) k = (.ok res, k') ∧
    (res.toOption, k'.held) = vaultReply rs.srv.handler.s.lib keyring req k.held

theorem getPublicKey_apply {σ : Type} (h : Handler σ) (r : HttpRequest) (s : σ) :
    h.getPublicKey r s = match h.s.pkr.privKey s with
      | .error e => (.ok (.error (newErrorWithMsg 500 .internalServiceError e)), s)
      | .ok sk => (.ok (.ok (newResult (.getPublicKey
          (Hex.encodeToString (serializeCompressed (h.s.lib.pubKey sk)))))), s) := by
  unfold Handler.getPublicKey SignerApp.pubKey
  rw [Go.bind_apply, Go.attempt_apply, Go.bind_apply, Go.reads_apply]
  cases h.s.pkr.privKey s <;> rfl

section
variable {keyring : String → Except String (Option PrivateKey)} {h : Handler KeyringRetriever}
  (hpkr : h.s.pkr = keyringRetriever keyring) (r : HttpRequest) (k : KeyringRetriever)
include hpkr

theorem lock_apply : h.lock r k = (.ok (.ok (newResult .lock)), k.lock) := by
  unfold Handler.lock SignerApp.lock
  rw [hpkr]
  rfl

theorem unlock_apply {passphrase : String}
    (hdecode : h.codec.decodeUnlockRequest r.body.visible = .ok passphrase) :
    h.unlock r k = match k.unlock (keyring passphrase) with
      | (.ok (), k') => (.ok (.ok (newResult .unlock)), k')
      | (.error e, k') => (.ok (.error (newErrorWithMsg 400 .badRequest e)), k') := by
  unfold Handler.unlock SignerApp.unlock
  rw [hdecode, hpkr]
  dsimp only
  rw [Go.bind_apply, Go.attempt_apply]
  simp only [keyringRetriever]
  rcases k.unlock (keyring passphrase) with ⟨_ | _, k'⟩ <;> rfl

end

section
variable {σ : Type} {srv : SigningServer σ} {cfg : RemoteSignerCfg} {passphrase : String}
  {bs : Bytes} {s s' : σ} (hmarshal : srv.handler.codec.marshalUnlockRequest passphrase = .ok bs)
include hmarshal

theorem requestUnlock_of_ok {bs' : Bytes}
    (hcall : clientCall srv cfg "unlocking" .unlock bs s = (.ok bs', s')) :
    requestUnlock srv cfg passphrase s = (.ok (), s') := by
  unfold requestUnlock
  rw [hmarshal]
  exact (Go.bind_of_ok (s := s) rfl).trans (Go.bind_of_ok hcall)

theorem requestUnlock_of_error {e : String}
    (hcall : clientCall srv cfg "unlocking" .unlock bs s = (.error e, s')) :
    requestUnlock srv cfg passphrase s = (.error e, s') := by
  unfold requestUnlock
  rw [hmarshal]
  exact (Go.bind_of_ok (s := s) rfl).trans (Go.bind_of_error hcall)

end

section
variable {σ : Type}

theorem sign_state (h : Handler σ) (p : ParsedSigningRequest) (s : σ) : (h.sign p s).2 = s := by
  unfold Handler.sign
  rw [Go.bind_apply, Go.attempt_apply, SignerApp.signTransactions_apply]
  generalize (do signWith h.s.lib (← Outcome.ofExcept (h.s.pkr.privKey s)) p) = res
  cases res <;> rfl

theorem signTransactions_state (h : Handler σ) (r : HttpRequest) (s : σ) :
    (h.signTransactions r s).2 = s := by
  cases hdec : h.codec.decodeSignTransactionsRequest r.body.visible with
  | error e => simp [Handler.signTransactions, hdec]
  | ok req =>
    rw [signTransactions_decoded hdec]
    cases parseSigningRequest h.s.lib req with
    | ok p => exact sign_state h p s
    | error e | panic msg | diverged => rfl

theorem registerHandler_state {codec : Codec} {f : HttpRequest → Go σ (Except ServiceError Result)}
    {r : HttpRequest} {s : σ} : (registerHandler codec f r s).2 = (f r s).2 := by
  unfold registerHandler
  rw [Go.bind_apply]
  rcases f r s with ⟨(_ | result) | _ | _ | _, s'⟩
  · rfl
  · dsimp only
    split <;> rfl
  all_goals rfl

/-- A client call leaves the state that its handler leaves, or the one it found. -/
theorem clientCall_state (srv : SigningServer σ) (cfg : RemoteSignerCfg) (name : String)
    (route : Route) (body : Bytes) (s : σ) :
    (clientCall srv cfg name route body s).2 = s ∨
      ∃ r, (clientCall srv cfg name route body s).2 = (srv.handle route r s).2 := by
  have hcall : (clientCall srv cfg name route body s).2 =
      (srv.serve (clientRequest srv cfg route body) s).2 := by
    unfold clientCall
    rw [Go.bind_apply]
    unfold SigningServer.clientDo
    rcases srv.serve (clientRequest srv cfg route body) s with ⟨res | _ | _ | _, s'⟩
    · dsimp only
      rw [Go.bind_apply]
      cases Body.readAll ⟨res.body, some maxResponseSize⟩ with
      | error e => rfl
      | ok resBody =>
        simp only [Go.lift_apply, Outcome.ofExcept_ok]
        split <;> rfl
    all_goals rfl
  rw [hcall]
  rcases reaches_or_rejected srv cfg route body with ⟨b, -, hserve⟩ | ⟨resp, -, hserve⟩
  · rw [hserve, registerHandler_state]
    exact .inr ⟨_, rfl⟩
  · rw [hserve]
    exact .inl rfl

/-- Signing over the wire leaves the signer as it is. -/
theorem signTransactions_remote_state (rs : RemoteSigner σ) (req : SigningRequest) (s : σ) :
    (rs.signTransactions req s).2 = s := by
  have hkeep : ∀ bs s, (clientCall rs.srv rs.cfg "signing" .signTransactions bs s).2 = s := by
    intro bs s
    rcases clientCall_state rs.srv rs.cfg "signing" .signTransactions bs s with h | ⟨r, h⟩
    · exact h
    · rw [h]
      exact signTransactions_state rs.srv.handler r s
  unfold RemoteSigner.signTransactions requestCovenantSignaure
  refine Go.bind_keeps (Go.bind_keeps (fun _ => rfl) fun wire => ?_) (fun _ _ => rfl) s
  refine Go.bind_keeps (fun _ => rfl) fun bs => ?_
  exact Go.bind_keeps (hkeep bs) fun body => Go.bind_keeps (fun _ => rfl) fun _ _ => rfl

end

section
variable {keyring : String → Except String (Option PrivateKey)}
  {rs : RemoteSigner KeyringRetriever} (hpkr : rs.srv.handler.s.pkr = keyringRetriever keyring)
include hpkr

theorem answersAs_publicKey (h : rs.GetsThrough .publicKey) (k : KeyringRetriever) :
    AnswersAs rs keyring .publicKey k := by
  cases h with
  | publicKey hkey hanswer =>
    have hreach : Reaches rs.srv rs.cfg .publicKey [] :=
      reaches_of_valid (Nat.zero_le _) (.inr (by rw [hkey]))
    obtain ⟨b, -, hserve⟩ := hreach
    have hhandle := getPublicKey_apply rs.srv.handler
      { clientRequest rs.srv rs.cfg .publicKey [] with body := b } k
    rw [hpkr, privKey_keyring] at hhandle
    unfold AnswersAs vaultReply
    cases hheld : k.held with
    | none =>
      rw [hheld] at hhandle
      obtain ⟨e, he⟩ := clientCall_of_error "public key" hserve hhandle (by simp [newErrorWithMsg])
      refine ⟨.error e, k, ?_, by simp [Except.toOption, hheld]⟩
      have hrequest : rs.request .publicKey k = (.error e, k) :=
        Go.bind_of_error (Go.bind_of_error he)
      rw [Go.attempt_apply, hrequest]
      rfl
    | some sk =>
      rw [hheld] at hhandle
      obtain ⟨bs, hbs, hread, hparse⟩ := hanswer sk
      have hcall := clientCall_of_result "public key" hserve hhandle hbs.marshals hbs.fits
      have hpubKey : rs.pubKey k = (.ok (rs.srv.handler.s.lib.pubKey sk), k) := by
        unfold RemoteSigner.pubKey requestPublicKey
        rw [Go.bind_of_ok hcall]
        simp [Go.bind_apply, hread, hparse]
      have hrequest : rs.request .publicKey k =
          (.ok (.publicKey (rs.srv.handler.s.lib.pubKey sk)), k) := Go.bind_of_ok hpubKey
      refine ⟨.ok (.publicKey (rs.srv.handler.s.lib.pubKey sk)), k, ?_, ?_⟩
      · rw [Go.attempt_apply, hrequest]
        rfl
      · simp [Except.toOption, hheld]

theorem answersAs_lock (h : rs.GetsThrough .lock) (k : KeyringRetriever) :
    AnswersAs rs keyring .lock k := by
  cases h with
  | lock hkey hanswer =>
    have hreach : Reaches rs.srv rs.cfg .lock [] :=
      reaches_of_valid (Nat.zero_le _) (.inr (by rw [hkey]))
    obtain ⟨b, -, hserve⟩ := hreach
    obtain ⟨bs, hbs⟩ := hanswer
    have hhandle := lock_apply hpkr { clientRequest rs.srv rs.cfg .lock [] with body := b } k
    have hcall := clientCall_of_result "locking" hserve hhandle hbs.marshals hbs.fits
    have hrequest : rs.request .lock k = (.ok .done, k.lock) :=
      Go.bind_of_ok (Go.bind_of_ok hcall)
    refine ⟨.ok .done, k.lock, ?_, ?_⟩
    · rw [Go.attempt_apply, hrequest]
      rfl
    · rw [held_lock]
      rfl

theorem answersAs_unlock {passphrase : String} (h : rs.GetsThrough (.unlock passphrase))
    (k : KeyringRetriever) : AnswersAs rs keyring (.unlock passphrase) k := by
  cases h with
  | @unlock _ bs hkey hmarshal hfits hdecode hanswer =>
    have hreach : Reaches rs.srv rs.cfg .unlock bs :=
      reaches_of_valid hfits (.inr (by rw [hkey]))
    obtain ⟨b, hb, hserve⟩ := hreach
    obtain ⟨bs', hbs'⟩ := hanswer
    have hhandle := unlock_apply hpkr { clientRequest rs.srv rs.cfg .unlock bs with body := b } k
      (hb.symm ▸ hdecode)
    have hdone : ∀ k', k.unlock (keyring passphrase) = (.ok (), k') →
        Go.attempt (rs.request (.unlock passphrase)) k = (.ok (.ok .done), k') := by
      intro k' hunlock
      rw [hunlock] at hhandle
      have hcall := clientCall_of_result "unlocking" hserve hhandle hbs'.marshals hbs'.fits
      have hrequest : rs.request (.unlock passphrase) k = (.ok .done, k') :=
        Go.bind_of_ok (requestUnlock_of_ok hmarshal hcall)
      rw [Go.attempt_apply, hrequest]
      rfl
    unfold AnswersAs
    cases hheld : k.held with
    | some sk =>
      refine ⟨.ok .done, k, hdone k (held_unlock_of_some hheld _), ?_⟩
      rw [hheld]
      rfl
    | none =>
      rcases unlock_of_locked hheld (keyring passphrase) with
        ⟨e, e', he, hunlock⟩ | ⟨sk, k', hsk, hunlock, hheld'⟩
      · rw [hunlock] at hhandle
        obtain ⟨e₁, hcall⟩ := clientCall_of_error "unlocking" hserve hhandle
          (by simp [newErrorWithMsg])
        refine ⟨.error e₁, k, ?_, by simp [vaultReply, he, hheld, Except.toOption]⟩
        have hrequest : rs.request (.unlock passphrase) k = (.error e₁, k) :=
          Go.bind_of_error (requestUnlock_of_error hmarshal hcall)
        rw [Go.attempt_apply, hrequest]
        rfl
      · exact ⟨.ok .done, k', hdone k' hunlock, by simp [vaultReply, hsk, hheld', Except.toOption]⟩

theorem signLocally_keyring (req : SigningRequest) (k : KeyringRetriever) :
    signLocally rs req k = match k.held with
      | none => (.error "private key is not unlocked. Please call Unlock() first", k)
      | some sk => (signWith rs.srv.handler.s.lib sk (directRequest req), k) := by
  rw [signLocally, SignerApp.signTransactions_apply, hpkr, privKey_keyring]
  cases k.held <;> rfl

theorem answersAs_sign (hundo : rs.srv.handler.codec.Undoes)
    (hsigs : SignaturesSurvive rs.srv.handler.s.lib) {req : SigningRequest}
    (h : rs.GetsThrough (.sign req)) (k : KeyringRetriever) :
    AnswersAs rs keyring (.sign req) k := by
  cases h with
  | sign hrange hsurv =>
    have hlocal := signLocally_keyring hpkr req k
    have hstate := signTransactions_remote_state rs req k
    unfold AnswersAs
    rcases signTransactions_remote_cases rs req k with ⟨e, k', hr⟩ | ⟨resp, k', hr⟩
    · obtain rfl : k' = k := by simpa [hr] using hstate
      refine ⟨.error e, k', ?_, ?_⟩
      · rw [Go.attempt_apply, RemoteSigner.request, Go.bind_of_error hr]
        rfl
      · cases hheld : k'.held with
        | none => rfl
        | some sk =>
          rw [hheld] at hlocal
          dsimp only at hlocal
          dsimp only [vaultReply, Except.toOption]
          -- a value of the vault would have come back
          cases hsign : signWith rs.srv.handler.s.lib sk (directRequest req) with
          | ok r =>
            rw [hsign] at hlocal
            obtain ⟨resp, hremote, -⟩ := remote_of_signLocally hundo hsurv hsigs (hrange k') hlocal
            simp [hr] at hremote
          | error e | panic msg | diverged => rfl
    · obtain rfl : k' = k := by simpa [hr] using hstate
      refine ⟨.ok (.signatures resp), k', ?_, ?_⟩
      · rw [Go.attempt_apply, RemoteSigner.request, Go.bind_of_ok hr]
        rfl
      · obtain ⟨r, hr', hsame⟩ := signLocally_of_remote hundo hsurv hsigs hr
        obtain rfl := hsame.eq_converted
        rw [hlocal] at hr'
        cases hheld : k'.held with
        | none => simp [hheld] at hr'
        | some sk =>
          rw [hheld] at hr'
          simp only [Prod.mk.injEq, and_true] at hr'
          simp [vaultReply, hr', Except.toOption, signerResponseToCovenantResponse]

/-- Each request is answered as the vault answers it. -/
theorem answersAs (hundo : rs.srv.handler.codec.Undoes)
    (hsigs : SignaturesSurvive rs.srv.handler.s.lib) {req : VaultRequest} (h : rs.GetsThrough req)
    (k : KeyringRetriever) : AnswersAs rs keyring req k := by
  cases req with
  | sign req => exact answersAs_sign hpkr hundo hsigs h k
  | publicKey => exact answersAs_publicKey hpkr h k
  | unlock passphrase => exact answersAs_unlock hpkr h k
  | lock => exact answersAs_lock hpkr h k

/-- The signing service refines the vault: through any session over the wire the client reads the
vault's answers, an error for each refusal, and the signer is left with the vault's key. -/
theorem session_refines (hundo : rs.srv.handler.codec.Undoes)
    (hsigs : SignaturesSurvive rs.srv.handler.s.lib) (reqs : List VaultRequest)
    (hreqs : ∀ req ∈ reqs, rs.GetsThrough req) (k : KeyringRetriever) :
    ∃ results k', rs.session reqs k = (.ok results, k') ∧
      (results.map Except.toOption, k'.held) =
        vaultRun rs.srv.handler.s.lib keyring reqs k.held := by
  induction reqs generalizing k with
  | nil => exact ⟨[], k, rfl, rfl⟩
  | cons req reqs ih =>
    rw [List.forall_mem_cons] at hreqs
    obtain ⟨res, k₁, hres, hreply⟩ := answersAs hpkr hundo hsigs hreqs.1 k
    obtain ⟨results, k₂, hrest, hrun⟩ := ih hreqs.2 k₁
    refine ⟨res :: results, k₂, ?_, ?_⟩
    · unfold RemoteSigner.session at hrest ⊢
      rw [List.mapM_cons, Go.bind_of_ok hres, Go.bind_of_ok hrest]
      rfl
    · simp only [vaultRun, ← hreply, ← hrun, List.map_cons]

end

namespace Sample

def keyBody (text : String) : Bytes :=
  Json.object [("data", Json.object [("public_key_hex", Json.string text)])]

/-- The text between the quotes, for the 66 digits of a public key. -/
def keyText (bs : Bytes) : String := textOfBytes ((bs.drop 27).take 66)

theorem keyText_keyBody {text : String} (hlen : text.toList.length = 66)
    (hascii : ∀ c ∈ text.toList, c.toNat < 256) : keyText (keyBody text) = text := by
  have hbody : (keyBody text).drop 27 =
      text.toList.map (fun c => UInt8.ofNat c.toNat) ++ [0x22, 0x7d, 0x7d] := by
    simp [keyBody, Json.object, Json.string, Json.commas]
  rw [keyText, hbody, List.take_left' (by simpa using hlen), textOfBytes, List.map_map]
  conv_rhs => rw [← String.ofList_toList (s := text), ← List.map_id text.toList]
  congr 1
  refine List.map_congr_left fun c hc => ?_
  simp [Nat.mod_eq_of_lt (hascii c hc)]

theorem ascii_encodeDigits (bs : Bytes) : ∀ c ∈ Hex.encodeDigits bs, c.toNat < 256 := by
  have hdigit : ∀ n : Fin 16, (Nat.digitChar n).toNat < 256 := by decide
  induction bs with
  | nil => simp [Hex.encodeDigits]
  | cons b bs ih =>
    have hb := b.toNat_lt
    simp only [Hex.encodeDigits, List.forall_mem_cons]
    exact ⟨hdigit ⟨b.toNat / 16, by omega⟩, hdigit ⟨b.toNat % 16, by omega⟩, ih⟩

def vaultCodec : Codec :=
  { codec plainWire (toResponse (signatures none)) with
    decodeUnlockRequest := fun bs =>
      if bs = Json.object [("passphrase", Json.string "secret")] then .ok "secret"
      else .error "invalid character"
    unmarshalGetPublicKeyResponse := fun bs => .ok (keyText bs) }

theorem vaultCodec_undoes : vaultCodec.Undoes := by
  have h := codec_undoes plainWire (toResponse (signatures none))
  constructor <;> dsimp only [vaultCodec]
  exacts [h.request, h.response]

def vaultKeyring (passphrase : String) : Except String (Option PrivateKey) :=
  if passphrase = "secret" then .ok (some signingKey) else .error "wrong passphrase"

def vault : RemoteSigner KeyringRetriever where
  cfg := ⟨"http://127.0.0.1:9791", ""⟩
  srv :=
    { router := router
      handler := { s := ⟨lib, keyringRetriever vaultKeyring⟩, codec := vaultCodec }
      maxContentLength := 10 * 1024 * 1024
      hmacKey := "" }

theorem vault_pkr : vault.srv.handler.s.pkr = keyringRetriever vaultKeyring := rfl

theorem signWith_vault (sk : PrivateKey) :
    signWith lib sk (directRequest plainRequest) = .ok (signatures none) :=
  rfl

theorem inRange_vault (k : KeyringRetriever) : InRange vault plainRequest k where
  slashingScript := by decide
  unbondingScript := by decide
  unbondingSlashingScript := by decide
  fpEncKeys := by decide
  hmacKey := rfl
  requestFits := by
    dsimp only [vault, vaultCodec]
    exact (inRange_plain ()).requestFits
  responseFits resp k' h := by
    rw [signLocally_keyring vault_pkr] at h
    cases hheld : k.held with
    | none => simp [hheld] at h
    | some sk =>
      rw [hheld] at h
      cases h
      dsimp only [vault, vaultCodec]
      exact ⟨_, marshal_response _ _, length_jsonResponse_signatures (by decide)⟩

theorem parseCompressedPubKey_lib {pk : PublicKey} (h : pk.odd = false) :
    lib.parseCompressedPubKey (serializeCompressed pk) = .ok pk := by
  obtain ⟨x, odd⟩ := pk
  obtain rfl : odd = false := h
  simp [lib, TxTable.lib, serializeCompressed, TxTable.parsePubKey, Except.map, Vector.toList]

theorem getsThrough_publicKey : vault.GetsThrough .publicKey := by
  refine .publicKey rfl fun sk => ⟨keyBody _, ⟨rfl, ?_⟩, ?_, ?_⟩
  · refine (Json.length_object_le _).trans ?_
    have h := Json.length_object_le [("public_key_hex", Json.string
      (Hex.encodeToString (serializeCompressed (vault.srv.handler.s.lib.pubKey sk))))]
    have hmax : 1000 ≤ maxResponseSize := by decide
    simp only [Json.length_string, Hex.length_toList_encodeToString, serializeCompressed,
      List.length_cons, Vector.length_toList, List.map_cons, List.map_nil, List.sum_cons,
      List.sum_nil, String.reduceToList, List.length_nil] at h ⊢
    omega
  · refine congrArg Except.ok (keyText_keyBody ?_ ?_)
    · simp [serializeCompressed]
    · simpa [Hex.encodeToString] using ascii_encodeDigits _
  · exact parseCompressedPubKey_lib rfl

theorem getsThrough_unlock : vault.GetsThrough (.unlock "secret") :=
  .unlock rfl rfl (by decide +kernel) (by simp [vault, vaultCodec]) ⟨_, rfl, by decide +kernel⟩

theorem getsThrough_lock : vault.GetsThrough .lock := .lock rfl ⟨_, rfl, by decide +kernel⟩

/-- Between an unlock and a lock the signer signs and gives its public key, and then no more. -/
theorem vault_session : ∃ results k',
    vault.session [.unlock "secret", .sign plainRequest, .publicKey, .lock, .sign plainRequest]
        .new = (.ok results, k') ∧
      (results.map Except.toOption, k'.held) =
        ([some .done, some (.signatures (signerResponseToCovenantResponse (signatures none))),
          some (.publicKey (lib.pubKey signingKey)), some .done, none], none) := by
  have hrun : vaultRun lib vaultKeyring
      [.unlock "secret", .sign plainRequest, .publicKey, .lock, .sign plainRequest] none =
        ([some .done, some (.signatures (signerResponseToCovenantResponse (signatures none))),
          some (.publicKey (lib.pubKey signingKey)), some .done, none], none) := by
    simp [vaultRun, vaultReply, signWith_vault, vaultKeyring, getChainPrivKey,
      signerResponseToCovenantResponse]
  rw [← hrun]
  refine session_refines vault_pkr vaultCodec_undoes (table_signaturesSurvive table) _ ?_ .new
  simp [getsThrough_unlock, getsThrough_publicKey, getsThrough_lock,
    RemoteSigner.GetsThrough.sign inRange_vault survives_plain]

end Sample

end CovenantEmulator
