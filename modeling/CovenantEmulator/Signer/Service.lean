import CovenantEmulator.Signer.Wire

/-! The signing server, from its middlewares to its handlers, and the client that calls it. -/
namespace CovenantEmulator

open Golang

inductive Method where
  | connect | delete | get | head | options | patch | post | put | trace
  deriving DecidableEq, Repr

/-- A request body, read through `http.MaxBytesReader` when it has a limit. -/
structure Body where
  bytes : Bytes
  limit : Option Nat
  deriving DecidableEq, Repr

structure HttpRequest where
  method : Method
  path : String
  /-- The value of `X-Covenant-HMAC`, empty when the header is missing. -/
  covenantHMAC : String
  /-- −1 when the length is unknown. -/
  contentLength : Int
  body : Body
  deriving DecidableEq, Repr

structure HttpResponse where
  statusCode : Nat
  body : Bytes
  deriving DecidableEq, Repr

inductive ErrorCode where
  | internalServiceError | validationError | notFound | badRequest | forbidden | unauthorized
  deriving DecidableEq, Repr

def ErrorCode.string : ErrorCode → String
  | .internalServiceError => "INTERNAL_SERVICE_ERROR"
  | .validationError => "VALIDATION_ERROR"
  | .notFound => "NOT_FOUND"
  | .badRequest => "BAD_REQUEST"
  | .forbidden => "FORBIDDEN"
  | .unauthorized => "UNAUTHORIZED"

/-- `types.Error`. -/
structure ServiceError where
  err : String
  statusCode : Nat
  errorCode : ErrorCode
  deriving DecidableEq, Repr

/-- A status code of zero becomes 500. -/
def newErrorWithMsg (statusCode : Nat) (errorCode : ErrorCode) (msg : String) : ServiceError where
  err := msg
  statusCode := if statusCode = 0 then 500 else statusCode
  errorCode := errorCode

def newUnauthorizedError (msg : String) : ServiceError := newErrorWithMsg 401 .unauthorized msg

def newInternalServiceError (err : String) : ServiceError := ⟨err, 500, .internalServiceError⟩

/-- What the handlers answer with, each inside a `PublicResponse`. -/
inductive ResultData where
  | signTransactions (resp : SignTransactionsResponse)
  | getPublicKey (publicKey : String)
  | unlock
  | lock
  deriving DecidableEq, Repr

structure Result where
  data : ResultData
  status : Nat
  deriving DecidableEq, Repr

def newResult (data : ResultData) : Result := ⟨data, 200⟩

structure HTTPResponseError where
  errorCode : String
  message : String
  deriving DecidableEq, Repr

/-- `encoding/json` on the structs that travel, and HMAC-SHA256. -/
structure Codec where
  marshalSignTransactionsRequest : SignTransactionsRequest → Except String Bytes
  /-- `json.NewDecoder(body).Decode`, from the bytes the body gives before it ends. -/
  decodeSignTransactionsRequest : Bytes → Except String SignTransactionsRequest
  marshalUnlockRequest : String → Except String Bytes
  decodeUnlockRequest : Bytes → Except String String
  marshalResult : ResultData → Except String Bytes
  unmarshalSignTransactionsResponse : Bytes → Except String SignTransactionsResponse
  unmarshalGetPublicKeyResponse : Bytes → Except String String
  marshalError : HTTPResponseError → Except String Bytes
  /-- The object `RespondWithError` writes, from its code and message. -/
  encodeError : String → String → Bytes
  hmacSha256 : Bytes → Bytes → Vector UInt8 32

/-- Decoding undoes encoding on the structs of the signing call. -/
structure Codec.Undoes (codec : Codec) : Prop where
  request : ∀ {req bs}, codec.marshalSignTransactionsRequest req = .ok bs →
    codec.decodeSignTransactionsRequest bs = .ok req
  response : ∀ {resp bs}, codec.marshalResult (.signTransactions resp) = .ok bs →
    codec.unmarshalSignTransactionsResponse bs = .ok resp

/-- `io.ReadAll`. -/
def Body.readAll (b : Body) : Except String Bytes :=
  match b.limit with
  | none => .ok b.bytes
  | some n => if b.bytes.length > n then .error "http: request body too large" else .ok b.bytes

/-- The bytes a decoder gets before the body ends or fails. -/
def Body.visible (b : Body) : Bytes :=
  match b.limit with
  | none => b.bytes
  | some n => b.bytes.take n

def bytesOfText (s : String) : Bytes := s.toUTF8.toList

/-- `http.Error`. -/
def httpError (msg : String) (statusCode : Nat) : HttpResponse :=
  ⟨statusCode, bytesOfText (msg ++ "\n")⟩

/-- `http.StatusText(code) != ""`. -/
def hasStatusText (code : Nat) : Bool :=
  (100 ≤ code && code ≤ 103) || (200 ≤ code && code ≤ 208) || code == 226 ||
  (300 ≤ code && code ≤ 305) || code == 307 || code == 308 ||
  (400 ≤ code && code ≤ 418) || (421 ≤ code && code ≤ 426) || code == 428 || code == 429 ||
  code == 431 || code == 451 || (500 ≤ code && code ≤ 508) || code == 510 || code == 511

section
variable {σ : Type} (codec : Codec)

def contentLengthMiddleware (maxBytes : UInt32) (h : HttpRequest → Go σ HttpResponse)
    (r : HttpRequest) : Go σ HttpResponse :=
  if r.contentLength > maxBytes.toNat then pure (httpError "Request Entity Too Large" 413)
  else h { r with body := ⟨r.body.bytes, some maxBytes.toNat⟩ }

def generateHMAC (hmacKey : String) (body : Bytes) : String :=
  if hmacKey = "" then ""
  else Hex.encodeToString (codec.hmacSha256 (bytesOfText hmacKey) body).toList

def validateHMAC (hmacKey : String) (body : Bytes) (receivedHMAC : String) : Bool :=
  if hmacKey = "" then true
  else if receivedHMAC = "" then false
  else decide (generateHMAC codec hmacKey body = receivedHMAC)

def respondWithError (appErr : ServiceError) : HttpResponse :=
  ⟨appErr.statusCode, codec.encodeError appErr.errorCode.string appErr.err⟩

def hmacAuthMiddleware (hmacKey : String) (next : HttpRequest → Go σ HttpResponse)
    (r : HttpRequest) : Go σ HttpResponse :=
  if hmacKey = "" then next r
  else if r.covenantHMAC = "" then
    pure (respondWithError codec (newUnauthorizedError "missing HMAC authentication header"))
  else
    match r.body.readAll with
    | .error err => pure (respondWithError codec (newInternalServiceError err))
    | .ok body =>
      if validateHMAC codec hmacKey body r.covenantHMAC then
        next { r with body := ⟨body, none⟩ }
      else pure (respondWithError codec (newUnauthorizedError "invalid HMAC authentication"))

def writeResponse (statusCode : Nat) (res : Except String Bytes) : HttpResponse :=
  match res with
  | .ok respBytes => ⟨statusCode, respBytes⟩
  | .error _ => httpError "Failed to process the request. Please try again later." 500

/-- The error as the client sees it: the text of a 5xx error is hidden. -/
def errorResponse (err : ServiceError) : HttpResponse :=
  let statusCode := if hasStatusText err.statusCode then err.statusCode else 500
  let message := if statusCode ≥ 500 then "Internal service error" else err.err
  writeResponse statusCode (codec.marshalError ⟨err.errorCode.string, message⟩)

def registerHandler (handlerFunc : HttpRequest → Go σ (Except ServiceError Result))
    (r : HttpRequest) : Go σ HttpResponse := do
  let result ← handlerFunc r
  match result with
  | .error err => pure (errorResponse codec err)
  | .ok result =>
    if hasStatusText result.status then
      pure (writeResponse result.status (codec.marshalResult result.data))
    else
      pure (writeResponse 500 (codec.marshalError
        ⟨ErrorCode.internalServiceError.string, "Internal service error"⟩))

end

structure Handler (σ : Type) where
  s : SignerApp σ
  codec : Codec

namespace Handler

variable {σ : Type} (h : Handler σ)

def invalidPayload : ServiceError := newErrorWithMsg 400 .badRequest "invalid request payload"

/-- A parsed request, signed: any error is an internal one. -/
def sign (parsedRequest : ParsedSigningRequest) : Go σ (Except ServiceError Result) := do
  let sig ← Go.attempt (h.s.signTransactions parsedRequest)
  match sig with
  | .error err => pure (.error (newErrorWithMsg 500 .internalServiceError err))
  | .ok sig => pure (.ok (newResult (.signTransactions (toResponse sig))))

def signTransactions (request : HttpRequest) : Go σ (Except ServiceError Result) :=
  match h.codec.decodeSignTransactionsRequest request.body.visible with
  | .error _ => pure (.error invalidPayload)
  | .ok payload => do
    let parsed ← Go.attempt (Go.lift (parseSigningRequest h.s.lib payload))
    match parsed with
    | .error err => pure (.error (newErrorWithMsg 400 .badRequest err))
    | .ok parsedRequest => h.sign parsedRequest

def getPublicKey (_ : HttpRequest) : Go σ (Except ServiceError Result) := do
  let pubKey ← Go.attempt h.s.pubKey
  match pubKey with
  | .error err => pure (.error (newErrorWithMsg 500 .internalServiceError err))
  | .ok pubKey =>
    pure (.ok (newResult (.getPublicKey (Hex.encodeToString (serializeCompressed pubKey)))))

def unlock (request : HttpRequest) : Go σ (Except ServiceError Result) :=
  match h.codec.decodeUnlockRequest request.body.visible with
  | .error _ => pure (.error invalidPayload)
  | .ok passphrase => do
    let unlocked ← Go.attempt (h.s.unlock passphrase)
    match unlocked with
    | .error err => pure (.error (newErrorWithMsg 400 .badRequest err))
    | .ok _ => pure (.ok (newResult .unlock))

def lock (_ : HttpRequest) : Go σ (Except ServiceError Result) := do
  let locked ← Go.attempt h.s.lock
  match locked with
  | .error err => pure (.error (newErrorWithMsg 400 .badRequest err))
  | .ok _ => pure (.ok (newResult .lock))

end Handler

/-- The routes of `SetupRoutes`. -/
inductive Route where
  | signTransactions | unlock | lock | publicKey
  deriving DecidableEq, Repr

def Route.path : Route → String
  | .signTransactions => "/v1/sign-transactions"
  | .unlock => "/v1/unlock"
  | .lock => "/v1/lock"
  | .publicKey => "/v1/public-key"

def Route.method : Route → Method
  | .signTransactions | .unlock | .lock => .post
  | .publicKey => .get

/-- The verb of the client's errors. -/
def Route.op (route : Route) : String := if route.method = .get then "Get" else "Post"

/-- The router with these routes: each is found under its method and path, and to anything else the
router answers itself. -/
structure Router where
  find : Method → String → Except HttpResponse Route
  find_eq_ok : ∀ {method path route},
    find method path = .ok route ↔ route.method = method ∧ route.path = path

structure SigningServer (σ : Type) where
  router : Router
  handler : Handler σ
  maxContentLength : UInt32
  hmacKey : String

namespace SigningServer

variable {σ : Type} (srv : SigningServer σ)

def handle : Route → HttpRequest → Go σ (Except ServiceError Result)
  | .signTransactions => srv.handler.signTransactions
  | .unlock => srv.handler.unlock
  | .lock => srv.handler.lock
  | .publicKey => srv.handler.getPublicKey

def route (r : HttpRequest) : Go σ HttpResponse :=
  match srv.router.find r.method r.path with
  | .ok route => registerHandler srv.handler.codec (srv.handle route) r
  | .error resp => pure resp

/-- The middlewares in the order they are used, then the router. -/
def serve : HttpRequest → Go σ HttpResponse :=
  contentLengthMiddleware srv.maxContentLength
    (hmacAuthMiddleware srv.handler.codec srv.hmacKey srv.route)

/-- `client.Do`: the server recovers a handler's panic and drops the connection. -/
def clientDo (op url : String) (r : HttpRequest) : Go σ HttpResponse := fun s =>
  match srv.serve r s with
  | (.panic _, s') => (.error (op ++ " \"" ++ url ++ "\": EOF"), s')
  | res => res

end SigningServer

/-- `maxResponseSize`, 1 MB. -/
def maxResponseSize : Nat := 2 ^ 20

/-- Where the client finds the signer and the key it authenticates with. -/
structure RemoteSignerCfg where
  url : String
  hmacKey : String
  deriving DecidableEq, Repr

section
variable {σ : Type} (srv : SigningServer σ) (cfg : RemoteSignerCfg)

/-- A client request, with the HMAC header when there is a key. -/
def clientRequest (route : Route) (body : Bytes) : HttpRequest where
  method := route.method
  path := route.path
  covenantHMAC := generateHMAC srv.handler.codec cfg.hmacKey body
  contentLength := body.length
  body := ⟨body, none⟩

/-- The part the client functions share: `name` is the word of the error text. -/
def clientCall (name : String) (route : Route) (body : Bytes) : Go σ Bytes := do
  let res ← srv.clientDo route.op (cfg.url ++ route.path) (clientRequest srv cfg route body)
  let resBody ← Go.lift (.ofExcept (Body.readAll ⟨res.body, some maxResponseSize⟩))
  if res.statusCode ≠ 200 then
    Go.fail (name ++ " request failed. status code: " ++ toString res.statusCode ++
      ", message: " ++ textOfBytes resBody)
  else pure resBody

def requestCovenantSignaure (preq : ParsedSigningRequest) : Go σ ParsedSigningResponse := do
  let req ← Go.lift (toSignTransactionRequest srv.handler.s.lib preq)
  let marshalled ← Go.lift (.ofExcept (srv.handler.codec.marshalSignTransactionsRequest req))
  let resBody ← clientCall srv cfg "signing" .signTransactions marshalled
  let response ←
    Go.lift (.ofExcept (srv.handler.codec.unmarshalSignTransactionsResponse resBody))
  Go.lift (toParsedSigningResponse srv.handler.s.lib response)

/-- `GetPublicKey`. -/
def requestPublicKey : Go σ PublicKey := do
  let resBody ← clientCall srv cfg "public key" .publicKey []
  let publicKey ← Go.lift (.ofExcept (srv.handler.codec.unmarshalGetPublicKeyResponse resBody))
  let pubKey ← Go.lift (.ofExcept (Hex.decodeString publicKey))
  Go.lift (.ofExcept (srv.handler.s.lib.parseCompressedPubKey pubKey))

/-- `Unlock`. -/
def requestUnlock (passphrase : String) : Go σ Unit := do
  let marshalled ← Go.lift (.ofExcept (srv.handler.codec.marshalUnlockRequest passphrase))
  let _ ← clientCall srv cfg "unlocking" .unlock marshalled
  pure ()

/-- `Lock`. -/
def requestLock : Go σ Unit := do
  let _ ← clientCall srv cfg "locking" .lock []
  pure ()

/-- The middlewares around any handler. -/
def SigningServer.middlewares {τ : Type} (next : HttpRequest → Go τ HttpResponse) :
    HttpRequest → Go τ HttpResponse :=
  contentLengthMiddleware srv.maxContentLength
    (hmacAuthMiddleware srv.handler.codec srv.hmacKey next)

/-- What the middlewares decide: the request handed on, or the answer instead of it. -/
def SigningServer.gate (r : HttpRequest) : Except HttpResponse HttpRequest :=
  if r.contentLength > srv.maxContentLength.toNat then
    .error (httpError "Request Entity Too Large" 413)
  else if srv.hmacKey = "" then
    .ok { r with body := ⟨r.body.bytes, some srv.maxContentLength.toNat⟩ }
  else if r.covenantHMAC = "" then
    .error (respondWithError srv.handler.codec
      (newUnauthorizedError "missing HMAC authentication header"))
  else
    match Body.readAll ⟨r.body.bytes, some srv.maxContentLength.toNat⟩ with
    | .error err => .error (respondWithError srv.handler.codec (newInternalServiceError err))
    | .ok body =>
      if validateHMAC srv.handler.codec srv.hmacKey body r.covenantHMAC then
        .ok { r with body := ⟨body, none⟩ }
      else .error (respondWithError srv.handler.codec
        (newUnauthorizedError "invalid HMAC authentication"))

end

section
variable {σ : Type} {srv : SigningServer σ} {cfg : RemoteSignerCfg} {route : Route} {body : Bytes}
  {r r' : HttpRequest}

/-- Every route is found under its own path and method. -/
theorem route_clientRequest (b : Body) :
    srv.route { clientRequest srv cfg route body with body := b } =
      registerHandler srv.handler.codec (srv.handle route)
        { clientRequest srv cfg route body with body := b } := by
  have hfind : srv.router.find (clientRequest srv cfg route body).method
      (clientRequest srv cfg route body).path = .ok route :=
    srv.router.find_eq_ok.mpr ⟨rfl, rfl⟩
  rw [SigningServer.route, hfind]

theorem generateHMAC_ne_empty (codec : Codec) {key : String} (h : key ≠ "") (body : Bytes) :
    generateHMAC codec key body ≠ "" := by
  rw [generateHMAC, if_neg h, ne_eq, Hex.encodeToString_eq_empty]
  exact fun hnil => by simpa using congrArg List.length hnil

theorem validateHMAC_iff {codec : Codec} {key header : String} (hkey : key ≠ "") {body : Bytes} :
    validateHMAC codec key body header = true ↔ header = generateHMAC codec key body := by
  have hne := generateHMAC_ne_empty codec hkey body
  unfold validateHMAC
  rw [if_neg hkey]
  by_cases hheader : header = ""
  · simp [hheader, hne.symm]
  · simp [hheader, eq_comm]

theorem readAll_eq_ok {bs bs' : Bytes} {n : Nat} :
    Body.readAll ⟨bs, some n⟩ = .ok bs' ↔ bs.length ≤ n ∧ bs = bs' := by
  unfold Body.readAll
  dsimp only
  split
  · rename_i h
    simp [Nat.not_le.mpr h]
  · rename_i h
    simp [Nat.not_lt.mp h]

theorem middlewares_eq {τ : Type} (next : HttpRequest → Go τ HttpResponse) (r : HttpRequest) :
    srv.middlewares next r = match srv.gate r with
      | .ok r' => next r'
      | .error resp => pure resp := by
  unfold SigningServer.middlewares contentLengthMiddleware SigningServer.gate
  split
  · rfl
  unfold hmacAuthMiddleware
  split
  · rfl
  split
  · rfl
  dsimp only
  cases Body.readAll ⟨r.body.bytes, some srv.maxContentLength.toNat⟩ with
  | error err => rfl
  | ok body =>
    by_cases hvalid : validateHMAC srv.handler.codec srv.hmacKey body r.covenantHMAC = true
    · simp [hvalid]
    · simp [hvalid]

theorem serve_eq (r : HttpRequest) : srv.serve r = match srv.gate r with
    | .ok r' => srv.route r'
    | .error resp => pure resp :=
  middlewares_eq srv.route r

theorem gate_eq_ok : srv.gate r = .ok r' ↔ r.contentLength ≤ srv.maxContentLength.toNat ∧
    ((srv.hmacKey = "" ∧
      r' = { r with body := ⟨r.body.bytes, some srv.maxContentLength.toNat⟩ }) ∨
    (srv.hmacKey ≠ "" ∧ r.body.bytes.length ≤ srv.maxContentLength.toNat ∧
      validateHMAC srv.handler.codec srv.hmacKey r.body.bytes r.covenantHMAC = true ∧
      r' = { r with body := ⟨r.body.bytes, none⟩ })) := by
  unfold SigningServer.gate
  constructor
  · intro h
    split at h
    · cases h
    rename_i hlong
    refine ⟨Int.not_lt.mp hlong, ?_⟩
    split at h
    · rename_i hkey
      cases h
      exact .inl ⟨hkey, rfl⟩
    rename_i hkey
    split at h
    · cases h
    cases hread : Body.readAll ⟨r.body.bytes, some srv.maxContentLength.toNat⟩ with
    | error err =>
      rw [hread] at h
      cases h
    | ok body =>
      obtain ⟨hfits, rfl⟩ := readAll_eq_ok.mp hread
      rw [hread] at h
      dsimp only at h
      split at h
      · rename_i hvalid
        cases h
        exact .inr ⟨hkey, hfits, hvalid, rfl⟩
      · cases h
  · rintro ⟨hlong, ⟨hkey, rfl⟩ | ⟨hkey, hfits, hvalid, rfl⟩⟩
    · rw [if_neg (Int.not_lt.mpr hlong), if_pos hkey]
    · have hheader : r.covenantHMAC ≠ "" := by
        intro hempty
        simp [validateHMAC, hkey, hempty] at hvalid
      rw [if_neg (Int.not_lt.mpr hlong), if_neg hkey, if_neg hheader,
        readAll_eq_ok.mpr ⟨hfits, rfl⟩]
      dsimp only
      rw [if_pos hvalid]

/-- A request that is not handed on is never answered with a 200. -/
theorem statusCode_of_gate_error {resp : HttpResponse} (h : srv.gate r = .error resp) :
    resp.statusCode ≠ 200 := by
  unfold SigningServer.gate at h
  split at h
  · cases h
    simp [httpError]
  split at h
  · cases h
  split at h
  · cases h
    simp [respondWithError, newUnauthorizedError, newErrorWithMsg]
  split at h
  · cases h
    simp [respondWithError, newInternalServiceError]
  split at h
  · cases h
  · cases h
    simp [respondWithError, newUnauthorizedError, newErrorWithMsg]

/-- The handler of a route, called with the bytes `body`. -/
def Reaches (srv : SigningServer σ) (cfg : RemoteSignerCfg) (route : Route) (body : Bytes) :
    Prop :=
  ∃ b : Body, b.visible = body ∧ srv.serve (clientRequest srv cfg route body) =
    registerHandler srv.handler.codec (srv.handle route)
      { clientRequest srv cfg route body with body := b }

/-- What is handed on of a client request goes to its handler. -/
theorem reaches_of_gate (h : srv.gate (clientRequest srv cfg route body) = .ok r') :
    Reaches srv cfg route body := by
  unfold Reaches
  rw [serve_eq, h]
  obtain ⟨hlong, ⟨-, rfl⟩ | ⟨-, -, -, rfl⟩⟩ := gate_eq_ok.mp h
  · have hfits : body.length ≤ srv.maxContentLength.toNat := Int.ofNat_le.mp hlong
    exact ⟨⟨body, some srv.maxContentLength.toNat⟩, List.take_of_length_le hfits,
      route_clientRequest _⟩
  · exact ⟨⟨body, none⟩, rfl, route_clientRequest _⟩

theorem reaches_of_valid (hfits : body.length ≤ srv.maxContentLength.toNat)
    (hvalid : srv.hmacKey = "" ∨ generateHMAC srv.handler.codec cfg.hmacKey body =
      generateHMAC srv.handler.codec srv.hmacKey body) : Reaches srv cfg route body := by
  have hlong : (clientRequest srv cfg route body).contentLength ≤ srv.maxContentLength.toNat :=
    Int.ofNat_le.mpr hfits
  by_cases hkey : srv.hmacKey = ""
  · exact reaches_of_gate (gate_eq_ok.mpr ⟨hlong, .inl ⟨hkey, rfl⟩⟩)
  · have hheader := (validateHMAC_iff hkey).mpr (hvalid.resolve_left hkey)
    exact reaches_of_gate (gate_eq_ok.mpr ⟨hlong, .inr ⟨hkey, hfits, hheader, rfl⟩⟩)

/-- A client request reaches its handler or is turned away, with the state as it was. -/
theorem reaches_or_rejected (srv : SigningServer σ) (cfg : RemoteSignerCfg) (route : Route)
    (body : Bytes) : Reaches srv cfg route body ∨
      ∃ resp, resp.statusCode ≠ 200 ∧ srv.serve (clientRequest srv cfg route body) = pure resp := by
  cases hgate : srv.gate (clientRequest srv cfg route body) with
  | ok r' => exact .inl (reaches_of_gate hgate)
  | error resp =>
    refine .inr ⟨resp, statusCode_of_gate_error hgate, ?_⟩
    rw [serve_eq, hgate]

theorem writeResponse_eq_ok {bs : Bytes} {code : Nat} {res : Except String Bytes} :
    writeResponse code res = ⟨200, bs⟩ ↔ code = 200 ∧ res = .ok bs := by
  cases res <;> simp [writeResponse, httpError]

/-- An error of a handler never becomes a 200. -/
theorem errorResponse_ne_ok {codec : Codec} {err : ServiceError} (h : err.statusCode ≠ 200)
    {bs : Bytes} : errorResponse codec err ≠ ⟨200, bs⟩ := by
  rw [errorResponse, ne_eq, writeResponse_eq_ok]
  rintro ⟨hcode, -⟩
  split at hcode
  · exact h hcode
  · cases hcode

/-- A 200 is written for a result of the handler, and only for that. -/
theorem registerHandler_eq_ok {codec : Codec}
    {f : HttpRequest → Go σ (Except ServiceError Result)} {r : HttpRequest} {s s' : σ} {bs : Bytes}
    (herr : ∀ err s₁, f r s = (.ok (.error err), s₁) → err.statusCode ≠ 200) :
    registerHandler codec f r s = (.ok ⟨200, bs⟩, s') ↔ ∃ result, result.status = 200 ∧
      f r s = (.ok (.ok result), s') ∧ codec.marshalResult result.data = .ok bs := by
  unfold registerHandler
  rw [Go.bind_eq_ok]
  constructor
  · rintro ⟨res, s₁, hres, h⟩
    cases res with
    | error err =>
      obtain ⟨hresp, -⟩ := Go.pure_eq_ok.mp h
      exact absurd hresp (errorResponse_ne_ok (herr err s₁ hres))
    | ok result =>
      dsimp only at h
      split at h <;> obtain ⟨hresp, rfl⟩ := Go.pure_eq_ok.mp h <;>
        obtain ⟨hcode, hbs⟩ := writeResponse_eq_ok.mp hresp
      · exact ⟨result, hcode, hres, hbs⟩
      · cases hcode
  · rintro ⟨result, hstatus, hres, hbs⟩
    refine ⟨_, _, hres, ?_⟩
    simp [hstatus, hbs, hasStatusText, writeResponse]

variable {name : String} {s s' : σ} {bs : Bytes}

theorem clientDo_eq_ok {op url : String} {r : HttpRequest} {res : HttpResponse} :
    srv.clientDo op url r s = (.ok res, s') ↔ srv.serve r s = (.ok res, s') := by
  unfold SigningServer.clientDo
  rcases srv.serve r s with ⟨_ | _ | _ | _, s₁⟩ <;> simp

/-- A panic of the server is an error of the client. -/
theorem clientDo_returns {op url : String} {r : HttpRequest}
    (h : (srv.serve r s).1 ≠ .diverged) : (srv.clientDo op url r s).1.Returns := by
  unfold SigningServer.clientDo
  revert h
  rcases srv.serve r s with ⟨_ | _ | _ | _, s₁⟩ <;> simp

/-- A client call returns the body of a 200 answer that is not too long, and nothing else. -/
theorem clientCall_eq_ok : clientCall srv cfg name route body s = (.ok bs, s') ↔
    srv.serve (clientRequest srv cfg route body) s = (.ok ⟨200, bs⟩, s') ∧
      bs.length ≤ maxResponseSize := by
  unfold clientCall
  rw [Go.bind_eq_ok]
  constructor
  · rintro ⟨⟨code, resBody⟩, s₁, hres, h⟩
    obtain ⟨resBody', _, hlift, h⟩ := Go.bind_eq_ok.mp h
    obtain ⟨hread, rfl⟩ := Go.lift_eq_ok.mp hlift
    obtain ⟨hlen, rfl⟩ := readAll_eq_ok.mp (Outcome.ofExcept_eq_ok.mp hread)
    split at h
    · cases h
    · rename_i hcode
      cases h
      rw [clientDo_eq_ok] at hres
      exact ⟨not_not.mp hcode ▸ hres, hlen⟩
  · rintro ⟨hres, hlen⟩
    refine ⟨⟨200, bs⟩, s', clientDo_eq_ok.mpr hres, ?_⟩
    rw [readAll_eq_ok.mpr ⟨hlen, rfl⟩]
    rfl

/-- Whatever the server does, short of never answering, the client call comes back. -/
theorem clientCall_returns (h : (srv.serve (clientRequest srv cfg route body) s).1 ≠ .diverged) :
    (clientCall srv cfg name route body s).1.Returns := by
  unfold clientCall
  refine Go.bind_returns.mpr ⟨clientDo_returns h, fun res s₁ _ => ?_⟩
  refine Go.bind_returns.mpr ⟨Outcome.ofExcept_returns _, fun resBody s₂ _ => ?_⟩
  split <;> trivial

end

end CovenantEmulator
