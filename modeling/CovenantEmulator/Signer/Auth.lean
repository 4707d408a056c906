import CovenantEmulator.Sample.Remote

/-! Which requests the middlewares let through to a handler, and what they authenticate. -/
namespace CovenantEmulator

open Golang

section
variable {σ : Type} (srv : SigningServer σ)

/-- The next handler, whatever it is, is called with `r'` and nothing else is done. -/
def LetsThrough (r r' : HttpRequest) : Prop :=
  ∀ (τ : Type) (next : HttpRequest → Go τ HttpResponse), srv.middlewares next r = next r'

/-- The request is handed to the handler of the route as `r'`. -/
structure ReachesRoute (r : HttpRequest) (route : Route) (r' : HttpRequest) : Prop where
  letThrough : LetsThrough srv r r'
  path : route.path = r'.path
  method : route.method = r'.method

/-- A request as it comes in: read without a limit, of a length that is right or unknown. -/
structure Arrives (r : HttpRequest) : Prop where
  limit : r.body.limit = none
  contentLength : r.contentLength = -1 ∨ r.contentLength = r.body.bytes.length

end

/-- A call of one of the four client functions. -/
inductive ClientCall where
  | sign (preq : ParsedSigningRequest)
  | publicKey
  | unlock (passphrase : String)
  | lock

namespace ClientCall

variable {σ : Type} (srv : SigningServer σ) (cfg : RemoteSignerCfg)

def route : ClientCall → Route
  | sign _ => .signTransactions
  | publicKey => .publicKey
  | unlock _ => .unlock
  | lock => .lock

/-- The body of the request; an error when there is nothing to send. -/
def body : ClientCall → Outcome Bytes
  | sign preq => do
    let req ← toSignTransactionRequest srv.handler.s.lib preq
    .ofExcept (srv.handler.codec.marshalSignTransactionsRequest req)
  | publicKey => .ok []
  | unlock passphrase => .ofExcept (srv.handler.codec.marshalUnlockRequest passphrase)
  | lock => .ok []

def request (c : ClientCall) : Outcome HttpRequest := do
  let body ← c.body srv
  pure (clientRequest srv cfg c.route body)

/-- The client function itself, without its result. -/
def run : ClientCall → Go σ Unit
  | sign preq => do
    let _ ← requestCovenantSignaure srv cfg preq
    pure ()
  | publicKey => do
    let _ ← requestPublicKey srv cfg
    pure ()
  | unlock passphrase => requestUnlock srv cfg passphrase
  | lock => requestLock srv cfg

/-- The requests the calls send, in order. -/
def transcript (calls : List ClientCall) : List HttpRequest :=
  calls.filterMap fun c =>
    match c.request srv cfg with
    | .ok r => some r
    | _ => none

end ClientCall

section
variable {σ : Type} {srv : SigningServer σ} {cfg : RemoteSignerCfg} {c : ClientCall}
  {r r' : HttpRequest} {route : Route}

/-- The handler a request comes to shows which request it was. -/
theorem letsThrough_iff : LetsThrough srv r r' ↔ srv.gate r = .ok r' := by
  constructor
  · intro h
    have hrecord := h (Option HttpRequest) fun r => do
      Go.modify fun _ => some r
      pure ⟨200, []⟩
    rw [middlewares_eq] at hrecord
    replace hrecord := congrFun hrecord none
    cases hgate : srv.gate r with
    | ok r₁ =>
      rw [hgate] at hrecord
      cases hrecord
      rfl
    | error resp =>
      rw [hgate] at hrecord
      cases hrecord
  · intro hgate τ next
    rw [middlewares_eq, hgate]

theorem ReachesRoute.same (h : ReachesRoute srv r route r') :
    r'.path = r.path ∧ r'.method = r.method ∧ r'.body.bytes = r.body.bytes := by
  rcases (gate_eq_ok.mp (letsThrough_iff.mp h.letThrough)).2 with ⟨-, rfl⟩ | ⟨-, -, -, rfl⟩
  · exact ⟨rfl, rfl, rfl⟩
  · exact ⟨rfl, rfl, rfl⟩

/-- A request that reaches a route is answered by the handler of the route. -/
theorem ReachesRoute.serve (h : ReachesRoute srv r route r') :
    srv.serve r = registerHandler srv.handler.codec (srv.handle route) r' := by
  have hnext : srv.serve r = srv.route r' := h.letThrough σ srv.route
  rw [hnext, SigningServer.route, srv.router.find_eq_ok.mpr ⟨h.method, h.path⟩]

/-- A request that reaches no route is answered with the state as it is. -/
theorem serve_of_not_reached (h : ¬ ∃ route r', ReachesRoute srv r route r') (s : σ) :
    ∃ resp, srv.serve r s = (.ok resp, s) := by
  rw [serve_eq]
  cases hgate : srv.gate r with
  | error resp => exact ⟨resp, rfl⟩
  | ok r' =>
    change ∃ resp, srv.route r' s = (.ok resp, s)
    unfold SigningServer.route
    cases hfind : srv.router.find r'.method r'.path with
    | error resp => exact ⟨resp, rfl⟩
    | ok route =>
      obtain ⟨hmethod, hpath⟩ := srv.router.find_eq_ok.mp hfind
      exact absurd ⟨route, r', letsThrough_iff.mpr hgate, hpath, hmethod⟩ h

theorem request_eq_ok : c.request srv cfg = .ok r ↔
    ∃ body, c.body srv = .ok body ∧ clientRequest srv cfg c.route body = r := by
  unfold ClientCall.request
  simp [Outcome.bind_eq_ok]

/-- The call begins with this exchange. -/
def BeginsWith {α β : Type} (m : Go σ α) (exchange : Go σ β) : Prop := ∃ k, m = exchange >>= k

theorem BeginsWith.bind {α β γ : Type} {m : Go σ α} {exchange : Go σ β}
    (h : BeginsWith m exchange) (f : α → Go σ γ) : BeginsWith (m >>= f) exchange := by
  obtain ⟨k, rfl⟩ := h
  exact ⟨fun b => k b >>= f, bind_assoc _ _ _⟩

theorem clientCall_begins (name : String) (route : Route) (body : Bytes) :
    BeginsWith (clientCall srv cfg name route body)
      (srv.clientDo route.op (cfg.url ++ route.path) (clientRequest srv cfg route body)) :=
  ⟨_, rfl⟩

/-- A client function begins with the exchange of its request; the rest is on the answer. -/
theorem run_begins (h : c.request srv cfg = .ok r) :
    BeginsWith (c.run srv cfg) (srv.clientDo c.route.op (cfg.url ++ c.route.path) r) := by
  obtain ⟨body, hbody, rfl⟩ := request_eq_ok.mp h
  cases c with
  | sign preq =>
    obtain ⟨req, hreq, hmarshal⟩ := Outcome.bind_eq_ok.mp hbody
    refine BeginsWith.bind ?_ _
    unfold requestCovenantSignaure
    rw [hreq, Go.lift_ok_bind, hmarshal, Go.lift_ok_bind]
    exact (clientCall_begins "signing" .signTransactions body).bind _
  | publicKey =>
    cases hbody
    exact ((clientCall_begins "public key" .publicKey []).bind _).bind _
  | unlock passphrase =>
    have hmarshal : Outcome.ofExcept (srv.handler.codec.marshalUnlockRequest passphrase) =
      .ok body := hbody
    change BeginsWith (requestUnlock srv cfg passphrase) _
    unfold requestUnlock
    rw [hmarshal, Go.lift_ok_bind]
    exact (clientCall_begins "unlocking" .unlock body).bind _
  | lock =>
    cases hbody
    exact (clientCall_begins "locking" .lock []).bind _

theorem arrives_clientRequest (route : Route) (body : Bytes) :
    Arrives (clientRequest srv cfg route body) :=
  ⟨rfl, .inr rfl⟩

theorem Arrives.contentLength_le (h : Arrives r)
    (hfits : r.body.bytes.length ≤ srv.maxContentLength.toNat) :
    r.contentLength ≤ srv.maxContentLength.toNat := by
  rcases h.contentLength with hlen | hlen <;> omega

/-- A request for a route, without a key or with the right header, reaches the route. -/
theorem reachesRoute_of_header (harrives : Arrives r)
    (hfits : r.body.bytes.length ≤ srv.maxContentLength.toNat) (hpath : route.path = r.path)
    (hmethod : route.method = r.method)
    (hheader : srv.hmacKey = "" ∨
      r.covenantHMAC = generateHMAC srv.handler.codec srv.hmacKey r.body.bytes) :
    ∃ r', ReachesRoute srv r route r' := by
  have hlong := harrives.contentLength_le hfits
  by_cases hkey : srv.hmacKey = ""
  · refine ⟨{ r with body := ⟨r.body.bytes, some srv.maxContentLength.toNat⟩ }, ?_, hpath, hmethod⟩
    exact letsThrough_iff.mpr (gate_eq_ok.mpr ⟨hlong, .inl ⟨hkey, rfl⟩⟩)
  · have hvalid := (validateHMAC_iff hkey).mpr (hheader.resolve_left hkey)
    refine ⟨{ r with body := ⟨r.body.bytes, none⟩ }, ?_, hpath, hmethod⟩
    exact letsThrough_iff.mpr (gate_eq_ok.mpr ⟨hlong, .inr ⟨hkey, hfits, hvalid, rfl⟩⟩)

/-- With a key, what reaches a route has the HMAC of its whole body as header. -/
theorem ReachesRoute.header (h : ReachesRoute srv r route r') (hkey : srv.hmacKey ≠ "") :
    r.covenantHMAC = generateHMAC srv.handler.codec srv.hmacKey r.body.bytes := by
  rcases (gate_eq_ok.mp (letsThrough_iff.mp h.letThrough)).2 with ⟨hempty, -⟩ | ⟨-, -, hvalid, -⟩
  · exact absurd hempty hkey
  · exact (validateHMAC_iff hkey).mp hvalid

theorem ReachesRoute.visible (h : ReachesRoute srv r route r')
    (hfits : r.body.bytes.length ≤ srv.maxContentLength.toNat) :
    r'.body.visible = r.body.bytes := by
  rcases (gate_eq_ok.mp (letsThrough_iff.mp h.letThrough)).2 with ⟨-, rfl⟩ | ⟨-, -, -, rfl⟩
  · exact List.take_of_length_le hfits
  · rfl

end

/-- Client and server agree on authentication, and the handler sees the authenticated bytes. -/
structure Authenticates {σ : Type} (srv : SigningServer σ) : Prop where
  /-- Each client function sends its request. -/
  sends : ∀ (cfg : RemoteSignerCfg) (c : ClientCall) r, c.request srv cfg = .ok r →
    BeginsWith (c.run srv cfg) (srv.clientDo c.route.op (cfg.url ++ c.route.path) r)
  /-- With the same key, or without a key of the server, it reaches its handler. -/
  client : ∀ (cfg : RemoteSignerCfg) (c : ClientCall) r, c.request srv cfg = .ok r →
    r.body.bytes.length ≤ srv.maxContentLength.toNat →
    (srv.hmacKey = "" ∨ cfg.hmacKey = srv.hmacKey) → ∃ r', ReachesRoute srv r c.route r'
  /-- With a key, exactly the HMAC of the whole body opens a route. -/
  header : srv.hmacKey ≠ "" → ∀ r, Arrives r →
    r.body.bytes.length ≤ srv.maxContentLength.toNat →
    ((∃ route r', ReachesRoute srv r route r') ↔
      (∃ route : Route, route.path = r.path ∧ route.method = r.method) ∧
      r.covenantHMAC = Hex.encodeToString
        (srv.handler.codec.hmacSha256 (bytesOfText srv.hmacKey) r.body.bytes).toList)
  /-- The handler of the route is called, and reads the bytes sent. -/
  bytes : ∀ r route r', r.body.bytes.length ≤ srv.maxContentLength.toNat →
    ReachesRoute srv r route r' →
    srv.serve r = registerHandler srv.handler.codec (srv.handle route) r' ∧
      r'.body.visible = r.body.bytes
  /-- A request that reaches no route changes nothing. -/
  unchanged : ∀ r, (¬ ∃ route r', ReachesRoute srv r route r') →
    ∀ s, ∃ resp, srv.serve r s = (.ok resp, s)

theorem server_authenticates {σ : Type} (srv : SigningServer σ) : Authenticates srv where
  sends cfg c r h := run_begins h
  client cfg c r h hfits hkeys := by
    obtain ⟨body, -, rfl⟩ := request_eq_ok.mp h
    refine reachesRoute_of_header (arrives_clientRequest _ _) hfits rfl rfl ?_
    rcases hkeys with hempty | hsame
    · exact .inl hempty
    · exact .inr (congrArg (generateHMAC srv.handler.codec · body) hsame)
  header hkey r harrives hfits := by
    have hmac : generateHMAC srv.handler.codec srv.hmacKey r.body.bytes = Hex.encodeToString
        (srv.handler.codec.hmacSha256 (bytesOfText srv.hmacKey) r.body.bytes).toList :=
      if_neg hkey
    rw [← hmac]
    constructor
    · rintro ⟨route, r', h⟩
      obtain ⟨hpath, hmethod, -⟩ := h.same
      exact ⟨⟨route, h.path.trans hpath, h.method.trans hmethod⟩, h.header hkey⟩
    · rintro ⟨⟨route, hpath, hmethod⟩, hheader⟩
      obtain ⟨r', h⟩ := reachesRoute_of_header harrives hfits hpath hmethod (.inr hheader)
      exact ⟨route, r', h⟩
  bytes r route r' hfits h := ⟨h.serve, h.visible hfits⟩
  unchanged r h s := serve_of_not_reached h s

/-- The header is valid only for bodies the key holder has sent. -/
def OnlySentValid {σ : Type} (srv : SigningServer σ) (sent : List HttpRequest) (header : String) :
    Prop :=
  ∀ body, validateHMAC srv.handler.codec srv.hmacKey body header = true →
    ∃ r ∈ sent, r.body.bytes = body

section
variable {σ : Type} {srv : SigningServer σ} {cfg : RemoteSignerCfg} {calls : List ClientCall}

theorem mem_transcript {r : HttpRequest} :
    r ∈ ClientCall.transcript srv cfg calls ↔ ∃ c ∈ calls, c.request srv cfg = .ok r := by
  unfold ClientCall.transcript
  rw [List.mem_filterMap]
  constructor
  · rintro ⟨c, hc, h⟩
    refine ⟨c, hc, ?_⟩
    split at h
    · cases h
      assumption
    · cases h
  · rintro ⟨c, hc, h⟩
    exact ⟨c, hc, by rw [h]⟩

/-- What reaches a route has the body and the header of a request that was sent. Its method and
path are not authenticated: a request that was sent reaches any route under its method and path. -/
theorem reaches_with_sent_body (hkey : srv.hmacKey ≠ "") (hcfg : cfg.hmacKey = srv.hmacKey)
    (calls : List ClientCall) :
    (∀ r route r', OnlySentValid srv (ClientCall.transcript srv cfg calls) r.covenantHMAC →
      ReachesRoute srv r route r' → ∃ sent ∈ ClientCall.transcript srv cfg calls,
        sent.body.bytes = r.body.bytes ∧ sent.covenantHMAC = r.covenantHMAC) ∧
    ∀ sent ∈ ClientCall.transcript srv cfg calls,
      sent.body.bytes.length ≤ srv.maxContentLength.toNat → ∀ route : Route, ∃ r',
        ReachesRoute srv { sent with method := route.method, path := route.path } route r' := by
  constructor
  · intro r route r' honly h
    have hheader := h.header hkey
    obtain ⟨sent, hsent, hbody⟩ := honly _ ((validateHMAC_iff hkey).mpr hheader)
    refine ⟨sent, hsent, hbody, ?_⟩
    obtain ⟨c, -, hc⟩ := mem_transcript.mp hsent
    obtain ⟨body, -, rfl⟩ := request_eq_ok.mp hc
    rw [hheader, ← hbody, ← hcfg]
    rfl
  · intro sent hsent hfits route
    obtain ⟨c, -, hc⟩ := mem_transcript.mp hsent
    obtain ⟨body, -, rfl⟩ := request_eq_ok.mp hc
    refine reachesRoute_of_header ⟨rfl, .inr rfl⟩ hfits rfl rfl (.inr ?_)
    exact congrArg (generateHMAC srv.handler.codec · body) hcfg

end

namespace Sample

/-- HMAC-SHA256 of the empty body under the sample key. No other body is sent. -/
def hmacSha256 (key body : Bytes) : Vector UInt8 32 :=
  if key = bytesOfText "covenant-hmac-key" ∧ body = [] then
    #v[0xae, 0x88, 0x0c, 0xd8, 0xf2, 0x54, 0xbd, 0xb3, 0xf2, 0xb2, 0xdf, 0x00, 0x90, 0x43,
      0x06, 0x82, 0x01, 0x7c, 0x17, 0x04, 0x8c, 0xf3, 0x6f, 0x7b, 0x43, 0xa0, 0xcc, 0x11,
      0xe1, 0x79, 0xf8, 0x43]
  else Vector.replicate 32 0

/-- A server and a client with the same key. -/
def keyedServer : SigningServer Unit where
  router := router
  handler :=
    { s := ⟨lib, ⟨fun _ => .ok signingKey, fun _ => pure (), pure ()⟩⟩
      codec := { codec plainWire (toResponse (signatures none)) with hmacSha256 := hmacSha256 } }
  maxContentLength := 10 * 1024 * 1024
  hmacKey := "covenant-hmac-key"

def keyedClient : RemoteSignerCfg := ⟨"http://127.0.0.1:9791", "covenant-hmac-key"⟩

/-- The request of `GetPublicKey`. -/
def publicKeyRequest : HttpRequest := clientRequest keyedServer keyedClient .publicKey []

/-- The same header and body, sent to `/v1/lock`. -/
def replayedLock : HttpRequest := { publicKeyRequest with method := .post, path := "/v1/lock" }

theorem transcript_publicKey :
    ClientCall.transcript keyedServer keyedClient [.publicKey] = [publicKeyRequest] := rfl

/-- The header of the empty body is not the header of any other. -/
theorem eq_nil_of_valid {body : Bytes}
    (h : publicKeyRequest.covenantHMAC =
      generateHMAC keyedServer.handler.codec "covenant-hmac-key" body) : body = [] := by
  by_contra hne
  have hkey : "covenant-hmac-key" ≠ "" := by decide
  have hother : keyedServer.handler.codec.hmacSha256 (bytesOfText "covenant-hmac-key") body =
      Vector.replicate 32 0 := if_neg fun hboth => hne hboth.2
  have hempty : keyedServer.handler.codec.hmacSha256 (bytesOfText "covenant-hmac-key") [] ≠
      Vector.replicate 32 0 := by
    change hmacSha256 (bytesOfText "covenant-hmac-key") [] ≠ _
    rw [hmacSha256, if_pos ⟨rfl, rfl⟩]
    decide
  change generateHMAC keyedServer.handler.codec "covenant-hmac-key" [] = _ at h
  rw [generateHMAC, if_neg hkey, generateHMAC, if_neg hkey, hother] at h
  replace h := congrArg Hex.decodeString h
  rw [Hex.decodeString_encodeToString, Hex.decodeString_encodeToString] at h
  exact hempty (Vector.toList_inj.mp (Except.ok.inj h))

theorem onlySentValid_publicKey : OnlySentValid keyedServer
    (ClientCall.transcript keyedServer keyedClient [.publicKey]) replayedLock.covenantHMAC := by
  intro body hvalid
  rw [validateHMAC_iff (by decide)] at hvalid
  exact ⟨publicKeyRequest, by simp [transcript_publicKey], (eq_nil_of_valid hvalid).symm⟩

theorem replayedLock_reaches : ∃ r', ReachesRoute keyedServer replayedLock .lock r' := by
  exact reachesRoute_of_header ⟨rfl, .inr rfl⟩ (Nat.zero_le _) rfl rfl (.inr rfl)

/-- The replayed request has the body and the header of the request for the public key. -/
theorem replayedLock_sent : ∃ sent ∈ ClientCall.transcript keyedServer keyedClient [.publicKey],
    sent.body.bytes = replayedLock.body.bytes ∧
      sent.covenantHMAC = replayedLock.covenantHMAC := by
  have hkey : keyedServer.hmacKey ≠ "" := by decide
  have hcfg : keyedClient.hmacKey = keyedServer.hmacKey := rfl
  obtain ⟨hsent, -⟩ := reaches_with_sent_body hkey hcfg [.publicKey]
  obtain ⟨r', hreaches⟩ := replayedLock_reaches
  exact hsent replayedLock .lock r' onlySentValid_publicKey hreaches

/-- A request that was never sent reaches the handler of `Lock`: only the public key was asked
for. -/
theorem replayedLock_never_sent :
    OnlySentValid keyedServer (ClientCall.transcript keyedServer keyedClient [.publicKey])
      replayedLock.covenantHMAC ∧
    (∃ r', ReachesRoute keyedServer replayedLock .lock r') ∧
    ¬ ∃ sent ∈ ClientCall.transcript keyedServer keyedClient [.publicKey],
      sent.method = replayedLock.method ∧ sent.path = replayedLock.path ∧
        sent.body.bytes = replayedLock.body.bytes := by
  refine ⟨onlySentValid_publicKey, replayedLock_reaches, ?_⟩
  rintro ⟨sent, hsent, hmethod, -⟩
  rw [transcript_publicKey, List.mem_singleton] at hsent
  subst hsent
  cases hmethod

end Sample

end CovenantEmulator
