import CovenantEmulator.Golang.Json
import CovenantEmulator.Sample

/-! A signing server and its client that exchange the sample requests as JSON. -/
namespace CovenantEmulator.Sample

open Golang

def jsonStakeExpansion (req : StakeExpansionRequest) : Bytes :=
  Json.object
    [("previous_active_stake_tx_hex", Json.string req.previousActiveStakeTxHex),
     ("other_funding_output_hex", Json.string req.otherFundingOutputHex),
     ("previous_staking_output_idx", Json.number req.prevStakingOutputIdx.toNat),
     ("previous_active_stake_unbonding_script_hex",
       Json.string req.previousActiveStakeUnbondingScriptHex)]

/-- A missing stake expansion is left out. -/
def requestFields (req : SignTransactionsRequest) : List (String × Bytes) :=
  [("staking_tx_hex", Json.string req.stakingTxHex),
   ("slashing_tx_hex", Json.string req.slashingTxHex),
   ("unbonding_tx_hex", Json.string req.unbondingTxHex),
   ("slash_unbonding_tx_hex", Json.string req.slashUnbondingTxHex),
   ("staking_output_idx", Json.number req.stakingOutputIdx.toNat),
   ("slashing_script_hex", Json.string req.slashingScriptHex),
   ("unbonding_script_hex", Json.string req.unbondingScriptHex),
   ("unbonding_slashing_script_hex", Json.string req.unbondingSlashingScriptHex),
   ("fp_enc_keys", Json.array (req.fpEncKeys.map Json.string))] ++
    req.stakeExpansion.toList.map fun e => ("stake_expansion", jsonStakeExpansion e)

def jsonRequest (req : SignTransactionsRequest) : Bytes := Json.object (requestFields req)

def responseFields (resp : SignTransactionsResponse) : List (String × Bytes) :=
  [("slashing_transactions_signatures",
     Json.array (resp.slashingTransactionsAdaptorSignatures.map Json.string)),
   ("unbonding_transaction_signature", Json.string resp.unbondingTransactionSignature),
   ("slash_unbonding_transactions_signatures",
     Json.array (resp.slashUnbondingTransactionsAdaptorSignatures.map Json.string)),
   ("stake_expansion_transaction_signature",
     Json.string resp.stakeExpansionTransactionSignature)]

/-- The response inside a `PublicResponse`. -/
def jsonResponse (resp : SignTransactionsResponse) : Bytes :=
  Json.object [("data", Json.object (responseFields resp))]

/-- The request as it travels. -/
def wireRequest (staking slashing unbonding slashUnbonding : MsgTx)
    (stakeExpansion : Option StakeExpansionRequest) : SignTransactionsRequest where
  stakingTxHex := txHex staking
  slashingTxHex := txHex slashing
  unbondingTxHex := txHex unbonding
  slashUnbondingTxHex := txHex slashUnbonding
  stakingOutputIdx := 0
  slashingScriptHex := Hex.encodeToString (slashingLeaf staker providers committee 2)
  unbondingScriptHex := Hex.encodeToString (unbondingLeaf staker committee 2)
  unbondingSlashingScriptHex := Hex.encodeToString (slashingLeaf staker providers committee 2)
  fpEncKeys := providers.map fun fpPk => Hex.encodeToString (serializeCompressed fpPk)
  stakeExpansion := stakeExpansion

def plainWire : SignTransactionsRequest :=
  wireRequest stakingTx slashingTx unbondingTx slashUnbondingTx none

def wireStakeExpansion (previousStakingOutputIdx : UInt32) : StakeExpansionRequest where
  previousActiveStakeTxHex := txHex stakingTx
  otherFundingOutputHex := Hex.encodeToString fundingTxOut.wire
  prevStakingOutputIdx := previousStakingOutputIdx
  previousActiveStakeUnbondingScriptHex := Hex.encodeToString (unbondingLeaf staker committee 2)

def expansionWire (previousStakingOutputIdx : UInt32) : SignTransactionsRequest :=
  wireRequest expansionTx expansionSlashingTx expansionUnbondingTx expansionSlashUnbondingTx
    (some (wireStakeExpansion previousStakingOutputIdx))

theorem toSignTransactionRequest_expansion (idx : UInt32) :
    toSignTransactionRequest lib (covenantRequestToSignerRequest (stakeExpRequest idx)) =
      .ok (expansionWire idx) :=
  rfl

/-- A codec that knows one request and one response. -/
def codec (req : SignTransactionsRequest) (resp : SignTransactionsResponse) : Codec where
  marshalSignTransactionsRequest r :=
    if r = req then .ok (jsonRequest req) else .error "unsupported value"
  decodeSignTransactionsRequest bs :=
    if bs = jsonRequest req then .ok req else .error "invalid character"
  marshalUnlockRequest passphrase := .ok (Json.object [("passphrase", Json.string passphrase)])
  decodeUnlockRequest _ := .error "invalid character"
  marshalResult
    | .signTransactions r =>
      if r = resp then .ok (jsonResponse resp) else .error "unsupported value"
    | .getPublicKey pk =>
      .ok (Json.object [("data", Json.object [("public_key_hex", Json.string pk)])])
    | .unlock | .lock => .ok (Json.object [("data", Json.object [])])
  unmarshalSignTransactionsResponse bs :=
    if bs = jsonResponse resp then .ok resp else .error "invalid character"
  unmarshalGetPublicKeyResponse _ := .error "invalid character"
  marshalError err := .ok (Json.object
    [("errorCode", Json.string err.errorCode), ("message", Json.string err.message)])
  encodeError code message := Json.object
    [("errorCode", Json.string code), ("message", Json.string message)]
  hmacSha256 _ _ := Vector.replicate 32 0

theorem codec_undoes (req : SignTransactionsRequest) (resp : SignTransactionsResponse) :
    (codec req resp).Undoes where
  request h := by
    simp only [codec] at h ⊢
    split at h
    · rename_i heq
      cases h
      simp [heq]
    · cases h
  response h := by
    simp only [codec] at h ⊢
    split at h
    · rename_i heq
      cases h
      simp [heq]
    · cases h

/-- A router that tells an unknown path from a known one under another method. -/
def router : Router where
  find method path :=
    match [Route.signTransactions, .unlock, .lock, .publicKey].find? (·.path = path) with
    | none => .error (httpError "404 page not found" 404)
    | some route => if route.method = method then .ok route else .error ⟨405, []⟩
  find_eq_ok := by
    intro method path route
    constructor
    · intro h
      split at h
      · cases h
      · rename_i route' hfind
        split at h
        · rename_i hmethod
          cases h
          exact ⟨hmethod, by simpa using List.find?_some hfind⟩
        · cases h
    · rintro ⟨rfl, rfl⟩
      cases route <;> rfl

/-- A server with the default limit and no HMAC key, and the client it expects. -/
def remote {σ : Type} (req : SignTransactionsRequest) (resp : SignTransactionsResponse) :
    RemoteSigner σ where
  cfg := ⟨"http://127.0.0.1:9791", ""⟩
  srv :=
    { router := router
      handler :=
        { s := ⟨lib, ⟨fun _ => .ok signingKey, fun _ => pure (), pure ()⟩⟩
          codec := codec req resp }
      maxContentLength := 10 * 1024 * 1024
      hmacKey := "" }

theorem table_survivesTx {t : TxTable} {k : KnownTx} (h : k ∈ t.txs) : SurvivesTx t.lib k.tx :=
  ⟨k.tx.wire, serialize_eq_ok.mpr ⟨⟨k, h, rfl⟩, rfl⟩, deserialize_wire h⟩

/-- Requests over known transactions survive their encoding. -/
theorem survives_request {staking slashing unbonding slashUnbonding : MsgTx}
    (hknown : ∀ tx ∈ [staking, slashing, unbonding, slashUnbonding],
      tx ∈ knownTxs.map KnownTx.tx) {stk : Option SigningRequestStkExp}
    (hstk : ∀ e, stk = some e →
      e.previousActiveStakeTx = stakingTx ∧ e.otherFundingOutput = fundingTxOut) :
    Survives lib (covenantRequestToSignerRequest
      { request staking slashing unbonding slashUnbonding with stakeExp := stk }) := by
  have htx : ∀ tx ∈ knownTxs.map KnownTx.tx, SurvivesTx lib tx := by
    intro tx htx
    obtain ⟨k, hk, rfl⟩ := List.mem_map.mp htx
    exact table_survivesTx (t := table) hk
  exact
    { stakingTx := htx staking (hknown staking (by simp))
      slashingTx := htx slashing (hknown slashing (by simp))
      unbondingTx := htx unbonding (hknown unbonding (by simp))
      slashUnbondingTx := htx slashUnbonding (hknown slashUnbonding (by simp))
      fpEncKeys := by
        intro key hkey
        rcases List.mem_pair.mp hkey with rfl | rfl <;> rfl
      stakeExp := by
        intro e he
        obtain ⟨e', he', rfl⟩ := Option.map_eq_some_iff.mp he
        obtain ⟨hprev, hout⟩ := hstk e' he'
        simp only [covenantRequestToSignerRequestStkExp, hprev, hout]
        exact ⟨htx stakingTx (by decide), fundingTxOut.wire, rfl, rfl⟩ }

end CovenantEmulator.Sample
