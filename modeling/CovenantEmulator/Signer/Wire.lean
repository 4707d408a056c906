import CovenantEmulator.Signer.App

/-! The signing request and response as they travel, and what survives the way. -/
namespace CovenantEmulator

open Golang

structure StakeExpansionRequest where
  previousActiveStakeTxHex : String
  otherFundingOutputHex : String
  prevStakingOutputIdx : UInt32
  previousActiveStakeUnbondingScriptHex : String
  deriving DecidableEq, Repr

structure SignTransactionsRequest where
  stakingTxHex : String
  slashingTxHex : String
  unbondingTxHex : String
  slashUnbondingTxHex : String
  stakingOutputIdx : UInt32
  slashingScriptHex : String
  unbondingScriptHex : String
  unbondingSlashingScriptHex : String
  fpEncKeys : List String
  stakeExpansion : Option StakeExpansionRequest
  deriving DecidableEq, Repr

@[ext]
structure SignTransactionsResponse where
  slashingTransactionsAdaptorSignatures : List String
  unbondingTransactionSignature : String
  slashUnbondingTransactionsAdaptorSignatures : List String
  stakeExpansionTransactionSignature : String
  deriving DecidableEq, Repr

section
variable (lib : BabylonLib)

/-- `utils.NewBTCTxFromHex`. -/
def newBTCTxFromHex (txHex : String) : Outcome MsgTx := do
  let txBytes ← .ofExcept (Hex.decodeString txHex)
  .ofExcept (lib.deserialize txBytes)

def serializeBTCTxToHex (tx : MsgTx) : Outcome String := do
  let bytes ← .ofExcept (lib.serialize tx)
  pure (Hex.encodeToString bytes)

/-- A script of the request: `name` is the word of its error texts. -/
def parseScript (name scriptHex : String) : Outcome Bytes := do
  let script ← (Outcome.ofExcept (Hex.decodeString scriptHex)).wrap
    ("invalid " ++ name ++ " in request: " ++ ·)
  if script.length = 0 then .error (name ++ " is empty") else pure script

def parseFpEncKey (key : String) : Outcome EncryptionKey :=
  Outcome.wrap ("invalid fp encryption key in request: " ++ ·) do
    let encKeyBytes ← .ofExcept (Hex.decodeString key)
    .ofExcept (lib.newEncryptionKeyFromBytes encKeyBytes)

def parseStakeExpansion (req : StakeExpansionRequest) : Outcome ParsedSigningRequestStkExp := do
  let previousActiveStakeTx ← (newBTCTxFromHex lib req.previousActiveStakeTxHex).wrap
    ("invalid previous active staking transaction " ++ req.previousActiveStakeTxHex ++
      " in request: " ++ ·)
  let otherFundingTxOutBz ← (Outcome.ofExcept (Hex.decodeString req.otherFundingOutputHex)).wrap
    ("invalid other funding output hex " ++ req.otherFundingOutputHex ++ " in request: " ++ ·)
  let otherFundingTxOut ← (Outcome.ofExcept (lib.deserializeTxOut otherFundingTxOutBz)).wrap
    ("failed to deserialize other funding output from hex " ++ req.otherFundingOutputHex ++
      " in request: " ++ ·)
  let prevStakeUnbondScriptBz ←
    (Outcome.ofExcept (Hex.decodeString req.previousActiveStakeUnbondingScriptHex)).wrap
      ("invalid previous active stake unbonding script hex " ++
        req.previousActiveStakeUnbondingScriptHex ++ " in request: " ++ ·)
  pure
    { previousActiveStakeTx := previousActiveStakeTx
      otherFundingOutput := otherFundingTxOut
      previousStakingOutputIdx := req.prevStakingOutputIdx
      previousActiveStakeUnbondingScript := prevStakeUnbondScriptBz }

def parseStakeExp : Option StakeExpansionRequest → Outcome (Option ParsedSigningRequestStkExp)
  | none => pure none
  | some req => do
    let stakeExp ← parseStakeExpansion lib req
    pure (some stakeExp)

def parseSigningRequest (req : SignTransactionsRequest) : Outcome ParsedSigningRequest := do
  let stakingTx ← (newBTCTxFromHex lib req.stakingTxHex).wrap
    ("invalid staking transaction in request: " ++ ·)
  let slashingTx ← (newBTCTxFromHex lib req.slashingTxHex).wrap
    ("invalid slashing transaction in request: " ++ ·)
  let unbondingTx ← (newBTCTxFromHex lib req.unbondingTxHex).wrap
    ("invalid unbonding transaction in request: " ++ ·)
  let slashUnbondingTx ← (newBTCTxFromHex lib req.slashUnbondingTxHex).wrap
    ("invalid slash unbonding transaction in request: " ++ ·)
  let slashingScript ← parseScript "slashing script" req.slashingScriptHex
  let unbondingScript ← parseScript "unbonding script" req.unbondingScriptHex
  let unbondingSlashingScript ←
    parseScript "unbonding slashing script" req.unbondingSlashingScriptHex
  let fpEncKeys ← req.fpEncKeys.mapM (parseFpEncKey lib)
  let stakeExp ← parseStakeExp lib req.stakeExpansion
  pure
    { stakingTx := stakingTx
      slashingTx := slashingTx
      unbondingTx := unbondingTx
      slashUnbondingTx := slashUnbondingTx
      stakeExp := stakeExp
      stakingOutputIdx := req.stakingOutputIdx
      slashingScript := slashingScript
      unbondingScript := unbondingScript
      unbondingSlashingScript := unbondingSlashingScript
      fpEncKeys := fpEncKeys }

def toStakeExpansionRequest (stakeExp : ParsedSigningRequestStkExp) :
    Outcome StakeExpansionRequest := do
  let pasTxHex ← (serializeBTCTxToHex lib stakeExp.previousActiveStakeTx).wrap
    ("failed to serialize previous active stake transaction: " ++ ·)
  let ofoBz ← (Outcome.ofExcept (lib.serializeTxOut stakeExp.otherFundingOutput)).wrap
    ("failed to serialize other funding output: " ++ ·)
  pure
    { previousActiveStakeTxHex := pasTxHex
      otherFundingOutputHex := Hex.encodeToString ofoBz
      prevStakingOutputIdx := stakeExp.previousStakingOutputIdx
      previousActiveStakeUnbondingScriptHex :=
        Hex.encodeToString stakeExp.previousActiveStakeUnbondingScript }

def toStakeExpansion : Option ParsedSigningRequestStkExp → Outcome (Option StakeExpansionRequest)
  | none => pure none
  | some stakeExp => do
    let req ← toStakeExpansionRequest lib stakeExp
    pure (some req)

def toSignTransactionRequest (parsedRequest : ParsedSigningRequest) :
    Outcome SignTransactionsRequest := do
  let stakingTxHex ← (serializeBTCTxToHex lib parsedRequest.stakingTx).wrap
    ("failed to serialize staking transaction: " ++ ·)
  let slashingTxHex ← (serializeBTCTxToHex lib parsedRequest.slashingTx).wrap
    ("failed to serialize slashing transaction: " ++ ·)
  let unbondingTxHex ← (serializeBTCTxToHex lib parsedRequest.unbondingTx).wrap
    ("failed to serialize unbonding transaction: " ++ ·)
  let slashUnbondingTxHex ← (serializeBTCTxToHex lib parsedRequest.slashUnbondingTx).wrap
    ("failed to serialize slash unbonding transaction: " ++ ·)
  let stakeExpansion ← toStakeExpansion lib parsedRequest.stakeExp
  pure
    { stakingTxHex := stakingTxHex
      slashingTxHex := slashingTxHex
      unbondingTxHex := unbondingTxHex
      slashUnbondingTxHex := slashUnbondingTxHex
      stakingOutputIdx := parsedRequest.stakingOutputIdx
      slashingScriptHex := Hex.encodeToString parsedRequest.slashingScript
      unbondingScriptHex := Hex.encodeToString parsedRequest.unbondingScript
      unbondingSlashingScriptHex := Hex.encodeToString parsedRequest.unbondingSlashingScript
      fpEncKeys := parsedRequest.fpEncKeys.map fun key => Hex.encodeToString key.toBytes
      stakeExpansion := stakeExpansion }

/-- A missing stake expansion signature is the empty string. -/
def toResponse (response : ParsedSigningResponse) : SignTransactionsResponse where
  slashingTransactionsAdaptorSignatures := response.slashAdaptorSigs.map Hex.encodeToString
  unbondingTransactionSignature := Hex.encodeToString response.unbondingSig.serialize
  slashUnbondingTransactionsAdaptorSignatures :=
    response.slashUnbondingAdaptorSigs.map Hex.encodeToString
  stakeExpansionTransactionSignature :=
    match response.stakeExpSig with
    | some sig => Hex.encodeToString sig.serialize
    | none => ""

/-- An adaptor signature of the response: `name` is the word of its error text. -/
def parseAdaptorSig (name sig : String) : Outcome Bytes :=
  (Outcome.ofExcept (Hex.decodeString sig)).wrap
    ("invalid " ++ name ++ " adaptor signature in response: " ++ ·)

def parseStakeExpSig (sig : String) : Outcome (Option Signature) :=
  if sig.length > 0 then do
    let stakeExpSigBytes ← (Outcome.ofExcept (Hex.decodeString sig)).wrap
      ("invalid stake expansion signature " ++ sig ++ " in response: " ++ ·)
    let stakeExpSig ← (Outcome.ofExcept (lib.parseSignature stakeExpSigBytes)).wrap
      ("invalid parse of stake expansion signature " ++ sig ++ " in response: " ++ ·)
    pure (some stakeExpSig)
  else pure none

def toParsedSigningResponse (response : SignTransactionsResponse) :
    Outcome ParsedSigningResponse :=
  if response.slashingTransactionsAdaptorSignatures.length = 0 then
    .error "no slashing transactions adaptor signatures in response"
  else if response.slashUnbondingTransactionsAdaptorSignatures.length = 0 then
    .error "no slash unbonding transactions adaptor signatures in response"
  else do
    let slashAdaptorSigs ← response.slashingTransactionsAdaptorSignatures.mapM
      (parseAdaptorSig "slashing transactions")
    let unbondingSig ← Outcome.wrap
      ("invalid unbonding transaction signature in response: " ++ ·) do
        let unbondingSigBytes ← .ofExcept (Hex.decodeString response.unbondingTransactionSignature)
        .ofExcept (lib.parseSignature unbondingSigBytes)
    let slashUnbondingAdaptorSigs ← response.slashUnbondingTransactionsAdaptorSignatures.mapM
      (parseAdaptorSig "slash unbonding transactions")
    let stakeExpSig ← parseStakeExpSig lib response.stakeExpansionTransactionSignature
    pure
      { slashAdaptorSigs := slashAdaptorSigs
        unbondingSig := unbondingSig
        slashUnbondingAdaptorSigs := slashUnbondingAdaptorSigs
        stakeExpSig := stakeExpSig }

end

/-- The transaction parses back from its own bytes. -/
def SurvivesTx (lib : BabylonLib) (tx : MsgTx) : Prop :=
  ∃ bs, lib.serialize tx = .ok bs ∧ lib.deserialize bs = .ok tx

/-- A transaction with an input is read back as it was written. -/
def SerializeUndone (lib : BabylonLib) : Prop :=
  ∀ {tx bs}, tx.txIn ≠ [] → lib.serialize tx = .ok bs → lib.deserialize bs = .ok tx

def SurvivesTxOut (lib : BabylonLib) (out : TxOut) : Prop :=
  ∃ bs, lib.serializeTxOut out = .ok bs ∧ lib.deserializeTxOut bs = .ok out

def SurvivesKey (lib : BabylonLib) (key : EncryptionKey) : Prop :=
  lib.newEncryptionKeyFromBytes key.toBytes = .ok key

def SurvivesSig (lib : BabylonLib) (sig : Signature) : Prop :=
  sig.serialize ≠ [] ∧ lib.parseSignature sig.serialize = .ok sig

/-- Everything in the request survives its own encoding. -/
structure Survives (lib : BabylonLib) (p : ParsedSigningRequest) : Prop where
  stakingTx : SurvivesTx lib p.stakingTx
  slashingTx : SurvivesTx lib p.slashingTx
  unbondingTx : SurvivesTx lib p.unbondingTx
  slashUnbondingTx : SurvivesTx lib p.slashUnbondingTx
  fpEncKeys : ∀ key ∈ p.fpEncKeys, SurvivesKey lib key
  stakeExp : ∀ stk, p.stakeExp = some stk →
    SurvivesTx lib stk.previousActiveStakeTx ∧ SurvivesTxOut lib stk.otherFundingOutput

section
variable {lib : BabylonLib}

theorem serializeBTCTxToHex_survives {tx : MsgTx} (h : SurvivesTx lib tx) :
    ∃ txHex, serializeBTCTxToHex lib tx = .ok txHex ∧ newBTCTxFromHex lib txHex = .ok tx := by
  obtain ⟨bs, hser, hdes⟩ := h
  exact ⟨Hex.encodeToString bs, by simp [serializeBTCTxToHex, hser],
    by simp [newBTCTxFromHex, hdes]⟩

/-- What parses back is the transaction that was written. -/
theorem newBTCTxFromHex_of_serialized {tx tx' : MsgTx} {txHex : String}
    (h : ∀ bs, lib.serialize tx = .ok bs → lib.deserialize bs = .ok tx)
    (hser : serializeBTCTxToHex lib tx = .ok txHex)
    (hpar : newBTCTxFromHex lib txHex = .ok tx') : tx' = tx := by
  obtain ⟨bs, hbs, hhex⟩ := Outcome.bind_eq_ok.mp hser
  cases hhex
  simpa [newBTCTxFromHex, h bs (Outcome.ofExcept_eq_ok.mp hbs), eq_comm] using hpar

theorem parseScript_encode {name : String} {script : Bytes} (h : script ≠ []) :
    parseScript name (Hex.encodeToString script) = .ok script := by
  simp [parseScript, Outcome.wrap, h]

/-- A script that parses is not empty. -/
theorem parseScript_ne_nil {name scriptHex : String} {script : Bytes}
    (h : parseScript name scriptHex = .ok script) : script ≠ [] := by
  obtain ⟨script', -, h⟩ := Outcome.bind_eq_ok.mp h
  split at h
  · cases h
  · rename_i hlen
    cases h
    exact fun hnil => hlen (by simp [hnil])

/-- A script that parses is the one that was written. -/
theorem parseScript_encode_eq_ok {name : String} {script script' : Bytes}
    (h : parseScript name (Hex.encodeToString script) = .ok script') : script' = script := by
  unfold parseScript at h
  rw [Hex.decodeString_encodeToString, Outcome.ofExcept_ok, Outcome.wrap, Outcome.bind_ok] at h
  · split at h
    · cases h
    · cases h
      rfl
  · simp

theorem parseStakeExp_toStakeExpansion {stakeExp : Option ParsedSigningRequestStkExp}
    (h : ∀ stk, stakeExp = some stk →
      SurvivesTx lib stk.previousActiveStakeTx ∧ SurvivesTxOut lib stk.otherFundingOutput) :
    ∃ req, toStakeExpansion lib stakeExp = .ok req ∧ parseStakeExp lib req = .ok stakeExp := by
  cases stakeExp with
  | none => exact ⟨none, rfl, rfl⟩
  | some stk =>
    obtain ⟨htx, bs, hser, hdes⟩ := h stk rfl
    obtain ⟨txHex, hser', hpar'⟩ := serializeBTCTxToHex_survives htx
    refine ⟨_, by simp only [toStakeExpansion, toStakeExpansionRequest, hser, hser', Outcome.wrap,
      Outcome.ofExcept_ok, Outcome.bind_ok]; rfl, ?_⟩
    simp [parseStakeExp, parseStakeExpansion, hpar', hdes, Outcome.wrap]

theorem parseFpEncKeys_encode {keys : List EncryptionKey} (h : ∀ key ∈ keys, SurvivesKey lib key) :
    (keys.map fun key => Hex.encodeToString key.toBytes).mapM (parseFpEncKey lib) = .ok keys := by
  refine Outcome.mapM_map_eq_ok fun key hkey => ?_
  have hkey' : lib.newEncryptionKeyFromBytes key.toBytes = .ok key := h key hkey
  simp [parseFpEncKey, hkey', Outcome.wrap]

/-- The request that arrives is the request that was sent. -/
theorem parseSigningRequest_toSignTransactionRequest {p : ParsedSigningRequest}
    (h : Survives lib p) (hslash : p.slashingScript ≠ []) (hunbond : p.unbondingScript ≠ [])
    (hunbondSlash : p.unbondingSlashingScript ≠ []) :
    ∃ req, toSignTransactionRequest lib p = .ok req ∧ parseSigningRequest lib req = .ok p := by
  obtain ⟨stakingHex, hstaking, hstaking'⟩ := serializeBTCTxToHex_survives h.stakingTx
  obtain ⟨slashingHex, hslashing, hslashing'⟩ := serializeBTCTxToHex_survives h.slashingTx
  obtain ⟨unbondingHex, hunbonding, hunbonding'⟩ := serializeBTCTxToHex_survives h.unbondingTx
  obtain ⟨slashUnbondingHex, hslashUnbonding, hslashUnbonding'⟩ :=
    serializeBTCTxToHex_survives h.slashUnbondingTx
  obtain ⟨stk, hstk, hstk'⟩ := parseStakeExp_toStakeExpansion h.stakeExp
  have hkeys := parseFpEncKeys_encode h.fpEncKeys
  refine ⟨_, by simp only [toSignTransactionRequest, hstaking, hslashing, hunbonding,
    hslashUnbonding, hstk, Outcome.wrap, Outcome.bind_ok]; rfl, ?_⟩
  simp only [parseSigningRequest, hstaking', hslashing', hunbonding', hslashUnbonding', hkeys,
    hstk', parseScript_encode hslash, parseScript_encode hunbond, parseScript_encode hunbondSlash,
    Outcome.wrap, Outcome.bind_ok]
  rfl

/-- What a request that parses was parsed from. -/
structure ParsesTo (lib : BabylonLib) (req : SignTransactionsRequest) (p : ParsedSigningRequest) :
    Prop where
  stakingTx : newBTCTxFromHex lib req.stakingTxHex = .ok p.stakingTx
  slashingTx : newBTCTxFromHex lib req.slashingTxHex = .ok p.slashingTx
  unbondingTx : newBTCTxFromHex lib req.unbondingTxHex = .ok p.unbondingTx
  slashUnbondingTx : newBTCTxFromHex lib req.slashUnbondingTxHex = .ok p.slashUnbondingTx
  stakingOutputIdx : p.stakingOutputIdx = req.stakingOutputIdx
  slashingScript : parseScript "slashing script" req.slashingScriptHex = .ok p.slashingScript
  unbondingScript : parseScript "unbonding script" req.unbondingScriptHex = .ok p.unbondingScript
  unbondingSlashingScript : parseScript "unbonding slashing script"
    req.unbondingSlashingScriptHex = .ok p.unbondingSlashingScript
  fpEncKeys : req.fpEncKeys.mapM (parseFpEncKey lib) = .ok p.fpEncKeys
  stakeExp : parseStakeExp lib req.stakeExpansion = .ok p.stakeExp

theorem parsesTo_of_parseSigningRequest {req : SignTransactionsRequest} {p : ParsedSigningRequest}
    (h : parseSigningRequest lib req = .ok p) : ParsesTo lib req p := by
  obtain ⟨stakingTx, hstakingTx, h⟩ := Outcome.bind_eq_ok.mp h
  obtain ⟨slashingTx, hslashingTx, h⟩ := Outcome.bind_eq_ok.mp h
  obtain ⟨unbondingTx, hunbondingTx, h⟩ := Outcome.bind_eq_ok.mp h
  obtain ⟨slashUnbondingTx, hslashUnbondingTx, h⟩ := Outcome.bind_eq_ok.mp h
  obtain ⟨slashingScript, hslashingScript, h⟩ := Outcome.bind_eq_ok.mp h
  obtain ⟨unbondingScript, hunbondingScript, h⟩ := Outcome.bind_eq_ok.mp h
  obtain ⟨unbondingSlashingScript, hunbondingSlashingScript, h⟩ := Outcome.bind_eq_ok.mp h
  obtain ⟨keys, hkeys, h⟩ := Outcome.bind_eq_ok.mp h
  obtain ⟨stakeExp, hstakeExp, h⟩ := Outcome.bind_eq_ok.mp h
  cases h
  rw [Outcome.wrap_eq_ok] at hstakingTx hslashingTx hunbondingTx hslashUnbondingTx
  exact ⟨hstakingTx, hslashingTx, hunbondingTx, hslashUnbondingTx, rfl, hslashingScript,
    hunbondingScript, hunbondingSlashingScript, hkeys, hstakeExp⟩

theorem parseSigningRequest_of_parsesTo {req : SignTransactionsRequest} {p : ParsedSigningRequest}
    (h : ParsesTo lib req p) : parseSigningRequest lib req = .ok p := by
  unfold parseSigningRequest
  rw [h.stakingTx, h.slashingTx, h.unbondingTx, h.slashUnbondingTx, h.slashingScript,
    h.unbondingScript, h.unbondingSlashingScript, h.fpEncKeys, h.stakeExp, ← h.stakingOutputIdx]
  rfl

/-- What a request that was sent holds. -/
structure SentAs (lib : BabylonLib) (p : ParsedSigningRequest) (req : SignTransactionsRequest) :
    Prop where
  stakingTx : serializeBTCTxToHex lib p.stakingTx = .ok req.stakingTxHex
  slashingTx : serializeBTCTxToHex lib p.slashingTx = .ok req.slashingTxHex
  unbondingTx : serializeBTCTxToHex lib p.unbondingTx = .ok req.unbondingTxHex
  slashUnbondingTx : serializeBTCTxToHex lib p.slashUnbondingTx = .ok req.slashUnbondingTxHex
  stakingOutputIdx : req.stakingOutputIdx = p.stakingOutputIdx
  slashingScript : req.slashingScriptHex = Hex.encodeToString p.slashingScript
  unbondingScript : req.unbondingScriptHex = Hex.encodeToString p.unbondingScript
  unbondingSlashingScript :
    req.unbondingSlashingScriptHex = Hex.encodeToString p.unbondingSlashingScript
  fpEncKeys : req.fpEncKeys = p.fpEncKeys.map fun key => Hex.encodeToString key.toBytes
  stakeExp : toStakeExpansion lib p.stakeExp = .ok req.stakeExpansion

theorem sentAs_of_toSignTransactionRequest {p : ParsedSigningRequest}
    {req : SignTransactionsRequest} (h : toSignTransactionRequest lib p = .ok req) :
    SentAs lib p req := by
  obtain ⟨stakingHex, hstaking, h⟩ := Outcome.bind_eq_ok.mp h
  obtain ⟨slashingHex, hslashing, h⟩ := Outcome.bind_eq_ok.mp h
  obtain ⟨unbondingHex, hunbonding, h⟩ := Outcome.bind_eq_ok.mp h
  obtain ⟨slashUnbondingHex, hslashUnbonding, h⟩ := Outcome.bind_eq_ok.mp h
  obtain ⟨stk, hstk, h⟩ := Outcome.bind_eq_ok.mp h
  cases h
  rw [Outcome.wrap_eq_ok] at hstaking hslashing hunbonding hslashUnbonding
  exact ⟨hstaking, hslashing, hunbonding, hslashUnbonding, rfl, rfl, rfl, rfl, rfl, hstk⟩

/-- Whatever the rest of the request becomes, the four transactions, the index and the scripts
arrive as they were sent. -/
structure SameSpends (p p' : ParsedSigningRequest) : Prop where
  stakingTx : p'.stakingTx = p.stakingTx
  slashingTx : p'.slashingTx = p.slashingTx
  unbondingTx : p'.unbondingTx = p.unbondingTx
  slashUnbondingTx : p'.slashUnbondingTx = p.slashUnbondingTx
  stakingOutputIdx : p'.stakingOutputIdx = p.stakingOutputIdx
  slashingScript : p'.slashingScript = p.slashingScript
  unbondingScript : p'.unbondingScript = p.unbondingScript
  unbondingSlashingScript : p'.unbondingSlashingScript = p.unbondingSlashingScript

theorem parseSigningRequest_sameSpends {p p' : ParsedSigningRequest}
    {req : SignTransactionsRequest}
    (hstaking : ∀ bs, lib.serialize p.stakingTx = .ok bs → lib.deserialize bs = .ok p.stakingTx)
    (hslashing : ∀ bs, lib.serialize p.slashingTx = .ok bs →
      lib.deserialize bs = .ok p.slashingTx)
    (hunbonding : ∀ bs, lib.serialize p.unbondingTx = .ok bs →
      lib.deserialize bs = .ok p.unbondingTx)
    (hslashUnbonding : ∀ bs, lib.serialize p.slashUnbondingTx = .ok bs →
      lib.deserialize bs = .ok p.slashUnbondingTx)
    (hsent : toSignTransactionRequest lib p = .ok req)
    (hparsed : parseSigningRequest lib req = .ok p') : SameSpends p p' := by
  have hs := sentAs_of_toSignTransactionRequest hsent
  have hp := parsesTo_of_parseSigningRequest hparsed
  have hslash := hp.slashingScript
  have hunbond := hp.unbondingScript
  have hunbondSlash := hp.unbondingSlashingScript
  rw [hs.slashingScript] at hslash
  rw [hs.unbondingScript] at hunbond
  rw [hs.unbondingSlashingScript] at hunbondSlash
  exact
    { stakingTx := newBTCTxFromHex_of_serialized hstaking hs.stakingTx hp.stakingTx
      slashingTx := newBTCTxFromHex_of_serialized hslashing hs.slashingTx hp.slashingTx
      unbondingTx := newBTCTxFromHex_of_serialized hunbonding hs.unbondingTx hp.unbondingTx
      slashUnbondingTx :=
        newBTCTxFromHex_of_serialized hslashUnbonding hs.slashUnbondingTx hp.slashUnbondingTx
      stakingOutputIdx := hp.stakingOutputIdx.trans hs.stakingOutputIdx
      slashingScript := parseScript_encode_eq_ok hslash
      unbondingScript := parseScript_encode_eq_ok hunbond
      unbondingSlashingScript := parseScript_encode_eq_ok hunbondSlash }

/-- The finality provider keys arrive in their order. -/
theorem fpEncKeys_of_sent {p p' : ParsedSigningRequest} {req : SignTransactionsRequest}
    (hkeys : ∀ key ∈ p.fpEncKeys, SurvivesKey lib key)
    (hsent : toSignTransactionRequest lib p = .ok req)
    (hparsed : parseSigningRequest lib req = .ok p') : p'.fpEncKeys = p.fpEncKeys := by
  have hparsed' := (parsesTo_of_parseSigningRequest hparsed).fpEncKeys
  rw [(sentAs_of_toSignTransactionRequest hsent).fpEncKeys, parseFpEncKeys_encode hkeys] at hparsed'
  exact (Outcome.ok.inj hparsed').symm

theorem toStakeExpansion_isSome {stk : Option ParsedSigningRequestStkExp}
    {req : Option StakeExpansionRequest} (h : toStakeExpansion lib stk = .ok req) :
    req.isSome = stk.isSome := by
  cases stk with
  | none =>
    cases h
    rfl
  | some stk =>
    obtain ⟨r, -, hr⟩ := Outcome.bind_eq_ok.mp h
    cases hr
    rfl

theorem parseStakeExp_isSome {stk : Option ParsedSigningRequestStkExp}
    {req : Option StakeExpansionRequest} (h : parseStakeExp lib req = .ok stk) :
    stk.isSome = req.isSome := by
  cases req with
  | none =>
    cases h
    rfl
  | some req =>
    obtain ⟨r, -, hr⟩ := Outcome.bind_eq_ok.mp h
    cases hr
    rfl

/-- A stake expansion arrives as one, and nothing else does. -/
theorem stakeExp_of_sent {p p' : ParsedSigningRequest} {req : SignTransactionsRequest}
    (hsent : toSignTransactionRequest lib p = .ok req)
    (hparsed : parseSigningRequest lib req = .ok p') : p'.stakeExp.isSome = p.stakeExp.isSome :=
  (parseStakeExp_isSome (parsesTo_of_parseSigningRequest hparsed).stakeExp).trans
    (toStakeExpansion_isSome (sentAs_of_toSignTransactionRequest hsent).stakeExp)

theorem survives_undoes {tx : MsgTx} (h : SurvivesTx lib tx) :
    ∀ bs, lib.serialize tx = .ok bs → lib.deserialize bs = .ok tx := by
  obtain ⟨bs', hser, hdes⟩ := h
  intro bs hbs
  obtain rfl : bs' = bs := by simpa [hser] using hbs
  exact hdes

/-- No script of a parsed request is empty. -/
theorem parseSigningRequest_scripts {req : SignTransactionsRequest} {p : ParsedSigningRequest}
    (h : parseSigningRequest lib req = .ok p) :
    p.slashingScript ≠ [] ∧ p.unbondingScript ≠ [] ∧ p.unbondingSlashingScript ≠ [] := by
  have hp := parsesTo_of_parseSigningRequest h
  exact ⟨parseScript_ne_nil hp.slashingScript, parseScript_ne_nil hp.unbondingScript,
    parseScript_ne_nil hp.unbondingSlashingScript⟩

/-- A request that was sent parses on the other side. -/
theorem parseSigningRequest_of_sent {p : ParsedSigningRequest} {req : SignTransactionsRequest}
    (h : Survives lib p) (hslash : p.slashingScript ≠ []) (hunbond : p.unbondingScript ≠ [])
    (hunbondSlash : p.unbondingSlashingScript ≠ [])
    (hsent : toSignTransactionRequest lib p = .ok req) : parseSigningRequest lib req = .ok p := by
  obtain ⟨req', hsent', hparsed⟩ :=
    parseSigningRequest_toSignTransactionRequest h hslash hunbond hunbondSlash
  obtain rfl : req = req' := by simpa [hsent] using hsent'
  exact hparsed

/-- A request that parses on the other side is the request that was sent. -/
theorem eq_of_parseSigningRequest {p p' : ParsedSigningRequest} {req : SignTransactionsRequest}
    (h : Survives lib p) (hsent : toSignTransactionRequest lib p = .ok req)
    (hparsed : parseSigningRequest lib req = .ok p') : p' = p := by
  have hsame := parseSigningRequest_sameSpends (survives_undoes h.stakingTx)
    (survives_undoes h.slashingTx) (survives_undoes h.unbondingTx)
    (survives_undoes h.slashUnbondingTx) hsent hparsed
  obtain ⟨hslash, hunbond, hunbondSlash⟩ := parseSigningRequest_scripts hparsed
  rw [hsame.slashingScript] at hslash
  rw [hsame.unbondingScript] at hunbond
  rw [hsame.unbondingSlashingScript] at hunbondSlash
  have hparsed' := parseSigningRequest_of_sent h hslash hunbond hunbondSlash hsent
  simpa [hparsed] using hparsed'

theorem parseStakeExpSig_encode {sig : Signature} (h : SurvivesSig lib sig) :
    parseStakeExpSig lib (Hex.encodeToString sig.serialize) = .ok (some sig) := by
  have hlen : 0 < (Hex.encodeToString sig.serialize).length := by
    refine Nat.pos_of_ne_zero fun hlen => h.1 ?_
    exact Hex.encodeToString_eq_empty.mp (String.length_eq_zero_iff.mp hlen)
  simp [parseStakeExpSig, hlen, h.2, Outcome.wrap]

/-- The response that arrives is the response that was sent. -/
theorem toParsedSigningResponse_toResponse {resp : ParsedSigningResponse}
    (hslash : resp.slashAdaptorSigs ≠ []) (hslashUnbonding : resp.slashUnbondingAdaptorSigs ≠ [])
    (hunbonding : SurvivesSig lib resp.unbondingSig)
    (hstakeExp : ∀ sig, resp.stakeExpSig = some sig → SurvivesSig lib sig) :
    toParsedSigningResponse lib (toResponse resp) = .ok resp := by
  have hadaptor : ∀ name (sigs : List Bytes),
      (sigs.map Hex.encodeToString).mapM (parseAdaptorSig name) = .ok sigs := fun name sigs =>
    Outcome.mapM_map_eq_ok fun sig _ => by simp [parseAdaptorSig, Outcome.wrap]
  have hexp : parseStakeExpSig lib (toResponse resp).stakeExpansionTransactionSignature =
      .ok resp.stakeExpSig := by
    cases hsig : resp.stakeExpSig with
    | none => simp [toResponse, hsig, parseStakeExpSig]
    | some sig => simpa [toResponse, hsig] using parseStakeExpSig_encode (hstakeExp sig hsig)
  unfold toParsedSigningResponse
  rw [hexp]
  simp [toResponse, hslash, hslashUnbonding, hadaptor, hunbonding.2, Outcome.wrap]

/-- A response without adaptor signatures is refused. -/
theorem ne_nil_of_toParsedSigningResponse {resp resp' : ParsedSigningResponse}
    (h : toParsedSigningResponse lib (toResponse resp) = .ok resp') :
    resp.slashAdaptorSigs ≠ [] ∧ resp.slashUnbondingAdaptorSigs ≠ [] := by
  refine ⟨fun hnil => ?_, fun hnil => ?_⟩
  · simp [toParsedSigningResponse, toResponse, hnil] at h
  · by_cases hslash : resp.slashAdaptorSigs = [] <;>
      simp [toParsedSigningResponse, toResponse, hnil, hslash] at h

theorem toSignTransactionRequest_returns (p : ParsedSigningRequest) :
    (toSignTransactionRequest lib p).Returns := by
  have hexp : (toStakeExpansion lib p.stakeExp).Returns := by
    cases p.stakeExp <;>
      simp [toStakeExpansion, toStakeExpansionRequest, serializeBTCTxToHex, Outcome.bind_returns]
  simp [toSignTransactionRequest, serializeBTCTxToHex, Outcome.bind_returns, hexp]

theorem parseSigningRequest_returns (req : SignTransactionsRequest) :
    (parseSigningRequest lib req).Returns := by
  have hscript : ∀ name hex, (parseScript name hex).Returns := by
    intro name hex
    simp only [parseScript, Outcome.bind_returns]
    exact ⟨by simp, fun script _ => by split <;> simp⟩
  have hkeys : (req.fpEncKeys.mapM (parseFpEncKey lib)).Returns :=
    Outcome.mapM_returns (fun _ => by simp [parseFpEncKey, Outcome.bind_returns]) _
  have hexp : (parseStakeExp lib req.stakeExpansion).Returns := by
    cases req.stakeExpansion <;>
      simp [parseStakeExp, parseStakeExpansion, newBTCTxFromHex, Outcome.bind_returns]
  simp [parseSigningRequest, newBTCTxFromHex, Outcome.bind_returns, hscript, hkeys, hexp]

theorem toParsedSigningResponse_returns (resp : SignTransactionsResponse) :
    (toParsedSigningResponse lib resp).Returns := by
  have hadaptor : ∀ name (sigs : List String), (sigs.mapM (parseAdaptorSig name)).Returns :=
    fun name sigs => Outcome.mapM_returns (fun _ => by simp [parseAdaptorSig]) sigs
  have hexp : ∀ sig, (parseStakeExpSig lib sig).Returns := by
    intro sig
    unfold parseStakeExpSig
    split <;> simp [Outcome.bind_returns]
  unfold toParsedSigningResponse
  split
  · trivial
  split
  · trivial
  simp [Outcome.bind_returns, hadaptor, hexp]

end

end CovenantEmulator
