import CovenantEmulator.Covenant.Emulator

/-! The configuration of the emulator: what `LoadConfig` accepts, and the emulator built on it. -/
namespace CovenantEmulator

open Golang

structure MetricsConfig where
  host : String
  port : Int64
  /-- Nanoseconds, as every `time.Duration`. -/
  updateInterval : Int64
  deriving DecidableEq, Repr

/-- The fields the ini file sets and the modelled functions read. -/
structure Config where
  queryInterval : Int64
  delegationLimit : UInt64
  sigsBatchSize : UInt64
  maxRetiresBatchRemovingMsgs : UInt64
  bitcoinNetwork : String
  metrics : Option MetricsConfig
  deriving DecidableEq, Repr

/-- A configuration with the field `BTCNetParams` that `Validate` sets. -/
structure ValidConfig extends Config where
  btcNetParams : NetParams
  deriving DecidableEq, Repr

section
variable (parseIP : String → Option Bytes)

def MetricsConfig.validate (cfg : MetricsConfig) : Except String Unit :=
  if cfg.port < 0 ∨ cfg.port > 65535 then .error ("invalid port: " ++ toString cfg.port)
  else match parseIP cfg.host with
    | none => .error ("invalid host: " ++ cfg.host)
    | some _ => .ok ()

/-- The networks of the switch. -/
def networkParams : String → Option NetParams
  | "mainnet" => some .mainnet
  | "testnet" => some .testnet
  | "regtest" => some .regtest
  | "simnet" => some .simnet
  | "signet" => some .signet
  | _ => none

/-- `Config.Validate`, with the configuration it leaves behind. -/
def Config.validate (cfg : Config) : Except String ValidConfig :=
  match cfg.metrics with
  | none => .error "empty metrics config"
  | some metrics =>
    match metrics.validate parseIP with
    | .error _ => .error "invalid metrics config"
    | .ok () =>
      match networkParams cfg.bitcoinNetwork with
      | none => .error ("unsupported Bitcoin network: " ++ cfg.bitcoinNetwork)
      | some params => .ok ⟨cfg, params⟩

/-- `var cfg Config`. -/
def Config.zero : Config where
  queryInterval := 0
  delegationLimit := 0
  sigsBatchSize := 0
  maxRetiresBatchRemovingMsgs := 0
  bitcoinNetwork := ""
  metrics := none

/-- `LoadConfig`; `parseFile` is the ini parser, which sets what the file has. -/
def loadConfig (cfgFile : String) (fileExists : Bool) (parseFile : Config → Except String Config) :
    Except String ValidConfig :=
  if fileExists = false then .error ("specified config file does not exist in " ++ cfgFile)
  else do
    let cfg ← parseFile .zero
    cfg.validate parseIP

/-- `DefaultConfig`, before its call of `Validate`. -/
def defaultConfig : Config where
  queryInterval := 15 * 1000000000
  delegationLimit := 100
  sigsBatchSize := 30
  maxRetiresBatchRemovingMsgs := 0
  bitcoinNetwork := "simnet"
  metrics := some ⟨"127.0.0.1", 2112, 100 * 1000000⟩

end

/-- The interface `Signer` of the package `covenant`. -/
structure Signer (σ : Type) where
  signTransactions : SigningRequest → Go σ SignaturesResponse
  pubKey : Go σ PublicKey

/-- The emulator of a configuration, with this public key. -/
def configuredEmulator {σ : Type} (lib : BabylonLib) (retry : ParamsRetry σ) (config : ValidConfig)
    (cc : ClientController σ) (signer : Signer σ) (pk : PublicKey) : Emulator σ where
  lib := lib
  retry := retry
  cc := cc
  signer := signer.signTransactions
  pk := pk
  btcNetParams := config.btcNetParams
  delegationLimit := config.delegationLimit
  sigsBatchSize := config.sigsBatchSize

/-- `NewEmulator`. -/
def newEmulator {σ : Type} (lib : BabylonLib) (retry : ParamsRetry σ) (config : ValidConfig)
    (cc : ClientController σ) (signer : Signer σ) : Go σ (Emulator σ) := do
  let pk ← Go.wrap ("failed to get signer pub key: " ++ ·) signer.pubKey
  pure (configuredEmulator lib retry config cc signer pk)

section
variable {parseIP : String → Option Bytes} {cfg : Config} {cfg' : ValidConfig}

theorem metrics_validate_eq_ok {metrics : MetricsConfig} :
    metrics.validate parseIP = .ok () ↔
      ¬ (metrics.port < 0 ∨ metrics.port > 65535) ∧ (parseIP metrics.host).isSome := by
  unfold MetricsConfig.validate
  by_cases hport : metrics.port < 0 ∨ metrics.port > 65535
  · simp [hport]
  · cases parseIP metrics.host <;> simp [hport]

/-- What `Validate` checks: no size and no limit among it. -/
theorem validate_eq_ok : cfg.validate parseIP = .ok cfg' ↔
    ∃ metrics params, cfg.metrics = some metrics ∧ metrics.validate parseIP = .ok () ∧
      networkParams cfg.bitcoinNetwork = some params ∧
      cfg' = ⟨cfg, params⟩ := by
  unfold Config.validate
  cases cfg.metrics with
  | none => simp
  | some metrics =>
    cases hm : metrics.validate parseIP with
    | error e => simp [hm]
    | ok u => cases hn : networkParams cfg.bitcoinNetwork <;> simp [hm, eq_comm]

/-- The defaults pass their own check. -/
theorem defaultConfig_validate (h : (parseIP "127.0.0.1").isSome) :
    defaultConfig.validate parseIP = .ok ⟨defaultConfig, .simnet⟩ :=
  validate_eq_ok.mpr ⟨_, .simnet, rfl, metrics_validate_eq_ok.mpr ⟨by decide, h⟩, rfl, rfl⟩

/-- A configuration is loaded exactly when the file parses over zeros and `Validate` accepts it. -/
theorem loadConfig_eq_ok {cfgFile : String} {fileExists : Bool}
    {parseFile : Config → Except String Config} :
    loadConfig parseIP cfgFile fileExists parseFile = .ok cfg' ↔
      fileExists = true ∧ ∃ cfg, parseFile .zero = .ok cfg ∧ cfg.validate parseIP = .ok cfg' := by
  unfold loadConfig
  cases fileExists with
  | false => simp
  | true => cases parseFile .zero <;> simp [bind, Except.bind]

theorem sigsBatchSize_of_newEmulator {σ : Type} {lib : BabylonLib} {retry : ParamsRetry σ}
    {cc : ClientController σ} {signer : Signer σ} {s s' : σ} {ce : Emulator σ}
    (h : newEmulator lib retry cfg' cc signer s = (.ok ce, s')) :
    ce.sigsBatchSize = cfg'.sigsBatchSize := by
  obtain ⟨pk, s₁, -, hce⟩ := Go.bind_eq_ok.mp h
  cases hce
  rfl

end

end CovenantEmulator
