import CovenantEmulator.Config
import CovenantEmulator.Covenant.Tick
import CovenantEmulator.Sample

/-! Splitting delegations into batches, for every configuration the program accepts. -/
namespace CovenantEmulator

open Golang

/-- The values of `i` in the iterations of `delegationsToBatches`. -/
inductive BatchStart {α : Type} (batchSize : UInt64) (dels : List α) : UInt64 → Prop
  | first (h : 0 < UInt64.ofNat dels.length) : BatchStart batchSize dels 0
  | next {i : UInt64} (h : BatchStart batchSize dels i)
    (hlt : i + batchSize < UInt64.ofNat dels.length) : BatchStart batchSize dels (i + batchSize)

/-- The loop ends without a panic, in consecutive batches of the size at most, and no start of a
next batch wraps around. -/
structure SplitsWell {σ α : Type} (ce : Emulator σ) (dels : List α) : Prop where
  covers : ∃ batches, ce.delegationsToBatches dels = .ok batches ∧ batches.flatten = dels ∧
    ∀ batch ∈ batches, batch ≠ [] ∧ batch.length ≤ ce.sigsBatchSize.toNat
  noWrap : ∀ i, BatchStart ce.sigsBatchSize dels i → i.toNat + ce.sigsBatchSize.toNat < 2 ^ 64

section
variable {σ α : Type} {batchSize : UInt64} {dels : List α} {ce : Emulator σ}

/-- An iteration starts at zero, or one batch size further at least. -/
theorem BatchStart.bounds (hlen : dels.length < 2 ^ 63) {i : UInt64}
    (h : BatchStart batchSize dels i) :
    i.toNat < dels.length ∧ (i = 0 ∨ batchSize.toNat ≤ i.toNat) := by
  have hto := toNat_length hlen
  induction h with
  | first h =>
    rw [UInt64.lt_iff_toNat_lt, hto] at h
    exact ⟨h, .inl rfl⟩
  | @next i _ hlt ih =>
    rw [UInt64.lt_iff_toNat_lt, hto] at hlt
    have hnext := toNat_next_start hlen ih.1 ih.2
    exact ⟨hlt, .inr (by omega)⟩

theorem BatchStart.noWrap (hlen : dels.length < 2 ^ 63) {i : UInt64}
    (h : BatchStart batchSize dels i) : i.toNat + batchSize.toNat < 2 ^ 64 := by
  obtain ⟨hi, hstart⟩ := h.bounds hlen
  rw [← toNat_next_start hlen hi hstart]
  exact (i + batchSize).toNat_lt

/-- With a batch size of zero every iteration starts at zero again. -/
theorem batchesFrom_zero (hne : dels ≠ []) (hlen : dels.length < 2 ^ 63) (fuel : Nat) :
    Emulator.batchesFrom 0 dels fuel 0 = .diverged := by
  have hpos : (0 : UInt64) < UInt64.ofNat dels.length := by
    rw [UInt64.lt_iff_toNat_lt, toNat_length hlen]
    exact List.length_pos_of_ne_nil hne
  have hstop : ¬ (0 : UInt64) + 0 > UInt64.ofNat dels.length := by
    rw [gt_iff_lt, UInt64.lt_iff_toNat_lt]
    simp
  have hslice : Outcome.slice dels 0 0 = .ok [] := Outcome.slice_eq_ok.mpr ⟨by simp, rfl⟩
  induction fuel with
  | zero => rfl
  | succ fuel ih =>
    rw [Emulator.batchesFrom, if_pos hpos, if_neg hstop]
    simp only [UInt64.add_zero, UInt64.toNat_zero, hslice, Outcome.bind_ok, ih,
      Outcome.bind_diverged]

theorem splitsWell_of_pos (hsize : 1 ≤ ce.sigsBatchSize.toNat) (hlen : dels.length < 2 ^ 63) :
    SplitsWell ce dels := by
  refine ⟨?_, fun i hi => hi.noWrap hlen⟩
  obtain ⟨batches, hbatches, hflat, hbounds⟩ := batchesFrom_covers (i := 0) hsize hlen (.inl rfl)
    (Nat.lt_succ_of_le (Nat.sub_le _ _))
  rw [UInt64.toNat_zero, List.drop_zero] at hflat
  exact ⟨batches, hbatches, hflat, hbounds⟩

theorem splitsWell_nil : SplitsWell ce ([] : List α) := by
  refine ⟨⟨[], rfl, rfl, by simp⟩, ?_⟩
  intro i hi
  exact hi.noWrap (by simp)

theorem not_splitsWell (hsize : ce.sigsBatchSize = 0) (hne : dels ≠ [])
    (hlen : dels.length < 2 ^ 63) : ¬ SplitsWell ce dels := by
  rintro ⟨⟨batches, hbatches, -⟩, -⟩
  rw [Emulator.delegationsToBatches, hsize, batchesFrom_zero hne hlen] at hbatches
  cases hbatches

end

/-- For an accepted configuration the splitting is right unless the batch size is zero and there
is something to split. -/
theorem splitsWell_iff {σ α : Type} {parseIP : String → Option Bytes} {cfg : Config}
    {cfg' : ValidConfig} (hvalid : cfg.validate parseIP = .ok cfg') {lib : BabylonLib}
    {retry : ParamsRetry σ} {cc : ClientController σ} {signer : Signer σ} {s s' : σ}
    {ce : Emulator σ} (hnew : newEmulator lib retry cfg' cc signer s = (.ok ce, s')) {dels : List α}
    (hlen : dels.length < 2 ^ 63) :
    SplitsWell ce dels ↔ 1 ≤ cfg.sigsBatchSize.toNat ∨ dels = [] := by
  have hsize : ce.sigsBatchSize = cfg.sigsBatchSize := by
    obtain ⟨metrics, params, -, -, -, rfl⟩ := validate_eq_ok.mp hvalid
    exact sigsBatchSize_of_newEmulator hnew
  constructor
  · intro hsplits
    by_contra hcond
    obtain ⟨hzero, hne⟩ := not_or.mp hcond
    refine not_splitsWell ?_ hne hlen hsplits
    rw [hsize, ← UInt64.toNat_inj, UInt64.toNat_zero]
    omega
  · rintro (hpos | rfl)
    · exact splitsWell_of_pos (hsize ▸ hpos) hlen
    · exact splitsWell_nil

namespace Sample

/-- `net.ParseIP` of the loopback address. -/
def parseIP (host : String) : Option Bytes :=
  if host = "127.0.0.1" then some [0, 0, 0, 0, 0, 0, 0, 0, 0, 0, 0xff, 0xff, 127, 0, 0, 1]
  else none

/-- An ini file that does not set `sigsbatchsize`. -/
def parseFile (cfg : Config) : Except String Config :=
  .ok { cfg with
    delegationLimit := 100
    bitcoinNetwork := "signet"
    metrics := some ⟨"127.0.0.1", 2112, 0⟩ }

def configSigner : Signer Unit where
  signTransactions := signer
  pubKey := pure covenantKey

/-- The emulator of a configuration, for the node without delegations. -/
def configured (cfg : ValidConfig) : Emulator Unit :=
  configuredEmulator lib .loop cfg (node []) configSigner covenantKey

theorem newEmulator_configured (cfg : ValidConfig) :
    newEmulator lib .loop cfg (node []) configSigner () = (.ok (configured cfg), ()) := rfl

/-- More delegations than two batches hold. -/
def backlog : List Delegation :=
  List.replicate 40 plainDelegation ++ List.replicate 25 expansionDelegation

/-- Two full batches and a last one of five, in the order of the list. -/
theorem default_splits_well :
    (configured ⟨defaultConfig, .simnet⟩).delegationsToBatches backlog =
        .ok [List.replicate 30 plainDelegation,
          List.replicate 10 plainDelegation ++ List.replicate 20 expansionDelegation,
          List.replicate 5 expansionDelegation] ∧
      SplitsWell (configured ⟨defaultConfig, .simnet⟩) backlog := by
  have hvalid : defaultConfig.validate parseIP = .ok ⟨defaultConfig, .simnet⟩ :=
    defaultConfig_validate rfl
  exact ⟨rfl,
    (splitsWell_iff hvalid (newEmulator_configured _) (by simp [backlog])).mpr (.inl (by decide))⟩

/-- The file is accepted, and with one delegation to split the loop never ends. -/
theorem unset_batch_size_never_ends :
    ∃ cfg, loadConfig parseIP "covd.conf" true parseFile = .ok cfg ∧
      newEmulator lib .loop cfg (node []) configSigner () = (.ok (configured cfg), ()) ∧
      (∀ fuel, Emulator.batchesFrom cfg.sigsBatchSize [plainDelegation] fuel 0 = .diverged) ∧
      ¬ SplitsWell (configured cfg) [plainDelegation] := by
  refine ⟨_, loadConfig_eq_ok.mpr ⟨rfl, _, rfl, rfl⟩, rfl, ?_, ?_⟩
  · exact batchesFrom_zero (by simp) (by simp)
  · exact not_splitsWell rfl (by simp) (by simp)

end Sample

end CovenantEmulator
