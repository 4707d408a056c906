import CovenantEmulator.Bitcoin.Table
import CovenantEmulator.Covenant.Pending
import CovenantEmulator.Signer.Remote

/-! The codec laws of a table of transactions, and the transactions of one staker. -/
namespace CovenantEmulator

open Golang

section
variable {t : TxTable} {tx : MsgTx} {bs : Bytes}

/-- Only transactions of the table have bytes. -/
theorem serialize_eq_ok : t.serialize tx = .ok bs ↔ (∃ k ∈ t.txs, k.tx = tx) ∧ tx.wire = bs := by
  unfold TxTable.serialize
  cases hfind : t.txs.find? fun k => decide (k.tx = tx) with
  | none =>
    rw [List.find?_eq_none] at hfind
    simp only [reduceCtorEq, false_iff, not_and]
    rintro ⟨k, hk, rfl⟩
    exact absurd (hfind k hk) (by simp)
  | some k =>
    have hk : k ∈ t.txs := List.mem_of_find?_eq_some hfind
    obtain rfl : k.tx = tx := by simpa using List.find?_some hfind
    simp only [Except.ok.injEq, iff_and_self]
    exact fun _ => ⟨k, hk, rfl⟩

theorem table_signaturesSurvive (t : TxTable) : SignaturesSurvive t.lib where
  sign h := by
    simp only [TxTable.lib] at h
    split at h <;> cases h
    exact ⟨by simp, rfl⟩
  signStkExp h := by
    simp only [TxTable.lib] at h
    split at h <;> cases h
    exact ⟨by simp, rfl⟩

end

namespace Sample

/-- The even point with this x coordinate. -/
def key (x : Nat) : PublicKey :=
  ⟨⟨(beBytes 32 x).toArray, by simp [beBytes, length_leBytes]⟩, false⟩

def p2tr (x : Nat) : Bytes := 0x51 :: 0x20 :: beBytes 32 x

def p2wpkh (b : UInt8) : Bytes := 0x00 :: 0x14 :: List.replicate 20 b

def spend (hash : Hash) (index : UInt32) : TxIn := ⟨⟨hash, index⟩, [], [], 0xffffffff⟩

def transaction (ins : List TxIn) (outs : List TxOut) : MsgTx := ⟨2, ins, outs, 0⟩

def stakingScript : Bytes := p2tr 0xb288927e0fe972d0308ea0cd40562a6099e998c574b7f4620c420eaa6a253ce3
def otherStakingScript : Bytes :=
  p2tr 0x37e7ec2511d7f23bcda2d65ef872e841e09babd4e931cab120ddd0a65263b76c
def unbondingScript : Bytes :=
  p2tr 0xfdd2e1940f02cd592d6017f1453754d36b675ad0863ffbef3336fb982749efbf
def changeScript : Bytes := p2tr 0xec8a19cdcab6a17dbc2ecf81b2f92d9b697dd9a09bc0dd58b7ba4ba5ba27e4e7
def slashingScript : Bytes := p2wpkh 0x11
def walletScript : Bytes := p2wpkh 0x22

def stakingHash : Hash := 0xbdfbfa574ee6eb5cdb5b4807459d8bddf359f36afc260025b21c647efe553c24
def unbondingHash : Hash := 0xab44013e276db77531dd909bb1c55490632993e1e7ce7ed25c5ef0ba63463301
def walletUnbondingHash : Hash :=
  0x61eff8fac1660e5c73bc8631cf37f3ba672292fafd1c1e65bc45972527227035
def expansionHash : Hash := 0x31f27b808f51526296d4ef0d5ad518885bf62b3ab9de8f865fca4268ce08ccad
def expansionUnbondingHash : Hash :=
  0xf3d4c7e1d09398353d9216114a4899d26dcfee608cce4adb3552a97faad58f86
def fundingHash : Hash := 0x0808080808080808080808080808080808080808080808080808080808080808

/-- A stake of 100000 satoshi for 1000 blocks, with a change output. -/
def stakingTx : MsgTx :=
  transaction
    [spend 0x0707070707070707070707070707070707070707070707070707070707070707 0]
    [⟨100000, stakingScript⟩, ⟨50000, walletScript⟩]

def slashingTx : MsgTx :=
  transaction [spend stakingHash 0] [⟨10000, slashingScript⟩, ⟨89000, changeScript⟩]

def unbondingTx : MsgTx := transaction [spend stakingHash 0] [⟨99000, unbondingScript⟩]

def slashUnbondingTx : MsgTx :=
  transaction [spend unbondingHash 0] [⟨9900, slashingScript⟩, ⟨88100, changeScript⟩]

/-- An unbonding transaction that pays to the staker's wallet at once. -/
def walletUnbondingTx : MsgTx := transaction [spend stakingHash 0] [⟨99000, walletScript⟩]

def walletSlashUnbondingTx : MsgTx :=
  transaction [spend walletUnbondingHash 0] [⟨9900, slashingScript⟩, ⟨88100, changeScript⟩]

/-- An expansion of the stake with another 60000 satoshi. -/
def expansionTx : MsgTx :=
  transaction [spend stakingHash 0, spend fundingHash 1] [⟨150000, stakingScript⟩]

def expansionSlashingTx : MsgTx :=
  transaction [spend expansionHash 0] [⟨15000, slashingScript⟩, ⟨134000, changeScript⟩]

def expansionUnbondingTx : MsgTx :=
  transaction [spend expansionHash 0] [⟨149000, unbondingScript⟩]

def expansionSlashUnbondingTx : MsgTx :=
  transaction [spend expansionUnbondingHash 0] [⟨14900, slashingScript⟩, ⟨133100, changeScript⟩]

/-- An expansion that spends the change output of the stake instead of the stake. -/
def strayExpansionTx : MsgTx :=
  transaction [spend stakingHash 1, spend fundingHash 1] [⟨90000, stakingScript⟩]

def knownTxs : List KnownTx :=
  [⟨stakingTx, stakingHash⟩,
   ⟨slashingTx, 0x158813da0ddf9549a64124e847be7efc5c27ee4f63abe02dfa796c421bbc2751⟩,
   ⟨unbondingTx, unbondingHash⟩,
   ⟨slashUnbondingTx, 0x894ce61978a00901688a618cc2985f49087f7222f1660457ddb1799f16550cf1⟩,
   ⟨walletUnbondingTx, walletUnbondingHash⟩,
   ⟨walletSlashUnbondingTx, 0x80825fbbe54458047a41eb0d79bd00d8eff654f223a2a914fcd19ed417448948⟩,
   ⟨expansionTx, expansionHash⟩,
   ⟨expansionSlashingTx, 0x4b46c170ef90a6b6e6f11d6265b3b9b484000321deaeba6f47d5968caa932e31⟩,
   ⟨expansionUnbondingTx, expansionUnbondingHash⟩,
   ⟨expansionSlashUnbondingTx, 0x25e3b202a4674faaefa1c4b74f47294bb40111c0cb54a97d65352a04d3a54178⟩,
   ⟨strayExpansionTx, 0x7b442bc0bd1e2596decc6bbb36651ac78efd94c2b5f1446e8ade94384347c54a⟩]

def table : TxTable where
  txs := knownTxs
  distinct := by decide +kernel
  stakingScript time := if time = 1000 then stakingScript else otherStakingScript
  unbondingScript _ := unbondingScript
  changeScript _ := changeScript

abbrev lib : BabylonLib := table.lib

def staker : PublicKey := key 1
def providers : List PublicKey := [key 2, key 8]

/-- The committee's keys are reported as even points. -/
def committee : List PublicKey := [key 3, key 4, key 6]

/-- The emulator's own key is the odd point of the first. -/
def covenantKey : PublicKey := { key 3 with odd := true }

def params (minStakingValue : Int64) : StakingParams where
  comfirmationTimeBlocks := 10
  finalizationTimeoutBlocks := 100
  minSlashingTxFeeSat := 1000
  covenantPks := committee
  slashingPkScript := slashingScript
  covenantQuorum := 2
  slashingRate := ⟨10 ^ 17⟩
  minComissionRate := ⟨3 * 10 ^ 16⟩
  unbondingTimeBlocks := 101
  unbondingFee := 1000
  minStakingTime := 10
  maxStakingTime := 10000
  minStakingValue := minStakingValue
  maxStakingValue := 1000000

def txHex (tx : MsgTx) : String := Hex.encodeToString tx.wire

/-- A delegation over these transactions, with this amount in its metadata. -/
def delegation (staking slashing unbonding slashUnbonding : MsgTx) (totalSat : Int64)
    (stakeExpansion : Option DelegationStakeExpansion) : Delegation where
  btcPk := staker
  fpBtcPks := providers
  stakingTime := 1000
  startHeight := 0
  endHeight := 0
  totalSat := totalSat
  stakingTxHex := txHex staking
  stakingOutputIdx := 0
  slashingTxHex := txHex slashing
  unbondingTime := 101
  covenantSigs := []
  btcUndelegation := some
    { unbondingTxHex := txHex unbonding
      slashingTxHex := txHex slashUnbonding
      covenantSlashingSigs := []
      covenantUnbondingSigs := []
      spendStakeTxHex := "" }
  paramsVersion := 0
  stakeExpansion := stakeExpansion

def request (staking slashing unbonding slashUnbonding : MsgTx) : SigningRequest where
  stakingTx := staking
  slashingTx := slashing
  unbondingTx := unbonding
  slashUnbondingTx := slashUnbonding
  stakeExp := none
  stakingOutputIdx := 0
  slashingPkScriptPath := slashingLeaf staker providers committee 2
  stakingTxUnbondingPkScriptPath := unbondingLeaf staker committee 2
  unbondingTxSlashingPkScriptPath := slashingLeaf staker providers committee 2
  fpEncKeys := providers.map fun fpPk => ⟨serializeCompressed fpPk⟩

theorem newBTCTxFromHex_txHex {tx : MsgTx} (h : tx ∈ knownTxs.map KnownTx.tx) :
    lib.newBTCTxFromHex (txHex tx) = .ok tx := by
  obtain ⟨k, hk, rfl⟩ := List.mem_map.mp h
  exact newBTCTxFromHex_known (t := table) hk

theorem newBTCSlashingTxFromHex_txHex (tx : MsgTx) :
    lib.newBTCSlashingTxFromHex (txHex tx) = .ok tx.wire := by
  simp [TxTable.lib, txHex]

theorem toMsgTx_wire {tx : MsgTx} (h : tx ∈ knownTxs.map KnownTx.tx) :
    lib.toMsgTx tx.wire = .ok tx := by
  obtain ⟨k, hk, rfl⟩ := List.mem_map.mp h
  exact deserialize_wire (t := table) hk

/-- Known transactions whose slashing and fee are right make a delegation that passes. -/
theorem checked_delegation {staking slashing unbonding slashUnbonding : MsgTx}
    {totalSat minValue : Int64} {exp : Option DelegationStakeExpansion}
    (hknown : ∀ tx ∈ [staking, slashing, unbonding, slashUnbonding],
      tx ∈ knownTxs.map KnownTx.tx)
    (hslash : SlashingAccepted lib .signet (delegation staking slashing unbonding slashUnbonding
      totalSat exp) (params minValue) slashing staking 0)
    (hslash' : SlashingAccepted lib .signet (delegation staking slashing unbonding slashUnbonding
      totalSat exp) (params minValue) slashUnbonding unbonding 0)
    {staked unbonded : TxOut} (hstaked : staking.txOut[0]? = some staked)
    (hunbonded : unbonding.txOut[0]? = some unbonded)
    (hfee : staked.value - unbonded.value = 1000) (hpos : 0 < totalSat) (hpos' : 0 < unbonded.value)
    (hmin : minValue ≤ totalSat) (hmax : totalSat ≤ 1000000) :
    Checked lib .signet (delegation staking slashing unbonding slashUnbonding totalSat exp)
      (params minValue) (request staking slashing unbonding slashUnbonding) := by
  have hinfo : lib.buildStakingInfo staker providers committee 2 1000 totalSat .signet =
      .ok ⟨⟨totalSat, stakingScript⟩, .ok (slashingLeaf staker providers committee 2),
        .ok (unbondingLeaf staker committee 2)⟩ :=
    if_neg (Int64.not_le.mpr hpos)
  have hinfo' : lib.buildUnbondingInfo staker providers committee 2 101 unbonded.value .signet =
      .ok ⟨⟨unbonded.value, unbondingScript⟩, .ok (slashingLeaf staker providers committee 2)⟩ :=
    if_neg (Int64.not_le.mpr hpos')
  have hslashing : lib.toMsgTx slashing.wire = .ok slashing :=
    toMsgTx_wire (hknown slashing (by simp))
  have hdecode : ∀ tx ∈ [staking, slashing, unbonding, slashUnbonding],
      lib.newBTCTxFromHex (txHex tx) = .ok tx := fun tx htx => newBTCTxFromHex_txHex (hknown tx htx)
  exact
    { noQuorum := rfl
      unbondingTime := rfl
      stakingTime := ⟨1000, rfl, show (10 : UInt16) ≤ 1000 by decide,
        show (1000 : UInt16) ≤ 10000 by decide⟩
      totalSat := ⟨hmin, hmax⟩
      stakingTx := hdecode _ (by simp)
      slashingTx := ⟨slashing.wire, newBTCSlashingTxFromHex_txHex slashing, hslashing⟩
      slashing := hslash
      undelegation := ⟨_, rfl, hdecode _ (by simp), hdecode _ (by simp)⟩
      unbondingSlashing := hslash'
      fee := ⟨staked, unbonded, hstaked, hunbonded, hfee⟩
      fpEncKeys := rfl
      stakingPaths := ⟨_, ⟨1000, rfl, hinfo⟩, rfl, rfl⟩
      unbondingPath := ⟨unbonded, _, hunbonded, hinfo', rfl⟩
      stakingOutputIdx := rfl }

def plainDelegation : Delegation :=
  delegation stakingTx slashingTx unbondingTx slashUnbondingTx 100000 none

def plainRequest : SigningRequest := request stakingTx slashingTx unbondingTx slashUnbondingTx

theorem checked_plain :
    Checked lib .signet plainDelegation (params 10000) plainRequest :=
  checked_delegation (by decide) rfl rfl rfl rfl (by decide) (by decide) (by decide) (by decide)
    (by decide)

def fundingTxOut : TxOut := ⟨60000, walletScript⟩

/-- The stake of `plainDelegation`, spent together with another output. -/
def stakeExpansion : DelegationStakeExpansion where
  previousStakingTxHashHex := lib.hashString stakingHash
  otherFundingTxOutHex := Hex.encodeToString fundingTxOut.wire

def expansionDelegation : Delegation :=
  delegation expansionTx expansionSlashingTx expansionUnbondingTx expansionSlashUnbondingTx 150000
    (some stakeExpansion)

def expansionRequest : SigningRequest :=
  request expansionTx expansionSlashingTx expansionUnbondingTx expansionSlashUnbondingTx

theorem checked_expansion :
    Checked lib .signet expansionDelegation (params 10000) expansionRequest :=
  checked_delegation (by decide) rfl rfl rfl rfl (by decide) (by decide) (by decide) (by decide)
    (by decide)

/-- An expansion whose first input is an output of the staking transaction has valid inputs. -/
theorem stakeExpValidateBasic_of_known {d : Delegation} {tx : MsgTx} {first second : TxIn}
    (hexp : d.stakeExpansion = some stakeExpansion) (hhex : d.stakingTxHex = txHex tx)
    (hknown : tx ∈ knownTxs.map KnownTx.tx) (hin : tx.txIn = [first, second])
    (hfirst : first.previousOutPoint.hash = stakingHash) :
    stakeExpValidateBasic lib d = .ok fundingTxOut := by
  have hout : stakeExpansion.otherFundingTxOut lib = .ok fundingTxOut := by
    simp only [DelegationStakeExpansion.otherFundingTxOut, stakeExpansion,
      Hex.decodeString_encodeToString]
    rfl
  have hhash : lib.newHashFromStr stakeExpansion.previousStakingTxHashHex = .ok stakingHash :=
    table_hashRoundTrip table stakingHash
  simp only [stakeExpValidateBasic, hexp, hhex, newBTCTxFromHex_txHex hknown, hin, hhash, hfirst,
    hout, Outcome.ofExcept, Outcome.bind_ok, ne_eq, not_true_eq_false, if_false]
  rfl

theorem stakeExpValidateBasic_expansion :
    stakeExpValidateBasic lib expansionDelegation = .ok fundingTxOut :=
  stakeExpValidateBasic_of_known rfl rfl (by decide) rfl rfl

def signingKey : PrivateKey := ⟨beBytes 32 7⟩

/-- The signer application in the process of the emulator, with a panic as an error. -/
def sign (req : SigningRequest) : Except String SignaturesResponse :=
  match signWith lib signingKey (covenantRequestToSignerRequest req) with
  | .ok resp => .ok (signerResponseToCovenantResponse resp)
  | .error e => .error e
  | .panic e => .error e
  | .diverged => .error ""

def adaptorSigs : List Bytes :=
  providers.map fun fpPk => (TxTable.adaptorSignature ⟨serializeCompressed fpPk⟩).mustMarshal

/-- The signatures over a request for the finality providers. -/
def signatures (stakeExpSig : Option Signature) : ParsedSigningResponse :=
  ⟨adaptorSigs, ⟨List.replicate 64 2⟩, adaptorSigs, stakeExpSig⟩

theorem signWith_plain :
    signWith lib signingKey (covenantRequestToSignerRequest plainRequest) =
      .ok (signatures none) := rfl

def signer {σ : Type} (req : SigningRequest) : Go σ SignaturesResponse :=
  Go.lift (.ofExcept (sign req))

theorem signer_of_signWith {σ : Type} {req : SigningRequest} {resp : ParsedSigningResponse}
    (h : signWith lib signingKey (covenantRequestToSignerRequest req) = .ok resp) (env : σ) :
    signer req env = (.ok (signerResponseToCovenantResponse resp), env) := by
  simp [signer, sign, h]

/-- The request for the stake expansion, with this index for the previous stake. -/
def stakeExpRequest (previousStakingOutputIdx : UInt32) : SigningRequest :=
  { expansionRequest with
    stakeExp := some
      { previousActiveStakeTx := stakingTx
        otherFundingOutput := fundingTxOut
        previousStakingOutputIdx := previousStakingOutputIdx
        previousActiveStakeUnbondingPkScriptPath := unbondingLeaf staker committee 2 } }

theorem signWith_expansion :
    signWith lib signingKey (covenantRequestToSignerRequest (stakeExpRequest 0)) =
      .ok (signatures (some ⟨List.replicate 64 3⟩)) := rfl

/-- The answer of a node about a delegation, with these signatures of the committee. -/
def response (staking slashing unbonding slashUnbonding : MsgTx) (totalSat : UInt64)
    (stkExp : Option StakeExpansionResponse) (covenantSigs : List CovenantAdaptorSignatures) :
    BTCDelegationResponse where
  btcPk := serializePubKey staker
  fpBtcPkList := providers.map serializePubKey
  stakingTime := 1000
  startHeight := 0
  endHeight := 0
  totalSat := totalSat
  stakingTxHex := txHex staking
  slashingTxHex := txHex slashing
  covenantSigs := covenantSigs
  stakingOutputIdx := 0
  unbondingTime := 101
  undelegationResponse := some
    { unbondingTxHex := txHex unbonding
      covenantUnbondingSigList := []
      slashingTxHex := txHex slashUnbonding
      covenantSlashingSigs := []
      delegatorUnbondingInfo := none }
  paramsVersion := 0
  stkExp := stkExp

theorem txHex_ne_empty (tx : MsgTx) : txHex tx ≠ "" := by
  simp [txHex, Hex.encodeToString_eq_empty, MsgTx.wire, leBytes]

/-- A delegation nobody has signed comes back from its response. -/
theorem delegationRespToDelegation_response (staking slashing unbonding slashUnbonding : MsgTx)
    {totalSat : UInt64} (htotal : totalSat.toNat ≤ 2 ^ 63 - 1)
    (stkExp : Option StakeExpansionResponse) :
    delegationRespToDelegation lib
        (response staking slashing unbonding slashUnbonding totalSat stkExp []) =
      .ok (delegation staking slashing unbonding slashUnbonding totalSat.toInt64
        (stkExp.map fun e => ⟨e.previousStakingTxHashHex, e.otherFundingTxOutHex⟩)) := by
  have hstaker : lib.mustToBTCPK (serializePubKey staker) = .ok staker :=
    BabylonLib.mustToBTCPK_serializePubKey (table_liftsToEven table staker)
  have hprovider : ∀ x, lib.mustToBTCPK (serializePubKey (key x)) = .ok (key x) :=
    fun x => BabylonLib.mustToBTCPK_serializePubKey (table_liftsToEven table (key x))
  have hundel : undelegationOf lib (response staking slashing unbonding slashUnbonding totalSat
      stkExp []).undelegationResponse = .ok (delegation staking slashing unbonding slashUnbonding
        totalSat.toInt64 none).btcUndelegation := by
    simp only [undelegationOf, undelegationRespToUndelegation, response, delegation,
      txHex_ne_empty, if_false]
    rfl
  have hunbond : ¬ (101 : UInt32).toNat > 65535 := by decide
  unfold delegationRespToDelegation
  rw [hundel]
  simp only [response, providers, List.map_cons, List.map_nil, txHex_ne_empty, if_false,
    List.mapM_nil, List.mapM_cons, hprovider,
    hstaker, Outcome.bind_ok, pure_bind, hunbond, not_lt.mpr htotal]
  rfl

def plainResponse (covenantSigs : List CovenantAdaptorSignatures) : BTCDelegationResponse :=
  response stakingTx slashingTx unbondingTx slashUnbondingTx 100000 none covenantSigs

theorem delegationRespToDelegation_plain :
    delegationRespToDelegation lib (plainResponse []) = .ok plainDelegation :=
  delegationRespToDelegation_response stakingTx slashingTx unbondingTx slashUnbondingTx
    (show (100000 : UInt64).toNat ≤ 2 ^ 63 - 1 by decide) none

def expansionResponse : BTCDelegationResponse :=
  response expansionTx expansionSlashingTx expansionUnbondingTx expansionSlashUnbondingTx 150000
    (some ⟨stakeExpansion.previousStakingTxHashHex, stakeExpansion.otherFundingTxOutHex⟩) []

theorem delegationRespToDelegation_expansion :
    delegationRespToDelegation lib expansionResponse = .ok expansionDelegation :=
  delegationRespToDelegation_response expansionTx expansionSlashingTx expansionUnbondingTx
    expansionSlashUnbondingTx (show (150000 : UInt64).toNat ≤ 2 ^ 63 - 1 by decide) _

/-- The previous delegations the node knows. -/
def answers (hash : String) : Except String Delegation :=
  if hash = lib.hashString stakingHash then .ok plainDelegation
  else .error "delegation does not exist"

/-- A node with these pending delegations, that takes every submission. -/
def node (pending : List BTCDelegationResponse) : ClientController Unit where
  submitCovenantSigs _ := pure ⟨"", []⟩
  btcDelegations _ _ := pure ⟨pending, some ⟨[]⟩⟩
  queryBTCDelegation hash := Go.lift (.ofExcept (answers hash))
  queryStakingParamsByVersion _ := pure (params 10000)

/-- An emulator of the first key of the committee. -/
def emulator {σ : Type} (cc : ClientController σ)
    (signer : SigningRequest → Go σ SignaturesResponse) : Emulator σ where
  lib := lib
  retry := .loop
  cc := cc
  signer := signer
  pk := covenantKey
  btcNetParams := .signet
  delegationLimit := 100
  sigsBatchSize := 30

/-- Every version has the same parameters, and they are cached. -/
abbrev world {σ : Type} (env : σ) (minStakingValue : Int64) : World σ :=
  ⟨env, fun _ => some (params minStakingValue), []⟩

section
variable {σ : Type} (cc : ClientController σ) {signer : SigningRequest → Go σ SignaturesResponse}
  {env env' : σ} {resp : SignaturesResponse}

theorem knownCommittee (d : Delegation) (minStakingValue : Int64) :
    KnownCommittee (emulator cc signer) (world env minStakingValue) d :=
  ⟨params minStakingValue, rfl, key 3, by simp [params, committee], rfl⟩

theorem passes_plain (h : signer plainRequest env = (.ok resp, env')) :
    Passes (emulator cc signer) plainDelegation (world env 10000) (world env 10000) plainRequest
      resp env' where
  undelegation := ⟨_, rfl⟩
  request := ⟨params 10000, plainRequest, rfl, checkDelegation_of_checked checked_plain rfl,
    by rw [withStakeExp_plain rfl]; rfl⟩
  signer := h

/-- Nobody has signed it, and the key is in the committee. -/
theorem accepts_plain : (emulator cc signer).acceptDelegationToSign plainDelegation
    (world env 10000) = (.ok true, world env 10000) :=
  acceptDelegationToSign_plain rfl rfl (knownCommittee cc _ _)

end

theorem queryBTCDelegation_previous (pending : List BTCDelegationResponse) :
    (node pending).queryBTCDelegation stakeExpansion.previousStakingTxHashHex () =
      (.ok plainDelegation, ()) := by
  simp [node, answers, stakeExpansion]

section
variable {σ : Type} {ce : Emulator σ} {w : World σ} {env' : σ} {resp : SignaturesResponse}
  (hlib : ce.lib = lib) (hnet : ce.btcNetParams = .signet)
  (hP : w.paramsByVersion 0 = some (params 10000))
  (hprev : ce.cc.queryBTCDelegation stakeExpansion.previousStakingTxHashHex w.env =
    (.ok plainDelegation, w.env))
include hlib

theorem newBTCTxFromHex_previous :
    ce.lib.newBTCTxFromHex plainDelegation.stakingTxHex = .ok stakingTx := by
  rw [hlib]
  exact checked_plain.stakingTx

include hnet hP hprev

/-- The part of the request about the previous stake. -/
theorem buildStkExpSigningRequest_of_valid {d : Delegation}
    (hexp : d.stakeExpansion = some stakeExpansion)
    (hvalid : stakeExpValidateBasic lib d = .ok fundingTxOut) :
    ce.buildStkExpSigningRequest d w =
      (.ok ⟨stakingTx, fundingTxOut, 0, unbondingLeaf staker committee 2⟩, w) := by
  obtain ⟨info, hpaths⟩ := checked_plain.stakingPaths
  rw [← hlib, ← hnet] at hpaths
  rw [← hlib] at hvalid
  exact buildStkExpSigningRequest_of_paths hexp hvalid hprev (newBTCTxFromHex_previous hlib) hP
    hpaths

theorem passes_expansion (h : ce.signer (stakeExpRequest 0) w.env = (.ok resp, env')) :
    Passes ce expansionDelegation w w (stakeExpRequest 0) resp env' where
  undelegation := ⟨_, rfl⟩
  request := by
    have hcheck : checkDelegation ce.lib expansionDelegation (params 10000) ce.btcNetParams =
        .ok expansionRequest := by
      rw [hlib, hnet]
      exact checkDelegation_of_checked checked_expansion rfl
    exact ⟨params 10000, expansionRequest, hP, hcheck, withStakeExp_of_build rfl
      (buildStkExpSigningRequest_of_valid hlib hnet hP hprev rfl stakeExpValidateBasic_expansion)⟩
  signer := h

end

end Sample

end CovenantEmulator
