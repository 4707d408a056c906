import CovenantEmulator.Bitcoin
import Mathlib.Data.List.Nodup

/-! A library that knows a finite table of transactions. It checks and signs as the real one
does, with the hash of each transaction given, and keeps the laws stated for the real one. -/
namespace CovenantEmulator

open Golang

/-- The lowest `k` bytes of `n`, least significant first. -/
def leBytes : Nat → Nat → Bytes
  | 0, _ => []
  | k + 1, n => UInt8.ofNat n :: leBytes k (n / 256)

def ofLeBytes : Bytes → Nat
  | [] => 0
  | b :: bs => b.toNat + 256 * ofLeBytes bs

def beBytes (k n : Nat) : Bytes := (leBytes k n).reverse

theorem ofLeBytes_leBytes (k n : Nat) : ofLeBytes (leBytes k n) = n % 256 ^ k := by
  induction k generalizing n with
  | zero => simp [leBytes, ofLeBytes, Nat.mod_one]
  | succ k ih =>
    have byte : (UInt8.ofNat n).toNat = n % 256 := UInt8.toNat_ofNat'
    rw [leBytes, ofLeBytes, ih, byte, Nat.pow_succ', ← Nat.mod_mul]

theorem length_leBytes (k n : Nat) : (leBytes k n).length = k := by
  induction k generalizing n with
  | zero => rfl
  | succ k ih => rw [leBytes, List.length_cons, ih]

def compactSize (n : Nat) : Bytes :=
  if n < 0xfd then [UInt8.ofNat n] else 0xfd :: leBytes 2 n

def TxIn.wire (txIn : TxIn) : Bytes :=
  leBytes 32 txIn.previousOutPoint.hash.toNat ++ leBytes 4 txIn.previousOutPoint.index.toNat ++
    compactSize txIn.signatureScript.length ++ txIn.signatureScript ++
    leBytes 4 txIn.sequence.toNat

def TxOut.wire (out : TxOut) : Bytes :=
  leBytes 8 out.value.toUInt64.toNat ++ compactSize out.pkScript.length ++ out.pkScript

/-- The encoding of a transaction without witnesses. -/
def MsgTx.wire (tx : MsgTx) : Bytes :=
  leBytes 4 tx.version.toUInt32.toNat ++ compactSize tx.txIn.length ++ tx.txIn.flatMap TxIn.wire ++
    compactSize tx.txOut.length ++ tx.txOut.flatMap TxOut.wire ++ leBytes 4 tx.lockTime.toNat

def pushKey (pk : PublicKey) : Bytes := 0x20 :: serializePubKey pk

/-- `OP_CHECKSIG`, then `OP_CHECKSIGADD` for each further key. -/
def multisigScript (keys : List PublicKey) (threshold : UInt32) (close : UInt8) : Bytes :=
  (keys.zipIdx.flatMap fun (pk, i) => pushKey pk ++ [if i = 0 then 0xac else 0xba]) ++
    [UInt8.ofNat (0x50 + threshold.toNat), close]

/-- The finality providers' part, closed with a verifying opcode. -/
def fpScript : List PublicKey → Bytes
  | [fp] => pushKey fp ++ [0xad]
  | fps => multisigScript fps 1 0x9d

def slashingLeaf (staker : PublicKey) (fps covenant : List PublicKey) (quorum : UInt32) : Bytes :=
  pushKey staker ++ [0xad] ++ fpScript fps ++ multisigScript covenant quorum 0x9c

def unbondingLeaf (staker : PublicKey) (covenant : List PublicKey) (quorum : UInt32) : Bytes :=
  pushKey staker ++ [0xad] ++ multisigScript covenant quorum 0x9c

structure KnownTx where
  tx : MsgTx
  hash : Hash
  deriving DecidableEq, Repr

/-- The transactions, and the taproot outputs for each lock time. -/
structure TxTable where
  txs : List KnownTx
  distinct : (txs.map fun k => k.tx.wire).Nodup
  stakingScript : UInt16 → Bytes
  unbondingScript : UInt16 → Bytes
  changeScript : UInt16 → Bytes

namespace TxTable

variable (t : TxTable)

def txHash (tx : MsgTx) : Hash :=
  match t.txs.find? fun k => decide (k.tx = tx) with
  | some k => k.hash
  | none => 0

def deserialize (bs : Bytes) : Except String MsgTx :=
  match t.txs.find? fun k => decide (k.tx.wire = bs) with
  | some k => .ok k.tx
  | none => .error "unexpected EOF"

def serialize (tx : MsgTx) : Except String Bytes :=
  match t.txs.find? fun k => decide (k.tx = tx) with
  | some k => .ok k.tx.wire
  | none => .error "unknown transaction"

def newBTCTxFromHex (txHex : String) : Except String MsgTx :=
  match Hex.decodeString txHex with
  | .ok bs => t.deserialize bs
  | .error e => .error e

/-- A hash is written with its bytes reversed. -/
def hashString (h : Hash) : String := Hex.encodeToString (beBytes 32 h.toNat)

def newHashFromStr (s : String) : Except String Hash :=
  match Hex.decodeString s with
  | .ok bs =>
    if bs.length > 32 then .error "max hash string length is 64 bytes"
    else .ok (BitVec.ofNat 256 (ofLeBytes bs.reverse))
  | .error e => .error e

/-- `OutPoint` of the only input. -/
def spends (tx funding : MsgTx) (idx : UInt32) : Bool :=
  match tx.txIn with
  | [txIn] => decide (txIn.previousOutPoint = ⟨t.txHash funding, idx⟩)
  | _ => false

/-- The part of `CheckTransactionSanity` that reads inputs and amounts. -/
def sane (tx : MsgTx) : Bool :=
  !tx.txIn.isEmpty && tx.txOut.all fun out =>
    decide (0 ≤ out.value.toInt ∧ out.value.toInt ≤ BabylonLib.maxSatoshi)

/-- The outputs of a slashing transaction: the slashed part, and the change to the staker. -/
def slashes (slashingTx : MsgTx) (staked : TxOut) (minFee : Int64) (rate : LegacyDec)
    (script : Bytes) (lock : UInt16) : Bool :=
  match slashingTx.txOut with
  | [slashed, change] =>
    decide (slashed.pkScript = script) &&
      decide (rate.i * staked.value.toInt / 10 ^ 18 ≤ slashed.value.toInt) &&
      decide (change.pkScript = t.changeScript lock) &&
      decide (minFee.toInt ≤ staked.value.toInt - slashed.value.toInt - change.value.toInt)
  | _ => false

def checkSlashingTx (slashingTx fundingTx : MsgTx) (idx : UInt32) (minFee : Int64)
    (rate : LegacyDec) (script : Bytes) (_ : PublicKey) (lock : UInt16) (_ : NetParams) :
    Except String Unit :=
  if minFee.toInt ≤ 0 then .error "slashing transaction min fee must be larger than 0"
  else if rate.i ≤ 0 ∨ 10 ^ 18 ≤ rate.i then .error "invalid slashing rate"
  else if sane fundingTx = false then .error "funding transaction does not obey BTC rules"
  else
    match fundingTx.txOut[idx.toNat]? with
    | none => .error "invalid funding output index"
    | some staked =>
      if t.slashes slashingTx staked minFee rate script lock = false then
        .error "slashing transaction is invalid"
      else if t.spends slashingTx fundingTx idx = false then
        .error "slashing transaction must spend the funding output"
      else .ok ()

/-- A lock of 16 bits, an amount, and the keys of the two other parties. -/
def stakingInfo (staker : PublicKey) (fps covenant : List PublicKey) (quorum : UInt32)
    (time : UInt16) (amount : Int64) (_ : NetParams) : Except String StakingInfo :=
  if amount ≤ 0 then .error "staking amount should be positive"
  else if fps = [] then .error "no finality providers keys provided"
  else if covenant.length < quorum.toNat then .error "covenant quorum is too high"
  else .ok
    { stakingOutput := ⟨amount, t.stakingScript time⟩
      slashingPathSpendInfo := .ok (slashingLeaf staker fps covenant quorum)
      unbondingPathSpendInfo := .ok (unbondingLeaf staker covenant quorum) }

def unbondingInfo (staker : PublicKey) (fps covenant : List PublicKey) (quorum : UInt32)
    (time : UInt16) (amount : Int64) (_ : NetParams) : Except String UnbondingInfo :=
  if amount ≤ 0 then .error "unbonding amount should be positive"
  else if fps = [] then .error "no finality providers keys provided"
  else if covenant.length < quorum.toNat then .error "covenant quorum is too high"
  else .ok
    { unbondingOutput := ⟨amount, t.unbondingScript time⟩
      slashingPathSpendInfo := .ok (slashingLeaf staker fps covenant quorum) }

def deserializeTxOut (bs : Bytes) : Except String TxOut :=
  match bs.drop 8 with
  | n :: script =>
    if script.length = n.toNat then
      .ok ⟨(UInt64.ofNat (ofLeBytes (bs.take 8))).toInt64, script⟩
    else .error "unexpected EOF"
  | [] => .error "unexpected EOF"

def parsePubKey (bs : Bytes) : Except String PublicKey :=
  if h : bs.length = 32 then .ok ⟨⟨bs.toArray, by simpa using h⟩, false⟩
  else .error "bad pubkey byte string size"

def parseSignature (bs : Bytes) : Except String Signature :=
  if bs.length = 64 then .ok ⟨bs⟩ else .error "malformed signature"

/-- A stand-in for an adaptor signature, of the right length and bound to the key. -/
def adaptorSignature (ek : EncryptionKey) : AdaptorSignature :=
  ⟨ek.toBytes ++ List.replicate 32 1⟩

def lib : BabylonLib where
  txHash := t.txHash
  hashString := hashString
  newHashFromStr := newHashFromStr
  newBTCTxFromHex := t.newBTCTxFromHex
  deserialize := t.deserialize
  serialize := t.serialize
  deserializeTxOut := deserializeTxOut
  serializeTxOut out := .ok out.wire
  newBTCSlashingTxFromHex := Hex.decodeString
  toMsgTx := t.deserialize
  checkSlashingTxMatchFundingTx := t.checkSlashingTx
  buildStakingInfo := t.stakingInfo
  buildUnbondingInfo := t.unbondingInfo
  parsePubKey := parsePubKey
  pubKey sk := ⟨Vector.ofFn fun i => sk.key.getD i 0, false⟩
  parseCompressedPubKey bs :=
    match bs with
    | b :: x => (parsePubKey x).map fun pk => { pk with odd := b = 3 }
    | [] => .error "malformed public key"
  parseSignature := parseSignature
  newEncryptionKeyFromBTCPK pk := .ok ⟨serializeCompressed pk⟩
  newEncryptionKeyFromBytes bs :=
    if bs.length = 33 then .ok ⟨bs⟩ else .error "invalid encryption key"
  encSignTxWithOneScriptSpendInputStrict tx funding idx _ _ ek :=
    if t.spends tx funding idx then .ok (adaptorSignature ek)
    else .error "tx input does not spend the funding output"
  signTxWithOneScriptSpendInputStrict tx funding idx _ _ :=
    if t.spends tx funding idx then .ok ⟨List.replicate 64 2⟩
    else .error "tx input does not spend the funding output"
  signTxForFirstScriptSpendWithTwoInputsFromScript tx _ _ _ _ :=
    if tx.txIn.length = 2 then .ok ⟨List.replicate 64 3⟩
    else .error "tx to sign must have exactly two inputs"

end TxTable

/-- An element is found by any of its features that no other element shares. -/
theorem find?_of_nodup_map {α β : Type} [DecidableEq β] {f : α → β} {xs : List α} {a : α}
    (hnd : (xs.map f).Nodup) (h : a ∈ xs) : xs.find? (fun x => decide (f x = f a)) = some a := by
  induction xs with
  | nil => simp at h
  | cons x xs ih =>
    rw [List.map_cons, List.nodup_cons] at hnd
    rcases List.mem_cons.mp h with rfl | h
    · simp
    · have hne : f x ≠ f a := fun heq => hnd.1 (heq ▸ List.mem_map_of_mem h)
      simpa [hne] using ih hnd.2 h

section
variable (t : TxTable)

theorem spends_iff {tx funding : MsgTx} {idx : UInt32} :
    t.spends tx funding idx = true ↔ t.lib.Spends tx funding idx := by
  unfold TxTable.spends BabylonLib.Spends
  split
  · rename_i txIn h
    simp [h, TxTable.lib]
  · rename_i h
    simpa using fun txIn htx => absurd htx (h txIn)

theorem table_strictSigners : t.lib.StrictSigners where
  encSign h := by
    simp only [TxTable.lib] at h
    split at h
    · exact (spends_iff t).mp ‹_›
    · cases h
  sign h := by
    simp only [TxTable.lib] at h
    split at h
    · exact (spends_iff t).mp ‹_›
    · cases h

/-- What an accepted pair has shown. -/
theorem checkSlashingTx_ok {slashing funding : MsgTx} {idx : UInt32} {fee : Int64}
    {rate : LegacyDec} {script : Bytes} {pk : PublicKey} {lock : UInt16} {net : NetParams}
    (h : t.lib.checkSlashingTxMatchFundingTx slashing funding idx fee rate script pk lock net =
      .ok ()) :
    TxTable.sane funding = true ∧ idx.toNat < funding.txOut.length ∧
      t.spends slashing funding idx = true := by
  change t.checkSlashingTx slashing funding idx fee rate script pk lock net = .ok () at h
  unfold TxTable.checkSlashingTx at h
  split at h
  · cases h
  split at h
  · cases h
  split at h
  · cases h
  rename_i hsane
  split at h
  · cases h
  rename_i staked hstaked
  split at h
  · cases h
  split at h
  · cases h
  rename_i hspends
  exact ⟨by simpa using hsane, (List.getElem?_eq_some_iff.mp hstaked).1, by simpa using hspends⟩

theorem table_checksFundingIndex : t.lib.ChecksFundingIndex :=
  fun h => (checkSlashingTx_ok t h).2.1

theorem table_checksSanity : t.lib.ChecksSanity where
  inputs h := by
    obtain ⟨hsane, -, hspends⟩ := checkSlashingTx_ok t h
    obtain ⟨txIn, hin, -⟩ := (spends_iff t).mp hspends
    simp only [TxTable.sane, Bool.and_eq_true, Bool.not_eq_true',
      List.isEmpty_eq_false_iff] at hsane
    exact ⟨hsane.1, by simp [hin]⟩
  values h := by
    obtain ⟨hsane, -, -⟩ := checkSlashingTx_ok t h
    simp only [TxTable.sane, Bool.and_eq_true, List.all_eq_true, decide_eq_true_eq] at hsane
    exact hsane.2

theorem table_buildsAmount : t.lib.BuildsAmount := by
  intro staker fps covenant quorum time amount net info h
  simp only [TxTable.lib, TxTable.stakingInfo] at h
  split at h
  · cases h
  split at h
  · cases h
  split at h
  · cases h
  cases h
  rfl

theorem table_hashRoundTrip : t.lib.HashRoundTrip := by
  intro h
  have hback : ofLeBytes (leBytes 32 h.toNat) = h.toNat := by
    rw [ofLeBytes_leBytes]
    exact Nat.mod_eq_of_lt h.isLt
  simp [TxTable.lib, TxTable.newHashFromStr, TxTable.hashString, beBytes, length_leBytes, hback]

theorem table_liftsToEven (pk : PublicKey) : t.lib.LiftsToEven pk := by
  simp [BabylonLib.LiftsToEven, TxTable.lib, TxTable.parsePubKey, serializePubKey, PublicKey.even,
    Vector.toList]

variable {t} {k : KnownTx}

theorem deserialize_wire (h : k ∈ t.txs) : t.deserialize k.tx.wire = .ok k.tx := by
  rw [TxTable.deserialize, find?_of_nodup_map t.distinct h]

theorem newBTCTxFromHex_known (h : k ∈ t.txs) :
    t.lib.newBTCTxFromHex (Hex.encodeToString k.tx.wire) = .ok k.tx := by
  simp [TxTable.lib, TxTable.newBTCTxFromHex, deserialize_wire h]

end

end CovenantEmulator
