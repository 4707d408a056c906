import CovenantEmulator.Types

/-! The signer application: what it signs with the key it retrieves. -/
namespace CovenantEmulator

open Golang

structure ParsedSigningRequestStkExp where
  previousActiveStakeTx : MsgTx
  otherFundingOutput : TxOut
  previousStakingOutputIdx : UInt32
  previousActiveStakeUnbondingScript : Bytes
  deriving DecidableEq, Repr

structure ParsedSigningRequest where
  stakingTx : MsgTx
  slashingTx : MsgTx
  unbondingTx : MsgTx
  slashUnbondingTx : MsgTx
  stakeExp : Option ParsedSigningRequestStkExp
  stakingOutputIdx : UInt32
  slashingScript : Bytes
  unbondingScript : Bytes
  unbondingSlashingScript : Bytes
  fpEncKeys : List EncryptionKey
  deriving DecidableEq, Repr

structure ParsedSigningResponse where
  slashAdaptorSigs : List Bytes
  unbondingSig : Signature
  slashUnbondingAdaptorSigs : List Bytes
  stakeExpSig : Option Signature
  deriving DecidableEq, Repr

/-- Bytes printed with `%s`, read byte by byte. -/
def textOfBytes (bs : Bytes) : String := String.ofList (bs.map fun b => Char.ofNat b.toNat)

section
variable (lib : BabylonLib) (covenantPrivKey : PrivateKey) (signingTxReq : ParsedSigningRequest)

def slashUnbondSig (fpEncKey : EncryptionKey) : Outcome (AdaptorSignature × AdaptorSignature) := do
  let slashSig ← (Outcome.ofExcept (lib.encSignTxWithOneScriptSpendInputStrict
    signingTxReq.slashingTx signingTxReq.stakingTx signingTxReq.stakingOutputIdx
    signingTxReq.slashingScript covenantPrivKey fpEncKey)).wrap
      ("failed to sign adaptor slash signature with finality provider public key " ++
        textOfBytes fpEncKey.toBytes ++ ": " ++ ·)
  let slashUnbondingSig ← (Outcome.ofExcept (lib.encSignTxWithOneScriptSpendInputStrict
    signingTxReq.slashUnbondingTx signingTxReq.unbondingTx 0
    signingTxReq.unbondingSlashingScript covenantPrivKey fpEncKey)).wrap
      ("failed to sign adaptor slash unbonding signature with finality provider public key " ++
        textOfBytes fpEncKey.toBytes ++ ": " ++ ·)
  pure (slashSig, slashUnbondingSig)

def unbondSig : Outcome Signature :=
  (Outcome.ofExcept (lib.signTxWithOneScriptSpendInputStrict signingTxReq.unbondingTx
    signingTxReq.stakingTx signingTxReq.stakingOutputIdx signingTxReq.unbondingScript
    covenantPrivKey)).wrap ("failed to sign unbonding tx: " ++ ·)

/-- The previous output is read without a check of its index. -/
def stkExpSig (stakeExp : ParsedSigningRequestStkExp) : Outcome Signature := do
  let previousOutput ←
    .index stakeExp.previousActiveStakeTx.txOut stakeExp.previousStakingOutputIdx.toNat
  (Outcome.ofExcept (lib.signTxForFirstScriptSpendWithTwoInputsFromScript signingTxReq.stakingTx
    previousOutput stakeExp.otherFundingOutput covenantPrivKey
    stakeExp.previousActiveStakeUnbondingScript)).wrap
      ("failed to sign spend of previous stake " ++
        lib.hashString (lib.txHash stakeExp.previousActiveStakeTx) ++
        " with stake expansion tx " ++ lib.hashString (lib.txHash signingTxReq.stakingTx) ++
        ": " ++ ·)

/-- The last step of `SignTransactions`: nil without a stake expansion. -/
def stakeExpSigOf : Outcome (Option Signature) :=
  match signingTxReq.stakeExp with
  | none => pure none
  | some stakeExp => do
    let sig ← stkExpSig lib covenantPrivKey signingTxReq stakeExp
    pure (some sig)

/-- `SignTransactions` once the private key is there. -/
def signWith : Outcome ParsedSigningResponse := do
  let sigs ← signingTxReq.fpEncKeys.mapM (slashUnbondSig lib covenantPrivKey signingTxReq)
  let unbondingSig ← unbondSig lib covenantPrivKey signingTxReq
  let stakeExpSig ← stakeExpSigOf lib covenantPrivKey signingTxReq
  pure
    { slashAdaptorSigs := sigs.map fun s => s.1.mustMarshal
      unbondingSig := unbondingSig
      slashUnbondingAdaptorSigs := sigs.map fun s => s.2.mustMarshal
      stakeExpSig := stakeExpSig }

end

/-- `PrivKey` only reads the state of the retriever. -/
structure PrivKeyRetriever (σ : Type) where
  privKey : σ → Except String PrivateKey
  unlock : String → Go σ Unit
  lock : Go σ Unit

structure SignerApp (σ : Type) where
  lib : BabylonLib
  pkr : PrivKeyRetriever σ

namespace SignerApp

variable {σ : Type} (s : SignerApp σ)

def signTransactions (req : ParsedSigningRequest) : Go σ ParsedSigningResponse := do
  let privKey ← Go.reads s.pkr.privKey
  Go.lift (signWith s.lib privKey req)

def unlock (passphrase : String) : Go σ Unit := s.pkr.unlock passphrase

def lock : Go σ Unit := s.pkr.lock

def pubKey : Go σ PublicKey := do
  let privKey ← Go.reads s.pkr.privKey
  pure (s.lib.pubKey privKey)

end SignerApp

section
variable {lib : BabylonLib} {sk : PrivateKey} {req : ParsedSigningRequest}

theorem slashUnbondSig_eq_ok {ek : EncryptionKey} {sigs : AdaptorSignature × AdaptorSignature} :
    slashUnbondSig lib sk req ek = .ok sigs ↔
      lib.encSignTxWithOneScriptSpendInputStrict req.slashingTx req.stakingTx
        req.stakingOutputIdx req.slashingScript sk ek = .ok sigs.1 ∧
      lib.encSignTxWithOneScriptSpendInputStrict req.slashUnbondingTx req.unbondingTx 0
        req.unbondingSlashingScript sk ek = .ok sigs.2 := by
  obtain ⟨a, b⟩ := sigs
  simp [slashUnbondSig, Outcome.bind_eq_ok, Outcome.wrap_eq_ok, Outcome.ofExcept_eq_ok]

theorem unbondSig_eq_ok {sig : Signature} : unbondSig lib sk req = .ok sig ↔
    lib.signTxWithOneScriptSpendInputStrict req.unbondingTx req.stakingTx req.stakingOutputIdx
      req.unbondingScript sk = .ok sig := by
  rw [unbondSig, Outcome.wrap_eq_ok, Outcome.ofExcept_eq_ok]

theorem stakeExpSigOf_eq_ok {sig : Option Signature} : stakeExpSigOf lib sk req = .ok sig ↔
    (req.stakeExp = none ∧ none = sig) ∨
      ∃ stk s, req.stakeExp = some stk ∧ stkExpSig lib sk req stk = .ok s ∧ some s = sig := by
  unfold stakeExpSigOf
  cases req.stakeExp with
  | none => simp
  | some stk => simp [Outcome.bind_eq_ok]

/-- What a response is made of. -/
theorem signWith_parts {resp : ParsedSigningResponse} (h : signWith lib sk req = .ok resp) :
    ∃ sigs, req.fpEncKeys.mapM (slashUnbondSig lib sk req) = .ok sigs ∧
      resp.slashAdaptorSigs = sigs.map (fun s => s.1.mustMarshal) ∧
      resp.slashUnbondingAdaptorSigs = sigs.map (fun s => s.2.mustMarshal) ∧
      unbondSig lib sk req = .ok resp.unbondingSig ∧
      stakeExpSigOf lib sk req = .ok resp.stakeExpSig := by
  obtain ⟨sigs, hsigs, h⟩ := Outcome.bind_eq_ok.mp h
  obtain ⟨unbonding, hunbonding, h⟩ := Outcome.bind_eq_ok.mp h
  obtain ⟨stkExp, hstkExp, h⟩ := Outcome.bind_eq_ok.mp h
  cases h
  exact ⟨sigs, hsigs, rfl, rfl, hunbonding, hstkExp⟩

/-- Every adaptor signature of the response was made over the pair of transactions the request
names for it. -/
theorem signWith_ok {resp : ParsedSigningResponse} (h : signWith lib sk req = .ok resp) :
    (∀ sig ∈ resp.slashAdaptorSigs, ∃ ek a,
      lib.encSignTxWithOneScriptSpendInputStrict req.slashingTx req.stakingTx
        req.stakingOutputIdx req.slashingScript sk ek = .ok a ∧ a.mustMarshal = sig) ∧
    (∀ sig ∈ resp.slashUnbondingAdaptorSigs, ∃ ek a,
      lib.encSignTxWithOneScriptSpendInputStrict req.slashUnbondingTx req.unbondingTx 0
        req.unbondingSlashingScript sk ek = .ok a ∧ a.mustMarshal = sig) ∧
    lib.signTxWithOneScriptSpendInputStrict req.unbondingTx req.stakingTx req.stakingOutputIdx
      req.unbondingScript sk = .ok resp.unbondingSig := by
  obtain ⟨sigs, hsigs, hslash, hslashUnbond, hunbonding, -⟩ := signWith_parts h
  have hboth : ∀ s ∈ sigs, ∃ ek,
      lib.encSignTxWithOneScriptSpendInputStrict req.slashingTx req.stakingTx
        req.stakingOutputIdx req.slashingScript sk ek = .ok s.1 ∧
      lib.encSignTxWithOneScriptSpendInputStrict req.slashUnbondingTx req.unbondingTx 0
        req.unbondingSlashingScript sk ek = .ok s.2 := by
    intro s hs
    obtain ⟨ek, -, hek⟩ := Outcome.exists_of_mem_of_mapM hsigs hs
    exact ⟨ek, slashUnbondSig_eq_ok.mp hek⟩
  refine ⟨?_, ?_, unbondSig_eq_ok.mp hunbonding⟩
  · intro sig hsig
    rw [hslash] at hsig
    obtain ⟨s, hs, rfl⟩ := List.mem_map.mp hsig
    obtain ⟨ek, ha, -⟩ := hboth s hs
    exact ⟨ek, s.1, ha, rfl⟩
  · intro sig hsig
    rw [hslashUnbond] at hsig
    obtain ⟨s, hs, rfl⟩ := List.mem_map.mp hsig
    obtain ⟨ek, -, hb⟩ := hboth s hs
    exact ⟨ek, s.2, hb, rfl⟩

/-- One adaptor signature of each kind for every finality provider key. -/
theorem signWith_length {resp : ParsedSigningResponse} (h : signWith lib sk req = .ok resp) :
    resp.slashAdaptorSigs.length = req.fpEncKeys.length ∧
      resp.slashUnbondingAdaptorSigs.length = req.fpEncKeys.length := by
  obtain ⟨sigs, hsigs, hslash, hslashUnbond, -⟩ := signWith_parts h
  have hlen := (Outcome.mapM_eq_ok.mp hsigs).length_eq
  simp [hslash, hslashUnbond, hlen]

/-- The signatures at a position are the ones for the key at that position. -/
theorem signWith_getElem {resp : ParsedSigningResponse} (h : signWith lib sk req = .ok resp)
    {i : ℕ} {ek : EncryptionKey} (hek : req.fpEncKeys[i]? = some ek) : ∃ a b,
      lib.encSignTxWithOneScriptSpendInputStrict req.slashingTx req.stakingTx
        req.stakingOutputIdx req.slashingScript sk ek = .ok a ∧
      resp.slashAdaptorSigs[i]? = some a.mustMarshal ∧
      lib.encSignTxWithOneScriptSpendInputStrict req.slashUnbondingTx req.unbondingTx 0
        req.unbondingSlashingScript sk ek = .ok b ∧
      resp.slashUnbondingAdaptorSigs[i]? = some b.mustMarshal := by
  obtain ⟨sigs, hsigs, hslash, hslashUnbond, -⟩ := signWith_parts h
  have hall := Outcome.mapM_eq_ok.mp hsigs
  obtain ⟨hi, rfl⟩ := List.getElem?_eq_some_iff.mp hek
  have hi' : i < sigs.length := hall.length_eq ▸ hi
  obtain ⟨ha, hb⟩ := slashUnbondSig_eq_ok.mp (hall.get hi hi')
  exact ⟨_, _, ha, by simp [hslash, hi'], hb, by simp [hslashUnbond, hi']⟩

/-- A stake expansion signature is made exactly for a stake expansion. -/
theorem signWith_stakeExp {resp : ParsedSigningResponse} (h : signWith lib sk req = .ok resp) :
    resp.stakeExpSig.isSome = req.stakeExp.isSome := by
  obtain ⟨sigs, -, -, -, -, hstkExp⟩ := signWith_parts h
  rcases stakeExpSigOf_eq_ok.mp hstkExp with ⟨hreq, hsig⟩ | ⟨stk, sig, hreq, -, hsig⟩
  · rw [hreq, ← hsig]
    rfl
  · rw [hreq, ← hsig]
    rfl

theorem stkExpSig_panics {stk : ParsedSigningRequestStkExp} :
    (stkExpSig lib sk req stk).Panics ↔
      stk.previousActiveStakeTx.txOut.length ≤ stk.previousStakingOutputIdx.toNat := by
  unfold stkExpSig
  rw [Outcome.bind_panics, Outcome.index_panics]
  simp

/-- The library makes every signature that does not need the previous stake. -/
structure StrictlySigns (lib : BabylonLib) (sk : PrivateKey) (req : ParsedSigningRequest) :
    Prop where
  slashing : ∀ ek ∈ req.fpEncKeys, ∃ sig, lib.encSignTxWithOneScriptSpendInputStrict
    req.slashingTx req.stakingTx req.stakingOutputIdx req.slashingScript sk ek = .ok sig
  slashUnbonding : ∀ ek ∈ req.fpEncKeys, ∃ sig, lib.encSignTxWithOneScriptSpendInputStrict
    req.slashUnbondingTx req.unbondingTx 0 req.unbondingSlashingScript sk ek = .ok sig
  unbonding : ∃ sig, lib.signTxWithOneScriptSpendInputStrict req.unbondingTx req.stakingTx
    req.stakingOutputIdx req.unbondingScript sk = .ok sig

theorem strictlySigns_iff : StrictlySigns lib sk req ↔
    (∃ sigs, req.fpEncKeys.mapM (slashUnbondSig lib sk req) = .ok sigs) ∧
      ∃ sig, unbondSig lib sk req = .ok sig := by
  simp only [Outcome.exists_mapM_eq_ok, slashUnbondSig_eq_ok, unbondSig_eq_ok]
  constructor
  · rintro ⟨hslash, hslashUnbond, hunbond⟩
    refine ⟨fun ek hek => ?_, hunbond⟩
    obtain ⟨a, ha⟩ := hslash ek hek
    obtain ⟨b, hb⟩ := hslashUnbond ek hek
    exact ⟨(a, b), ha, hb⟩
  · rintro ⟨hboth, hunbond⟩
    refine ⟨fun ek hek => ?_, fun ek hek => ?_, hunbond⟩
    · obtain ⟨sigs, ha, -⟩ := hboth ek hek
      exact ⟨sigs.1, ha⟩
    · obtain ⟨sigs, -, hb⟩ := hboth ek hek
      exact ⟨sigs.2, hb⟩

/-- A response means that no signature failed. -/
theorem signWith_strictlySigns {resp : ParsedSigningResponse}
    (h : signWith lib sk req = .ok resp) :
    StrictlySigns lib sk req ∧ ∃ sig, stakeExpSigOf lib sk req = .ok sig := by
  obtain ⟨sigs, hsigs, -, -, hunbonding, hstkExp⟩ := signWith_parts h
  exact ⟨strictlySigns_iff.mpr ⟨⟨sigs, hsigs⟩, _, hunbonding⟩, _, hstkExp⟩

/-- The stake expansion names an output the previous transaction does not have. -/
def PrevOutputMissing (req : ParsedSigningRequest) : Prop :=
  ∃ stk, req.stakeExp = some stk ∧
    stk.previousActiveStakeTx.txOut.length ≤ stk.previousStakingOutputIdx.toNat

/-- Signing panics exactly when it gets as far as a previous output that is not there. -/
theorem signWith_panics : (signWith lib sk req).Panics ↔
    StrictlySigns lib sk req ∧ PrevOutputMissing req := by
  have hslash : ¬ (req.fpEncKeys.mapM (slashUnbondSig lib sk req)).Panics :=
    Outcome.mapM_not_panics (fun _ => by simp [slashUnbondSig, Outcome.bind_panics]) _
  have hunbond : ¬ (unbondSig lib sk req).Panics := by simp [unbondSig]
  have hexp : (stakeExpSigOf lib sk req).Panics ↔ PrevOutputMissing req := by
    unfold stakeExpSigOf PrevOutputMissing
    cases req.stakeExp with
    | none => simp
    | some stk => simp [Outcome.bind_panics, stkExpSig_panics]
  rw [strictlySigns_iff]
  simp [signWith, Outcome.bind_panics, hslash, hunbond, hexp, and_assoc]

theorem signWith_ne_diverged : signWith lib sk req ≠ .diverged := by
  have hslash : req.fpEncKeys.mapM (slashUnbondSig lib sk req) ≠ .diverged :=
    Outcome.mapM_ne_diverged (fun _ => by simp [slashUnbondSig, Outcome.bind_eq_diverged]) _
  have hexp : stakeExpSigOf lib sk req ≠ .diverged := by
    unfold stakeExpSigOf
    cases req.stakeExp <;> simp [stkExpSig, Outcome.bind_eq_diverged]
  simp [signWith, unbondSig, Outcome.bind_eq_diverged, hslash, hexp]

end

namespace SignerApp

variable {σ : Type} (s : SignerApp σ)

/-- Signing leaves the state as it is. -/
theorem signTransactions_apply (req : ParsedSigningRequest) (st : σ) :
    s.signTransactions req st =
      ((do signWith s.lib (← Outcome.ofExcept (s.pkr.privKey st)) req), st) := by
  unfold signTransactions
  rw [Go.bind_apply, Go.reads_apply]
  cases s.pkr.privKey st <;> rfl

theorem signTransactions_ne_diverged (req : ParsedSigningRequest) (st : σ) :
    (s.signTransactions req st).1 ≠ .diverged := by
  rw [signTransactions_apply]
  simp [Outcome.bind_eq_diverged, signWith_ne_diverged]

theorem signTransactions_eq_ok {req : ParsedSigningRequest} {resp : ParsedSigningResponse}
    {st st' : σ} : s.signTransactions req st = (.ok resp, st') ↔
      st = st' ∧ ∃ sk, s.pkr.privKey st = .ok sk ∧ signWith s.lib sk req = .ok resp := by
  simp [signTransactions_apply, Outcome.bind_eq_ok, Outcome.ofExcept_eq_ok, and_comm]

/-- The key is there, the other signatures are made, and the previous output is missing. -/
theorem signTransactions_panics {req : ParsedSigningRequest} {st : σ} :
    (s.signTransactions req st).1.Panics ↔
      ∃ sk, s.pkr.privKey st = .ok sk ∧ StrictlySigns s.lib sk req ∧ PrevOutputMissing req := by
  simp [signTransactions_apply, Outcome.bind_panics, Outcome.ofExcept_eq_ok, signWith_panics]

end SignerApp

end CovenantEmulator
