import CovenantEmulator.Golang.Resumption
import CovenantEmulator.Signer.App

/-! The keyring retriever with its shared key object, and signing as a sequence of reads of it. -/
namespace CovenantEmulator

open Golang

/-- What `Zero` leaves of a key. -/
def PrivateKey.zero : PrivateKey := ⟨List.replicate 32 0⟩

/-- `GetChainPrivKey` on the answer of the keyring; a record of another key type is `none`. -/
def getChainPrivKey (answer : Except String (Option PrivateKey)) : Except String PrivateKey :=
  match answer with
  | .error e => .error ("failed to get private key: " ++ e)
  | .ok none => .error "unsupported key type in keyring"
  | .ok (some sk) => .ok sk

/-- The key objects made so far, by address, and the reference to the one in use. -/
structure KeyringRetriever where
  objects : List PrivateKey
  btcecPrivKey : Option Nat
  valid : ∀ p ∈ btcecPrivKey, p < objects.length

namespace KeyringRetriever

variable (k : KeyringRetriever)

/-- `NewCosmosKeyringRetriever`. -/
def new : KeyringRetriever := ⟨[], none, by simp⟩

/-- `PrivKey` returns the reference, not a copy. -/
def privKey : Except String Nat :=
  match k.btcecPrivKey with
  | none => .error "private key is not unlocked. Please call Unlock() first"
  | some p => .ok p

/-- What the object holds now. References are never freed. -/
def read (p : Nat) : PrivateKey := k.objects.getD p .zero

/-- `Unlock`, with the keyring's answer to the passphrase. -/
def unlock (answer : Except String (Option PrivateKey)) : Except String Unit × KeyringRetriever :=
  match k.btcecPrivKey with
  | some _ => (.ok (), k)
  | none =>
    match getChainPrivKey answer with
    | .error e => (.error ("failed to unlock the key ring: " ++ e), k)
    | .ok sk => (.ok (), ⟨k.objects ++ [sk], some k.objects.length, by simp⟩)

/-- `Lock` overwrites the object itself. -/
def lock : KeyringRetriever :=
  match k.btcecPrivKey with
  | none => k
  | some p => ⟨k.objects.set p .zero, none, by simp⟩

/-- Each object holds `sk` or zeros, and the one in use holds `sk`. -/
structure Holds (sk : PrivateKey) : Prop where
  object : ∀ p, k.read p = sk ∨ k.read p = .zero
  live : ∀ p, k.btcecPrivKey = some p → k.read p = sk

variable {k} {sk : PrivateKey}

theorem holds_new : new.Holds sk where
  object _ := .inr rfl
  live p hp := by cases hp

theorem privKey_of_none (h : k.btcecPrivKey = none) :
    k.privKey = .error "private key is not unlocked. Please call Unlock() first" := by
  rw [privKey, h]

theorem Holds.unlock (h : k.Holds sk) {answer : Except String (Option PrivateKey)}
    (hanswer : ∀ sk', answer = .ok (some sk') → sk' = sk) : (k.unlock answer).2.Holds sk := by
  unfold KeyringRetriever.unlock
  split
  · exact h
  · split
    · exact h
    · rename_i sk' hsk'
      obtain rfl : sk' = sk := by
        unfold getChainPrivKey at hsk'
        split at hsk' <;> cases hsk'
        exact hanswer _ rfl
      refine ⟨fun p => ?_, ?_⟩
      · rcases Nat.lt_trichotomy p k.objects.length with hlt | rfl | hgt
        · simpa [read, List.getElem?_append_left hlt] using h.object p
        · left
          simp [read]
        · right
          simp [read, List.getElem?_eq_none (l := k.objects ++ [sk']) (i := p) (by simp; omega)]
      · rintro p ⟨rfl⟩
        simp [read]

theorem Holds.lock (h : k.Holds sk) : k.lock.Holds sk := by
  unfold KeyringRetriever.lock
  split
  · exact h
  · rename_i p hp
    refine ⟨fun p' => ?_, by simp⟩
    by_cases hpp : p = p'
    · subst hpp
      right
      have hlt := k.valid p hp
      simp [read, hlt]
    · simpa [read, List.getElem?_set_ne hpp] using h.object p'

theorem lock_btcecPrivKey (k : KeyringRetriever) : k.lock.btcecPrivKey = none := by
  unfold KeyringRetriever.lock
  split
  · assumption
  · rfl

/-- Only a successful `Unlock` leaves the locked state. -/
theorem unlock_btcecPrivKey {answer : Except String (Option PrivateKey)}
    (h : k.btcecPrivKey = none) (hfail : (k.unlock answer).1 ≠ .ok ()) :
    (k.unlock answer).2.btcecPrivKey = none := by
  unfold KeyringRetriever.unlock at hfail ⊢
  rw [h] at hfail ⊢
  dsimp only at hfail ⊢
  split
  · exact h
  · rename_i sk hsk
    rw [hsk] at hfail
    exact (hfail rfl).elim

theorem unlock_of_ok {answer : Except String (Option PrivateKey)}
    (h : (k.unlock answer).1 = .ok ()) : (k.unlock answer).2.btcecPrivKey ≠ none := by
  unfold KeyringRetriever.unlock at h ⊢
  split
  · rename_i p hp
    simp [hp]
  · rename_i hnone
    rw [hnone] at h
    dsimp only at h
    split
    · rename_i e he
      rw [he] at h
      cases h
    · simp

/-- A failed `Unlock` changes nothing. -/
theorem unlock_of_error {answer : Except String (Option PrivateKey)} {e : String}
    (h : (k.unlock answer).1 = .error e) : (k.unlock answer).2 = k := by
  unfold KeyringRetriever.unlock at h ⊢
  split
  · rfl
  · rename_i hnone
    rw [hnone] at h
    dsimp only at h
    split
    · rfl
    · rename_i sk hsk
      rw [hsk] at h
      cases h

end KeyringRetriever

/-- The retriever behind the interface of the signer application. -/
def keyringRetriever (keyring : String → Except String (Option PrivateKey)) :
    PrivKeyRetriever KeyringRetriever where
  privKey k := k.privKey.map k.read
  unlock passphrase := fun k =>
    (.ofExcept (k.unlock (keyring passphrase)).1, (k.unlock (keyring passphrase)).2)
  lock := Go.modify KeyringRetriever.lock

section
variable (lib : BabylonLib) (signingTxReq : ParsedSigningRequest)

/-- `slashUnbondSig`, which reads the key for each of its two signatures. -/
def slashUnbondSteps (fpEncKey : EncryptionKey) :
    Resumption PrivateKey (AdaptorSignature × AdaptorSignature) := do
  let slashSig ← .reading fun covenantPrivKey =>
    (Outcome.ofExcept (lib.encSignTxWithOneScriptSpendInputStrict
      signingTxReq.slashingTx signingTxReq.stakingTx signingTxReq.stakingOutputIdx
      signingTxReq.slashingScript covenantPrivKey fpEncKey)).wrap
        ("failed to sign adaptor slash signature with finality provider public key " ++
          textOfBytes fpEncKey.toBytes ++ ": " ++ ·)
  let slashUnbondingSig ← .reading fun covenantPrivKey =>
    (Outcome.ofExcept (lib.encSignTxWithOneScriptSpendInputStrict
      signingTxReq.slashUnbondingTx signingTxReq.unbondingTx 0
      signingTxReq.unbondingSlashingScript covenantPrivKey fpEncKey)).wrap
        ("failed to sign adaptor slash unbonding signature with finality provider public key " ++
          textOfBytes fpEncKey.toBytes ++ ": " ++ ·)
  pure (slashSig, slashUnbondingSig)

/-- `stkExpSig`: the previous output is read before the key. -/
def stkExpSteps (stakeExp : ParsedSigningRequestStkExp) : Resumption PrivateKey Signature := do
  let previousOutput ← .done
    (.index stakeExp.previousActiveStakeTx.txOut stakeExp.previousStakingOutputIdx.toNat)
  .reading fun covenantPrivKey =>
    (Outcome.ofExcept (lib.signTxForFirstScriptSpendWithTwoInputsFromScript
      signingTxReq.stakingTx previousOutput stakeExp.otherFundingOutput covenantPrivKey
      stakeExp.previousActiveStakeUnbondingScript)).wrap
        ("failed to sign spend of previous stake " ++
          lib.hashString (lib.txHash stakeExp.previousActiveStakeTx) ++
          " with stake expansion tx " ++ lib.hashString (lib.txHash signingTxReq.stakingTx) ++
          ": " ++ ·)

def stakeExpSteps : Resumption PrivateKey (Option Signature) :=
  match signingTxReq.stakeExp with
  | none => pure none
  | some stakeExp => do
    let sig ← stkExpSteps lib signingTxReq stakeExp
    pure (some sig)

/-- `SignTransactions` after its call of `PrivKey`, one step for each signature. -/
def signSteps : Resumption PrivateKey ParsedSigningResponse := do
  let sigs ← signingTxReq.fpEncKeys.mapM (slashUnbondSteps lib signingTxReq)
  let unbondingSig ← .reading fun covenantPrivKey => unbondSig lib covenantPrivKey signingTxReq
  let stakeExpSig ← stakeExpSteps lib signingTxReq
  pure
    { slashAdaptorSigs := sigs.map fun s => s.1.mustMarshal
      unbondingSig := unbondingSig
      slashUnbondingAdaptorSigs := sigs.map fun s => s.2.mustMarshal
      stakeExpSig := stakeExpSig }

end

/-- The signing primitives refuse a key of zeros. -/
structure RejectsZero (lib : BabylonLib) : Prop where
  encSign : ∀ tx funding idx script ek, ∃ e,
    lib.encSignTxWithOneScriptSpendInputStrict tx funding idx script .zero ek = .error e
  sign : ∀ tx funding idx script, ∃ e,
    lib.signTxWithOneScriptSpendInputStrict tx funding idx script .zero = .error e
  signStkExp : ∀ tx first second script, ∃ e,
    lib.signTxForFirstScriptSpendWithTwoInputsFromScript tx first second .zero script = .error e

section
variable {lib : BabylonLib} {req : ParsedSigningRequest} {sk : PrivateKey}

/-- With one key throughout, the steps are the signing of the application. -/
theorem run_signSteps : (signSteps lib req).run sk = signWith lib sk req := by
  have hslash : ∀ ek, (slashUnbondSteps lib req ek).run sk = slashUnbondSig lib sk req ek := by
    intro ek
    simp only [slashUnbondSteps, slashUnbondSig, Resumption.run_bind, Resumption.run_reading,
      Resumption.run_pure, Outcome.pure_eq]
  have hexp : (stakeExpSteps lib req).run sk = stakeExpSigOf lib sk req := by
    unfold stakeExpSteps stakeExpSigOf
    cases req.stakeExp with
    | none => rfl
    | some stk =>
      simp only [stkExpSteps, stkExpSig, Resumption.run_bind, Resumption.run_reading,
        Resumption.run_done, Resumption.run_pure, Outcome.pure_eq]
  simp only [signSteps, signWith, Resumption.run_bind, Resumption.run_mapM,
    Resumption.run_reading, Resumption.run_pure, Outcome.pure_eq, hslash, hexp]

/-- A request that nothing interrupts is the one of the application over the retriever. -/
theorem signTransactions_keyring (keyring : String → Except String (Option PrivateKey))
    (k : KeyringRetriever) :
    SignerApp.signTransactions ⟨lib, keyringRetriever keyring⟩ req k =
      ((do (signSteps lib req).run (k.read (← Outcome.ofExcept k.privKey))), k) := by
  rw [SignerApp.signTransactions_apply]
  simp only [keyringRetriever, run_signSteps]
  cases k.privKey <;> rfl

theorem wrap_ofExcept_error {α : Type} {x : Except String α} {f : String → String}
    (h : ∃ e, x = .error e) : ∃ e, (Outcome.ofExcept x).wrap f = .error e := by
  obtain ⟨e, rfl⟩ := h
  exact ⟨f e, rfl⟩

/-- Every step on a key of zeros ends the request with an error. -/
theorem failsOn_signSteps (h : RejectsZero lib) : (signSteps lib req).FailsOn .zero := by
  have hread : ∀ {α : Type} {f : PrivateKey → Except String α} {g : String → String},
      (∃ e, f .zero = .error e) →
        (Resumption.reading fun sk => (Outcome.ofExcept (f sk)).wrap g).FailsOn .zero := by
    intro α f g hf
    obtain ⟨e, he⟩ := wrap_ofExcept_error (f := g) hf
    exact Resumption.failsOn_reading he
  refine Resumption.FailsOn.bind (.mapM (fun ek => ?_) _) fun sigs => ?_
  · refine (hread (h.encSign _ _ _ _ ek)).bind fun _ => ?_
    exact (hread (h.encSign _ _ _ _ ek)).bind fun _ => trivial
  · refine (hread (h.sign _ _ _ _)).bind fun _ => Resumption.FailsOn.bind ?_ fun _ => trivial
    unfold stakeExpSteps
    split
    · trivial
    · refine Resumption.FailsOn.bind (Resumption.FailsOn.bind trivial fun _ => ?_) fun _ => trivial
      exact hread (h.signStkExp _ _ _ _)

end

end CovenantEmulator
