import CovenantEmulator.Sample.Remote

/-! Which requests the signer answers: parsing and signing any request whatsoever. -/
namespace CovenantEmulator

open Golang

section
variable {σ : Type} (s : SignerApp σ)

/-- `ParseSigningRequest`, then `SignerApp.SignTransactions`. -/
def parseAndSign (req : SignTransactionsRequest) : Go σ ParsedSigningResponse := do
  let parsedRequest ← Go.lift (parseSigningRequest s.lib req)
  s.signTransactions parsedRequest

/-- Whenever signing gets as far as the stake expansion, the previous output is there. -/
def OutputsInRange (lib : BabylonLib) (sk : PrivateKey) (req : SignTransactionsRequest) : Prop :=
  ∀ parsed stakeExp, parseSigningRequest lib req = .ok parsed → StrictlySigns lib sk parsed →
    parsed.stakeExp = some stakeExp →
    stakeExp.previousStakingOutputIdx.toNat < stakeExp.previousActiveStakeTx.txOut.length

end

section
variable {σ : Type} {s : SignerApp σ} {st : σ} {sk : PrivateKey} {req : SignTransactionsRequest}

theorem outputsInRange_iff {lib : BabylonLib} : OutputsInRange lib sk req ↔
    ∀ parsed, parseSigningRequest lib req = .ok parsed →
      ¬ (StrictlySigns lib sk parsed ∧ PrevOutputMissing parsed) := by
  constructor
  · rintro h parsed hparse ⟨hsigns, stakeExp, hexp, hmissing⟩
    have hlt := h parsed stakeExp hparse hsigns hexp
    omega
  · intro h parsed stakeExp hparse hsigns hexp
    by_contra hlt
    exact h parsed hparse ⟨hsigns, stakeExp, hexp, by omega⟩

theorem parseAndSign_panics (hkey : s.pkr.privKey st = .ok sk) :
    (parseAndSign s req st).1.Panics ↔ ∃ parsed, parseSigningRequest s.lib req = .ok parsed ∧
      StrictlySigns s.lib sk parsed ∧ PrevOutputMissing parsed := by
  have hparse : ¬ (parseSigningRequest s.lib req).Panics :=
    (Outcome.returns_iff.mp (parseSigningRequest_returns req)).1
  simp [parseAndSign, Go.bind_panics, hparse, s.signTransactions_panics, hkey]

theorem parseAndSign_ne_diverged : (parseAndSign s req st).1 ≠ .diverged := by
  have hparse : parseSigningRequest s.lib req ≠ .diverged :=
    (Outcome.returns_iff.mp (parseSigningRequest_returns req)).2
  simp [parseAndSign, Go.bind_eq_diverged, hparse, s.signTransactions_ne_diverged]

/-- With the key unlocked, a request is answered unless its stake expansion names an output that
the previous transaction does not have and nothing failed before. -/
theorem parseAndSign_returns_iff (hkey : s.pkr.privKey st = .ok sk)
    (req : SignTransactionsRequest) :
    (parseAndSign s req st).1.Returns ↔ OutputsInRange s.lib sk req := by
  rw [Outcome.returns_iff, parseAndSign_panics hkey, outputsInRange_iff]
  constructor
  · rintro ⟨hnone, -⟩ parsed hparse ⟨hsigns, hmissing⟩
    exact hnone ⟨parsed, hparse, hsigns, hmissing⟩
  · intro h
    refine ⟨?_, parseAndSign_ne_diverged⟩
    rintro ⟨parsed, hparse, hboth⟩
    exact h parsed hparse hboth

end

namespace Sample

/-- The signer application of the sample server. -/
def app : SignerApp Unit := (remote plainWire (toResponse (signatures none))).srv.handler.s

theorem parse_expansion {idx : UInt32} : parseSigningRequest lib (expansionWire idx) =
    .ok (covenantRequestToSignerRequest (stakeExpRequest idx)) :=
  parseSigningRequest_of_sent (survives_request (by decide) (by simp))
    (show slashingLeaf staker providers committee 2 ≠ [] by decide)
    (show unbondingLeaf staker committee 2 ≠ [] by decide)
    (show slashingLeaf staker providers committee 2 ≠ [] by decide)
    (toSignTransactionRequest_expansion idx)

theorem app_key : app.pkr.privKey () = .ok signingKey := rfl

/-- The request for the expansion over output 0 of the previous stake. -/
theorem expansion_request_returns :
    app.pkr.privKey () = .ok signingKey ∧
      parseSigningRequest lib (expansionWire 0) =
        .ok (covenantRequestToSignerRequest (stakeExpRequest 0)) ∧
      (parseAndSign app (expansionWire 0) ()).1.Returns := by
  refine ⟨app_key, parse_expansion, ?_⟩
  rw [parseAndSign_returns_iff app_key (expansionWire 0)]
  intro parsed stakeExp hparse _ hexp
  have hparsed : parsed = covenantRequestToSignerRequest (stakeExpRequest 0) :=
    Outcome.ok.inj (hparse.symm.trans parse_expansion)
  rw [hparsed] at hexp
  cases hexp
  decide

/-- The signer panics on a request over output 7 of the previous stake, which has two. -/
theorem missing_output_panics : (parseAndSign app (expansionWire 7) ()).1.Panics := by
  rw [parseAndSign_panics app_key]
  refine ⟨_, parse_expansion, strictlySigns_iff.mpr ⟨⟨_, rfl⟩, _, rfl⟩, ?_⟩
  exact ⟨_, rfl, by decide⟩

end Sample

end CovenantEmulator
