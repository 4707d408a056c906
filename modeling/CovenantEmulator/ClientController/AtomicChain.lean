import CovenantEmulator.ClientController.Babylon
import CovenantEmulator.ClientController.MessageIndex
import CovenantEmulator.Ledger.BestEffort
import CovenantEmulator.Sample

/-! The resend loop against a chain that executes a transaction all or none: what it leaves on the
chain is what executing each message on its own leaves there. -/
namespace CovenantEmulator

open Golang Ledger

/-- A chain whose transactions are atomic, and whose error for a transaction names the message
that failed and says why. -/
structure AtomicChain (μ τ : Type) where
  exec : μ → τ → Except String τ
  respond : List μ → τ → RelayerTxResponse
  /-- What the error says before it names the message. -/
  before : String
  plain : ∀ i ds, ¬ OccursAt before.toList i ds

namespace AtomicChain

variable {μ τ : Type} (c : AtomicChain μ τ)

/-- The error of a transaction whose message at this position failed. -/
def errorText (failed : ℕ × String) : String :=
  c.before ++ "message index: " ++ toString failed.1 ++ (": " ++ failed.2)

def send (msgs : List μ) : Go τ (Option RelayerTxResponse) := fun s =>
  match execAll c.exec msgs s with
  | .ok s' => (.ok (some (c.respond msgs s)), s')
  | .error failed => (.error (c.errorText failed), s)

/-- The errors of these refusals, joined to the ones before. -/
def joined (err : Option String) (refused : List (ℕ × String)) : Option String :=
  refused.foldl (fun err failed => some (joinErrors err (c.errorText failed))) err

/-- The batch that is delivered, with the response to it. -/
def delivery (msgs : List μ) (s : τ) : Sent μ :=
  ⟨executed c.exec msgs s, .ok (some (c.respond (executed c.exec msgs s) s))⟩

end AtomicChain

section
variable {μ τ : Type} {dup : SdkError} {c : AtomicChain μ τ} {msgs : List μ}
  {err : Option String} {k : ℕ}
  {n : Net μ τ} {refused : List (ℕ × String)}

/-- The loop reads back the position the chain wrote. -/
theorem AtomicChain.errorText_names (c : AtomicChain μ τ) {i : ℕ} (e : String)
    (hi : i < 2 ^ 63) : NamesIndex (c.errorText (i, e)) i := by
  constructor
  · refine decide_eq_true ⟨c.before.toList, (toString i ++ (": " ++ e)).toList, ?_⟩
    simp [AtomicChain.errorText, String.toList_append]
  · refine failedMessageIndex_eq_iff.mpr ⟨i, rfl, readsIndex_sdk c.plain hi ?_⟩
    intro d hd
    obtain rfl : ':' = d := by simpa [String.toList_append] using hd
    decide

theorem errorContained_joined (err : Option String) : (∃ e, c.joined err refused = some e ∧
    errorContained e (expectedErrors dup) = true) ↔
      (∃ e, err = some e ∧ errorContained e (expectedErrors dup) = true) ∨
        ∃ failed ∈ refused, errorContained (c.errorText failed) (expectedErrors dup) = true := by
  induction refused generalizing err with
  | nil => simp [AtomicChain.joined]
  | cons failed refused ih =>
    rw [AtomicChain.joined, List.foldl_cons]
    refine (ih (some (joinErrors err (c.errorText failed)))).trans ?_
    simp only [Option.some.injEq, exists_eq_left', errorContained_joinErrors, List.mem_cons,
      or_assoc, exists_eq_or_imp]

/-- One induction over the rounds: each removes the message that fails first, and the rest of the
batch behaves as before. -/
theorem resendLoop_atomic (c : AtomicChain μ τ) (k : ℕ) (err : Option String) (n : Net μ τ)
    (hlen : msgs.length < 2 ^ 63) :
    ∃ lost, lost.length = min (refusals c.exec msgs n.chain).length k ∧
      resendLoop dup c.send k msgs err n =
        if (refusals c.exec msgs n.chain).length < k then
          (.ok (toTxResponse (some (c.respond (executed c.exec msgs n.chain) n.chain))),
            ⟨bestEffort c.exec msgs n.chain, n.sent ++ lost ++ [c.delivery msgs n.chain]⟩)
        else afterRetries dup (c.joined err ((refusals c.exec msgs n.chain).take k))
          ⟨n.chain, n.sent ++ lost⟩ := by
  induction k generalizing msgs err n with
  | zero => exact ⟨[], by simp, by simp [resendLoop, AtomicChain.joined]⟩
  | succ k ih =>
    cases hrefused : refusals c.exec msgs n.chain with
    | nil =>
      obtain ⟨hall, hexecuted⟩ := execAll_of_refusals_nil hrefused
      have hsend : c.send msgs n.chain =
          (.ok (some (c.respond msgs n.chain)), bestEffort c.exec msgs n.chain) := by
        simp only [AtomicChain.send, hall]
      refine ⟨[], by simp, ?_⟩
      rw [resendLoop_of_ok k err hsend, if_pos (by simp), AtomicChain.delivery, hexecuted,
        List.append_nil]
    | cons failed rest =>
      obtain ⟨i, e⟩ := failed
      obtain ⟨hall, hlt, hrest, hbest, hexecuted⟩ := execAll_of_refusals_cons hrefused
      have hsend : c.send msgs n.chain = (.error (c.errorText (i, e)), n.chain) := by
        simp only [AtomicChain.send, hall]
      have hshort : (msgs.eraseIdx i).length < 2 ^ 63 :=
        Nat.lt_of_le_of_lt (List.length_eraseIdx_le ..) hlen
      obtain ⟨lost, hlost, hrun⟩ := ih (some (joinErrors err (c.errorText (i, e))))
        ⟨n.chain, n.sent ++ [⟨msgs, .error (c.errorText (i, e))⟩]⟩ hshort
      refine ⟨⟨msgs, .error (c.errorText (i, e))⟩ :: lost, ?_, ?_⟩
      · rw [List.length_cons, hlost, hrest, List.length_cons]
        omega
      · rw [resendLoop_of_named hsend (c.errorText_names e (by omega)),
          removeMsgAtIndex_eq_eraseIdx, hrun]
        simp only [AtomicChain.delivery, hrest, hbest, hexecuted, List.length_cons,
          Nat.add_lt_add_iff_right, List.take_succ_cons, List.append_assoc, List.cons_append,
          List.nil_append]
        rfl

theorem afterRetries_ends (err : Option String) (n : Net μ τ) :
    (afterRetries dup err n).1.Returns := by
  unfold afterRetries
  split
  · trivial
  · split <;> trivial

theorem afterRetries_returns : (∃ resp, (afterRetries dup err n).1 = .ok resp) ↔
    ∃ e, err = some e ∧ errorContained e (expectedErrors dup) = true := by
  constructor
  · rintro ⟨resp, h⟩
    exact (afterRetries_ok (Prod.ext h rfl)).2
  · rintro ⟨e, rfl, he⟩
    exact ⟨⟨"", []⟩, by simp [afterRetries, he]⟩

theorem batchRetries_le (msgs : List μ) (max : UInt64) :
    batchRetries msgs max ≤ msgs.length := by
  rcases batchRetries_cases msgs max with h | ⟨-, hlt, h⟩ <;> omega

end

section
variable {μ τ : Type}

/-- What a submission leaves behind: the chain, the number of transactions sent, the last one when
the batch got through, and whether the caller hears of a success. -/
structure SubmitsBestEffort (dup : SdkError) (c : AtomicChain μ τ) (tries : ℕ) (msgs : List μ)
    (n : Net μ τ) (run : Outcome TxResponse × Net μ τ) : Prop where
  ends : run.1.Returns
  chain : run.2.chain =
    if tries = msgs.length ∨ (refusals c.exec msgs n.chain).length < tries then
      bestEffort c.exec msgs n.chain
    else n.chain
  sends : run.2.sent.length =
    n.sent.length + min ((refusals c.exec msgs n.chain).length + 1) tries
  last : (refusals c.exec msgs n.chain).length < tries →
    run.2.sent.getLast? = some (c.delivery msgs n.chain)
  returns : (∃ resp, run.1 = .ok resp) ↔
    (refusals c.exec msgs n.chain).length < tries ∨
      ∃ failed ∈ (refusals c.exec msgs n.chain).take tries,
        errorContained (c.errorText failed) (expectedErrors dup) = true

theorem resend_bestEffort (dup : SdkError) (c : AtomicChain μ τ) (max : UInt64) {msgs : List μ}
    (hlen : msgs.length < 2 ^ 63) (n : Net μ τ) :
    SubmitsBestEffort dup c (batchRetries msgs max) msgs n
      (reliablySendMsgsResendingOnMsgErr dup c.send max msgs n) := by
  unfold reliablySendMsgsResendingOnMsgErr
  have htries := batchRetries_le msgs max
  generalize batchRetries msgs max = tries at htries ⊢
  obtain ⟨lost, hlost, hrun⟩ := resendLoop_atomic c tries none n hlen
  rw [hrun]
  by_cases hfew : (refusals c.exec msgs n.chain).length < tries
  · rw [if_pos hfew]
    refine ⟨trivial, by rw [if_pos (.inr hfew)], ?_, by simp, by simp [hfew]⟩
    simp only [List.length_append, List.length_singleton, hlost]
    omega
  · rw [if_neg hfew]
    refine ⟨afterRetries_ends _ _, ?_, ?_, fun h => (hfew h).elim, ?_⟩
    · rw [afterRetries_state]
      by_cases hall : tries = msgs.length
      · -- As many refusals as messages: best effort does nothing either.
        have hcount := length_executed c.exec msgs n.chain
        have hnone : executed c.exec msgs n.chain = [] :=
          List.length_eq_zero_iff.mp (by omega)
        rw [if_pos (.inl hall), bestEffort_of_executed_nil hnone]
      · rw [if_neg (by simp [hall, hfew])]
    · simp only [afterRetries_state, List.length_append, hlost]
      omega
    · rw [afterRetries_returns, errorContained_joined]
      simp [hfew]

/-- A submission executes each message that the chain takes on its own, in the order of the batch,
unless at least as many messages fail as there are tries; then it executes none. -/
theorem submitCovenantSigs_bestEffort (bc : BabylonController τ)
    (c : AtomicChain MsgAddCovenantSigs τ) (hsend : bc.bbnClient.reliablySendMsgs = c.send)
    (covSigs : List CovenantSigs) (hlen : covSigs.length < 2 ^ 63)
    (n : Net MsgAddCovenantSigs τ) :
    SubmitsBestEffort bc.errDuplicatedCovenantSig c
      (batchRetries (covSigs.map bc.msgAddCovenantSigs) bc.maxRetiresBatchRemovingMsgs)
      (covSigs.map bc.msgAddCovenantSigs) n (bc.submitCovenantSigs covSigs n) := by
  rw [BabylonController.submitCovenantSigs_eq, hsend]
  exact resend_bestEffort _ c _ (by simpa using hlen) n

end

namespace Sample

theorem executing_plain (i : ℕ) (ds : List Char) :
    ¬ OccursAt "failed to execute message; ".toList i ds :=
  fun h => absurd h.contains (by decide)

/-- A chain that takes one message for each staking transaction. -/
def onePerTx : AtomicChain MsgAddCovenantSigs (List String) where
  exec m signed :=
    if m.stakingTxHash ∈ signed then .error "the covenant signature is already submitted"
    else .ok (signed ++ [m.stakingTxHash])
  respond _ _ := ⟨"A1", []⟩
  before := "failed to execute message; "
  plain := executing_plain

/-- Messages are all it is asked for. -/
def onePerTxController : BabylonController (List String) where
  lib := lib
  bbnClient :=
    { btcCheckpointParams := Go.fail "not served"
      btcStakingParamsByVersion := fun _ => Go.fail "not served"
      btcDelegation := fun _ => Go.fail "not served"
      btcDelegations := fun _ _ => Go.fail "not served"
      reliablySendMsgs := onePerTx.send }
  keyAddress := .ok "bbn1covenant"
  txSigner := "bbn1covenant"
  keyed := rfl
  errDuplicatedCovenantSig := duplicated
  maxRetiresBatchRemovingMsgs := 0

def entryOf (hash : Hash) : CovenantSigs := ⟨covenantKey, hash, [], ⟨[]⟩, [], none⟩

/-- The second of two equal entries is removed, and the third gets through. -/
theorem duplicate_in_batch :
    SubmitsBestEffort duplicated onePerTx 3
      ([entryOf 1, entryOf 1, entryOf 2].map onePerTxController.msgAddCovenantSigs) ⟨[], []⟩
      (onePerTxController.submitCovenantSigs [entryOf 1, entryOf 1, entryOf 2] ⟨[], []⟩) :=
  submitCovenantSigs_bestEffort onePerTxController onePerTx rfl
    [entryOf 1, entryOf 1, entryOf 2] (by decide) ⟨[], []⟩

end Sample

end CovenantEmulator
