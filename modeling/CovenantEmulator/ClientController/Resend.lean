import CovenantEmulator.Golang.Slice
import CovenantEmulator.ClientController.SendLost

/-! The batches of the resend loop, with the messages removed in place. -/
namespace CovenantEmulator

open Golang

variable {μ τ : Type}

/-- `RemoveMsgAtIndex` on the slice: the messages after the index move down in its array. -/
def removeMsgInPlace (msgs : Slice μ) (index : Int) : Slice μ :=
  if h : index < 0 ∨ index ≥ msgs.len then msgs
  else (msgs.upTo index.toNat (by omega)).append
    (msgs.since (index.toNat + 1) (by omega)).toList

section
variable (dup : SdkError) (send : List μ → Go τ (Option RelayerTxResponse))

/-- The loop over the slice. -/
def resendLoopInPlace : Nat → Slice μ → Option String → Go (Net μ τ) TxResponse
  | 0, _, err => afterRetries dup err
  | retries + 1, msgs, err => do
    let res ← Go.attempt (reliablySendMsgs send msgs.toList)
    match res with
    | .error errSendMsg =>
      if contains errSendMsg "message index: " then
        match failedMessageIndex errSendMsg with
        | (_, false) => Go.fail errSendMsg
        | (failedIndex, true) =>
          resendLoopInPlace retries (removeMsgInPlace msgs failedIndex)
            (some (joinErrors err errSendMsg))
      else Go.fail errSendMsg
    | .ok none => pure ⟨"", []⟩
    | .ok (some res) => pure ⟨res.txHash, res.events⟩

/-- `reliablySendMsgsResendingOnMsgErr` on the slice. -/
def resendInPlace (maxRetiresBatchRemovingMsgs : UInt64) (msgs : Slice μ) :
    Go (Net μ τ) TxResponse :=
  resendLoopInPlace dup send (batchRetries msgs.toList maxRetiresBatchRemovingMsgs) msgs none

/-- A chain that answers every batch, as its state and the batch make it. -/
def answering (chain : List μ → τ → Except String (Option RelayerTxResponse) × τ)
    (msgs : List μ) : Go τ (Option RelayerTxResponse) := fun s =>
  (.ofExcept (chain msgs s).1, (chain msgs s).2)

end

section
variable {dup : SdkError} {send : List μ → Go τ (Option RelayerTxResponse)}

/-- Removing in place leaves the messages of the removal on lists. -/
theorem toList_removeMsgInPlace (msgs : Slice μ) (index : Int) :
    (removeMsgInPlace msgs index).toList = removeMsgAtIndex msgs.toList index := by
  unfold removeMsgInPlace removeMsgAtIndex
  by_cases h : index < 0 ∨ index ≥ msgs.len
  · simp [h]
  · simp [h, Slice.toList_append, Slice.toList_upTo, Slice.toList_since]

theorem resendLoopInPlace_eq (retries : Nat) (msgs : Slice μ) (err : Option String) :
    resendLoopInPlace dup send retries msgs err = resendLoop dup send retries msgs.toList err := by
  induction retries generalizing msgs err with
  | zero => rfl
  | succ retries ih =>
    unfold resendLoopInPlace resendLoop
    refine congrArg _ (funext fun res => ?_)
    rcases res with errSendMsg | _ | res
    · rcases hindex : failedMessageIndex errSendMsg with ⟨failedIndex, _ | _⟩
      · simp only [hindex]
      · simp only [hindex, ih, toList_removeMsgInPlace]
    · rfl
    · rfl

theorem resendInPlace_eq (max : UInt64) (msgs : Slice μ) :
    resendInPlace dup send max msgs = reliablySendMsgsResendingOnMsgErr dup send max msgs.toList :=
  resendLoopInPlace_eq _ _ _

end

/-- The batch that follows one whose error named the index. -/
def without (msgs : List μ) (i : Int) : List μ :=
  if i < msgs.length then msgs.eraseIdx i.toNat else msgs

/-- What the batches sent for `first` are, with the result of the call. -/
structure ResendsDown (first : List μ) (retries : ℕ) (out : Outcome TxResponse)
    (sent : List (Sent μ)) : Prop where
  starts : ∃ res, sent.head? = some ⟨first, res⟩
  removes : ∀ (j : ℕ) (s s' : Sent μ), sent[j]? = some s → sent[j + 1]? = some s' →
    ∃ e i, s.res = .error e ∧ NamesIndex e i ∧ s'.msgs = without s.msgs i
  sublist : ∀ s ∈ sent, s.msgs.Sublist first
  nonempty : ∀ s ∈ sent, s.msgs ≠ []
  bounded : sent.length ≤ retries
  delivers : ∀ r, out = .ok r → r.txHash ≠ "" →
    ∃ s res, sent.getLast? = some s ∧ s.res = .ok (some res) ∧ r = ⟨res.txHash, res.events⟩

section
variable {dup : SdkError}
  {chain : List μ → τ → Except String (Option RelayerTxResponse) × τ}
  {msgs : List μ} {e : String} {i : Int} {k : ℕ} {out : Outcome TxResponse}
  {sent : List (Sent μ)}

theorem removeMsgAtIndex_of_named (hi : NamesIndex e i) :
    removeMsgAtIndex msgs i = without msgs i := by
  have hnonneg := failedMessageIndex_nonneg hi.2
  unfold without
  by_cases hlt : i < msgs.length
  · rw [if_pos hlt, removeMsgAtIndex_eq hnonneg hlt]
  · rw [if_neg hlt, removeMsgAtIndex, if_pos (by omega)]

theorem without_sublist (msgs : List μ) (i : Int) : (without msgs i).Sublist msgs := by
  unfold without
  split
  · exact List.eraseIdx_sublist ..
  · exact List.Sublist.refl _

/-- One message at most is removed. -/
theorem length_le_without (msgs : List μ) (i : Int) :
    msgs.length ≤ (without msgs i).length + 1 := by
  unfold without
  split
  · rw [List.length_eraseIdx]
    split <;> omega
  · omega

/-- A call that ends with this send. -/
theorem resendsDown_single {res : Except String (Option RelayerTxResponse)} (hne : msgs ≠ [])
    (hout : ∀ r, out = .ok r → r.txHash ≠ "" →
      ∃ res', res = .ok (some res') ∧ r = ⟨res'.txHash, res'.events⟩) :
    ResendsDown msgs (k + 1) out [⟨msgs, res⟩] where
  starts := ⟨res, rfl⟩
  removes := by
    intro j s s' hs hs'
    simp at hs'
  sublist := by simp
  nonempty := by simpa using hne
  bounded := by simp
  delivers := by
    intro r hr hhash
    obtain ⟨res', hres, hr⟩ := hout r hr hhash
    exact ⟨_, res', rfl, hres, hr⟩

/-- A send whose error names an index, and the batches for what it leaves. -/
theorem ResendsDown.cons (hi : NamesIndex e i) (hne : msgs ≠ [])
    (h : ResendsDown (without msgs i) k out sent) :
    ResendsDown msgs (k + 1) out (⟨msgs, .error e⟩ :: sent) where
  starts := ⟨_, rfl⟩
  removes := by
    intro j s s' hs hs'
    cases j with
    | zero =>
      obtain ⟨res, hhead⟩ := h.starts
      have hnext : sent.head? = some s' := by simpa [List.head?_eq_getElem?] using hs'
      cases hhead.symm.trans hnext
      cases hs
      exact ⟨e, i, rfl, hi, rfl⟩
    | succ j => exact h.removes j s s' hs hs'
  sublist := by
    intro s hs
    rcases List.mem_cons.mp hs with rfl | hs
    · exact List.Sublist.refl _
    · exact (h.sublist s hs).trans (without_sublist msgs i)
  nonempty := by
    intro s hs
    rcases List.mem_cons.mp hs with rfl | hs
    · exact hne
    · exact h.nonempty s hs
  bounded := by
    have := h.bounded
    simp only [List.length_cons]
    omega
  delivers := by
    intro r hr hhash
    obtain ⟨s, res, hlast, hres⟩ := h.delivers r hr hhash
    refine ⟨s, res, ?_, hres⟩
    rw [List.getLast?_cons, hlast]
    rfl

theorem afterRetries_txHash {err : Option String} {n : Net μ τ} {r : TxResponse}
    (h : (afterRetries dup err n).1 = .ok r) : r.txHash = "" := by
  unfold afterRetries at h
  split at h
  · cases h
  · split at h
    · cases h
      rfl
    · cases h

theorem toTxResponse_of_hash {res : Option RelayerTxResponse}
    (h : (toTxResponse res).txHash ≠ "") :
    ∃ res', res = some res' ∧ toTxResponse res = ⟨res'.txHash, res'.events⟩ := by
  cases res with
  | none => exact (h rfl).elim
  | some res' => exact ⟨res', rfl, rfl⟩

/-- A send ends the call, or its error names an index and the loop goes on without that message. -/
theorem resendLoop_step (k : ℕ) (err : Option String) (n : Net μ τ) (hne : msgs ≠ []) :
    (∃ res, (resendLoop dup (answering chain) (k + 1) msgs err n).2.sent = n.sent ++ [⟨msgs, res⟩] ∧
      ResendsDown msgs (k + 1) (resendLoop dup (answering chain) (k + 1) msgs err n).1
        [⟨msgs, res⟩]) ∨
    ∃ e i c, NamesIndex e i ∧ resendLoop dup (answering chain) (k + 1) msgs err n =
      resendLoop dup (answering chain) k (without msgs i) (some (joinErrors err e))
        ⟨c, n.sent ++ [⟨msgs, .error e⟩]⟩ := by
  have hreturns : (answering chain msgs n.chain).1.Returns := Outcome.ofExcept_returns _
  rcases resendLoop_round k msgs err n with
    ⟨res, c, hrun⟩ | ⟨e, c, hrun⟩ | ⟨e, i, c, hi, hrun⟩ | ⟨o, c, hstuck, -, -⟩
  · rw [hrun]
    refine Or.inl ⟨_, rfl, resendsDown_single hne ?_⟩
    intro r hr hhash
    cases hr
    obtain ⟨res', rfl, hr⟩ := toTxResponse_of_hash hhash
    exact ⟨res', rfl, hr⟩
  · rw [hrun]
    refine Or.inl ⟨_, rfl, resendsDown_single hne ?_⟩
    intro r hr
    cases hr
  · refine Or.inr ⟨e, i, c, hi, ?_⟩
    rw [hrun, removeMsgAtIndex_of_named hi]
  · exact (hstuck hreturns).elim

/-- Fewer retries than messages are left after each send, so no batch is empty. -/
theorem resendLoop_resendsDown (err : Option String) (n : Net μ τ) (hk : k < msgs.length) :
    ∃ new, (resendLoop dup (answering chain) (k + 1) msgs err n).2.sent = n.sent ++ new ∧
      ResendsDown msgs (k + 1) (resendLoop dup (answering chain) (k + 1) msgs err n).1 new := by
  induction k generalizing msgs err n with
  | zero =>
    have hne : msgs ≠ [] := List.ne_nil_of_length_pos hk
    rcases resendLoop_step 0 err n hne with ⟨res, hsent, hdown⟩ | ⟨e, i, c, hi, hrun⟩
    · exact ⟨_, hsent, hdown⟩
    · rw [hrun]
      refine ⟨[⟨msgs, .error e⟩], ?_, resendsDown_single hne ?_⟩
      · rw [resendLoop, afterRetries_state]
      · intro r hr hhash
        exact (hhash (afterRetries_txHash hr)).elim
  | succ k ih =>
    have hne : msgs ≠ [] := List.ne_nil_of_length_pos (by omega)
    rcases resendLoop_step (k + 1) err n hne with ⟨res, hsent, hdown⟩ | ⟨e, i, c, hi, hrun⟩
    · exact ⟨_, hsent, hdown⟩
    · have hleft : k < (without msgs i).length := by
        have := length_le_without msgs i
        omega
      obtain ⟨new, hsent, hdown⟩ := ih (some (joinErrors err e))
        ⟨c, n.sent ++ [⟨msgs, .error e⟩]⟩ hleft
      rw [hrun]
      exact ⟨⟨msgs, .error e⟩ :: new, by simp [hsent], hdown.cons hi hne⟩

theorem batchRetries_bounds (msgs : List μ) (max : UInt64) (hne : msgs ≠ []) :
    0 < batchRetries msgs max ∧ batchRetries msgs max ≤ msgs.length := by
  have hpos := List.length_pos_of_ne_nil hne
  rcases batchRetries_cases msgs max with h | ⟨h0, hlt, h⟩ <;> omega

/-- The batches the call sends, whatever the chain answers. -/
theorem resendInPlace_resendsDown (dup : SdkError)
    (chain : List μ → τ → Except String (Option RelayerTxResponse) × τ) (max : UInt64)
    (msgs : Slice μ) (n : Net μ τ) (hne : msgs.toList ≠ []) :
    ∃ new, (resendInPlace dup (answering chain) max msgs n).2.sent = n.sent ++ new ∧
      ResendsDown msgs.toList (batchRetries msgs.toList max)
        (resendInPlace dup (answering chain) max msgs n).1 new := by
  obtain ⟨hpos, hle⟩ := batchRetries_bounds msgs.toList max hne
  obtain ⟨k, hk⟩ : ∃ k, batchRetries msgs.toList max = k + 1 := ⟨_, (Nat.sub_add_cancel hpos).symm⟩
  rw [resendInPlace_eq, reliablySendMsgsResendingOnMsgErr, hk]
  exact resendLoop_resendsDown none n (by omega)

end

namespace Sample

/-- The chain rejects the first message it sees and then takes the batch. -/
def rejectsOnce (_ : List String) (rejected : Bool) :
    Except String (Option RelayerTxResponse) × Bool :=
  if rejected then (.ok (some ⟨"A1", []⟩), true) else (.error duplicateError, true)

theorem rejectsOnce_resendsDown :
    ∃ new, (resendInPlace duplicated (answering rejectsOnce) 0 (.ofList ["a", "b"])
        ⟨false, []⟩).2.sent = [] ++ new ∧
      ResendsDown ["a", "b"] 2
        (resendInPlace duplicated (answering rejectsOnce) 0 (.ofList ["a", "b"])
          ⟨false, []⟩).1 new :=
  resendInPlace_resendsDown duplicated rejectsOnce 0 (.ofList ["a", "b"]) ⟨false, []⟩ (by simp)

end Sample

end CovenantEmulator
