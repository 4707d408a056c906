import CovenantEmulator.ClientController.Send

/-! Which messages a successful send may have lost. -/
namespace CovenantEmulator

open Golang

variable {μ τ : Type} {dup : SdkError} {send : List μ → Go τ (Option RelayerTxResponse)}
  {msgs : List μ} {err : Option String} {e : String} {i : Int} {k : Nat} {n n' : Net μ τ}
  {r : TxResponse}

/-- The error takes the removal branch, with this index. -/
def NamesIndex (e : String) (i : Int) : Prop :=
  contains e "message index: " = true ∧ failedMessageIndex e = (i, true)

/-- The messages of a batch whose send succeeded. -/
def Sent.delivered (s : Sent μ) : List μ :=
  match s.res with
  | .ok _ => s.msgs
  | .error _ => []

/-- The message an index error names, if the batch has it. -/
def Sent.named (s : Sent μ) : List μ :=
  match s.res with
  | .ok _ => []
  | .error e =>
    if contains e "message index: " then
      match failedMessageIndex e with
      | (i, true) => (s.msgs[i.toNat]?).toList
      | (_, false) => []
    else []

/-- An index error of an honest chain names a message of the batch just sent. -/
def Sent.Honest (s : Sent μ) : Prop :=
  ∀ e i, s.res = .error e → NamesIndex e i → i < s.msgs.length

theorem failedMessageIndex_nonneg (h : failedMessageIndex e = (i, true)) : 0 ≤ i := by
  unfold failedMessageIndex at h
  split at h
  · split at h
    · cases h
      exact Int.natCast_nonneg _
    · cases h
  · cases h

theorem NamesIndex.unique {j : Int} (hi : NamesIndex e i) (hj : NamesIndex e j) : i = j := by
  have h := hi.2.symm.trans hj.2
  simpa using h

theorem named_of_namesIndex (hi : NamesIndex e i) :
    Sent.named ⟨msgs, .error e⟩ = (msgs[i.toNat]?).toList := by
  simp [Sent.named, hi.1, hi.2]

theorem removeMsgAtIndex_eq (hnonneg : 0 ≤ i) (hlt : i < msgs.length) :
    removeMsgAtIndex msgs i = msgs.eraseIdx i.toNat := by
  unfold removeMsgAtIndex
  rw [if_neg (by omega), List.eraseIdx_eq_take_drop_succ]

/-- A removed message is the one the error names. -/
theorem removeMsgAtIndex_perm (hi : NamesIndex e i) (hlt : i < msgs.length) :
    msgs.Perm (Sent.named ⟨msgs, .error e⟩ ++ removeMsgAtIndex msgs i) := by
  have hnonneg := failedMessageIndex_nonneg hi.2
  have hlt' : i.toNat < msgs.length := by omega
  rw [named_of_namesIndex hi, removeMsgAtIndex_eq hnonneg hlt, List.getElem?_eq_getElem hlt']
  exact (List.getElem_cons_eraseIdx_perm hlt').symm

/-- Logged result of one send that returned. -/
theorem reliablySendMsgs_of_send (res : Except String (Option RelayerTxResponse)) {c : τ}
    (h : send msgs n.chain = (.ofExcept res, c)) :
    reliablySendMsgs send msgs n = (.ofExcept res, ⟨c, n.sent ++ [⟨msgs, res⟩]⟩) := by
  cases res <;>
    simp [reliablySendMsgs, Go.bind_apply, onChain, Go.zoom_apply, h, Outcome.attempt]

theorem resendLoop_of_named {c : τ} (hsend : send msgs n.chain = (.error e, c))
    (hi : NamesIndex e i) :
    resendLoop dup send (k + 1) msgs err n =
      resendLoop dup send k (removeMsgAtIndex msgs i) (some (joinErrors err e))
        ⟨c, n.sent ++ [⟨msgs, .error e⟩]⟩ := by
  have hrun := reliablySendMsgs_of_send (.error e) hsend
  rw [resendLoop, Go.bind_apply, Go.attempt_apply, hrun]
  simp [Outcome.attempt, hi.1, hi.2]

/-- What the call returns for the response of a send; a nil one stands for an expected error. -/
def toTxResponse : Option RelayerTxResponse → TxResponse
  | none => ⟨"", []⟩
  | some res => ⟨res.txHash, res.events⟩

theorem resendLoop_of_ok {res : Option RelayerTxResponse} {c : τ} (k : ℕ) (err : Option String)
    (hsend : send msgs n.chain = (.ok res, c)) :
    resendLoop dup send (k + 1) msgs err n =
      (.ok (toTxResponse res), ⟨c, n.sent ++ [⟨msgs, .ok res⟩]⟩) := by
  have hrun := reliablySendMsgs_of_send (.ok res) hsend
  rw [resendLoop, Go.bind_apply, Go.attempt_apply, hrun]
  cases res <;> rfl

theorem resendLoop_of_unnamed {c : τ} (hsend : send msgs n.chain = (.error e, c))
    (hno : ∀ i, ¬ NamesIndex e i) :
    resendLoop dup send (k + 1) msgs err n = (.error e, ⟨c, n.sent ++ [⟨msgs, .error e⟩]⟩) := by
  have hrun := reliablySendMsgs_of_send (.error e) hsend
  rw [resendLoop, Go.bind_apply, Go.attempt_apply, hrun]
  simp only [Outcome.ofExcept_error, Outcome.attempt]
  split
  · rename_i hgate
    rcases hf : failedMessageIndex e with ⟨i, _ | _⟩
    · rfl
    · exact (hno i ⟨hgate, hf⟩).elim
  · rfl

/-- Everything one round of the loop can do. -/
theorem resendLoop_round (k : ℕ) (msgs : List μ) (err : Option String) (n : Net μ τ) :
    (∃ res c, resendLoop dup send (k + 1) msgs err n =
      (.ok (toTxResponse res), ⟨c, n.sent ++ [⟨msgs, .ok res⟩]⟩)) ∨
    (∃ e c, resendLoop dup send (k + 1) msgs err n =
      (.error e, ⟨c, n.sent ++ [⟨msgs, .error e⟩]⟩)) ∨
    (∃ e i c, NamesIndex e i ∧ resendLoop dup send (k + 1) msgs err n =
      resendLoop dup send k (removeMsgAtIndex msgs i) (some (joinErrors err e))
        ⟨c, n.sent ++ [⟨msgs, .error e⟩]⟩) ∨
    ∃ o c, ¬ (send msgs n.chain).1.Returns ∧ ¬ o.Returns ∧
      resendLoop dup send (k + 1) msgs err n = (o, ⟨c, n.sent⟩) := by
  rcases hsend : send msgs n.chain with ⟨res | e | p | _, c⟩
  · exact Or.inl ⟨res, c, resendLoop_of_ok k err hsend⟩
  · by_cases hi : ∃ i, NamesIndex e i
    · obtain ⟨i, hi⟩ := hi
      exact Or.inr (Or.inr (Or.inl ⟨e, i, c, hi, resendLoop_of_named hsend hi⟩))
    · exact Or.inr (Or.inl ⟨e, c, resendLoop_of_unnamed hsend fun i h => hi ⟨i, h⟩⟩)
  · refine Or.inr (Or.inr (Or.inr ⟨.panic p, c, id, id, ?_⟩))
    simp [resendLoop, reliablySendMsgs, Go.bind_apply, onChain, hsend, Outcome.attempt]
  · refine Or.inr (Or.inr (Or.inr ⟨.diverged, c, id, id, ?_⟩))
    simp [resendLoop, reliablySendMsgs, Go.bind_apply, onChain, hsend, Outcome.attempt]

/-- A returned iteration either delivered its batch, or goes on without a named message. -/
theorem resendLoop_succ_ok (h : resendLoop dup send (k + 1) msgs err n = (.ok r, n')) :
    (∃ res, n'.sent = n.sent ++ [⟨msgs, .ok res⟩]) ∨
      ∃ e i c, NamesIndex e i ∧
        resendLoop dup send k (removeMsgAtIndex msgs i) (some (joinErrors err e))
          ⟨c, n.sent ++ [⟨msgs, .error e⟩]⟩ = (.ok r, n') := by
  rcases resendLoop_round k msgs err n with
    ⟨res, c, hrun⟩ | ⟨e, c, hrun⟩ | ⟨e, i, c, hi, hrun⟩ | ⟨o, c, -, ho, hrun⟩
  · cases hrun.symm.trans h
    exact Or.inl ⟨res, rfl⟩
  · cases hrun.symm.trans h
  · exact Or.inr ⟨e, i, c, hi, hrun.symm.trans h⟩
  · cases hrun.symm.trans h
    exact (ho trivial).elim

theorem errorContained_joinErrors :
    errorContained (joinErrors err e) (expectedErrors dup) = true ↔
      (∃ e', err = some e' ∧ errorContained e' (expectedErrors dup) = true) ∨
        errorContained e (expectedErrors dup) = true := by
  cases err <;> simp [errorContained, expectedErrors, contains_joinErrors dup.oneLine]

theorem afterRetries_ok (h : afterRetries dup err n = (.ok r, n')) :
    n' = n ∧ ∃ e, err = some e ∧ errorContained e (expectedErrors dup) = true := by
  unfold afterRetries at h
  split at h
  · cases h
  · rename_i e
    split at h
    · rename_i he
      cases h
      exact ⟨rfl, e, rfl, he⟩
    · cases h

/-- Every message is delivered, named, or still in the batch that is left when the retries end;
in the last case every send was an index error and one of the errors was an expected one. -/
theorem resendLoop_accounts (h : resendLoop dup send k msgs err n = (.ok r, n'))
    (hhonest : ∀ s ∈ n'.sent, s.Honest) :
    ∃ new rest, n'.sent = n.sent ++ new ∧
      msgs.Perm (rest ++ (new.flatMap Sent.delivered ++ new.flatMap Sent.named)) ∧
      (rest = [] ∨ (new.length = k ∧ rest.length + k = msgs.length ∧
        (∀ s ∈ new, ∃ e i, s.res = .error e ∧ NamesIndex e i) ∧
        ((∃ e, err = some e ∧ errorContained e (expectedErrors dup) = true) ∨
          ∃ s ∈ new, ∃ e, s.res = .error e ∧ errorContained e (expectedErrors dup) = true))) := by
  induction k generalizing msgs err n with
  | zero =>
    obtain ⟨rfl, hexp⟩ := afterRetries_ok h
    exact ⟨[], msgs, by simp, by simp, Or.inr ⟨rfl, rfl, by simp, Or.inl hexp⟩⟩
  | succ k ih =>
    rcases resendLoop_succ_ok h with ⟨res, hsent⟩ | ⟨e, i, c, hi, h⟩
    · exact ⟨[⟨msgs, .ok res⟩], [], hsent, by simp [Sent.delivered, Sent.named], Or.inl rfl⟩
    · obtain ⟨new, rest, hsent, hperm, hrest⟩ := ih h
      have hmem : (⟨msgs, .error e⟩ : Sent μ) ∈ n'.sent := by simp [hsent]
      have hlt : i < msgs.length := hhonest _ hmem e i rfl hi
      have hnamed := removeMsgAtIndex_perm hi hlt
      refine ⟨⟨msgs, .error e⟩ :: new, rest, by simp [hsent], ?_, ?_⟩
      · rw [List.flatMap_cons, List.flatMap_cons]
        refine hnamed.trans ((hperm.append_left _).trans ?_)
        simp only [Sent.delivered, List.nil_append, ← List.append_assoc]
        refine List.Perm.append_right _ ?_
        rw [List.append_assoc]
        exact List.perm_append_comm
      · rcases hrest with hrest | ⟨hlen, hcount, hall, hexp⟩
        · exact Or.inl hrest
        · have hone : (removeMsgAtIndex msgs i).length + 1 = msgs.length := by
            have hnonneg := failedMessageIndex_nonneg hi.2
            rw [removeMsgAtIndex_eq hnonneg hlt, List.length_eraseIdx_of_lt (by omega)]
            omega
          refine Or.inr ⟨by simp [hlen], by omega, ?_, ?_⟩
          · intro s hs
            rcases List.mem_cons.mp hs with rfl | hs
            · exact ⟨e, i, rfl, hi⟩
            · exact hall s hs
          · rcases hexp with ⟨e', he', hexp⟩ | ⟨s, hs, hexp⟩
            · cases he'
              rcases errorContained_joinErrors.mp hexp with hexp | hexp
              · exact Or.inl hexp
              · exact Or.inr ⟨_, List.mem_cons_self, e, rfl, hexp⟩
            · exact Or.inr ⟨s, List.mem_cons_of_mem _ hs, hexp⟩

/-- A chain that gives the results of a sequence, one for each send. -/
def scripted (_ : List μ) :
    Go (ℕ → Except String (Option RelayerTxResponse)) (Option RelayerTxResponse) := fun o =>
  (.ofExcept (o 0), fun j => o (j + 1))

variable {o : ℕ → Except String (Option RelayerTxResponse)} {sent : List (Sent μ)}

theorem afterRetries_state (err : Option String) (n : Net μ τ) :
    (afterRetries dup err n).2 = n := by
  unfold afterRetries
  split
  · rfl
  · split <;> rfl

/-- The log of a run shows the sequence, in order. -/
theorem resendLoop_scripted_log (k : ℕ) (msgs : List μ) (err : Option String)
    (o : ℕ → Except String (Option RelayerTxResponse)) (sent : List (Sent μ)) :
    ∃ new, (resendLoop dup scripted k msgs err ⟨o, sent⟩).2.sent = sent ++ new ∧
      ∀ (j : ℕ) (s : Sent μ), new[j]? = some s → s.res = o j := by
  induction k generalizing msgs err o sent with
  | zero =>
    refine ⟨[], ?_, by simp⟩
    rw [resendLoop, afterRetries_state]
    simp
  | succ k ih =>
    have hsend : scripted msgs o = (.ofExcept (o 0), fun j => o (j + 1)) := rfl
    have hone : ∀ (j : ℕ) (s : Sent μ), ([⟨msgs, o 0⟩] : List (Sent μ))[j]? = some s →
        s.res = o j := by
      intro j s hs
      cases j <;> simp at hs
      simp [← hs]
    rcases ho : o 0 with e | res <;> rw [ho] at hsend hone
    · by_cases hi : ∃ i, NamesIndex e i
      · obtain ⟨i, hi⟩ := hi
        rw [resendLoop_of_named (n := ⟨o, sent⟩) hsend hi]
        obtain ⟨new, hnew, hlog⟩ := ih (removeMsgAtIndex msgs i) (some (joinErrors err e))
          (fun j => o (j + 1)) (sent ++ [⟨msgs, .error e⟩])
        refine ⟨⟨msgs, .error e⟩ :: new, by simp [hnew], ?_⟩
        intro j s hs
        cases j with
        | zero => exact hone 0 s (by simpa using hs)
        | succ j => exact hlog j s (by simpa using hs)
      · rw [resendLoop_of_unnamed (n := ⟨o, sent⟩) hsend (fun i h => hi ⟨i, h⟩)]
        exact ⟨_, rfl, hone⟩
    · rw [resendLoop_of_ok (n := ⟨o, sent⟩) k err hsend]
      exact ⟨_, rfl, hone⟩

/-- Index errors up to the end of the retries, one of them expected: the call succeeds. -/
theorem resendLoop_scripted_expected (msgs : List μ) (sent : List (Sent μ))
    (hall : ∀ j < k, ∃ e i, o j = .error e ∧ NamesIndex e i)
    (hexp : (∃ e, err = some e ∧ errorContained e (expectedErrors dup) = true) ∨
      ∃ j < k, ∃ e, o j = .error e ∧ errorContained e (expectedErrors dup) = true) :
    ∃ r n' new, resendLoop dup scripted k msgs err ⟨o, sent⟩ = (.ok r, n') ∧
      n'.sent = sent ++ new ∧ new.length = k ∧ ∀ s ∈ new, ∃ e, s.res = .error e := by
  induction k generalizing msgs err o sent with
  | zero =>
    rcases hexp with ⟨e, rfl, he⟩ | ⟨j, hj, -⟩
    · refine ⟨⟨"", []⟩, ⟨o, sent⟩, [], ?_, by simp, rfl, by simp⟩
      simp [resendLoop, afterRetries, he]
    · omega
  | succ k ih =>
    obtain ⟨e, i, ho, hi⟩ := hall 0 (by omega)
    have hsend : scripted msgs o = (.error e, fun j => o (j + 1)) := by simp [scripted, ho]
    have hexp' : (∃ e', some (joinErrors err e) = some e' ∧
        errorContained e' (expectedErrors dup) = true) ∨
        ∃ j < k, ∃ e, o (j + 1) = .error e ∧ errorContained e (expectedErrors dup) = true := by
      rcases hexp with hexp | ⟨j, hj, e', hj', hexp⟩
      · exact Or.inl ⟨_, rfl, errorContained_joinErrors.mpr (Or.inl hexp)⟩
      · cases j with
        | zero =>
          obtain rfl : e = e' := by simpa [ho] using hj'
          exact Or.inl ⟨_, rfl, errorContained_joinErrors.mpr (Or.inr hexp)⟩
        | succ j => exact Or.inr ⟨j, by omega, e', hj', hexp⟩
    obtain ⟨r, n', new, hrun, hsent, hlen, herr⟩ := ih (removeMsgAtIndex msgs i)
      (sent ++ [⟨msgs, .error e⟩]) (fun j hj => hall (j + 1) (by omega)) hexp'
    refine ⟨r, n', ⟨msgs, .error e⟩ :: new, ?_, by simp [hsent], by simp [hlen], ?_⟩
    · rw [resendLoop_of_named (n := ⟨o, sent⟩) hsend hi]
      exact hrun
    · intro s hs
      rcases List.mem_cons.mp hs with rfl | hs
      · exact ⟨e, rfl⟩
      · exact herr s hs

theorem length_named_le (s : Sent μ) : s.named.length ≤ 1 := by
  unfold Sent.named
  split
  · simp
  · split
    · split
      · rename_i i _
        cases s.msgs[i.toNat]? <;> simp
      · simp
    · simp

/-- Failed sends deliver nothing, and each names at most one message. -/
theorem length_accounted_le {new : List (Sent μ)} (h : ∀ s ∈ new, ∃ e, s.res = .error e) :
    (new.flatMap Sent.delivered ++ new.flatMap Sent.named).length ≤ new.length := by
  induction new with
  | nil => simp
  | cons s new ih =>
    obtain ⟨e, he⟩ := h s List.mem_cons_self
    have hdel : s.delivered = [] := by simp [Sent.delivered, he]
    have hrest := ih (fun s hs => h s (List.mem_cons_of_mem _ hs))
    have hone := length_named_le s
    simp only [List.flatMap_cons, hdel, List.length_append, List.length_cons,
      List.nil_append] at hrest ⊢
    omega

/-- After a nil error every message was in the delivered batch or was named by an index error. -/
def NothingLost (dup : SdkError) (maxRetires : UInt64) (msgs : List μ)
    (o : ℕ → Except String (Option RelayerTxResponse)) : Prop :=
  ∀ r n, reliablySendMsgsResendingOnMsgErr dup scripted maxRetires msgs ⟨o, []⟩ = (.ok r, n) →
    msgs.Subperm (n.sent.flatMap Sent.delivered ++ n.sent.flatMap Sent.named)

/-- A configured number of retries below the batch size ends on index errors only, and one of
them reports a duplicated signature. -/
def BudgetEndsOnDuplicate (dup : SdkError) (maxRetires : UInt64) (len : ℕ)
    (o : ℕ → Except String (Option RelayerTxResponse)) : Prop :=
  0 < maxRetires.toNat ∧ maxRetires.toNat < len ∧
    (∀ j < maxRetires.toNat, ∃ e i, o j = .error e ∧ NamesIndex e i) ∧
    ∃ j < maxRetires.toNat, ∃ e, o j = .error e ∧ errorContained e (expectedErrors dup) = true

theorem batchRetries_of_lt {maxRetires : UInt64} (hpos : 0 < maxRetires.toNat)
    (hlt : maxRetires.toNat < msgs.length) : batchRetries msgs maxRetires = maxRetires.toNat := by
  unfold batchRetries
  have hne : maxRetires ≠ 0 := by
    rintro rfl
    simp at hpos
  rw [if_neg hne, if_neg (by omega)]

theorem batchRetries_cases (msgs : List μ) (maxRetires : UInt64) :
    batchRetries msgs maxRetires = msgs.length ∨
      (0 < maxRetires.toNat ∧ maxRetires.toNat < msgs.length ∧
        batchRetries msgs maxRetires = maxRetires.toNat) := by
  rcases Nat.eq_zero_or_pos maxRetires.toNat with h | h
  · have hz : maxRetires = 0 := UInt64.toNat_inj.mp (by simpa using h)
    simp [batchRetries, hz]
  · by_cases hlt : maxRetires.toNat < msgs.length
    · exact Or.inr ⟨h, hlt, batchRetries_of_lt h hlt⟩
    · left
      unfold batchRetries
      split
      · rfl
      · split <;> omega

/-- Such an end counts as a success, with a message that was neither sent nor named. -/
theorem not_nothingLost {maxRetires : UInt64}
    (h : BudgetEndsOnDuplicate dup maxRetires msgs.length o) :
    ¬ NothingLost dup maxRetires msgs o := by
  intro hlost
  obtain ⟨hpos, hlt, hall, hexp⟩ := h
  obtain ⟨r, n', new, hrun, hsent, hlen, herr⟩ :=
    resendLoop_scripted_expected msgs [] hall (Or.inr hexp)
  rw [← batchRetries_of_lt hpos hlt] at hrun
  have hsub := (hlost r n' hrun).length_le
  rw [hsent, List.nil_append] at hsub
  have := length_accounted_le herr
  omega

/-- Messages are lost silently exactly when the retries end early on a duplicate. -/
theorem nothingLost_iff (dup : SdkError) (maxRetires : UInt64) (msgs : List μ)
    (o : ℕ → Except String (Option RelayerTxResponse))
    (hhonest : ∀ s ∈ (reliablySendMsgsResendingOnMsgErr dup scripted maxRetires msgs
      ⟨o, []⟩).2.sent, s.Honest) :
    NothingLost dup maxRetires msgs o ↔ ¬ BudgetEndsOnDuplicate dup maxRetires msgs.length o := by
  constructor
  · intro hlost hbudget
    exact not_nothingLost hbudget hlost
  · intro hbudget r n hrun
    rw [hrun] at hhonest
    obtain ⟨new, rest, hsent, hperm, hrest⟩ := resendLoop_accounts hrun hhonest
    simp only [List.nil_append] at hsent
    rw [hsent]
    rcases hrest with rfl | ⟨hlen, hcount, hall, hexp⟩
    · exact hperm.subperm
    rcases batchRetries_cases msgs maxRetires with hfull | ⟨hpos, hlt, hk⟩
    · obtain rfl : rest = [] := List.length_eq_zero_iff.mp (by omega)
      exact hperm.subperm
    · refine (hbudget ⟨hpos, hlt, ?_, ?_⟩).elim
      all_goals
        obtain ⟨new', hnew', hlog⟩ := resendLoop_scripted_log (batchRetries msgs maxRetires)
          msgs none o []
        rw [show resendLoop dup scripted (batchRetries msgs maxRetires) msgs none ⟨o, []⟩ = _ from
          hrun, hsent, List.nil_append] at hnew'
        subst hnew'
      · intro j hj
        have hj' : j < new.length := by omega
        obtain ⟨e, i, he, hi⟩ := hall _ (List.getElem_mem hj')
        exact ⟨e, i, (hlog j _ (List.getElem?_eq_getElem hj')).symm.trans he, hi⟩
      · rcases hexp with ⟨e, he, -⟩ | ⟨s, hs, e, he, hexp⟩
        · cases he
        · obtain ⟨j, hj, rfl⟩ := List.getElem_of_mem hs
          exact ⟨j, by omega, e, (hlog j _ (List.getElem?_eq_getElem hj)).symm.trans he, hexp⟩

namespace Sample

def duplicateError : String :=
  "failed to execute message; message index: 0: the covenant signature is already submitted"

theorem duplicateError_names : NamesIndex duplicateError 0 :=
  ⟨by decide +kernel, by decide +kernel⟩

/-- The chain rejects the first message of the first batch, and takes the rest. -/
def duplicateOnce : ℕ → Except String (Option RelayerTxResponse)
  | 0 => .error duplicateError
  | _ + 1 => .ok (some ⟨"A1", []⟩)

theorem sent_duplicateOnce :
    (reliablySendMsgsResendingOnMsgErr duplicated scripted 0 ["a", "b"]
        ⟨duplicateOnce, []⟩).2.sent =
      [⟨["a", "b"], .error duplicateError⟩, ⟨["b"], .ok (some ⟨"A1", []⟩)⟩] := by
  have hretries : batchRetries ["a", "b"] 0 = 2 := rfl
  rw [reliablySendMsgsResendingOnMsgErr, hretries,
    resendLoop_of_named (e := duplicateError) rfl duplicateError_names, resendLoop_of_ok 0 _ rfl]
  rfl

theorem duplicateOnce_nothingLost : NothingLost duplicated 0 ["a", "b"] duplicateOnce := by
  refine (nothingLost_iff duplicated 0 ["a", "b"] duplicateOnce ?_).mpr
    fun h => absurd h.1 (by decide)
  rw [sent_duplicateOnce]
  intro s hs e i he hi
  rcases List.mem_pair.mp hs with rfl | rfl
  · cases he
    rw [hi.unique duplicateError_names]
    decide
  · cases he

theorem duplicateOnce_budget : BudgetEndsOnDuplicate duplicated 1 2 duplicateOnce := by
  refine ⟨by decide, by decide, ?_, 0, by decide, duplicateError, rfl, by decide +kernel⟩
  intro j hj
  obtain rfl : j = 0 := Nat.lt_one_iff.mp hj
  exact ⟨duplicateError, 0, rfl, duplicateError_names⟩

/-- With a budget of one retry the second message is lost: it was neither sent nor named. -/
theorem duplicate_loses_message : ¬ NothingLost duplicated 1 ["a", "b"] duplicateOnce :=
  not_nothingLost duplicateOnce_budget

end Sample

end CovenantEmulator
