import CovenantEmulator.Covenant.Approved

/-! What one tick of the submission loop can do. -/
namespace CovenantEmulator

open Golang

section
variable {α : Type} {batchSize : UInt64} {dels : List α} {batches : List (List α)}

/-- A batch holds delegations of the list only. -/
theorem mem_of_batchesFrom {fuel : Nat} {i : UInt64}
    (h : Emulator.batchesFrom batchSize dels fuel i = .ok batches) :
    ∀ batch ∈ batches, ∀ d ∈ batch, d ∈ dels := by
  induction fuel generalizing i batches with
  | zero => cases h
  | succ fuel ih =>
    rw [Emulator.batchesFrom] at h
    split at h
    · obtain ⟨batch, hbatch, h⟩ := Outcome.bind_eq_ok.mp h
      obtain ⟨rest, hrest, h⟩ := Outcome.bind_eq_ok.mp h
      cases h
      intro b hb d hd
      rcases List.mem_cons.mp hb with rfl | hb
      · obtain ⟨-, rfl⟩ := Outcome.slice_eq_ok.mp hbatch
        exact List.mem_of_mem_take (List.mem_of_mem_drop hd)
      · exact ih hrest b hb d hd
    · cases h
      simp

theorem toNat_length (hlen : dels.length < 2 ^ 63) :
    (UInt64.ofNat dels.length).toNat = dels.length := by
  rw [UInt64.toNat_ofNat']
  exact Nat.mod_eq_of_lt (by omega)

/-- The next start does not wrap around: it is the batch size, or the double of it at most
fits. -/
theorem toNat_next_start {i : UInt64} (hlen : dels.length < 2 ^ 63) (hi : i.toNat < dels.length)
    (hstart : i = 0 ∨ batchSize.toNat ≤ i.toNat) :
    (i + batchSize).toNat = i.toNat + batchSize.toNat := by
  rw [UInt64.toNat_add]
  apply Nat.mod_eq_of_lt
  rcases hstart with rfl | h
  · simpa using batchSize.toNat_lt
  · omega

/-- From any start the batches cover the rest of the list, in order. -/
theorem batchesFrom_covers (hsize : 1 ≤ batchSize.toNat) (hlen : dels.length < 2 ^ 63)
    {fuel : Nat} {i : UInt64} (hstart : i = 0 ∨ batchSize.toNat ≤ i.toNat)
    (hfuel : dels.length - i.toNat < fuel) :
    ∃ batches, Emulator.batchesFrom batchSize dels fuel i = .ok batches ∧
      batches.flatten = dels.drop i.toNat ∧
      ∀ batch ∈ batches, batch ≠ [] ∧ batch.length ≤ batchSize.toNat := by
  have hofNat := toNat_length hlen
  induction fuel generalizing i with
  | zero => omega
  | succ fuel ih =>
    rw [Emulator.batchesFrom]
    by_cases hi : i < UInt64.ofNat dels.length
    · rw [if_pos hi]
      rw [UInt64.lt_iff_toNat_lt, hofNat] at hi
      have hnext := toNat_next_start hlen hi hstart
      obtain ⟨batches, hbatches, hflat, hne⟩ := ih (i := i + batchSize) (Or.inr (by omega))
        (by omega)
      have hstop : (if i + batchSize > UInt64.ofNat dels.length then UInt64.ofNat dels.length
          else i + batchSize).toNat = min dels.length (i.toNat + batchSize.toNat) := by
        split <;> rename_i h <;> rw [gt_iff_lt, UInt64.lt_iff_toNat_lt, hofNat, hnext] at h
        · rw [hofNat]
          omega
        · rw [hnext]
          omega
      have hslice : Outcome.slice dels i.toNat (min dels.length (i.toNat + batchSize.toNat)) =
          .ok ((dels.drop i.toNat).take batchSize.toNat) := by
        refine Outcome.slice_eq_ok.mpr ⟨⟨by omega, by omega⟩, ?_⟩
        rw [List.drop_take, List.take_eq_take_iff, List.length_drop]
        omega
      refine ⟨(dels.drop i.toNat).take batchSize.toNat :: batches, ?_, ?_, ?_⟩
      · simp only [hstop, hslice, Outcome.bind_ok, hbatches]
        rfl
      · rw [List.flatten_cons, hflat, hnext, ← List.drop_drop, List.take_append_drop]
      · intro batch hbatch
        rcases List.mem_cons.mp hbatch with rfl | hbatch
        · refine ⟨?_, List.length_take_le _ _⟩
          intro hnil
          have hzero := congrArg List.length hnil
          simp only [List.length_drop, List.length_take, List.length_nil] at hzero
          omega
        · exact hne batch hbatch
    · rw [if_neg hi]
      rw [UInt64.lt_iff_toNat_lt, hofNat] at hi
      exact ⟨[], rfl, by simpa using hi, by simp⟩

end

/-- A tick from `w` to `w'`: a quiet query, then a run over the delegations it accepted. Each of
them converts from a response in `B`. -/
def TickRuns {σ : Type} (ce : Emulator σ) (R : σ → σ → Prop) (B : BTCDelegationResponse → Prop)
    (w w' : World σ) : Prop :=
  ∃ (dels : List Delegation) (w₁ : World σ), Quiet R w w₁ ∧
    (∀ d ∈ dels, Accepted ce w₁.paramsByVersion d ∧
      ∃ r, B r ∧ delegationRespToDelegation ce.lib r = .ok d) ∧
    Runs ce R (· ∈ dels) w₁ w'

section
variable {σ : Type} {ce : Emulator σ} {R : σ → σ → Prop} {B : BTCDelegationResponse → Prop}

theorem processPending_spec (hR : Respects ce.cc R) (hS : ∀ req s, R s (ce.signer req s).2)
    (dels : List Delegation) (w : World σ) :
    Triple (ce.processPending dels) w (fun _ w' => Runs ce R (· ∈ dels) w w')
      (fun w' => Runs ce R (· ∈ dels) w w') := by
  have hrefl : Runs ce R (· ∈ dels) w w := .of_quiet (Quiet.refl hR w)
  unfold Emulator.processPending
  split
  · exact Triple.pure hrefl
  · refine Triple.bind (Q := fun batches w' => w = w' ∧
      ∀ batch ∈ batches, ∀ d ∈ batch, d ∈ dels)
      (Triple.lift (fun _ h => ⟨rfl, mem_of_batchesFrom h⟩) hrefl) ?_
    rintro batches _ ⟨rfl, hmem⟩
    exact submitBatches_spec hR hS w hmem

/-- However a tick ends, it has run this way. -/
theorem tick_runs (hR : Respects ce.cc R) (hS : ∀ req s, R s (ce.signer req s).2)
    (w : World σ) (fuel : Nat)
    (hB : ∀ req s page s', R w.env s → ce.cc.btcDelegations .pending req s = (.ok page, s') →
      ∀ r ∈ page.btcDelegations, B r) :
    TickRuns ce R B w (ce.tick fuel w).2 := by
  have hfail : ∀ w₁, Quiet R w w₁ → TickRuns ce R B w w₁ := fun w₁ hq =>
    ⟨[], w₁, hq, by simp, .of_quiet (Quiet.refl hR w₁)⟩
  suffices h : Triple (ce.tick fuel) w (fun _ w' => TickRuns ce R B w w')
      (fun w' => TickRuns ce R B w w') from Triple.state_iff.mp h
  refine Triple.bind (Q := fun res w₁ => Quiet R w w₁ ∧ ∀ dels, res = .ok dels →
    ∀ d ∈ dels, Accepted ce w₁.paramsByVersion d ∧
      ∃ r, B r ∧ delegationRespToDelegation ce.lib r = .ok d)
    ((Triple.attempt ((queryPendingDelegations_spec hR w fuel hB).mono ?_ fun _ h => h)
      ?_).mono (fun _ _ h => h) hfail) ?_
  · rintro dels w₁ ⟨hq, hacc⟩
    exact ⟨hq, by rintro _ ⟨rfl⟩; exact hacc⟩
  · exact fun w₁ hq e => ⟨hq, by simp⟩
  · rintro res w₁ ⟨hq, hacc⟩
    cases res with
    | error e => exact Triple.pure (hfail w₁ hq)
    | ok dels =>
      exact (processPending_spec hR hS dels w₁).mono
        (fun _ _ h => ⟨dels, w₁, hq, hacc dels rfl, h⟩) fun _ h => ⟨dels, w₁, hq, hacc dels rfl, h⟩

/-- A request recorded by a tick is approved, for a delegation the filter accepted. -/
theorem TickRuns.signing {w w' : World σ} {d : Delegation} {req : SigningRequest}
    (h : TickRuns ce R B w w') (hstart : w.trace = []) (hmem : Event.signing d req ∈ w'.trace) :
    Accepted ce w'.paramsByVersion d ∧ Approved ce w'.paramsByVersion d req := by
  obtain ⟨dels, w₁, hq, hacc, hrun⟩ := h
  obtain ⟨quiet, hquiet, hparams⟩ := hq.trace
  obtain ⟨new, hnew, hj⟩ := hrun.trace
  rw [hnew, hquiet, hstart, List.nil_append] at hmem
  rcases List.mem_append.mp hmem with hmem | hmem
  · obtain ⟨v, answer, he⟩ := hparams _ hmem
    cases he
  · cases hj _ hmem with
    | signing hd happr => exact ⟨(hacc d hd).1.mono hrun.cache, happr⟩

end

end CovenantEmulator
