import CovenantEmulator.Sample

/-! Total correctness of the paged query, and the stores on which it fails. -/
namespace CovenantEmulator

open Golang Paging

section
variable {τ : Type} {lib : BabylonLib} {accept : Option (Delegation → Bool)}
  {stores : BTCDelegationStatus → Store BTCDelegationResponse} {status : BTCDelegationStatus}
  {pgLimit delsLimit : UInt64} {ds dels : List Delegation} {s : τ}

/-- The delegations of one status, in store order. -/
def Converts (lib : BabylonLib) (S : Store BTCDelegationResponse) (ds : List Delegation) : Prop :=
  S.values.mapM (delegationRespToDelegation lib) = .ok ds

theorem Converts.length {S : Store BTCDelegationResponse} (h : Converts lib S ds) :
    S.entries.length = ds.length := by
  rw [← S.length_values]
  exact (Outcome.mapM_eq_ok.mp h).length_eq

theorem Converts.page {S : Store BTCDelegationResponse} (h : Converts lib S ds) (n g : Nat) :
    ((S.values.drop n).take g).mapM (delegationRespToDelegation lib) =
      .ok ((ds.drop n).take g) := by
  rw [Outcome.mapM_eq_ok]
  exact List.forall₂_take _ (List.forall₂_drop _ (Outcome.mapM_eq_ok.mp h))

/-- What one iteration of the outer loop does from a cursor that points at position `n`. -/
theorem queryLoop_page (hconv : Converts lib (stores status) ds) {key : Bytes} {n fuel : Nat}
    (hkey : (stores status).startingAt key = (stores status).entries.drop n)
    (hlt : dels.length < delsLimit.toNat) :
    queryLoop lib (honestPager stores status) pgLimit delsLimit (pureFilter accept)
        (fuel + 1) key dels s =
      if delsLimit.toNat ≤
          (dels ++ ((ds.drop n).take pgLimit.toNat).filter (acceptedBy accept)).length
      then (.ok ((dels ++ ((ds.drop n).take pgLimit.toNat).filter (acceptedBy accept)).take
        delsLimit.toNat), s)
      else if ((ds.drop n).take pgLimit.toNat).length ≠ pgLimit.toNat
      then (.ok (dels ++ ((ds.drop n).take pgLimit.toNat).filter (acceptedBy accept)), s)
      else queryLoop lib (honestPager stores status) pgLimit delsLimit (pureFilter accept) fuel
        ((stores status).cursor (n + pgLimit.toNat))
        (dels ++ ((ds.drop n).take pgLimit.toNat).filter (acceptedBy accept)) s := by
  have hpage := (stores status).page_of_startingAt pgLimit.toNat hkey
  have hlen := (Outcome.mapM_eq_ok.mp (hconv.page n pgLimit.toNat)).length_eq
  have hscan := scanPage_pureFilter (s := s) accept (hconv.page n pgLimit.toNat) hlt
  rw [queryLoop, if_pos hlt]
  simp only [honestPager, hpage]
  rw [Go.bind_of_ok (m := Go.wrap _ _) rfl, Go.bind_of_ok hscan]
  simp only [hlen]
  by_cases hfull : delsLimit.toNat ≤
      (dels ++ ((ds.drop n).take pgLimit.toNat).filter (acceptedBy accept)).length
  · simp only [if_pos hfull]
    rfl
  · simp only [if_neg hfull]
    split <;> rfl

theorem filter_page (f : Delegation → Bool) (n g : Nat) :
    (ds.take n).filter f ++ ((ds.drop n).take g).filter f = (ds.take (n + g)).filter f := by
  rw [← List.filter_append, List.take_add]

/-- Stopping at the limit inside a page loses nothing of the store's order. -/
theorem take_filter_take {f : Delegation → Bool} {n k : Nat}
    (h : k ≤ ((ds.take n).filter f).length) :
    ((ds.take n).filter f).take k = (ds.filter f).take k := by
  obtain ⟨t, ht⟩ := (List.take_prefix n ds).filter f
  rw [← ht, List.take_append_of_le_length h]

/-- The invariant of the outer loop is the list of accepted delegations before the cursor.
The cursor stays inside the store unless a full page ends it, which the condition excludes. -/
theorem queryLoop_total (hconv : Converts lib (stores status) ds) (hg : 0 < pgLimit.toNat)
    (hcond : delsLimit.toNat ≤ (ds.filter (acceptedBy accept)).length ∨ ds = [] ∨
      ¬ pgLimit.toNat ∣ ds.length) {key : Bytes} {n fuel : Nat}
    (hkey : (stores status).startingAt key = (stores status).entries.drop n)
    (hdvd : pgLimit.toNat ∣ n) (hn : n ≤ ds.length) (hfuel : ds.length - n < fuel)
    (hlt : ((ds.take n).filter (acceptedBy accept)).length < delsLimit.toNat) :
    queryLoop lib (honestPager stores status) pgLimit delsLimit (pureFilter accept) fuel key
        ((ds.take n).filter (acceptedBy accept)) s =
      (.ok ((ds.filter (acceptedBy accept)).take delsLimit.toNat), s) := by
  induction fuel generalizing key n with
  | zero => omega
  | succ fuel ih =>
    rw [queryLoop_page hconv hkey hlt, filter_page]
    split
    · rename_i hfull
      rw [take_filter_take hfull]
    · rename_i hmore
      split
      · rename_i hshort
        have hend : ds.length ≤ n + pgLimit.toNat := by
          simp only [List.length_take, List.length_drop] at hshort
          omega
        rw [List.take_of_length_le hend] at hmore ⊢
        rw [List.take_of_length_le (by omega)]
      · rename_i hpage
        have hnext : n + pgLimit.toNat ≤ ds.length := by
          simp only [List.length_take, List.length_drop] at hpage
          omega
        rcases Nat.lt_or_eq_of_le hnext with hin | hend
        · apply ih ((stores status).startingAt_cursor (by rwa [hconv.length]))
            (Nat.dvd_add hdvd (Nat.dvd_refl _)) hnext (by omega) (by omega)
        · rw [List.take_of_length_le (Nat.le_of_eq hend.symm)] at hmore
          rcases hcond with hc | hc | hc
          · omega
          · simp only [hc, List.length_nil] at hend
            omega
          · exact (hc (hend ▸ Nat.dvd_add hdvd (Nat.dvd_refl _))).elim

/-- When full pages end the store, the nil cursor starts over: only the limit ends the loop. -/
theorem queryLoop_restarts (hconv : Converts lib (stores status) ds) (hpos : 0 < ds.length)
    (hmul : pgLimit.toNat ∣ ds.length) {key : Bytes} {n fuel : Nat}
    (hkey : (stores status).startingAt key = (stores status).entries.drop n)
    (hdvd : pgLimit.toNat ∣ n) (hn : n < ds.length)
    (hlt : dels.length < delsLimit.toNat) {l : List Delegation} {s' : τ}
    (h : queryLoop lib (honestPager stores status) pgLimit delsLimit (pureFilter accept) fuel key
      dels s = (.ok l, s')) : delsLimit.toNat ≤ l.length := by
  induction fuel generalizing key n dels with
  | zero => cases h
  | succ fuel ih =>
    have hnext : n + pgLimit.toNat ≤ ds.length := by
      have := Nat.le_of_dvd (by omega) (Nat.dvd_sub hmul hdvd)
      omega
    have hpage : ((ds.drop n).take pgLimit.toNat).length = pgLimit.toNat := by
      simp only [List.length_take, List.length_drop]
      omega
    rw [queryLoop_page hconv hkey hlt] at h
    split at h
    · rename_i hfull
      cases h
      rw [List.length_take]
      omega
    · rename_i hmore
      rw [if_neg (by simp only [hpage, ne_eq, not_true_eq_false, not_false_eq_true])] at h
      rcases Nat.lt_or_eq_of_le hnext with hin | hend
      · exact ih ((stores status).startingAt_cursor (by rwa [hconv.length]))
          (Nat.dvd_add hdvd (Nat.dvd_refl _)) hin (by omega) h
      · rw [(stores status).cursor_of_le (by rw [hconv.length]; exact Nat.le_of_eq hend.symm)] at h
        exact ih (stores status).startingAt_nil (Nat.dvd_zero _) hpos (by omega) h

/-- Over delegations that convert, a pure filter never makes the loop fail. -/
theorem queryLoop_not_fails (hconv : Converts lib (stores status) ds) {key : Bytes} {n fuel : Nat}
    (hkey : (stores status).startingAt key = (stores status).entries.drop n) :
    ¬ (queryLoop lib (honestPager stores status) pgLimit delsLimit (pureFilter accept) fuel key
      dels s).1.Fails := by
  induction fuel generalizing key n dels with
  | zero => exact id
  | succ fuel ih =>
    by_cases hlt : dels.length < delsLimit.toNat
    · rw [queryLoop_page hconv hkey hlt]
      split
      · exact id
      · split
        · exact id
        · rcases Nat.lt_or_ge (n + pgLimit.toNat) ds.length with hin | hend
          · exact ih ((stores status).startingAt_cursor (by rwa [hconv.length]))
          · rw [(stores status).cursor_of_le (by rwa [hconv.length])]
            exact ih (n := 0) (stores status).startingAt_nil
    · rw [queryLoop, if_neg hlt]
      exact id

/-- The call ends, with the first `limit` accepted delegations of the store in its order. -/
def ReturnsFirstAccepted (lib : BabylonLib) (cap : UInt64)
    (stores : BTCDelegationStatus → Store BTCDelegationResponse) (status : BTCDelegationStatus)
    (delsLimit : UInt64) (accept : Option (Delegation → Bool)) (ds : List Delegation) : Prop :=
  ∃ N, ∀ fuel ≥ N, ∀ s : Unit,
    queryDelegationsWithStatus lib cap (honestPager stores) fuel status delsLimit
      (pureFilter accept) s = (.ok ((ds.filter (acceptedBy accept)).take delsLimit.toNat), s)

/-- When full pages end the store before the limit is reached, the answer is never right. -/
theorem not_returnsFirstAccepted {cap : UInt64} (hconv : Converts lib (stores status) ds)
    (hfew : (ds.filter (acceptedBy accept)).length < delsLimit.toNat) (hne : ds ≠ [])
    (hmul : min cap.toNat delsLimit.toNat ∣ ds.length) :
    ¬ ReturnsFirstAccepted lib cap stores status delsLimit accept ds := by
  rintro ⟨N, hN⟩
  rw [← toNat_minUint64] at hmul
  obtain ⟨-, hloop⟩ := queryDelegationsWithStatus_eq_ok (hN N (Nat.le_refl N) ())
  have hpos : 0 < ds.length := List.length_pos_of_ne_nil hne
  have hlen := queryLoop_restarts hconv hpos hmul
    (stores status).startingAt_nil (Nat.dvd_zero _) hpos
    (show ([] : List Delegation).length < delsLimit.toNat by simp; omega) hloop
  rw [List.length_take] at hlen
  omega

/-- The query is right exactly when its list can be allocated and the limit is reached, the store
is empty, or its last page is not full. -/
theorem returnsFirstAccepted_iff (lib : BabylonLib) {cap : UInt64} (hcap : 1 ≤ cap.toNat)
    (stores : BTCDelegationStatus → Store BTCDelegationResponse) (status : BTCDelegationStatus)
    (delsLimit : UInt64) (accept : Option (Delegation → Bool)) {ds : List Delegation}
    (hconv : Converts lib (stores status) ds) :
    ReturnsFirstAccepted lib cap stores status delsLimit accept ds ↔
      Addressable pointerSize delsLimit.toNat ∧
        (delsLimit.toNat ≤ (ds.filter (acceptedBy accept)).length ∨ ds = [] ∨
          ¬ (min cap.toNat delsLimit.toNat) ∣ ds.length) := by
  constructor
  · intro hret
    have haddr : Addressable pointerSize delsLimit.toNat := by
      obtain ⟨N, hN⟩ := hret
      exact (queryDelegationsWithStatus_eq_ok (hN N (Nat.le_refl N) ())).1
    refine ⟨haddr, ?_⟩
    by_contra hcond
    push Not at hcond
    obtain ⟨hfew, hne, hmul⟩ := hcond
    exact not_returnsFirstAccepted hconv hfew hne hmul hret
  · rintro ⟨haddr, hcond⟩
    unfold ReturnsFirstAccepted
    simp only [queryDelegationsWithStatus_of_addressable haddr]
    rcases Nat.eq_zero_or_pos delsLimit.toNat with hzero | hlimit
    · refine ⟨1, fun fuel hfuel s => ?_⟩
      obtain ⟨fuel, rfl⟩ : ∃ k, fuel = k + 1 := ⟨fuel - 1, by omega⟩
      simp [queryLoop, hzero]
    · have hg : 0 < (minUint64 cap delsLimit).toNat := by
        rw [toNat_minUint64]
        omega
      rw [← toNat_minUint64] at hcond
      refine ⟨ds.length + 1, fun fuel hfuel s => ?_⟩
      exact queryLoop_total (n := 0) hconv hg hcond (stores status).startingAt_nil
        (Nat.dvd_zero _) (Nat.zero_le _) (by omega) hlimit

end

namespace Sample

/-- One delegation in each status. -/
def oneEach (_ : BTCDelegationStatus) : Store BTCDelegationResponse where
  entries := [([1], plainResponse [])]
  nodup := by simp
  keyed := by simp

theorem converts_oneEach : Converts lib (oneEach .pending) [plainDelegation] :=
  Outcome.mapM_eq_ok.mpr (.cons delegationRespToDelegation_plain .nil)

/-- A response that stakes this amount, and its delegation. -/
def amountResponse (totalSat : UInt64) : BTCDelegationResponse :=
  response stakingTx slashingTx unbondingTx slashUnbondingTx totalSat none []

def amountDelegation (totalSat : Int64) : Delegation :=
  delegation stakingTx slashingTx unbondingTx slashUnbondingTx totalSat none

/-- Five delegations in each status. -/
def fiveEach (_ : BTCDelegationStatus) : Store BTCDelegationResponse where
  entries := [([1], amountResponse 1), ([2], amountResponse 2), ([3], amountResponse 3),
    ([4], amountResponse 4), ([5], amountResponse 5)]
  nodup := by decide
  keyed := by simp

def five : List Delegation := [amountDelegation 1, amountDelegation 2, amountDelegation 3,
  amountDelegation 4, amountDelegation 5]

theorem converts_fiveEach : Converts lib (fiveEach .pending) five := by
  have hconv (totalSat : UInt64) (h : totalSat.toNat ≤ 2 ^ 63 - 1) :=
    delegationRespToDelegation_response stakingTx slashingTx unbondingTx slashUnbondingTx h none
  exact Outcome.mapM_eq_ok.mpr (.cons (hconv 1 (by decide)) (.cons (hconv 2 (by decide))
    (.cons (hconv 3 (by decide)) (.cons (hconv 4 (by decide)) (.cons (hconv 5 (by decide)) .nil)))))

def notTwo (d : Delegation) : Bool := decide (d.totalSat ≠ 2)

/-- Two pages of at most three, the second delegation rejected, and fewer accepted than asked
for. -/
theorem four_of_five_returned :
    ReturnsFirstAccepted lib 3 fiveEach .pending 100 (some notTwo) five ∧
      (five.filter (acceptedBy (some notTwo))).take 100 =
        [amountDelegation 1, amountDelegation 3, amountDelegation 4, amountDelegation 5] :=
  ⟨(returnsFirstAccepted_iff lib (by decide) fiveEach .pending 100 (some notTwo)
    converts_fiveEach).mpr ⟨by decide, .inr (.inr (by decide))⟩, rfl⟩

/-- With a limit of one, a store of one delegation that is not accepted is queried for ever. -/
theorem one_rejected_not_returned :
    ¬ ReturnsFirstAccepted lib maxPaginationLimit oneEach .pending 1 (some fun _ => false)
      [plainDelegation] :=
  not_returnsFirstAccepted converts_oneEach (by decide) (by simp) (by decide)

end Sample

end CovenantEmulator
