import CovenantEmulator.ClientController.QueryFilter
import CovenantEmulator.Covenant.Acceptance
import CovenantEmulator.Covenant.StakeExpansion

/-! The pending query with and without one bad delegation. -/
namespace CovenantEmulator

open Golang Paging

section
variable {σ : Type}

/-- The chain answers every parameters query, and none of its answers changes. -/
structure StaticChain (cc : ClientController σ) (answers : String → Except String Delegation)
    (params : UInt32 → StakingParams) : Prop where
  delegations : StableDelegations cc answers
  params : ∀ v s, (cc.queryStakingParamsByVersion v s).1 = .ok (params v)

/-- The emulator with an honest pager of these pending responses. -/
def Emulator.over (ce : Emulator σ) (S : Store BTCDelegationResponse) : Emulator σ :=
  { ce with cc := { ce.cc with btcDelegations := honestPager fun _ => S } }

/-- Conversion and filter, on one response. -/
def Emulator.judges (ce : Emulator σ) (w : World σ) (r : BTCDelegationResponse) : Outcome Bool :=
  judge ce.lib (fun del => (ce.acceptDelegationToSign del w).1) r

/-- A response that is not converted, or a stake expansion whose previous staking transaction is
undecodable or has another hash. -/
inductive Bad (lib : BabylonLib) (answers : String → Except String Delegation) :
    BTCDelegationResponse → Prop
  | rejected {r e} (h : delegationRespToDelegation lib r = .error e) : Bad lib answers r
  | expansion {r del exp prev} (hconv : delegationRespToDelegation lib r = .ok del)
    (hexp : del.stakeExpansion = some exp)
    (hprev : answers exp.previousStakingTxHashHex = .ok prev)
    (h : ¬ StakesAs lib prev exp.previousStakingTxHashHex) : Bad lib answers r

/-- From some number of pages on the call ends in `o`, which is `diverged` if it never ends. -/
def Emulator.QueryEnds (ce : Emulator σ) (w : World σ) (o : Outcome (List Delegation)) : Prop :=
  ∃ N, ∀ fuel ≥ N, (ce.queryPendingDelegations fuel w).1 = o

/-- Two ends with the same delegations, whatever the texts of their errors. -/
inductive SameEnd : Outcome (List Delegation) → Outcome (List Delegation) → Prop
  | returned (l : List Delegation) : SameEnd (.ok l) (.ok l)
  | failed (e e' : String) : SameEnd (.error e) (.error e')
  | panicked (p p' : String) : SameEnd (.panic p) (.panic p')
  | endless : SameEnd .diverged .diverged

/-- The query ends in the same way with the response at this position and without it. -/
def Isolated (ce : Emulator σ) (S : Store BTCDelegationResponse) (i : ℕ) (w : World σ) : Prop :=
  ∃ o o', (ce.over S).QueryEnds w o ∧ (ce.over (S.eraseIdx i)).QueryEnds w o' ∧ SameEnd o o'

/-- How conversion or filter end the query at this response, if they do. -/
def Emulator.haltsAt (ce : Emulator σ) (w : World σ) (r : BTCDelegationResponse) : Option Halt :=
  (ce.judges w r).halt

/-- Conversion or filter end the query at this response. -/
def Blocks (ce : Emulator σ) (w : World σ) (r : BTCDelegationResponse) : Prop :=
  ∀ b, ce.judges w r ≠ .ok b

/-- Full pages only, so that the cursor after the last one leads back to the first. -/
def FullPages (ce : Emulator σ) (S : Store BTCDelegationResponse) : Prop :=
  S.values ≠ [] ∧ min maxPaginationLimit.toNat ce.delegationLimit.toNat ∣ S.values.length

/-- Each version has these parameters, in the cache or on the chain. -/
def Knows (params P : UInt32 → StakingParams) (w : World σ) : Prop :=
  ∀ v, w.paramsByVersion v = some (P v) ∨ w.paramsByVersion v = none ∧ params v = P v

end

section
variable {σ : Type} {ce : Emulator σ} {retry : ParamsRetry σ} {cc : ClientController σ}
  {answers : String → Except String Delegation} {params P : UInt32 → StakingParams}
  {w w' : World σ} {S : Store BTCDelegationResponse} {r : BTCDelegationResponse}

theorem knows_start (params : UInt32 → StakingParams) (w : World σ) :
    Knows params (fun v => (w.paramsByVersion v).getD (params v)) w := by
  intro v
  cases h : w.paramsByVersion v <;> simp [h]

theorem Knows.of_cache_eq (hw : Knows params P w)
    (h : w'.paramsByVersion = w.paramsByVersion) : Knows params P w' := by
  intro v
  rw [h]
  exact hw v

theorem Knows.cacheParams (hw : Knows params P w) (v : UInt32) :
    Knows params P (w.cacheParams v (P v)) := by
  intro v'
  by_cases hv : v' = v
  · left
    simp [World.cacheParams, hv]
  · simpa [World.cacheParams, hv] using hw v'

theorem paramsGet_knows (hstatic : StaticChain cc answers params) (hw : Knows params P w)
    (v : UInt32) : ∃ w', paramsGet retry cc v w = (.ok (P v), w') ∧ Knows params P w' := by
  rcases hw v with hhit | ⟨hmiss, hP⟩
  · exact ⟨w, paramsGet_of_cached hhit, hw⟩
  · have hchain := hstatic.params v w.env
    rw [hP] at hchain
    have hask : ∃ w₁, getParamsByVersion retry cc v w = (.ok (P v), w₁) ∧
        w₁.paramsByVersion = w.paramsByVersion := by
      have honce : ∃ w₁, queryParamsOnce cc v w = (.ok (P v), w₁) ∧
          w₁.paramsByVersion = w.paramsByVersion := by
        simp [queryParamsOnce, onEnv, record, Go.bind_apply, hchain, Outcome.attempt]
      obtain ⟨w₁, honce, hcache⟩ := honce
      exact ⟨w₁, retry.run_of_ok honce _, hcache⟩
    obtain ⟨w₁, hask, hcache⟩ := hask
    refine ⟨w₁.cacheParams v (P v), ?_, (hw.of_cache_eq hcache).cacheParams v⟩
    simp only [paramsGet, hmiss]
    rw [getMissing, Go.bind_of_ok hask]
    rfl

/-- Two worlds of one static chain. -/
def BothKnow (params P : UInt32 → StakingParams) (w w' : World σ) : Prop :=
  Knows params P w ∧ Knows params P w'

theorem paramsAlike_static (hstatic : StaticChain cc answers params) :
    ParamsAlike (BothKnow params P) retry retry cc cc := by
  rintro v w w' ⟨hw, hw'⟩
  obtain ⟨w₁, hget, hw₁⟩ := paramsGet_knows hstatic hw v
  obtain ⟨w₁', hget', hw₁'⟩ := paramsGet_knows hstatic hw' v
  unfold Relates
  rw [hget, hget']
  exact .ok ⟨signedParams_refl _, hw₁, hw₁'⟩

theorem queryPrevDel_alike (hstatic : StaticChain ce.cc answers params) (d : Delegation)
    (hw : BothKnow params P w w') :
    Relates (ce.queryPrevDel d) (ce.queryPrevDel d) w w'
      (fun p w₁ p' w₁' => p = p' ∧ BothKnow params P w₁ w₁') (BothKnow params P) := by
  unfold Emulator.queryPrevDel
  split
  · exact .pure ⟨rfl, hw⟩
  · rename_i exp _
    have hsame := (hstatic.delegations exp.previousStakingTxHashHex w.env).trans
      (hstatic.delegations exp.previousStakingTxHashHex w'.env).symm
    have hkept : ∀ env env', BothKnow params P { w with env := env } { w' with env := env' } :=
      fun _ _ => ⟨hw.1.of_cache_eq rfl, hw.2.of_cache_eq rfl⟩
    refine Relates.bind (Q := fun p w₁ p' w₁' => p = p' ∧ BothKnow params P w₁ w₁')
      (.wrap (.zoom (.of_outcome_eq hsame) ?_ ?_)) ?_
    · intro p s p' s' hp
      exact ⟨hp, hkept s s'⟩
    · intro s s' _
      exact hkept s s'
    · rintro p w₁ _ w₁' ⟨rfl, hw₁⟩
      exact .pure ⟨rfl, hw₁⟩

/-- On a static chain the filter decides the same from every world. -/
theorem acceptDelegationToSign_alike (hstatic : StaticChain ce.cc answers params)
    (d : Delegation) :
    DecideAlike (BothKnow params P) ce.acceptDelegationToSign ce.acceptDelegationToSign d := by
  intro w w' hw
  refine Relates.bind (queryPrevDel_alike hstatic d hw) ?_
  rintro prevDel w₁ _ w₁' ⟨rfl, hw₁⟩
  refine acceptDelegationToSign_relates ce.lib (paramsAlike_static hstatic) (.inl rfl)
    (signedDelegation_refl d) ?_ hw₁
  cases prevDel with
  | none => exact .none
  | some prevDel => exact .some (signedDelegation_refl prevDel)

theorem acceptDelegationToSign_verdict (hstatic : StaticChain ce.cc answers params)
    (hw : Knows params P w) (d : Delegation) (hw' : Knows params P w') :
    (ce.acceptDelegationToSign d w').1 = (ce.acceptDelegationToSign d w).1 ∧
      Knows params P (ce.acceptDelegationToSign d w').2 := by
  have halike := acceptDelegationToSign_alike hstatic d w' w ⟨hw', hw⟩
  refine ⟨(halike.mono (fun _ _ _ _ h => h.1) fun _ _ h => h).outcome_eq, ?_⟩
  exact (halike.final (fun _ _ _ _ h => h.2) fun _ _ h => h).1

theorem queryPendingDelegations_over (haddr : Addressable pointerSize ce.delegationLimit.toNat)
    (S : Store BTCDelegationResponse) (fuel : ℕ) :
    (ce.over S).queryPendingDelegations fuel =
      queryLoop ce.lib (honestPager (fun _ => S) .pending)
        (minUint64 maxPaginationLimit ce.delegationLimit) ce.delegationLimit
        (some ce.acceptDelegationToSign) fuel [] [] :=
  queryDelegationsWithStatus_of_addressable haddr

/-- A list that cannot be allocated panics at once. -/
theorem queryEnds_unaddressable (haddr : ¬ Addressable pointerSize ce.delegationLimit.toNat) :
    ce.QueryEnds w (.panic "runtime error: makeslice: cap out of range") := by
  refine ⟨0, fun fuel _ => ?_⟩
  rw [Emulator.queryPendingDelegations, queryDelegationsWithStatus, Outcome.makeSlice,
    if_neg haddr]
  rfl

theorem pageSize_pos {limit : UInt64} (h : 0 < limit.toNat) :
    0 < (minUint64 maxPaginationLimit limit).toNat := by
  have hcap : 0 < maxPaginationLimit.toNat := by decide
  rw [toNat_minUint64]
  omega

theorem not_blocks_iff : ¬ Blocks ce w r ↔ ∃ b, ce.judges w r = .ok b := by
  simp only [Blocks, ne_eq, not_forall, not_not]

theorem Emulator.QueryEnds.unique {o o' : Outcome (List Delegation)} (h : ce.QueryEnds w o)
    (h' : ce.QueryEnds w o') : o = o' := by
  obtain ⟨N, hN⟩ := h
  obtain ⟨N', hN'⟩ := h'
  exact (hN (N + N') (by omega)).symm.trans (hN' (N + N') (by omega))

/-- The first response that has no verdict ends the query. -/
theorem queryEnds_of_halt (hstatic : StaticChain ce.cc answers params)
    (haddr : Addressable pointerSize ce.delegationLimit.toNat)
    (hlimit : S.values.length < ce.delegationLimit.toNat) {h : Halt}
    (hhalt : S.values.findSome? (ce.haltsAt w) = some h) : (ce.over S).QueryEnds w h.outcome := by
  have hknows := knows_start params w
  refine ⟨S.values.length + 1, fun fuel hfuel => ?_⟩
  rw [queryPendingDelegations_over haddr]
  exact queryLoop_halts (n := 0)
    (fun d _ hw' => acceptDelegationToSign_verdict hstatic hknows d hw') hlimit
    (pageSize_pos (by omega)) S.startingAt_nil (Nat.le_refl 0) (Nat.zero_le _) hfuel hknows hhalt

theorem haltsAt_eq_none : ce.haltsAt w r = none ↔ ¬ Blocks ce w r := by
  rw [Emulator.haltsAt, Outcome.halt_eq_none, not_blocks_iff]

theorem findSome?_haltsAt_eq_none {rs : List BTCDelegationResponse} :
    rs.findSome? (ce.haltsAt w) = none ↔ ∀ r ∈ rs, ¬ Blocks ce w r := by
  simp only [List.findSome?_eq_none_iff, haltsAt_eq_none]

/-- What the filter says of a delegation from this world, as a pure decision. -/
def Emulator.accepts (ce : Emulator σ) (w : World σ) (d : Delegation) : Bool :=
  decide ((ce.acceptDelegationToSign d w).1 = .ok true)

theorem judges_eq {d : Delegation} (hconv : delegationRespToDelegation ce.lib r = .ok d) :
    ce.judges w r = (ce.acceptDelegationToSign d w).1 := by
  simp [Emulator.judges, judge, hconv]

/-- From any world that knows the same parameters, the filter decides an unblocked response so. -/
theorem acceptDelegationToSign_of_open {P : UInt32 → StakingParams} {w₁ : World σ} {d : Delegation}
    (hstatic : StaticChain ce.cc answers params) (hw : Knows params P w) (hw₁ : Knows params P w₁)
    (hconv : delegationRespToDelegation ce.lib r = .ok d) (hopen : ¬ Blocks ce w r) :
    ∃ w₂, ce.acceptDelegationToSign d w₁ = (.ok (ce.accepts w d), w₂) ∧ Knows params P w₂ := by
  obtain ⟨hverdict, hkeep⟩ := acceptDelegationToSign_verdict hstatic hw d hw₁
  obtain ⟨b, hb⟩ : ∃ b, (ce.acceptDelegationToSign d w).1 = .ok b := by
    rw [← judges_eq hconv]
    exact not_blocks_iff.mp hopen
  refine ⟨_, Prod.ext ?_ rfl, hkeep⟩
  rw [hverdict, hb]
  simp [Emulator.accepts, hb]

/-- The paged query with that decision as its filter. -/
def Emulator.pureQuery (ce : Emulator σ) (S : Store BTCDelegationResponse) (w : World σ)
    (fuel : ℕ) : Outcome (List Delegation) × Unit :=
  queryLoop ce.lib (honestPager (fun _ => S) .pending)
    (minUint64 maxPaginationLimit ce.delegationLimit) ce.delegationLimit
    (pureFilter (some (ce.accepts w))) fuel [] [] ()

/-- Unblocked, the query is the one with a pure filter. -/
theorem queryPendingDelegations_pure (hstatic : StaticChain ce.cc answers params)
    (haddr : Addressable pointerSize ce.delegationLimit.toNat)
    (hopen : ∀ r ∈ S.values, ¬ Blocks ce w r) (fuel : ℕ) :
    ((ce.over S).queryPendingDelegations fuel w).1 = (ce.pureQuery S w fuel).1 := by
  have hknows := knows_start params w
  let J (w₁ : World σ) (_ : Unit) : Prop :=
    Knows params (fun v => (w.paramsByVersion v).getD (params v)) w₁
  rw [queryPendingDelegations_over haddr]
  refine Relates.outcome_eq (F := J) (Relates.mono (queryLoop_relates ?_ hknows)
    (fun _ _ _ _ h => h.1) fun _ _ h => h)
  intro r hr d hconv w₁ _ hw₁
  obtain ⟨w₂, hrun, hkeep⟩ := acceptDelegationToSign_of_open hstatic hknows hw₁ hconv (hopen r hr)
  unfold Relates
  rw [hrun]
  exact .ok ⟨rfl, hkeep⟩

/-- The delegations of a store that does not block. -/
theorem converts_of_open (hopen : ∀ r ∈ S.values, ¬ Blocks ce w r) :
    ∃ ds, Converts ce.lib S ds := by
  refine Outcome.exists_mapM_eq_ok.mpr fun r hr => ?_
  obtain ⟨b, hb⟩ := not_blocks_iff.mp (hopen r hr)
  obtain ⟨d, hconv, -⟩ := Outcome.bind_eq_ok.mp hb
  exact ⟨d, hconv⟩

/-- The rounds over full pages are not empty, and end at a page. -/
theorem FullPages.rounds {ds : List Delegation} (h : FullPages ce S)
    (hconv : Converts ce.lib S ds) : 0 < ds.length ∧
      (minUint64 maxPaginationLimit ce.delegationLimit).toNat ∣ ds.length := by
  have hlen : S.values.length = ds.length := S.length_values.trans hconv.length
  rw [toNat_minUint64, ← hlen]
  exact ⟨List.length_pos_of_ne_nil h.1, h.2⟩

/-- On a short last page the query returns what the filter accepts, up to the limit. -/
theorem pureQuery_of_not_full {ds : List Delegation} (hconv : Converts ce.lib S ds)
    (h : ¬ FullPages ce S) (hlimit : 0 < ce.delegationLimit.toNat) {fuel : ℕ}
    (hfuel : ds.length < fuel) :
    ce.pureQuery S w fuel =
      (.ok ((ds.filter (ce.accepts w)).take ce.delegationLimit.toNat), ()) := by
  have hlen : S.values.length = ds.length := S.length_values.trans hconv.length
  have hcond : ds = [] ∨
      ¬ (minUint64 maxPaginationLimit ce.delegationLimit).toNat ∣ ds.length := by
    rw [toNat_minUint64, ← hlen]
    by_contra hboth
    push Not at hboth
    refine h ⟨fun hnil => hboth.1 ?_, hboth.2⟩
    rw [hnil] at hlen
    exact List.length_eq_zero_iff.mp hlen.symm
  exact queryLoop_total (n := 0) hconv (pageSize_pos hlimit) (.inr hcond) S.startingAt_nil
    (Nat.dvd_zero _) (Nat.zero_le _) (show ds.length - 0 < fuel by omega) hlimit

section
variable {ds : List Delegation} (hstatic : StaticChain ce.cc answers params)
  (haddr : Addressable pointerSize ce.delegationLimit.toNat)
  (hopen : ∀ r ∈ S.values, ¬ Blocks ce w r) (hconv : Converts ce.lib S ds)
  (hlimit : S.values.length < ce.delegationLimit.toNat)
include hstatic haddr hopen hconv hlimit

theorem queryEnds_of_not_full (hfull : ¬ FullPages ce S) :
    (ce.over S).QueryEnds w (.ok (ds.filter (ce.accepts w))) := by
  have hlen : S.values.length = ds.length := S.length_values.trans hconv.length
  have hfew : (ds.filter (ce.accepts w)).length ≤ ds.length := List.length_filter_le ..
  refine ⟨ds.length + 1, fun fuel hfuel => ?_⟩
  have htotal := pureQuery_of_not_full (w := w) hconv hfull (by omega)
    (show ds.length < fuel by omega)
  rw [queryPendingDelegations_pure hstatic haddr hopen, htotal, List.take_of_length_le (by omega)]

/-- Over full pages the query returns only by reaching the limit. -/
theorem limit_le_of_full (hfull : FullPages ce S) {l : List Delegation}
    (h : (ce.over S).QueryEnds w (.ok l)) : ce.delegationLimit.toNat ≤ l.length := by
  obtain ⟨N, hN⟩ := h
  have hrun := hN N (Nat.le_refl N)
  rw [queryPendingDelegations_pure hstatic haddr hopen] at hrun
  obtain ⟨hpos, hmul⟩ := hfull.rounds hconv
  have hlt : ([] : List Delegation).length < ce.delegationLimit.toNat := by
    rw [List.length_nil]
    omega
  exact queryLoop_restarts hconv hpos hmul S.startingAt_nil (Nat.dvd_zero _) hpos hlt
    (Prod.ext hrun rfl)

end

/-- The response is skipped when the filter does not get to validate it. -/
theorem Bad.skipped (hstatic : StaticChain ce.cc answers params) (hbad : Bad ce.lib answers r)
    (h : ¬ Blocks ce w r) : ce.judges w r = .ok false := by
  obtain ⟨b, hb⟩ := not_blocks_iff.mp h
  obtain ⟨del, hconv, hdel⟩ := Outcome.bind_eq_ok.mp hb
  cases hbad with
  | rejected he => cases he.symm.trans hconv
  | expansion hconv' hexp hprev hstakes =>
    rename_i del' exp prev
    obtain rfl : del = del' := by simpa [hconv] using hconv'
    cases b with
    | false => exact hb
    | true =>
      obtain ⟨prevDel, w₁, hquery, hrest⟩ := Go.bind_eq_ok.mp (Prod.ext hdel rfl)
      obtain rfl : prevDel = some prev := by
        have hans := hstatic.delegations exp.previousStakingTxHashHex w.env
        rw [hprev] at hans
        simp only [Emulator.queryPrevDel, hexp, Go.bind_eq_ok, Go.wrap_eq_ok, onEnv,
          Go.zoom_eq_ok, Go.pure_eq_ok] at hquery
        obtain ⟨p, w₂, ⟨s, hp, -⟩, rfl, -⟩ := hquery
        rw [hp] at hans
        simpa using hans
      have hacc := acceptDelegationToSign_eq_true.mp ⟨_, hrest⟩
      obtain ⟨w₂, -, hfits⟩ := hacc.committee
      obtain ⟨p, w₃, hp, hp', -⟩ := hfits exp hexp
      cases hp
      exact (hstakes hp').elim

/-- A skipped delegation can be removed from the store and from its conversion. -/
theorem Converts.eraseIdx {ds : List Delegation} (h : Converts ce.lib S ds) (i : ℕ) :
    Converts ce.lib (S.eraseIdx i) (ds.eraseIdx i) := by
  have hall := Outcome.mapM_eq_ok.mp h
  refine Outcome.mapM_eq_ok.mpr ?_
  rw [S.values_eraseIdx, List.eraseIdx_eq_take_drop_succ, List.eraseIdx_eq_take_drop_succ]
  exact List.rel_append (List.forall₂_take _ hall) (List.forall₂_drop _ hall)

theorem filter_eraseIdx {ds : List Delegation} {f : Delegation → Bool} {i : ℕ} {d : Delegation}
    (hd : ds[i]? = some d) (hf : f d = false) : (ds.eraseIdx i).filter f = ds.filter f := by
  obtain ⟨hi, rfl⟩ := List.getElem?_eq_some_iff.mp hd
  have hsplit : ds = ds.take i ++ ds[i] :: ds.drop (i + 1) := by
    rw [← List.drop_eq_getElem_cons hi, List.take_append_drop]
  nth_rewrite 2 [hsplit]
  rw [List.eraseIdx_eq_take_drop_succ, List.filter_append, List.filter_append,
    List.filter_cons_of_neg (by simpa using hf)]

theorem filter_skipped {ds : List Delegation} {i : ℕ} (hconv : Converts ce.lib S ds)
    (hi : S.values[i]? = some r) (hskip : ce.judges w r = .ok false) :
    (ds.eraseIdx i).filter (ce.accepts w) = ds.filter (ce.accepts w) := by
  have hall := Outcome.mapM_eq_ok.mp hconv
  obtain ⟨hlt, rfl⟩ := List.getElem?_eq_some_iff.mp hi
  have hlt' : i < ds.length := hall.length_eq ▸ hlt
  have hd : delegationRespToDelegation ce.lib S.values[i] = .ok ds[i] := hall.get hlt hlt'
  refine filter_eraseIdx (List.getElem?_eq_getElem hlt') ?_
  rw [judges_eq hd] at hskip
  simp [Emulator.accepts, hskip]

/-- Page sizes above one do not divide both lengths. -/
theorem not_both_full {i : ℕ} (hi : i < S.values.length)
    (hlimit : S.values.length < ce.delegationLimit.toNat) (hfull : FullPages ce S) :
    ¬ FullPages ce (S.eraseIdx i) := by
  rintro ⟨-, hrest⟩
  have hcap : maxPaginationLimit.toNat = 1000 := by decide
  have hlen : (S.eraseIdx i).values.length + 1 = S.values.length := by
    rw [S.values_eraseIdx, List.length_eraseIdx_of_lt hi]
    omega
  have hone : min maxPaginationLimit.toNat ce.delegationLimit.toNat ∣ 1 := by
    have hfull' := hfull.2
    rw [← hlen] at hfull'
    exact (Nat.dvd_add_right hrest).mp hfull'
  have := Nat.le_of_dvd (by omega) hone
  omega

theorem length_eraseIdx_lt {i : ℕ} (hlimit : S.values.length < ce.delegationLimit.toNat) :
    (S.eraseIdx i).values.length < ce.delegationLimit.toNat := by
  rw [S.values_eraseIdx]
  exact Nat.lt_of_le_of_lt (List.length_eraseIdx_le ..) hlimit

theorem paramsGet_returns (hstatic : StaticChain cc answers params) (v : UInt32) (w : World σ) :
    (paramsGet retry cc v w).1.Returns := by
  obtain ⟨w', hget, -⟩ := paramsGet_knows hstatic (knows_start params w) v
  rw [hget]
  trivial

theorem validateStakeExpansion_returns {lib : BabylonLib} {covenantSerializedPk : Bytes}
    {d : Delegation} (h : ∀ d w, (isKeyInCommittee retry cc covenantSerializedPk d w).1.Returns)
    (hexp : d.isStakeExpansion = true) (prevDel : Option Delegation) (w : World σ) :
    (validateStakeExpansion lib retry cc covenantSerializedPk d prevDel w).1.Returns := by
  obtain ⟨exp, hsome⟩ := Option.isSome_iff_exists.mp hexp
  unfold validateStakeExpansion
  rw [hsome]
  cases prevDel with
  | none => trivial
  | some prevDel =>
    refine Go.bind_returns.mpr ⟨Go.wrap_returns.mpr (Outcome.ofExcept_returns _), fun tx w₁ _ => ?_⟩
    refine Go.bind_returns.mpr ⟨trivial, fun exp' w₂ _ => ?_⟩
    split
    · trivial
    · exact Go.wrap_returns.mpr (h prevDel w₂)

/-- On a static chain the filter neither panics nor runs for ever. -/
theorem acceptDelegationToSign_returns (hstatic : StaticChain ce.cc answers params)
    (d : Delegation) (w : World σ) : (ce.acceptDelegationToSign d w).1.Returns := by
  have hcommittee (d : Delegation) (w : World σ) :
      (isKeyInCommittee ce.retry ce.cc (serializePubKey ce.pk) d w).1.Returns := by
    unfold isKeyInCommittee
    rw [Go.bind_returns, Go.wrap_returns]
    exact ⟨paramsGet_returns hstatic _ _, fun _ _ _ => trivial⟩
  have hquery : (ce.queryPrevDel d w).1.Returns := by
    unfold Emulator.queryPrevDel
    cases d.stakeExpansion with
    | none => trivial
    | some exp =>
      refine Go.bind_returns.mpr ⟨Go.wrap_returns.mpr ?_, fun _ _ _ => trivial⟩
      have hanswer := hstatic.delegations exp.previousStakingTxHashHex w.env
      rw [onEnv, Go.zoom_apply, hanswer]
      exact Outcome.ofExcept_returns _
  refine Go.bind_returns.mpr ⟨hquery, fun prevDel w₁ hprev => ?_⟩
  unfold CovenantEmulator.acceptDelegationToSign
  split
  · trivial
  · refine Go.bind_returns.mpr ⟨Go.wrap_returns.mpr (hcommittee d w₁), fun isIn w₂ _ => ?_⟩
    split
    · trivial
    · split
      · rename_i hexp
        exact validateStakeExpansion_returns hcommittee hexp prevDel w₂
      · trivial

/-- The error of a bad response is an error of the conversion or of the validation. -/
theorem Bad.haltsAt (hstatic : StaticChain ce.cc answers params) (hbad : Bad ce.lib answers r)
    {h : Halt} (hhalt : ce.haltsAt w r = some h) : ∃ e, h = .error e := by
  have hjudge := Outcome.halt_eq_some.mp hhalt
  have hreturns : (ce.judges w r).Returns := by
    cases hbad with
    | rejected he => simp [Emulator.judges, judge, he]
    | @expansion del exp prev hconv hexp hprev hstakes =>
      rw [judges_eq hconv]
      exact acceptDelegationToSign_returns hstatic del w
  rw [hjudge] at hreturns
  cases h with
  | error e => exact ⟨e, rfl⟩
  | panic p => exact hreturns.elim
  | diverged => exact hreturns.elim

/-- With the bad response skipped, the queries end alike if both stores end on a short page. -/
theorem isolated_of_skipped {i : ℕ} (hstatic : StaticChain ce.cc answers params)
    (haddr : Addressable pointerSize ce.delegationLimit.toNat)
    (hi : S.values[i]? = some r) (hlimit : S.values.length < ce.delegationLimit.toNat)
    (hskip : ce.judges w r = .ok false) (hopen : ∀ r' ∈ S.values, ¬ Blocks ce w r')
    (hrest : ∀ r' ∈ (S.eraseIdx i).values, ¬ Blocks ce w r') :
    Isolated ce S i w ↔ ¬ FullPages ce S ∧ ¬ FullPages ce (S.eraseIdx i) := by
  have hlimit' := length_eraseIdx_lt (i := i) hlimit
  obtain ⟨ds, hconv⟩ := converts_of_open hopen
  have hconv' := hconv.eraseIdx i
  have hsame : (ds.eraseIdx i).filter (ce.accepts w) = ds.filter (ce.accepts w) :=
    filter_skipped hconv hi hskip
  have hlen : S.values.length = ds.length := S.length_values.trans hconv.length
  have hfew : (ds.filter (ce.accepts w)).length ≤ ds.length := List.length_filter_le ..
  have hret : ¬ FullPages ce S → (ce.over S).QueryEnds w (.ok (ds.filter (ce.accepts w))) :=
    queryEnds_of_not_full hstatic haddr hopen hconv hlimit
  have hret' : ¬ FullPages ce (S.eraseIdx i) →
      (ce.over (S.eraseIdx i)).QueryEnds w (.ok (ds.filter (ce.accepts w))) := by
    rw [← hsame]
    exact queryEnds_of_not_full hstatic haddr hrest hconv' hlimit'
  constructor
  · rintro ⟨o, o', hends, hends', hsameEnd⟩
    have hnot : ¬ FullPages ce S := by
      intro hfull
      have hlt := (List.getElem?_eq_some_iff.mp hi).1
      obtain rfl := hends'.unique (hret' (not_both_full hlt hlimit hfull))
      cases hsameEnd
      have := limit_le_of_full hstatic haddr hopen hconv hlimit hfull hends
      omega
    refine ⟨hnot, ?_⟩
    intro hfull
    obtain rfl := hends.unique (hret hnot)
    cases hsameEnd
    have := limit_le_of_full hstatic haddr hrest hconv' hlimit' hfull hends'
    omega
  · rintro ⟨hnot, hnot'⟩
    exact ⟨_, _, hret hnot, hret' hnot', .returned _⟩

theorem SameEnd.of_halt (h : Halt) : SameEnd h.outcome h.outcome := by
  cases h with
  | error e => exact .failed e e
  | panic p => exact .panicked p p
  | diverged => exact .endless

/-- Without a response that ends it, the query does not end in an error. -/
theorem not_queryEnds_error (hstatic : StaticChain ce.cc answers params)
    (haddr : Addressable pointerSize ce.delegationLimit.toNat)
    (hopen : ∀ r ∈ S.values, ¬ Blocks ce w r) (e : String) :
    ¬ (ce.over S).QueryEnds w (.error e) := by
  rintro ⟨N, hN⟩
  obtain ⟨ds, hconv⟩ := converts_of_open hopen
  have hrun := hN N (Nat.le_refl N)
  rw [queryPendingDelegations_pure hstatic haddr hopen] at hrun
  have hfails : ¬ (ce.pureQuery S w N).1.Fails :=
    queryLoop_not_fails (n := 0) hconv S.startingAt_nil
  rw [hrun] at hfails
  exact hfails trivial

theorem exists_blocks_iff {rs : List BTCDelegationResponse} :
    (∃ r ∈ rs, Blocks ce w r) ↔ ∃ h, rs.findSome? (ce.haltsAt w) = some h := by
  rw [← Option.ne_none_iff_exists', ne_eq, findSome?_haltsAt_eq_none]
  push Not
  rfl

theorem Store.values_split {i : ℕ} (hi : S.values[i]? = some r) :
    S.values = S.values.take i ++ r :: S.values.drop (i + 1) := by
  obtain ⟨hlt, rfl⟩ := List.getElem?_eq_some_iff.mp hi
  rw [← List.drop_eq_getElem_cons hlt, List.take_append_drop]

/-- What ends the query with a response, if nothing before it does. -/
theorem findSome?_haltsAt_values {i : ℕ} (hi : S.values[i]? = some r)
    (hbefore : (S.values.take i).findSome? (ce.haltsAt w) = none) :
    S.values.findSome? (ce.haltsAt w) =
      (ce.haltsAt w r).or ((S.values.drop (i + 1)).findSome? (ce.haltsAt w)) := by
  conv_lhs => rw [Store.values_split hi]
  rw [List.findSome?_append, hbefore, Option.none_or, List.findSome?_cons]
  cases ce.haltsAt w r <;> rfl

theorem findSome?_haltsAt_eraseIdx (ce : Emulator σ) (w : World σ)
    (S : Store BTCDelegationResponse) (i : ℕ) :
    (S.eraseIdx i).values.findSome? (ce.haltsAt w) =
      ((S.values.take i).findSome? (ce.haltsAt w)).or
        ((S.values.drop (i + 1)).findSome? (ce.haltsAt w)) := by
  rw [S.values_eraseIdx, List.eraseIdx_eq_take_drop_succ, List.findSome?_append]

section
variable {i : ℕ} (hstatic : StaticChain ce.cc answers params)
  (haddr : Addressable pointerSize ce.delegationLimit.toNat)
  (hlimit : S.values.length < ce.delegationLimit.toNat)
include hstatic haddr hlimit

/-- Two queries that the same response ends are alike. -/
theorem isolated_of_same_halt {h : Halt} (hhalt : S.values.findSome? (ce.haltsAt w) = some h)
    (hhalt' : (S.eraseIdx i).values.findSome? (ce.haltsAt w) = some h) : Isolated ce S i w :=
  ⟨_, _, queryEnds_of_halt hstatic haddr hlimit hhalt,
    queryEnds_of_halt hstatic haddr (length_eraseIdx_lt hlimit) hhalt', .of_halt h⟩

/-- A response that ends the query with an error is isolated exactly if the query without it ends
with an error as well. -/
theorem isolated_of_error {e : String}
    (hhalt : S.values.findSome? (ce.haltsAt w) = some (.error e)) :
    Isolated ce S i w ↔
      ∃ e', (S.eraseIdx i).values.findSome? (ce.haltsAt w) = some (.error e') := by
  have hends := queryEnds_of_halt hstatic haddr hlimit hhalt
  have hlimit' := length_eraseIdx_lt (i := i) hlimit
  constructor
  · rintro ⟨o, o', ho, ho', hsame⟩
    obtain rfl := ho.unique hends
    cases hrest : (S.eraseIdx i).values.findSome? (ce.haltsAt w) with
    | none =>
      cases hsame
      exact (not_queryEnds_error hstatic haddr (findSome?_haltsAt_eq_none.mp hrest) _ ho').elim
    | some h' =>
      obtain rfl := ho'.unique (queryEnds_of_halt hstatic haddr hlimit' hrest)
      cases h' with
      | error e' => exact ⟨e', rfl⟩
      | panic p => cases hsame
      | diverged => cases hsame
  · rintro ⟨e', hrest⟩
    exact ⟨_, _, hends, queryEnds_of_halt hstatic haddr hlimit' hrest, .failed e e'⟩

end

/-- The query ends as it would without the bad response exactly if its list cannot be allocated, if
a response before the bad one ends it, if the bad one ends it and the next one that would does so
with an error as well, or if the filter skips the bad one before validating it and either a later
response ends the query or the paging ends. -/
theorem isolated_iff (ce : Emulator σ) {answers : String → Except String Delegation}
    {params : UInt32 → StakingParams} (hstatic : StaticChain ce.cc answers params)
    (S : Store BTCDelegationResponse) (hlimit : S.values.length < ce.delegationLimit.toNat)
    {i : ℕ} {r : BTCDelegationResponse} (hi : S.values[i]? = some r)
    (hbad : Bad ce.lib answers r) (w : World σ) :
    Isolated ce S i w ↔
      ¬ Addressable pointerSize ce.delegationLimit.toNat ∨
      (∃ r' ∈ S.values.take i, Blocks ce w r') ∨
      (Blocks ce w r ∧
        ∃ e, (S.values.drop (i + 1)).findSome? (ce.haltsAt w) = some (.error e)) ∨
      (¬ Blocks ce w r ∧ ((∃ r' ∈ S.values.drop (i + 1), Blocks ce w r') ∨
        ¬ FullPages ce S ∧ ¬ FullPages ce (S.eraseIdx i))) := by
  by_cases haddr : Addressable pointerSize ce.delegationLimit.toNat
  swap
  · have hpanics (S : Store BTCDelegationResponse) : (ce.over S).QueryEnds w
        (.panic "runtime error: makeslice: cap out of range") := queryEnds_unaddressable haddr
    exact ⟨fun _ => .inl haddr, fun _ => ⟨_, _, hpanics S, hpanics _, .panicked _ _⟩⟩
  have hrest := findSome?_haltsAt_eraseIdx ce w S i
  simp only [haddr, not_true_eq_false, false_or]
  rw [exists_blocks_iff, exists_blocks_iff]
  cases hbefore : (S.values.take i).findSome? (ce.haltsAt w) with
  | some h =>
    have hhalt : S.values.findSome? (ce.haltsAt w) = some h := by
      rw [Store.values_split hi, List.findSome?_append, hbefore, Option.some_or]
    rw [hbefore, Option.some_or] at hrest
    exact ⟨fun _ => .inl ⟨h, rfl⟩, fun _ => isolated_of_same_halt hstatic haddr hlimit hhalt hrest⟩
  | none =>
    have hvalues := findSome?_haltsAt_values hi hbefore
    rw [hbefore, Option.none_or] at hrest
    simp only [reduceCtorEq, exists_false, false_or]
    cases hr : ce.haltsAt w r with
    | some h =>
      -- the bad response ends the query, with an error
      obtain ⟨e, rfl⟩ := hbad.haltsAt hstatic hr
      have hblocks : Blocks ce w r := by
        by_contra hskip
        cases hr.symm.trans (haltsAt_eq_none.mpr hskip)
      rw [hr, Option.some_or] at hvalues
      rw [isolated_of_error hstatic haddr hlimit hvalues, hrest]
      simp only [hblocks, not_true_eq_false, true_and, false_and, or_false]
    | none =>
      have hskip := haltsAt_eq_none.mp hr
      rw [hr, Option.none_or] at hvalues
      simp only [hskip, not_false_eq_true, false_and, true_and, false_or]
      cases hlater : (S.values.drop (i + 1)).findSome? (ce.haltsAt w) with
      | some h =>
        rw [hlater] at hvalues hrest
        exact ⟨fun _ => .inl ⟨h, rfl⟩,
          fun _ => isolated_of_same_halt hstatic haddr hlimit hvalues hrest⟩
      | none =>
        rw [hlater] at hvalues hrest
        rw [isolated_of_skipped hstatic haddr hi hlimit (hbad.skipped hstatic hskip)
          (findSome?_haltsAt_eq_none.mp hvalues) (findSome?_haltsAt_eq_none.mp hrest)]
        simp only [reduceCtorEq, exists_false, false_or]

end

namespace Sample

/-- A response without its staking transaction. -/
def emptyResponse : BTCDelegationResponse := { plainResponse [] with stakingTxHex := "" }

theorem delegationRespToDelegation_empty : delegationRespToDelegation lib emptyResponse =
    .error "staking tx should not be empty in delegation" := by
  simp [delegationRespToDelegation, emptyResponse]

/-- A good response and the empty one. -/
def oneRejected : Store BTCDelegationResponse where
  entries := [([1], plainResponse []), ([2], emptyResponse)]
  nodup := by simp
  keyed := by simp

/-- A node that answers every hash with the plain delegation. -/
def oneAnswer : ClientController Unit :=
  { node [] with queryBTCDelegation := fun _ => pure plainDelegation }

/-- A stake expansion of a hash that is not the one of the previous stake, which the emulator has
signed before. -/
def signedStray : BTCDelegationResponse :=
  { expansionResponse with
    covenantSigs := [⟨serializePubKey covenantKey, adaptorSigs⟩]
    stkExp := some ⟨"", stakeExpansion.otherFundingTxOutHex⟩ }

def signedStrayDelegation : Delegation :=
  { expansionDelegation with
    covenantSigs := [⟨key 3, adaptorSigs⟩]
    stakeExpansion := some ⟨"", stakeExpansion.otherFundingTxOutHex⟩ }

/-- The stray one before a good response. -/
def strayFirst : Store BTCDelegationResponse where
  entries := [([1], signedStray), ([2], plainResponse [])]
  nodup := by simp
  keyed := by simp

theorem staticChain_oneAnswer :
    StaticChain oneAnswer (fun _ => .ok plainDelegation) fun _ => params 10000 where
  delegations _ _ := rfl
  params _ _ := rfl

theorem delegationRespToDelegation_signedStray :
    delegationRespToDelegation lib signedStray = .ok signedStrayDelegation :=
  delegationRespToDelegation_of_convertsTo
    { convertsTo_of_delegationRespToDelegation delegationRespToDelegation_expansion with
      covenantSigs := rfl
      stakeExpansion := rfl }

theorem bad_signedStray : Bad lib (fun _ => .ok plainDelegation) signedStray := by
  refine .expansion delegationRespToDelegation_signedStray rfl rfl ?_
  rintro ⟨tx, htx, hhash⟩
  obtain rfl : stakingTx = tx := Except.ok.inj (checked_plain.stakingTx.symm.trans htx)
  have hempty := Hex.encodeToString_eq_empty.mp hhash
  cases hempty

theorem judges_signedStray : (emulator oneAnswer signer).judges (world () 10000) signedStray =
    .ok false := by
  have hconv : delegationRespToDelegation (emulator oneAnswer signer).lib signedStray =
      .ok signedStrayDelegation := delegationRespToDelegation_signedStray
  rw [judges_eq hconv]
  rfl

theorem judges_plainResponse (cc : ClientController Unit) :
    (emulator cc signer).judges (world () 10000) (plainResponse []) = .ok true := by
  have hconv : delegationRespToDelegation (emulator cc signer).lib (plainResponse []) =
      .ok plainDelegation := delegationRespToDelegation_plain
  rw [judges_eq hconv, accepts_plain]

/-- A store with less than a page ends on a page that is not full. -/
theorem not_fullPages {cc : ClientController Unit} {S : Store BTCDelegationResponse}
    (hpos : 0 < S.values.length) (hlt : S.values.length < 100) :
    ¬ FullPages (emulator cc signer) S := by
  rintro ⟨-, hdvd⟩
  have hpage : min maxPaginationLimit.toNat (emulator cc signer).delegationLimit.toNat = 100 := rfl
  rw [hpage] at hdvd
  exact absurd (Nat.le_of_dvd hpos hdvd) (by omega)

/-- The stray expansion is skipped, and the good delegation is returned with it and without it. -/
theorem stray_isolated :
    Isolated (emulator oneAnswer signer) strayFirst 0 (world () 10000) ∧
      ((emulator oneAnswer signer).over strayFirst).QueryEnds (world () 10000)
        (.ok [plainDelegation]) := by
  have hskip : ¬ Blocks (emulator oneAnswer signer) (world () 10000) signedStray :=
    not_blocks_iff.mpr ⟨false, judges_signedStray⟩
  have hfull : ¬ FullPages (emulator oneAnswer signer) strayFirst :=
    not_fullPages (by decide) (by decide)
  have hfull' : ¬ FullPages (emulator oneAnswer signer) (strayFirst.eraseIdx 0) :=
    not_fullPages (by decide) (by decide)
  refine ⟨(isolated_iff (emulator oneAnswer signer) staticChain_oneAnswer strayFirst
    (by decide +kernel) rfl bad_signedStray (world () 10000)).mpr
      (.inr (.inr (.inr ⟨hskip, .inr ⟨hfull, hfull'⟩⟩))), ?_⟩
  have hopen : ∀ r ∈ strayFirst.values,
      ¬ Blocks (emulator oneAnswer signer) (world () 10000) r := by
    intro r hr
    rcases List.mem_cons.mp hr with rfl | hr
    · exact hskip
    · obtain rfl : r = plainResponse [] := List.mem_singleton.mp hr
      exact not_blocks_iff.mpr ⟨true, judges_plainResponse oneAnswer⟩
  have hconv : Converts lib strayFirst [signedStrayDelegation, plainDelegation] :=
    Outcome.mapM_eq_ok.mpr
      (.cons delegationRespToDelegation_signedStray (.cons delegationRespToDelegation_plain .nil))
  have hends := queryEnds_of_not_full staticChain_oneAnswer (by decide) hopen hconv
    (by decide +kernel) hfull
  have haccepts : [signedStrayDelegation, plainDelegation].filter
      ((emulator oneAnswer signer).accepts (world () 10000)) = [plainDelegation] := by
    have hstray : (emulator oneAnswer signer).accepts (world () 10000) signedStrayDelegation =
        false := rfl
    have hplain : (emulator oneAnswer signer).accepts (world () 10000) plainDelegation = true := by
      simp [Emulator.accepts, accepts_plain]
    simp [hstray, hplain]
  rwa [haccepts] at hends

theorem staticChain_node : StaticChain (node []) answers fun _ => params 10000 where
  delegations _ _ := rfl
  params _ _ := rfl

/-- The good delegation is returned without the empty response, and with it the query fails. -/
theorem rejected_hides_good :
    ¬ Isolated (emulator (node []) signer) oneRejected 1 (world () 10000) := by
  rintro ⟨o, o', hends, hends', hsame⟩
  have hopen : ∀ r ∈ (oneRejected.eraseIdx 1).values,
      ¬ Blocks (emulator (node []) signer) (world () 10000) r := by
    intro r hr
    obtain rfl : r = plainResponse [] := List.mem_singleton.mp hr
    exact not_blocks_iff.mpr ⟨true, judges_plainResponse (node [])⟩
  have hconv : Converts lib (oneRejected.eraseIdx 1) [plainDelegation] :=
    Outcome.mapM_eq_ok.mpr (.cons delegationRespToDelegation_plain .nil)
  obtain rfl := hends'.unique (queryEnds_of_not_full staticChain_node (by decide) hopen hconv
    (by decide +kernel) (not_fullPages (by decide) (by decide)))
  have hhalt : oneRejected.values.findSome?
      ((emulator (node []) signer).haltsAt (world () 10000)) =
        some (.error "staking tx should not be empty in delegation") := by
    have hplain : (emulator (node []) signer).haltsAt (world () 10000) (plainResponse []) =
        none := by
      rw [Emulator.haltsAt, judges_plainResponse]
      rfl
    have hempty : (emulator (node []) signer).haltsAt (world () 10000) emptyResponse =
        some (.error "staking tx should not be empty in delegation") := by
      rw [Emulator.haltsAt, Emulator.judges, judge]
      exact congrArg (fun o => Outcome.halt (o >>= _)) delegationRespToDelegation_empty
    have hvalues : oneRejected.values = [plainResponse [], emptyResponse] := rfl
    rw [hvalues]
    simp [hplain, hempty]
  obtain rfl := hends.unique
    (queryEnds_of_halt staticChain_node (by decide) (by decide +kernel) hhalt)
  cases hsame

end Sample

end CovenantEmulator
