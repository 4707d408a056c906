import CovenantEmulator.ClientController.Responses
import CovenantEmulator.Paging.Store

/-! The paged query for delegations of one status, and what it returns from an honest pager. -/
namespace CovenantEmulator

open Golang Paging

inductive BTCDelegationStatus where
  | pending | verified | active | unbonded | any | expired
  deriving DecidableEq, Repr

structure PageRequest where
  key : Bytes
  limit : UInt64
  deriving DecidableEq, Repr

structure PageResponse where
  nextKey : Bytes
  deriving DecidableEq, Repr

structure BTCDelegationsPage where
  btcDelegations : List BTCDelegationResponse
  pagination : Option PageResponse
  deriving DecidableEq, Repr

/-- The size of the elements of a `[]*types.Delegation`, in bytes. -/
def pointerSize : Nat := 8

/-- The filter may query the chain and fill the params cache. -/
abbrev FilterFn (τ : Type) := Delegation → Go τ Bool

/-- How a pass over one page ends: at the limit, or at the end of the page. -/
inductive Scan where
  | full (dels : List Delegation)
  | more (dels : List Delegation)
  deriving DecidableEq, Repr

/-- The delegations collected so far. -/
def Scan.dels : Scan → List Delegation
  | .full dels | .more dels => dels

/-- The builtin `min` at `uint64`. -/
def minUint64 (a b : UInt64) : UInt64 := if b < a then b else a

theorem toNat_minUint64 (a b : UInt64) : (minUint64 a b).toNat = min a.toNat b.toNat := by
  unfold minUint64
  split <;> rename_i h <;> rw [UInt64.lt_iff_toNat_lt] at h <;> omega

section
variable {τ : Type} (lib : BabylonLib)

def runFilter (filter : Option (FilterFn τ)) (del : Delegation) : Go τ Bool :=
  match filter with
  | some f => f del
  | none => pure true

/-- The inner loop. The counter `indexDels` of the source is the length of `dels`. -/
def scanPage (delsLimit : UInt64) (filter : Option (FilterFn τ)) :
    List BTCDelegationResponse → List Delegation → Go τ Scan
  | [], dels => pure (.more dels)
  | delResp :: rest, dels => do
    let del ← Go.lift (delegationRespToDelegation lib delResp)
    let accept ← runFilter filter del
    if accept = false then
      scanPage delsLimit filter rest dels
    else if (dels ++ [del]).length = delsLimit.toNat then
      pure (.full (dels ++ [del]))
    else
      scanPage delsLimit filter rest (dels ++ [del])

/-- The outer loop, one page for each unit of fuel. -/
def queryLoop (query : PageRequest → Go τ BTCDelegationsPage) (pgLimit delsLimit : UInt64)
    (filter : Option (FilterFn τ)) : Nat → Bytes → List Delegation → Go τ (List Delegation)
  | 0, _, _ => Go.lift .diverged
  | fuel + 1, key, dels =>
    if dels.length < delsLimit.toNat then do
      let res ← Go.wrap ("failed to query BTC delegations: " ++ ·) (query ⟨key, pgLimit⟩)
      let scan ← scanPage lib delsLimit filter res.btcDelegations dels
      match scan with
      | .full dels => pure dels
      | .more dels =>
        if res.btcDelegations.length ≠ pgLimit.toNat then pure dels
        else do
          let pagination ← Go.lift (.deref res.pagination)
          queryLoop query pgLimit delsLimit filter fuel pagination.nextKey dels
    else pure dels

/-- `queryDelegationsWithStatus`, with the page cap `MaxPaginationLimit` as an argument. -/
def queryDelegationsWithStatus (maxPaginationLimit : UInt64)
    (btcDelegations : BTCDelegationStatus → PageRequest → Go τ BTCDelegationsPage) (fuel : Nat)
    (status : BTCDelegationStatus) (delsLimit : UInt64) (filter : Option (FilterFn τ)) :
    Go τ (List Delegation) := do
  let dels ← Go.lift (.makeSlice pointerSize delsLimit.toNat)
  queryLoop lib (btcDelegations status) (minUint64 maxPaginationLimit delsLimit) delsLimit filter
    fuel [] dels

end

/-- What can be allocated has a length that is an `int`. -/
theorem lt_of_addressable {n : Nat} (h : Addressable pointerSize n) : n < 2 ^ 63 := by
  unfold Addressable pointerSize maxAlloc at h
  omega

section
variable {τ : Type} {lib : BabylonLib} {cap delsLimit : UInt64} {status : BTCDelegationStatus}
  {btcDelegations : BTCDelegationStatus → PageRequest → Go τ BTCDelegationsPage}
  {filter : Option (FilterFn τ)} {fuel : Nat}

/-- A list that can be allocated starts empty. -/
theorem queryDelegationsWithStatus_of_addressable
    (h : Addressable pointerSize delsLimit.toNat) :
    queryDelegationsWithStatus lib cap btcDelegations fuel status delsLimit filter =
      queryLoop lib (btcDelegations status) (minUint64 cap delsLimit) delsLimit filter fuel []
        [] := by
  rw [queryDelegationsWithStatus, Outcome.makeSlice_of_addressable h, Go.lift_ok_bind]

theorem queryDelegationsWithStatus_eq_ok {dels : List Delegation} {s s' : τ}
    (h : queryDelegationsWithStatus lib cap btcDelegations fuel status delsLimit filter s =
      (.ok dels, s')) :
    Addressable pointerSize delsLimit.toNat ∧
      queryLoop lib (btcDelegations status) (minUint64 cap delsLimit) delsLimit filter fuel []
        [] s = (.ok dels, s') := by
  obtain ⟨start, s₁, hmake, hloop⟩ := Go.bind_eq_ok.mp h
  obtain ⟨hstart, rfl⟩ := Go.lift_eq_ok.mp hmake
  obtain ⟨haddr, rfl⟩ := Outcome.makeSlice_eq_ok.mp hstart
  exact ⟨haddr, hloop⟩

end

/-- The value of the package variable. -/
def maxPaginationLimit : UInt64 := 1000

/-- Cosmos SDK pagination over one store for each status. -/
def honestPager {τ : Type} (stores : BTCDelegationStatus → Store BTCDelegationResponse)
    (status : BTCDelegationStatus) (req : PageRequest) : Go τ BTCDelegationsPage :=
  pure
    { btcDelegations := ((stores status).page req.key req.limit.toNat).1
      pagination := some ⟨((stores status).page req.key req.limit.toNat).2⟩ }

/-- A filter that decides without effects; a nil filter accepts everything. -/
def pureFilter {τ : Type} (accept : Option (Delegation → Bool)) : Option (FilterFn τ) :=
  accept.map fun f del => pure (f del)

def acceptedBy (accept : Option (Delegation → Bool)) (del : Delegation) : Bool :=
  match accept with
  | some f => f del
  | none => true

@[simp] theorem acceptedBy_some (f : Delegation → Bool) : acceptedBy (some f) = f := rfl

@[simp] theorem runFilter_pureFilter {τ : Type} (accept : Option (Delegation → Bool))
    (del : Delegation) (s : τ) :
    runFilter (pureFilter accept) del s = (.ok (acceptedBy accept del), s) := by
  cases accept <;> rfl

section
variable {τ : Type} {lib : BabylonLib} {delsLimit : UInt64} {dels : List Delegation} {s : τ}

/-- One pass over converted responses adds the accepted ones and stops at the limit. -/
theorem scanPage_pureFilter (accept : Option (Delegation → Bool))
    {rs : List BTCDelegationResponse} {ds : List Delegation}
    (hconv : rs.mapM (delegationRespToDelegation lib) = .ok ds)
    (hlt : dels.length < delsLimit.toNat) :
    scanPage lib delsLimit (pureFilter accept) rs dels s =
      (.ok (if delsLimit.toNat ≤ (dels ++ ds.filter (acceptedBy accept)).length
        then .full ((dels ++ ds.filter (acceptedBy accept)).take delsLimit.toNat)
        else .more (dels ++ ds.filter (acceptedBy accept))), s) := by
  induction rs generalizing ds dels with
  | nil =>
    cases hconv
    have hn : ¬ delsLimit.toNat ≤ dels.length := by omega
    simp [scanPage, hn]
  | cons r rs ih =>
    rw [List.mapM_cons] at hconv
    obtain ⟨d, hd, hconv⟩ := Outcome.bind_eq_ok.mp hconv
    obtain ⟨ds', hds, hconv⟩ := Outcome.bind_eq_ok.mp hconv
    cases hconv
    rw [scanPage, Go.bind_of_ok (by rw [Go.lift_apply, hd]),
      Go.bind_of_ok (runFilter_pureFilter accept d s)]
    cases ha : acceptedBy accept d with
    | false =>
      rw [if_pos rfl, ih hds hlt]
      simp [ha]
    | true =>
      have heq : dels ++ (d :: ds').filter (acceptedBy accept) =
          (dels ++ [d]) ++ ds'.filter (acceptedBy accept) := by simp [ha]
      rw [if_neg (by simp), heq]
      split
      · rename_i hfull
        rw [if_pos (by simp at hfull ⊢; omega), List.take_left' hfull]
        rfl
      · rename_i hmore
        exact ih hds (by simp at hmore ⊢; omega)

end

/-- How a filter that queries behaves: it keeps `I`, forgets nothing of `A`, and establishes `A`
for what it accepts among the responses that satisfy `B`. -/
def FilterKeeps {τ : Type} (lib : BabylonLib) (I : τ → Prop) (A : τ → Delegation → Prop)
    (B : BTCDelegationResponse → Prop) (f : FilterFn τ) : Prop :=
  ∀ r d s, B r → delegationRespToDelegation lib r = .ok d → I s →
    Triple (f d) s (fun b s' => I s' ∧ (∀ d', A s d' → A s' d') ∧ (b = true → A s' d)) I

section
variable {τ : Type} {lib : BabylonLib} {I : τ → Prop} {A : τ → Delegation → Prop}
  {B : BTCDelegationResponse → Prop} {f : FilterFn τ} {delsLimit : UInt64}

theorem scanPage_spec (hf : FilterKeeps lib I A B f) {rs : List BTCDelegationResponse}
    {dels : List Delegation} {s : τ} (hB : ∀ r ∈ rs, B r) (hI : I s) (hA : ∀ d ∈ dels, A s d) :
    Triple (scanPage lib delsLimit (some f) rs dels) s
      (fun scan s' => I s' ∧ ∀ d ∈ scan.dels, A s' d) I := by
  induction rs generalizing dels s with
  | nil => exact Triple.pure ⟨hI, hA⟩
  | cons r rs ih =>
    have hrest : ∀ r' ∈ rs, B r' := fun r' hr' => hB r' (List.mem_cons_of_mem _ hr')
    refine Triple.bind (Q := fun d s' => s = s' ∧ delegationRespToDelegation lib r = .ok d)
      (Triple.lift (fun d hd => ⟨rfl, hd⟩) hI) ?_
    rintro d _ ⟨rfl, hd⟩
    refine Triple.bind (hf r d s (hB r List.mem_cons_self) hd hI) ?_
    rintro accept s' ⟨hI', hmono, hacc⟩
    have hA' : ∀ d' ∈ dels, A s' d' := fun d' hd' => hmono d' (hA d' hd')
    cases accept with
    | false => exact ih hrest hI' hA'
    | true =>
      have hadd : ∀ d' ∈ dels ++ [d], A s' d' := by
        intro d' hd'
        rcases List.mem_append.mp hd' with hd' | hd'
        · exact hA' d' hd'
        · rw [List.mem_singleton.mp hd']
          exact hacc rfl
      rw [if_neg (by simp)]
      split
      · exact Triple.pure ⟨hI', hadd⟩
      · exact ih hrest hI' hadd

/-- Every delegation the paged query returns was accepted, and is still as accepted at the end. -/
theorem queryLoop_spec {query : PageRequest → Go τ BTCDelegationsPage} {pgLimit : UInt64}
    (hf : FilterKeeps lib I A B f)
    (hquery : ∀ req s, I s → Triple (query req) s (fun page s' =>
      I s' ∧ (∀ d, A s d → A s' d) ∧ ∀ r ∈ page.btcDelegations, B r) I)
    {fuel : Nat} {key : Bytes} {dels : List Delegation} {s : τ} (hI : I s)
    (hA : ∀ d ∈ dels, A s d) :
    Triple (queryLoop lib query pgLimit delsLimit (some f) fuel key dels) s
      (fun dels s' => I s' ∧ ∀ d ∈ dels, A s' d) I := by
  induction fuel generalizing key dels s with
  | zero => exact hI
  | succ fuel ih =>
    rw [queryLoop]
    split
    · refine Triple.bind (Triple.wrap (hquery _ s hI)) ?_
      rintro page s₁ ⟨hI₁, hmono, hB⟩
      refine Triple.bind (scanPage_spec hf hB hI₁ fun d hd => hmono d (hA d hd)) ?_
      rintro scan s₂ ⟨hI₂, hA₂⟩
      cases scan with
      | full dels => exact Triple.pure ⟨hI₂, hA₂⟩
      | more dels =>
        dsimp only
        split
        · exact Triple.pure ⟨hI₂, hA₂⟩
        · refine Triple.bind (Q := fun _ s' => s₂ = s') (Triple.lift (fun _ _ => rfl) hI₂) ?_
          rintro pagination _ rfl
          exact ih hI₂ hA₂
    · exact Triple.pure ⟨hI, hA⟩

end

end CovenantEmulator
