import CovenantEmulator.Golang.Relate
import CovenantEmulator.ClientController.QueryTotal

/-! The paged query under a filter that reads the chain: it sees only the filter's verdicts, and
stops at the first response that has none. -/
namespace CovenantEmulator

open Golang Paging

/-- Two filters that decide alike and keep their states related. -/
def DecideAlike {τ υ : Type} (J : τ → υ → Prop) (f : FilterFn τ) (g : FilterFn υ)
    (d : Delegation) : Prop :=
  ∀ s t, J s t → Relates (f d) (g d) s t (fun b s' b' t' => b = b' ∧ J s' t') J

section
variable {τ υ : Type} {lib : BabylonLib} {J : τ → υ → Prop} {f : FilterFn τ} {g : FilterFn υ}
  {stores : BTCDelegationStatus → Store BTCDelegationResponse} {status : BTCDelegationStatus}
  {pgLimit delsLimit : UInt64} {dels : List Delegation} {s : τ} {t : υ}

theorem scanPage_relates {rs : List BTCDelegationResponse}
    (hf : ∀ r ∈ rs, ∀ d, delegationRespToDelegation lib r = .ok d → DecideAlike J f g d)
    (hJ : J s t) :
    Relates (scanPage lib delsLimit (some f) rs dels) (scanPage lib delsLimit (some g) rs dels) s t
      (fun a s' b t' => a = b ∧ J s' t') J := by
  induction rs generalizing dels s t with
  | nil => exact .pure ⟨rfl, hJ⟩
  | cons r rs ih =>
    have hrest : ∀ r' ∈ rs, ∀ d, delegationRespToDelegation lib r' = .ok d →
        DecideAlike J f g d := fun r' hr' => hf r' (List.mem_cons_of_mem _ hr')
    refine Relates.bind (Q := fun d s' d' t' => d = d' ∧ J s' t' ∧
      delegationRespToDelegation lib r = .ok d) (.lift (fun d hd => ⟨rfl, hJ, hd⟩) hJ) ?_
    rintro d s₁ _ t₁ ⟨rfl, hJ₁, hd⟩
    refine Relates.bind (hf r List.mem_cons_self d hd s₁ t₁ hJ₁) ?_
    rintro accept s₂ _ t₂ ⟨rfl, hJ₂⟩
    split
    · exact ih hrest hJ₂
    · split
      · exact .pure ⟨rfl, hJ₂⟩
      · exact ih hrest hJ₂

/-- The query does not see more of a filter than its verdicts on the responses of the pages. -/
theorem queryLoop_pages_relates {q : PageRequest → Go τ BTCDelegationsPage}
    {q' : PageRequest → Go υ BTCDelegationsPage} {B : BTCDelegationResponse → Prop}
    (hq : ∀ req s t, J s t → Relates (q req) (q' req) s t
      (fun p s' p' t' => p = p' ∧ J s' t' ∧ ∀ r ∈ p.btcDelegations, B r) J)
    (hf : ∀ r, B r → ∀ d, delegationRespToDelegation lib r = .ok d → DecideAlike J f g d)
    (pgLimit delsLimit : UInt64) (fuel : ℕ) (key : Bytes) (dels : List Delegation) (hJ : J s t) :
    Relates (queryLoop lib q pgLimit delsLimit (some f) fuel key dels)
      (queryLoop lib q' pgLimit delsLimit (some g) fuel key dels) s t
      (fun a s' b t' => a = b ∧ J s' t') J := by
  induction fuel generalizing key dels s t with
  | zero => exact .diverged hJ
  | succ fuel ih =>
    rw [queryLoop, queryLoop]
    split
    · refine Relates.bind (.wrap (hq _ s t hJ)) ?_
      rintro page s₁ _ t₁ ⟨rfl, hJ₁, hpage⟩
      refine Relates.bind (scanPage_relates (fun r hr => hf r (hpage r hr)) hJ₁) ?_
      rintro scan s₂ _ t₂ ⟨rfl, hJ₂⟩
      cases scan with
      | full dels => exact .pure ⟨rfl, hJ₂⟩
      | more dels =>
        dsimp only
        split
        · exact .pure ⟨rfl, hJ₂⟩
        · refine Relates.bind (Q := fun p s' p' t' => p = p' ∧ J s' t')
            (.lift (fun p _ => ⟨rfl, hJ₂⟩) hJ₂) ?_
          rintro pagination s₃ _ t₃ ⟨rfl, hJ₃⟩
          exact ih _ _ hJ₃
    · exact .pure ⟨rfl, hJ⟩

theorem queryLoop_relates
    (hf : ∀ r ∈ (stores status).values, ∀ d, delegationRespToDelegation lib r = .ok d →
      DecideAlike J f g d) {key : Bytes} {fuel : ℕ} (hJ : J s t) :
    Relates (queryLoop lib (honestPager stores status) pgLimit delsLimit (some f) fuel key dels)
      (queryLoop lib (honestPager stores status) pgLimit delsLimit (some g) fuel key dels) s t
      (fun a s' b t' => a = b ∧ J s' t') J := by
  refine queryLoop_pages_relates (B := (· ∈ (stores status).values)) ?_ hf _ _ _ _ _ hJ
  intro req s t hJ
  exact .pure ⟨rfl, hJ, fun r hr => (stores status).mem_values_of_page hr⟩

end

section
variable {τ : Type} {lib : BabylonLib} {I : τ → Prop} {f : FilterFn τ}
  {verdict : Delegation → Outcome Bool}
  {stores : BTCDelegationStatus → Store BTCDelegationResponse} {status : BTCDelegationStatus}
  {pgLimit delsLimit : UInt64} {dels : List Delegation} {s : τ}

/-- What the filter says of a response. -/
def judge (lib : BabylonLib) (verdict : Delegation → Outcome Bool) (r : BTCDelegationResponse) :
    Outcome Bool := do
  let del ← delegationRespToDelegation lib r
  verdict del

/-- How the query ends at a response that has no verdict. -/
def haltAt (lib : BabylonLib) (verdict : Delegation → Outcome Bool) (r : BTCDelegationResponse) :
    Option Halt := (judge lib verdict r).halt

variable (hf : ∀ d s, I s → (f d s).1 = verdict d ∧ I (f d s).2)
include hf

theorem scanPage_cons_halt {r : BTCDelegationResponse} {rs : List BTCDelegationResponse} {h : Halt}
    (hhalt : haltAt lib verdict r = some h) (hI : I s) :
    (scanPage lib delsLimit (some f) (r :: rs) dels s).1 = h.outcome := by
  rw [scanPage]
  unfold haltAt judge at hhalt
  rcases Outcome.bind_halt.mp hhalt with hconv | ⟨d, hconv, hd⟩
  · have hlift : Go.lift (delegationRespToDelegation lib r) s = (h.outcome, s) :=
      Prod.ext (Outcome.halt_eq_some.mp hconv) rfl
    rw [Go.bind_of_halt hlift]
  · obtain ⟨hverdict, -⟩ := hf d s hI
    have hfilter : runFilter (some f) d s = (h.outcome, (f d s).2) :=
      Prod.ext (hverdict.trans (Outcome.halt_eq_some.mp hd)) rfl
    rw [Go.bind_of_ok (Go.lift_eq_ok.mpr ⟨hconv, rfl⟩), Go.bind_of_halt hfilter]

theorem scanPage_cons_verdict {r : BTCDelegationResponse} (rs : List BTCDelegationResponse)
    (hroom : dels.length + 1 < delsLimit.toNat) (hverdict : haltAt lib verdict r = none)
    (hI : I s) : ∃ dels' s', I s' ∧ dels'.length ≤ dels.length + 1 ∧
      scanPage lib delsLimit (some f) (r :: rs) dels s =
        scanPage lib delsLimit (some f) rs dels' s' := by
  obtain ⟨b, hb⟩ := Outcome.halt_eq_none.mp hverdict
  obtain ⟨d, hconv, hd⟩ := Outcome.bind_eq_ok.mp hb
  obtain ⟨hfilter, hkeep⟩ := hf d s hI
  have hrun : runFilter (some f) d s = (.ok b, (f d s).2) := Prod.ext (hfilter.trans hd) rfl
  rw [scanPage, Go.bind_of_ok (Go.lift_eq_ok.mpr ⟨hconv, rfl⟩), Go.bind_of_ok hrun]
  cases b with
  | false => exact ⟨dels, _, hkeep, Nat.le_succ _, by rw [if_pos rfl]⟩
  | true =>
    have hlen : (dels ++ [d]).length = dels.length + 1 := by simp
    refine ⟨dels ++ [d], _, hkeep, Nat.le_of_eq hlen, ?_⟩
    rw [if_neg (by simp), if_neg (by omega)]

/-- A pass ends at the first response that has no verdict. -/
theorem scanPage_halts {rs : List BTCDelegationResponse} {h : Halt}
    (hroom : dels.length + rs.length < delsLimit.toNat) (hI : I s)
    (hhalt : rs.findSome? (haltAt lib verdict) = some h) :
    (scanPage lib delsLimit (some f) rs dels s).1 = h.outcome := by
  induction rs generalizing dels s with
  | nil => cases hhalt
  | cons r rs ih =>
    rw [List.length_cons] at hroom
    cases hr : haltAt lib verdict r with
    | some h' =>
      rw [List.findSome?_cons_of_isSome (by rw [hr]; rfl), hr] at hhalt
      obtain rfl : h' = h := Option.some.inj hhalt
      exact scanPage_cons_halt hf hr hI
    | none =>
      have hroom' : dels.length + 1 < delsLimit.toNat := by omega
      obtain ⟨dels', s', hI', hlen, hscan⟩ := scanPage_cons_verdict hf rs hroom' hr hI
      rw [List.findSome?_cons_of_isNone (by rw [hr]; rfl)] at hhalt
      rw [hscan]
      exact ih (by omega) hI' hhalt

/-- A pass that has a verdict on every response, and room for all, gets to the end. -/
theorem scanPage_judges {rs : List BTCDelegationResponse}
    (hroom : dels.length + rs.length < delsLimit.toNat) (hI : I s)
    (hnone : rs.findSome? (haltAt lib verdict) = none) :
    ∃ dels' s', I s' ∧ dels'.length ≤ dels.length + rs.length ∧
      scanPage lib delsLimit (some f) rs dels s = (.ok (.more dels'), s') := by
  induction rs generalizing dels s with
  | nil => exact ⟨dels, s, hI, Nat.le_refl _, rfl⟩
  | cons r rs ih =>
    rw [List.length_cons] at hroom
    have hall := List.findSome?_eq_none_iff.mp hnone
    have hroom' : dels.length + 1 < delsLimit.toNat := by omega
    obtain ⟨dels₁, s₁, hI₁, hlen₁, hscan₁⟩ :=
      scanPage_cons_verdict hf rs hroom' (hall r List.mem_cons_self) hI
    have hroom₁ : dels₁.length + rs.length < delsLimit.toNat := by omega
    obtain ⟨dels', s', hI', hlen', hscan'⟩ := ih hroom₁ hI₁
      (List.findSome?_eq_none_iff.mpr fun r' hr' => hall r' (List.mem_cons_of_mem _ hr'))
    refine ⟨dels', s', hI', ?_, hscan₁.trans hscan'⟩
    rw [List.length_cons]
    omega

/-- The query ends at the first response from its cursor on that has no verdict. -/
theorem queryLoop_halts (hlimit : (stores status).values.length < delsLimit.toNat)
    (hg : 0 < pgLimit.toNat) {h : Halt} {key : Bytes} {n fuel : ℕ}
    (hkey : (stores status).startingAt key = (stores status).entries.drop n)
    (hlen : dels.length ≤ n) (hn : n ≤ (stores status).values.length)
    (hfuel : (stores status).values.length - n < fuel) (hI : I s)
    (hhalt : ((stores status).values.drop n).findSome? (haltAt lib verdict) = some h) :
    (queryLoop lib (honestPager stores status) pgLimit delsLimit (some f) fuel key dels s).1 =
      h.outcome := by
  induction fuel generalizing key n dels s with
  | zero => omega
  | succ fuel ih =>
    have hpage := (stores status).page_of_startingAt pgLimit.toNat hkey
    have hsplit := List.take_append_drop pgLimit.toNat ((stores status).values.drop n)
    have hpageLen : (((stores status).values.drop n).take pgLimit.toNat).length =
        min pgLimit.toNat ((stores status).values.length - n) := by simp
    have hroom : dels.length + (((stores status).values.drop n).take pgLimit.toNat).length <
        delsLimit.toNat := by
      rw [hpageLen]
      omega
    rw [queryLoop, if_pos (by omega)]
    simp only [honestPager, hpage]
    rw [Go.bind_of_ok (m := Go.wrap _ _) rfl]
    cases hfirst : (((stores status).values.drop n).take pgLimit.toNat).findSome?
        (haltAt lib verdict) with
    | some h' =>
      rw [← hsplit, List.findSome?_append, hfirst] at hhalt
      obtain rfl : h' = h := Option.some.inj hhalt
      have hscan := scanPage_halts hf hroom hI hfirst
      rw [Go.bind_of_halt (Prod.ext hscan rfl)]
    | none =>
      obtain ⟨dels', s', hI', hlen', hscan⟩ := scanPage_judges hf hroom hI hfirst
      rw [← hsplit, List.findSome?_append, hfirst, Option.none_or, List.drop_drop] at hhalt
      -- something is left after the page, so the page is full and its cursor points there
      have hin : n + pgLimit.toNat < (stores status).values.length := by
        by_contra hend
        rw [List.drop_eq_nil_of_le (by omega)] at hhalt
        cases hhalt
      rw [Go.bind_of_ok hscan]
      dsimp only
      rw [hpageLen] at hlen' ⊢
      rw [if_neg (by omega)]
      exact ih ((stores status).startingAt_cursor (by rwa [← (stores status).length_values]))
        (by omega) (by omega) (by omega) hI' hhalt

end

end CovenantEmulator
