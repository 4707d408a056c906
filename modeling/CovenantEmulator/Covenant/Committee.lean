import CovenantEmulator.Backlog.Shared
import CovenantEmulator.Covenant.Growth
import CovenantEmulator.Transition.Runs
import Mathlib.Logic.Function.Basic

/-! The covenant committee: emulators that share a chain, each between a query and the batches this
left it, in any order. A delegation that a quorum of them can sign leaves the pending list. -/
namespace CovenantEmulator

open Golang Paging Backlog Transition

/-- The chain, and of each member the cache, the trace and the batches left of its tick. -/
structure CommitteeState (σ ι : Type) where
  env : σ
  cache : ι → UInt32 → Option StakingParams
  trace : ι → List Event
  todo : ι → List (List Delegation)

inductive CommitteeEvent (ι : Type) where
  | member (i : ι)
  | outside

/-- The members' emulators, and what else happens on the chain: signatures of members that run other
software, delegations that come and go. -/
structure Committee (σ ι : Type) where
  ce : ι → Emulator σ
  fuel : ℕ
  outside : σ → σ → Prop

section
variable {σ ι : Type}

namespace CommitteeState

def world (s : CommitteeState σ ι) (i : ι) : World σ := ⟨s.env, s.cache i, s.trace i⟩

variable [DecidableEq ι]

def put (s : CommitteeState σ ι) (i : ι) (todo : List (List Delegation)) (w : World σ) :
    CommitteeState σ ι where
  env := w.env
  cache := Function.update s.cache i w.paramsByVersion
  trace := Function.update s.trace i w.trace
  todo := Function.update s.todo i todo

theorem world_put (s : CommitteeState σ ι) (i : ι) (todo : List (List Delegation)) (w : World σ) :
    (s.put i todo w).world i = w := by
  simp [world, put]

theorem todo_put (s : CommitteeState σ ι) (i : ι) (todo : List (List Delegation)) (w : World σ) :
    (s.put i todo w).todo i = todo := by
  simp [put]

theorem cache_put_of_ne {s : CommitteeState σ ι} {i j : ι} (h : j ≠ i)
    (todo : List (List Delegation)) (w : World σ) : (s.put i todo w).cache j = s.cache j := by
  simp [put, h]

theorem todo_put_of_ne {s : CommitteeState σ ι} {i j : ι} (h : j ≠ i)
    (todo : List (List Delegation)) (w : World σ) : (s.put i todo w).todo j = s.todo j := by
  simp [put, h]

end CommitteeState

/-- One member goes on to its next access to the chain, or something else happens there. -/
inductive Committee.Step [DecidableEq ι] (C : Committee σ ι) (s : CommitteeState σ ι) :
    CommitteeEvent ι → CommitteeState σ ι → Prop
  | member {i : ι} {todo : List (List Delegation)} {w : World σ}
    (h : (C.ce i).loopStep C.fuel (s.todo i) (s.world i) = (.ok todo, w)) :
    C.Step s (.member i) (s.put i todo w)
  | outside {env : σ} (h : C.outside s.env env) : C.Step s .outside { s with env := env }

end

/-- Chain and signer serve every member. -/
structure Committee.Served {σ ι : Type} (C : Committee σ ι) (lib : BabylonLib)
    (answers : String → Except String Delegation) (params P : UInt32 → StakingParams)
    (sign : ι → SigningRequest → Except String SignaturesResponse)
    (pending : σ → Store BTCDelegationResponse) (w₀ : ι → World σ) : Prop where
  lib : ∀ i, (C.ce i).lib = lib
  serving : ∀ i, Serving (C.ce i) answers params (sign i) pending
  knows : ∀ i, Knows params P (w₀ i)
  limit_pos : ∀ i, 0 < (C.ce i).delegationLimit.toNat
  addressable : ∀ i, Addressable pointerSize (C.ce i).delegationLimit.toNat
  batchSize : ∀ i, 1 ≤ (C.ce i).sigsBatchSize.toNat

/-- The chain keeps the signatures that one message brought together. -/
def Together (r : BTCDelegationResponse) : Prop :=
  ∀ sigs ∈ r.covenantSigs, ∃ u, r.undelegationResponse = some u ∧
    ∃ sig ∈ u.covenantUnbondingSigList, sig.pk = sigs.covPk

/-- The pending delegations of one moment: each converts and is decided by every member, none is
registered twice, and none has its quorum, as that ends its being pending. -/
structure Committee.Calm {σ ι : Type} (C : Committee σ ι) (lib : BabylonLib)
    (answers : String → Except String Delegation) (P : UInt32 → StakingParams)
    (sign : ι → SigningRequest → Except String SignaturesResponse) (w₀ : ι → World σ)
    (S : Store BTCDelegationResponse) : Prop where
  opens : ∀ i, ∀ r ∈ S.values, ¬ Blocks (C.ce i) (w₀ i) r
  distinct : (S.values.map (·.stakingTxHex)).Pairwise (Apart lib)
  fuel_gt : S.values.length < C.fuel
  ends : ∀ i, ¬ FullPages (C.ce i) S
  quiet : ∀ i, ∀ d ∈ (C.ce i).waiting (w₀ i) S.values,
    ¬ (signatureFor (C.ce i) (fun v => some (P v)) answers (sign i) d).Panics
  unfulfilled : ∀ r ∈ S.values, ∀ d, delegationRespToDelegation lib r = .ok d →
    d.hasCovenantQuorum (P d.paramsVersion).covenantQuorum ≠ .ok true
  together : ∀ r ∈ S.values, Together r

section
variable {σ ι : Type} (C : Committee σ ι) (lib : BabylonLib)
  (answers : String → Except String Delegation) (params P : UInt32 → StakingParams)
  (sign : ι → SigningRequest → Except String SignaturesResponse)
  (pending : σ → Store BTCDelegationResponse) (w₀ : ι → World σ)

/-- What a member needs for a delegation it has fetched. -/
structure Committee.Fit (i : ι) (cache : UInt32 → Option StakingParams) (d : Delegation) :
    Prop where
  cached : Cached cache answers d
  quiet : ¬ (signatureFor (C.ce i) (fun v => some (P v)) answers (sign i) d).Panics
  unfulfilled : d.hasCovenantQuorum (P d.paramsVersion).covenantQuorum ≠ .ok true

/-- What it needs for the batches it has left. -/
structure Committee.Ready (i : ι) (w : World σ) (todo : List (List Delegation)) : Prop where
  knows : Knows params P w
  nonempty : ∀ batch ∈ todo, batch ≠ []
  few : todo.flatten.length < 2 ^ 63
  fit : ∀ d ∈ todo.flatten, C.Fit answers P sign i w.paramsByVersion d

/-- What the step of a member does: it fetches batches or submits one. -/
inductive Committee.Acts (s : CommitteeState σ ι) (i : ι) :
    List (List Delegation) → World σ → Prop
  | fetches {batches : List (List Delegation)} {w : World σ} (htodo : s.todo i = [])
    (h : Fetched (C.ce i) answers params P pending (w₀ i) batches (s.world i) w) :
    Committee.Acts s i batches w
  | submits {batch : List Delegation} {batches : List (List Delegation)} {w : World σ}
    (htodo : s.todo i = batch :: batches)
    (h : CovenantEmulator.Served (C.ce i) pending
      (batch.filterMap (entryFor (C.ce i) (fun v => some (P v)) answers (sign i)))
      (s.world i) w) : Committee.Acts s i batches w

end

section
variable {σ ι : Type} [DecidableEq ι] {C : Committee σ ι} {lib : BabylonLib}
  {answers : String → Except String Delegation} {params P : UInt32 → StakingParams}
  {sign : ι → SigningRequest → Except String SignaturesResponse}
  {pending : σ → Store BTCDelegationResponse} {w₀ : ι → World σ}
  {s s' : CommitteeState σ ι} {i j : ι}
  (hC : C.Served lib answers params P sign pending w₀)

section
include hC

omit [DecidableEq ι] in
theorem Committee.Served.acts (hcalm : C.Calm lib answers P sign w₀ (pending s.env))
    (hready : C.Ready answers params P sign i (s.world i) (s.todo i)) :
    ∃ todo w, (C.ce i).loopStep C.fuel (s.todo i) (s.world i) = (.ok todo, w) ∧
      C.Acts answers params P sign pending w₀ s i todo w := by
  cases htodo : s.todo i with
  | nil =>
    obtain ⟨batches, w, hstep, hfetched⟩ := (hC.serving i).fetch (hC.knows i) (hC.limit_pos i)
      (hC.addressable i) (hC.batchSize i) hready.knows (hcalm.opens i) (hcalm.ends i) hcalm.fuel_gt
    exact ⟨batches, w, hstep, .fetches htodo hfetched⟩
  | cons batch batches =>
    rw [htodo] at hready
    have hfit : ∀ d ∈ batch, C.Fit answers P sign i (s.world i).paramsByVersion d :=
      fun d hd => hready.fit d (List.mem_append_left _ hd)
    have hfew := hready.few
    rw [List.flatten_cons, List.length_append] at hfew
    obtain ⟨res, w, hcall, hserved⟩ := (hC.serving i).addCovenantSignatures hready.knows
      (fun d hd => (hfit d hd).cached) (fun d hd => (hfit d hd).quiet)
      (hready.nonempty batch List.mem_cons_self) (by omega)
    refine ⟨batches, w, ?_, .submits htodo hserved⟩
    rw [Emulator.loopStep, Go.bind_of_ok hcall]
    rfl

/-- A member can always go on. -/
theorem Committee.Served.enabled (hcalm : C.Calm lib answers P sign w₀ (pending s.env))
    (hready : C.Ready answers params P sign i (s.world i) (s.todo i)) :
    Enabled C.Step (.member i) s := by
  obtain ⟨todo, w, hstep, -⟩ := hC.acts hcalm hready
  exact ⟨_, .member hstep⟩

theorem Committee.Served.member_acts (hcalm : C.Calm lib answers P sign w₀ (pending s.env))
    (hready : C.Ready answers params P sign i (s.world i) (s.todo i))
    (hstep : C.Step s (.member i) s') :
    ∃ todo w, s' = s.put i todo w ∧ C.Acts answers params P sign pending w₀ s i todo w := by
  obtain ⟨todo, w, hrun, hacts⟩ := hC.acts hcalm hready
  cases hstep with
  | member h =>
    rw [hrun] at h
    cases h
    exact ⟨todo, w, rfl, hacts⟩

omit [DecidableEq ι] in
/-- The member that moves keeps what it needs. -/
theorem Committee.Served.ready_of_acts (hcalm : C.Calm lib answers P sign w₀ (pending s.env))
    (hready : C.Ready answers params P sign i (s.world i) (s.todo i))
    {todo : List (List Delegation)} {w : World σ}
    (hacts : C.Acts answers params P sign pending w₀ s i todo w) :
    C.Ready answers params P sign i w todo := by
  cases hacts with
  | fetches htodo h =>
    have hlimit := lt_of_addressable (hC.addressable i)
    refine ⟨h.knows, h.nonempty, ?_, fun d hd => ?_⟩
    · rw [h.flatten, List.length_take]
      omega
    · have hwaits := hd
      rw [h.flatten] at hwaits
      have hmem := List.mem_of_mem_take hwaits
      obtain ⟨r, hr, hwait⟩ := List.mem_filterMap.mp hmem
      have hconv := (waits_eq_some hwait).1
      rw [hC.lib i] at hconv
      exact ⟨h.cached d hd, hcalm.quiet i d hmem, hcalm.unfulfilled r hr d hconv⟩
  | submits htodo h =>
    rw [htodo] at hready
    have hfew := hready.few
    rw [List.flatten_cons, List.length_append] at hfew
    refine ⟨hready.knows.of_cache_eq h.cache, ?_, by omega, fun d hd => ?_⟩
    · exact fun batch hb => hready.nonempty batch (List.mem_cons_of_mem _ hb)
    · rw [h.cache]
      exact hready.fit d (List.mem_append_right _ hd)

/-- The members keep what they need, whoever moves. -/
theorem Committee.Served.ready_step {e : CommitteeEvent ι}
    (hcalm : C.Calm lib answers P sign w₀ (pending s.env))
    (hready : ∀ i, C.Ready answers params P sign i (s.world i) (s.todo i))
    (hstep : C.Step s e s') (j : ι) :
    C.Ready answers params P sign j (s'.world j) (s'.todo j) := by
  have hj := hready j
  cases e with
  | outside =>
    cases hstep with
    | outside _ => exact ⟨hj.knows.of_cache_eq rfl, hj.nonempty, hj.few, hj.fit⟩
  | member i =>
    obtain ⟨todo, w, rfl, hacts⟩ := hC.member_acts hcalm (hready i) hstep
    by_cases hji : j = i
    · subst hji
      rw [CommitteeState.world_put, CommitteeState.todo_put]
      exact hC.ready_of_acts hcalm hj hacts
    · have hcache := CommitteeState.cache_put_of_ne (s := s) hji todo w
      rw [CommitteeState.todo_put_of_ne hji]
      refine ⟨hj.knows.of_cache_eq hcache, hj.nonempty, hj.few, fun d hd => ?_⟩
      change C.Fit answers P sign j ((s.put i todo w).cache j) d
      rw [hcache]
      exact hj.fit d hd

end

end

section
variable {σ ι : Type} (C : Committee σ ι) (lib : BabylonLib)
  (pending : σ → Store BTCDelegationResponse) (w₀ : ι → World σ) (hash : Hash)

/-- What waits for the member ahead of the delegation, and what it has fetched, signatures apart. -/
def Committee.desk (s : CommitteeState σ ι) (i : ι) : Desk Delegation where
  ahead := ((C.ce i).waiting (w₀ i) (aheadOf lib hash (pending s.env).values)).map (·.bare)
  todo := (s.todo i).map (·.map (·.bare))

/-- The delegation is pending and waits for the signature of the member. -/
def Committee.Waits (s : CommitteeState σ ι) (i : ι) (d : Delegation) : Prop :=
  ∃ r d', pendingOf lib hash (pending s.env).values = some r ∧
    (C.ce i).waits (w₀ i) r = some d' ∧ d'.bare = d

end

section
variable {σ : Type} {ce : Emulator σ} {answers : String → Except String Delegation}
  {P : UInt32 → StakingParams} {sign : SigningRequest → Except String SignaturesResponse}
  {pending : σ → Store BTCDelegationResponse} {w w' w₀ : World σ} {lib : BabylonLib} {hash : Hash}
  {d d' : Delegation} {r : BTCDelegationResponse} {rs rs' : List BTCDelegationResponse}

/-- What was submitted does not wait any more. -/
theorem Served.bare_ne {batch : List Delegation}
    (h : Served ce pending (batch.filterMap (entryFor ce (fun v => some (P v)) answers sign)) w w')
    (hlift : ce.lib.LiftsToEven ce.pk)
    (hopen : ∀ r ∈ (pending w.env).values, ¬ Blocks ce w₀ r) (hd : d ∈ batch)
    (hsignable : signable ce P answers sign d = true)
    (hd' : d' ∈ ce.waiting w₀ (pending w'.env).values) : d'.bare ≠ d.bare := by
  intro hbare
  rw [(h.takes.waiting hlift hopen).2, List.mem_filter] at hd'
  obtain ⟨entry, hentry⟩ := Option.isSome_iff_exists.mp hsignable
  have hhex : d'.bare.stakingTxHex = d.bare.stakingTxHex := by rw [hbare]
  have hstakes : stakesOneOf ce.lib
      ((batch.filterMap (entryFor ce (fun v => some (P v)) answers sign)).map (·.stakingTxHash))
      d'.stakingTxHex = true := by
    refine stakesOneOf_iff.mpr ⟨entry.stakingTxHash, ?_, ?_⟩
    · exact List.mem_map_of_mem (List.mem_filterMap.mpr ⟨d, hd, hentry⟩)
    · exact (congrArg (hashOfHex ce.lib) hhex).trans (entryFor_spec hentry).2
  rw [hstakes] at hd'
  cases hd'.2

theorem mem_waiting_of_waits (hr : r ∈ rs) (h : ce.waits w r = some d) : d ∈ ce.waiting w rs :=
  List.mem_filterMap.mpr ⟨r, hr, h⟩

theorem mem_of_mem_aheadOf (h : r ∈ aheadOf lib hash rs) : r ∈ rs :=
  (List.takeWhile_sublist _).subset h

theorem mem_waiting_of_ahead (h : d ∈ ce.waiting w (aheadOf lib hash rs)) :
    d ∈ ce.waiting w rs := by
  obtain ⟨r, hr, hd⟩ := List.mem_filterMap.mp h
  exact mem_waiting_of_waits (mem_of_mem_aheadOf hr) hd

/-- What waits is what waits ahead of the delegation, the delegation, and what is behind it. -/
theorem waiting_split (hr : pendingOf lib hash rs = some r) (hd : ce.waits w r = some d) :
    ∃ behind, ce.waiting w rs = ce.waiting w (aheadOf lib hash rs) ++ d :: behind := by
  obtain ⟨behind, hbehind⟩ := eq_append_of_pendingOf hr
  refine ⟨ce.waiting w behind, ?_⟩
  conv_lhs => rw [hbehind]
  rw [Emulator.waiting, List.filterMap_append, List.filterMap_cons, hd]
  rfl

end

section
variable {σ ι : Type} [DecidableEq ι] {C : Committee σ ι} {lib : BabylonLib}
  {answers : String → Except String Delegation} {params P : UInt32 → StakingParams}
  {sign : ι → SigningRequest → Except String SignaturesResponse}
  {pending : σ → Store BTCDelegationResponse} {w₀ : ι → World σ} {hash : Hash}
  {s s' : CommitteeState σ ι} {i : ι} {d : Delegation} {e : CommitteeEvent ι}

omit [DecidableEq ι] in
/-- Whoever moves, a delegation waits only if it did before. -/
theorem Committee.Waits.before (h : Shifts lib hash (pending s.env).values (pending s'.env).values)
    (hcalm : C.Calm lib answers P sign w₀ (pending s.env))
    (hwaits : C.Waits lib pending w₀ hash s' i d) : C.Waits lib pending w₀ hash s i d := by
  obtain ⟨r', d', hr', hd', rfl⟩ := hwaits
  obtain ⟨r, hr, hgrown, -⟩ := h r' hr'
  obtain ⟨d, hd, hbare⟩ := hgrown.waits (hcalm.opens i r (mem_of_pendingOf hr)) hd'
  exact ⟨r, d, hr, hd, hbare.symm⟩

omit [DecidableEq ι] in
theorem Committee.Waits.ahead_sublist
    (h : Shifts lib hash (pending s.env).values (pending s'.env).values)
    (hcalm : C.Calm lib answers P sign w₀ (pending s.env))
    (hwaits : C.Waits lib pending w₀ hash s' i d) :
    (C.desk lib pending w₀ hash s' i).ahead.Sublist (C.desk lib pending w₀ hash s i).ahead := by
  obtain ⟨r', d', hr', -⟩ := hwaits
  obtain ⟨r, hr, -, hahead⟩ := h r' hr'
  exact waiting_bare_sublist (fun r hr => hcalm.opens i r (mem_of_mem_aheadOf hr)) hahead

variable (hC : C.Served lib answers params P sign pending w₀)
include hC

/-- A step of a member or of the chain shifts the pending delegations. -/
theorem Committee.Served.shifts
    (houtside : ∀ env env', C.outside env env' →
      Shifts lib hash (pending env).values (pending env').values)
    (hcalm : C.Calm lib answers P sign w₀ (pending s.env))
    (hready : ∀ i, C.Ready answers params P sign i (s.world i) (s.todo i))
    (hstep : C.Step s e s') : Shifts lib hash (pending s.env).values (pending s'.env).values := by
  cases e with
  | outside =>
    cases hstep with
    | outside h => exact houtside _ _ h
  | member i =>
    obtain ⟨todo, w, rfl, hacts⟩ := hC.member_acts hcalm (hready i) hstep
    cases hacts with
    | fetches _ h =>
      have hsame : pending (s.put i todo w).env = pending s.env := h.pending
      rw [hsame]
      exact .refl _ _ _
    | submits _ h =>
      have htakes := h.takes
      rw [hC.lib i] at htakes
      exact htakes.shifts hcalm.distinct

/-- The steps of a member bring it closer to a delegation that it can sign. -/
theorem Committee.Served.rank_member
    (hcalm : C.Calm lib answers P sign w₀ (pending s.env))
    (hready : C.Ready answers params P sign i (s.world i) (s.todo i))
    (hstep : C.Step s (.member i) s') (hshift : Shifts lib hash (pending s.env).values
      (pending s'.env).values)
    (hwaits : C.Waits lib pending w₀ hash s i d) (hwaits' : C.Waits lib pending w₀ hash s' i d)
    (hsignable : signable (C.ce i) P answers (sign i) d = true)
    (hfew : (C.desk lib pending w₀ hash s i).ahead.countP
      (fun x => !signable (C.ce i) P answers (sign i) x) < (C.ce i).delegationLimit.toNat) :
    (C.desk lib pending w₀ hash s' i).rank (C.ce i).delegationLimit.toNat
        (signable (C.ce i) P answers (sign i)) d <
      (C.desk lib pending w₀ hash s i).rank (C.ce i).delegationLimit.toNat
        (signable (C.ce i) P answers (sign i)) d := by
  have hsub := hwaits'.ahead_sublist hshift hcalm
  obtain ⟨todo, w, rfl, hacts⟩ := hC.member_acts hcalm hready hstep
  cases hacts with
  | fetches htodo h =>
    obtain ⟨r, d', hr, hd', rfl⟩ := hwaits
    obtain ⟨behind, hsplit⟩ := waiting_split hr hd'
    have hsame : pending (s.put i todo w).env = pending s.env := h.pending
    have hflat : (todo.map (·.map (·.bare))).flatten =
        (((C.ce i).waiting (w₀ i) (aheadOf lib hash (pending s.env).values)).map (·.bare) ++
          d'.bare :: behind.map (·.bare)).take (C.ce i).delegationLimit.toNat := by
      rw [← List.map_flatten, h.flatten]
      change (((C.ce i).waiting (w₀ i) (pending s.env).values).take _).map _ = _
      rw [hsplit, ← List.map_cons, ← List.map_append, List.map_take]
    unfold Committee.desk
    rw [hsame, htodo, CommitteeState.todo_put]
    refine Desk.rank_fetch hflat ?_ hfew
    intro batch hbatch
    obtain ⟨batch', hmem, rfl⟩ := List.mem_map.mp hbatch
    simpa using h.nonempty batch' hmem
  | @submits batch _ _ htodo h =>
    have hgone : ∀ x ∈ batch.map (·.bare), signable (C.ce i) P answers (sign i) x = true →
        ∀ d' ∈ (C.ce i).waiting (w₀ i) (pending w.env).values, d'.bare ≠ x := by
      intro x hx hgood d' hd'
      obtain ⟨b, hb, rfl⟩ := List.mem_map.mp hx
      have hfit := hready.fit b (by rw [htodo]; exact List.mem_append_left _ hb)
      rw [signable_bare hfit.unfulfilled] at hgood
      exact h.bare_ne (hC.serving i).lifts (hcalm.opens i) hb hgood hd'
    have hdesk : C.desk lib pending w₀ hash s i =
        ⟨(C.desk lib pending w₀ hash s i).ahead,
          batch.map (·.bare) :: todo.map (·.map (·.bare))⟩ := by
      simp [Committee.desk, htodo]
    have hdesk' : C.desk lib pending w₀ hash (s.put i todo w) i =
        ⟨(C.desk lib pending w₀ hash (s.put i todo w) i).ahead, todo.map (·.map (·.bare))⟩ := by
      simp [Committee.desk, CommitteeState.todo_put]
    rw [hdesk, hdesk']
    refine Desk.rank_serve hsub (fun x hx hgood hmem => ?_) fun hmem => ?_
    · obtain ⟨d', hd', hbare⟩ := List.mem_map.mp hmem
      exact hgone x hx hgood d' (mem_waiting_of_ahead hd') hbare
    · obtain ⟨r, d', hr, hd', hbare⟩ := hwaits'
      exact hgone d hmem hsignable d' (mem_waiting_of_waits (mem_of_pendingOf hr) hd') hbare

/-- The others do not set it back. -/
theorem Committee.Served.rank_other (hcalm : C.Calm lib answers P sign w₀ (pending s.env))
    (hready : ∀ i, C.Ready answers params P sign i (s.world i) (s.todo i))
    (hstep : C.Step s e s') (he : e ≠ .member i)
    (hshift : Shifts lib hash (pending s.env).values (pending s'.env).values)
    (hwaits' : C.Waits lib pending w₀ hash s' i d) (limit : ℕ) (good : Delegation → Bool) :
    (C.desk lib pending w₀ hash s' i).rank limit good d ≤
      (C.desk lib pending w₀ hash s i).rank limit good d := by
  have hsub := hwaits'.ahead_sublist hshift hcalm
  have htodo : s'.todo i = s.todo i := by
    cases e with
    | outside =>
      cases hstep with
      | outside _ => rfl
    | member j =>
      obtain ⟨todo, w, rfl, -⟩ := hC.member_acts hcalm (hready j) hstep
      have hij : i ≠ j := fun hij => he (congrArg CommitteeEvent.member hij.symm)
      exact CommitteeState.todo_put_of_ne hij _ _
  unfold Committee.desk at hsub ⊢
  rw [htodo]
  exact Desk.rank_le_of_sublist hsub

end

/-- A run of the committee, with the chain as the members need it all the way. Nothing is added to
the pending list ahead of the delegation. -/
structure Committee.SteadyRun {σ ι : Type} [DecidableEq ι] (C : Committee σ ι) (lib : BabylonLib)
    (answers : String → Except String Delegation) (params P : UInt32 → StakingParams)
    (sign : ι → SigningRequest → Except String SignaturesResponse)
    (pending : σ → Store BTCDelegationResponse) (hash : Hash)
    (run : Run (CommitteeState σ ι) (CommitteeEvent ι)) : Prop where
  served : C.Served lib answers params P sign pending (run.state 0).world
  starts : ∀ i, (run.state 0).todo i = []
  valid : run.Valid C.Step
  calm : ∀ n, C.Calm lib answers P sign (run.state 0).world (pending (run.state n).env)
  outside : ∀ env env', C.outside env env' →
    Shifts lib hash (pending env).values (pending env').values

section
variable {σ ι : Type} [DecidableEq ι] {C : Committee σ ι} {lib : BabylonLib}
  {answers : String → Except String Delegation} {params P : UInt32 → StakingParams}
  {sign : ι → SigningRequest → Except String SignaturesResponse}
  {pending : σ → Store BTCDelegationResponse} {hash : Hash}
  {run : Run (CommitteeState σ ι) (CommitteeEvent ι)} {i : ι} {d : Delegation}
  {own : CommitteeEvent ι → Prop} {m n : ℕ}

namespace Committee.SteadyRun

variable (h : C.SteadyRun lib answers params P sign pending hash run)
include h

theorem ready (n : ℕ) (i : ι) :
    C.Ready answers params P sign i ((run.state n).world i) ((run.state n).todo i) := by
  induction n generalizing i with
  | zero =>
    rw [h.starts i]
    exact ⟨h.served.knows i, by simp, by simp, by simp⟩
  | succ n ih =>
    rcases h.valid.succ n with heq | ⟨e, -, hstep⟩
    · rw [heq]
      exact ih i
    · exact h.served.ready_step (h.calm n) ih hstep i

theorem shifts (n : ℕ) : Shifts lib hash (pending (run.state n).env).values
    (pending (run.state (n + 1)).env).values := by
  rcases h.valid.succ n with heq | ⟨e, -, hstep⟩
  · rw [heq]
    exact .refl _ _ _
  · exact h.served.shifts h.outside (h.calm n) (h.ready n) hstep

/-- While it is pending, the delegation is the one it was. -/
theorem grown {r : BTCDelegationResponse}
    (hr : pendingOf lib hash (pending (run.state n).env).values = some r) :
    ∃ r₀, pendingOf lib hash (pending (run.state 0).env).values = some r₀ ∧ Grown r₀ r := by
  induction n generalizing r with
  | zero => exact ⟨r, hr, .refl r⟩
  | succ n ih =>
    obtain ⟨r', hr', hgrown, -⟩ := h.shifts n r hr
    obtain ⟨r₀, hr₀, hgrown₀⟩ := ih hr'
    exact ⟨r₀, hr₀, hgrown₀.trans hgrown⟩

theorem waits_of_le (hmn : m ≤ n)
    (hwaits : C.Waits lib pending (run.state 0).world hash (run.state n) i d) :
    C.Waits lib pending (run.state 0).world hash (run.state m) i d := by
  induction n, hmn using Nat.le_induction with
  | base => exact hwaits
  | succ n _ ih => exact ih (hwaits.before (h.shifts n) (h.calm n))

/-- A member that goes on signs what it can sign, behind fewer than its limit that it cannot. -/
theorem stops_waiting (hfair : run.Fair C.Step own) (hown : own (.member i))
    (hsignable : signable (C.ce i) P answers (sign i) d = true)
    (hfew : (C.desk lib pending (run.state 0).world hash (run.state 0) i).ahead.countP
      (fun x => !signable (C.ce i) P answers (sign i) x) < (C.ce i).delegationLimit.toNat) :
    ∃ n, ¬ C.Waits lib pending (run.state 0).world hash (run.state n) i d := by
  by_contra hnever
  push Not at hnever
  have hfew' : ∀ n, (C.desk lib pending (run.state 0).world hash (run.state n) i).ahead.countP
      (fun x => !signable (C.ce i) P answers (sign i) x) < (C.ce i).delegationLimit.toNat := by
    intro n
    induction n with
    | zero => exact hfew
    | succ n ih =>
      have hsub := (hnever (n + 1)).ahead_sublist (h.shifts n) (h.calm n)
      exact Nat.lt_of_le_of_lt hsub.countP_le ih
  have hlowers : ∀ n, run.event n = some (.member i) →
      (C.desk lib pending (run.state 0).world hash (run.state (n + 1)) i).rank
          (C.ce i).delegationLimit.toNat (signable (C.ce i) P answers (sign i)) d <
        (C.desk lib pending (run.state 0).world hash (run.state n) i).rank
          (C.ce i).delegationLimit.toNat (signable (C.ce i) P answers (sign i)) d := by
    intro n he
    exact h.served.rank_member (h.calm n) (h.ready n i) (h.valid.steps n _ he) (h.shifts n)
      (hnever n) (hnever (n + 1)) hsignable (hfew' n)
  obtain ⟨n, -, hn⟩ := hfair.eventually (Q := fun _ => False) (n := 0)
    (fun s => (C.desk lib pending (run.state 0).world hash s i).rank
      (C.ce i).delegationLimit.toNat (signable (C.ce i) P answers (sign i)) d)
    (fun n _ => by
      rcases h.valid.succ n with heq | ⟨e, he, hstep⟩
      · rw [heq]
      · by_cases hmember : e = .member i
        · exact (hlowers n (he.trans (congrArg some hmember))).le
        · exact h.served.rank_other (h.calm n) (h.ready n) hstep hmember (h.shifts n)
            (hnever (n + 1)) _ _)
    (fun n _ _ _ => ⟨.member i, hown, Run.often_of_always (m := 0) fun k _ =>
      h.served.enabled (h.calm k) (h.ready k i), fun k _ he => hlowers k he⟩)
  exact hn

/-- All of them have signed at one time. -/
theorem none_waits {members : List ι} (hstops : ∀ i ∈ members,
      ∃ n, ¬ C.Waits lib pending (run.state 0).world hash (run.state n) i d) :
    ∃ n, ∀ i ∈ members, ¬ C.Waits lib pending (run.state 0).world hash (run.state n) i d := by
  induction members with
  | nil => exact ⟨0, by simp⟩
  | cons i members ih =>
    obtain ⟨n, hn⟩ := ih fun j hj => hstops j (List.mem_cons_of_mem _ hj)
    obtain ⟨m, hm⟩ := hstops i List.mem_cons_self
    refine ⟨max m n, List.forall_mem_cons.mpr ⟨fun hw => ?_, fun j hj hw => ?_⟩⟩
    · exact hm (h.waits_of_le (le_max_left m n) hw)
    · exact hn j hj (h.waits_of_le (le_max_right m n) hw)

end Committee.SteadyRun

end

section
variable {lib : BabylonLib} {r : BTCDelegationResponse} {d : Delegation}

/-- A key that is reported with the slashing signatures is reported with the unbonding ones. -/
theorem Together.unbonding (h : Together r) (hd : delegationRespToDelegation lib r = .ok d)
    {bytes : Bytes} (hsigned : alreadySigned bytes d = true) :
    bytes ∈ d.covenantSigs.map (fun info => serializePubKey info.pk) ∧
      ∃ ud, d.btcUndelegation = some ud ∧
        bytes ∈ ud.covenantUnbondingSigs.map fun info => serializePubKey info.pk := by
  unfold alreadySigned at hsigned
  obtain ⟨info, hinfo, hbytes⟩ := List.any_eq_true.mp hsigned
  have hto := convertsTo_of_delegationRespToDelegation hd
  obtain ⟨sigs, hsigs, hone⟩ := Outcome.exists_of_mem_of_mapM hto.covenantSigs hinfo
  obtain ⟨u, hu, sig, hsig, hpk⟩ := h sigs hsigs
  have hud := hto.btcUndelegation
  rw [hu] at hud
  obtain ⟨ud, hconv, heq⟩ := Outcome.bind_eq_ok.mp hud
  refine ⟨List.mem_map.mpr ⟨info, hinfo, of_decide_eq_true hbytes⟩, ud,
    (Outcome.ok.inj heq).symm, ?_⟩
  unfold undelegationRespToUndelegation at hconv
  split at hconv
  · cases hconv
  split at hconv
  · cases hconv
  obtain ⟨unbonding, hunbonding, hconv⟩ := Outcome.bind_eq_ok.mp hconv
  obtain ⟨slashing, -, hconv⟩ := Outcome.bind_eq_ok.mp hconv
  cases hconv
  obtain ⟨info', hinfo', hone'⟩ := Outcome.exists_of_mem_mapM hunbonding hsig
  refine List.mem_map.mpr ⟨info', hinfo', ?_⟩
  obtain ⟨pk, hparse, heq⟩ := Outcome.bind_eq_ok.mp hone
  obtain ⟨sig', -, hone'⟩ := Outcome.bind_eq_ok.mp hone'
  obtain ⟨pk', hparse', heq'⟩ := Outcome.bind_eq_ok.mp hone'
  rw [hpk, hparse] at hparse'
  cases hparse'
  cases heq
  cases heq'
  exact of_decide_eq_true hbytes

/-- As many different keys as the quorum are a quorum. -/
theorem quorum_of_keys (h : Together r) (hd : delegationRespToDelegation lib r = .ok d)
    {keys : List Bytes} (hne : keys ≠ []) (hnodup : keys.Nodup)
    (hsigned : ∀ bytes ∈ keys, alreadySigned bytes d = true) {quorum : UInt32}
    (hquorum : quorum.toNat ≤ keys.length) : d.hasCovenantQuorum quorum = .ok true := by
  obtain ⟨key, hkey⟩ := List.exists_mem_of_ne_nil keys hne
  obtain ⟨-, ud, hud, -⟩ := h.unbonding hd (hsigned key hkey)
  have hslashing : keys ⊆ d.covenantSigs.map fun info => serializePubKey info.pk :=
    fun bytes hbytes => (h.unbonding hd (hsigned bytes hbytes)).1
  have hunbonding : keys ⊆ ud.covenantUnbondingSigs.map fun info => serializePubKey info.pk := by
    intro bytes hbytes
    obtain ⟨-, ud', hud', hmem⟩ := h.unbonding hd (hsigned bytes hbytes)
    rw [hud] at hud'
    cases hud'
    exact hmem
  have hlen := (List.subperm_of_subset hnodup hslashing).length_le
  have hlen' := (List.subperm_of_subset hnodup hunbonding).length_le
  rw [List.length_map] at hlen hlen'
  exact (hasCovenantQuorum_eq_true hud).mpr ⟨hquorum.trans hlen, hquorum.trans hlen'⟩

end

/-- A delegation that a quorum of the committee accepts and can sign, each behind fewer than its
limit that it cannot sign, does not stay pending, in whatever order the members and the rest of the
chain move, if each of these members goes on. -/
theorem committee_fulfils {σ ι : Type} [DecidableEq ι] {C : Committee σ ι} {lib : BabylonLib}
    {answers : String → Except String Delegation} {params P : UInt32 → StakingParams}
    {sign : ι → SigningRequest → Except String SignaturesResponse}
    {pending : σ → Store BTCDelegationResponse} {hash : Hash}
    {run : Run (CommitteeState σ ι) (CommitteeEvent ι)}
    (h : C.SteadyRun lib answers params P sign pending hash run)
    {r : BTCDelegationResponse} {d : Delegation}
    (hr : pendingOf lib hash (pending (run.state 0).env).values = some r)
    (hd : delegationRespToDelegation lib r = .ok d)
    (members : List ι) (hne : members ≠ [])
    (hkeys : (members.map fun i => serializePubKey (C.ce i).pk).Nodup)
    (hquorum : (P d.paramsVersion).covenantQuorum.toNat ≤ members.length)
    (haccepts : ∀ i ∈ members, (C.ce i).accepts ((run.state 0).world i) d = true)
    (hsignable : ∀ i ∈ members, signable (C.ce i) P answers (sign i) d = true)
    (hfew : ∀ i ∈ members, ((C.ce i).waiting ((run.state 0).world i)
        (aheadOf lib hash (pending (run.state 0).env).values)).countP
          (fun d => !signable (C.ce i) P answers (sign i) d) < (C.ce i).delegationLimit.toNat)
    (hfair : run.Fair C.Step fun e => ∃ i ∈ members, e = .member i) :
    ∃ n, pendingOf lib hash (pending (run.state n).env).values = none := by
  have hunfulfilled := (h.calm 0).unfulfilled r (mem_of_pendingOf hr) d hd
  have hstops : ∀ i ∈ members,
      ∃ n, ¬ C.Waits lib pending (run.state 0).world hash (run.state n) i d.bare := by
    intro i hi
    refine h.stops_waiting hfair ⟨i, hi, rfl⟩ ?_ ?_
    · rw [signable_bare hunfulfilled]
      exact hsignable i hi
    · unfold Committee.desk
      rw [List.countP_map]
      refine Nat.lt_of_le_of_lt (List.countP_mono_left fun x hx hbad => ?_) (hfew i hi)
      obtain ⟨y, hy, hwait⟩ := List.mem_filterMap.mp hx
      have hconv := (waits_eq_some hwait).1
      rw [h.served.lib i] at hconv
      rwa [Function.comp_apply,
        signable_bare ((h.calm 0).unfulfilled y (mem_of_mem_aheadOf hy) x hconv)] at hbad
  obtain ⟨n, hn⟩ := h.none_waits hstops
  refine ⟨n, ?_⟩
  by_contra hpending
  obtain ⟨r', hr'⟩ := Option.ne_none_iff_exists'.mp hpending
  obtain ⟨r₀, hr₀, hgrown⟩ := h.grown hr'
  obtain rfl : r₀ = r := Option.some.inj (hr₀.symm.trans hr)
  obtain ⟨i₀, hi₀⟩ := List.exists_mem_of_ne_nil members hne
  obtain ⟨d', hd'⟩ := exists_delegation_of_open ((h.calm n).opens i₀ r' (mem_of_pendingOf hr'))
  rw [h.served.lib i₀] at hd'
  have hbare := hgrown.delegation hd hd'
  have hversion : d'.bare.paramsVersion = d.bare.paramsVersion := by rw [hbare]
  have hsigned : ∀ i ∈ members, alreadySigned (serializePubKey (C.ce i).pk) d' = true := by
    intro i hi
    by_contra hnot
    rw [Bool.not_eq_true] at hnot
    have hacc := accepts_of_bare (haccepts i hi) hbare hnot
    refine hn i hi ⟨r', d', hr', ?_, hbare⟩
    have hconv : delegationRespToDelegation (C.ce i).lib r' = .ok d' := by rw [h.served.lib i, hd']
    rw [waits_of_converts hconv, if_pos hacc]
  refine (h.calm n).unfulfilled r' (mem_of_pendingOf hr') d' hd' ?_
  refine quorum_of_keys ((h.calm n).together r' (mem_of_pendingOf hr')) hd' (by simpa using hne)
    hkeys ?_ ?_
  · intro bytes hbytes
    obtain ⟨i, hi, rfl⟩ := List.mem_map.mp hbytes
    exact hsigned i hi
  · change (P d'.bare.paramsVersion).covenantQuorum.toNat ≤ _
    rw [hversion, List.length_map]
    exact hquorum

namespace Sample

/-- The plain delegation with the signatures of these members. -/
def pairResponse (signers : List PublicKey) : BTCDelegationResponse :=
  { plainResponse (signers.map memberSig) with
    undelegationResponse := some
      { unbondingTxHex := txHex unbondingTx
        covenantUnbondingSigList :=
          signers.map fun pk => ⟨serializePubKey pk, List.replicate 64 2⟩
        slashingTxHex := txHex slashUnbondingTx
        covenantSlashingSigs := signers.map memberSig
        delegatorUnbondingInfo := none } }

def pairDelegation (signers : List PublicKey) : Delegation :=
  { plainDelegation with
    covenantSigs := signers.map fun pk => ⟨pk.even, adaptorSigs⟩
    btcUndelegation := some
      { unbondingTxHex := txHex unbondingTx
        slashingTxHex := txHex slashUnbondingTx
        covenantSlashingSigs := signers.map fun pk => ⟨pk.even, adaptorSigs⟩
        covenantUnbondingSigs := signers.map fun pk => ⟨pk.even, ⟨List.replicate 64 2⟩⟩
        spendStakeTxHex := "" } }

def pairKey : Bool → PublicKey
  | true => covenantKey
  | false => key 4

/-- The members that have signed. -/
def signers (s : Bool → Bool) : List PublicKey := ([true, false].filter s).map pairKey

/-- With both signatures the delegation is not pending any more. -/
def pairPending (s : Bool → Bool) : Store BTCDelegationResponse where
  entries := if s true && s false then [] else [([1], pairResponse (signers s))]
  nodup := by split <;> simp
  keyed := by split <;> simp

def pairController (i : Bool) : ClientController (Bool → Bool) where
  submitCovenantSigs sigs s :=
    (.ok ⟨"A1", []⟩,
      if sigs.any fun entry => decide (entry.stakingTxHash = stakingHash) then
        Function.update s i true
      else s)
  btcDelegations _ req s := honestPager (fun _ => pairPending s) .pending req s
  queryBTCDelegation _ := Go.fail "not found"
  queryStakingParamsByVersion _ := pure (params 10000)

/-- No delegation is queried by its hash. -/
def noDelegation (_ : String) : Except String Delegation := .error "not found"

/-- Two members of the committee. -/
def pair : Committee (Bool → Bool) Bool where
  ce i := { emulator (pairController i) signer with pk := pairKey i }
  fuel := 2
  outside _ _ := False

def pairStart : CommitteeState (Bool → Bool) Bool where
  env _ := false
  cache _ _ := some (params 10000)
  trace _ := []
  todo _ := []

theorem delegationRespToDelegation_pair (ks : List PublicKey) :
    delegationRespToDelegation lib (pairResponse ks) = .ok (pairDelegation ks) := by
  have hkey : ∀ pk : PublicKey, lib.mustToBTCPK (serializePubKey pk) = .ok pk.even :=
    fun pk => BabylonLib.mustToBTCPK_serializePubKey (table_liftsToEven table pk)
  have hadaptor : (ks.map memberSig).mapM (covenantSigInfo lib) =
      .ok (ks.map fun pk => ⟨pk.even, adaptorSigs⟩) := by
    rw [Outcome.mapM_eq_ok, List.forall₂_map_left_iff, List.forall₂_map_right_iff]
    refine List.forall₂_same.mpr fun pk _ => ?_
    rw [covenantSigInfo, memberSig, hkey]
    rfl
  have hschnorr : (ks.map fun pk => SignatureInfo.mk (serializePubKey pk)
      (List.replicate 64 2)).mapM (unbondingSigInfo lib) =
        .ok (ks.map fun pk => ⟨pk.even, ⟨List.replicate 64 2⟩⟩) := by
    rw [Outcome.mapM_eq_ok, List.forall₂_map_left_iff, List.forall₂_map_right_iff]
    refine List.forall₂_same.mpr fun pk _ => ?_
    rw [unbondingSigInfo, hkey]
    rfl
  refine delegationRespToDelegation_of_convertsTo
    { convertsTo_of_delegationRespToDelegation delegationRespToDelegation_plain with
      covenantSigs := hadaptor
      btcUndelegation := ?_ }
  simp only [pairResponse, undelegationOf, undelegationRespToUndelegation, txHex_ne_empty, if_false,
    hadaptor, hschnorr]
  rfl

theorem hashOfHex_staking : hashOfHex lib (txHex stakingTx) = some stakingHash := by
  have hstaking : lib.newBTCTxFromHex (txHex stakingTx) = .ok stakingTx :=
    newBTCTxFromHex_txHex (by decide)
  rw [hashOfHex, hstaking]
  rfl

theorem pairPending_values (s : Bool → Bool) :
    (pairPending s).values = if s true && s false then [] else [pairResponse (signers s)] := by
  unfold Store.values pairPending
  dsimp only
  split <;> rfl

/-- What a member has signed shows, or both have signed. -/
theorem pair_takes (i : Bool) (s : Bool → Bool) {hashes : List Hash} (h : stakingHash ∈ hashes) :
    Takes lib (pairKey i) hashes (pairPending s).values
      (pairPending (Function.update s i true)).values := by
  have hstakes : ∀ ks, stakesOneOf lib hashes (pairResponse ks).stakingTxHex = true :=
    fun ks => stakesOneOf_iff.mpr ⟨stakingHash, h, hashOfHex_staking⟩
  have hsigned : ∀ ks ks', Grown (pairResponse ks) (pairResponse ks') → pairKey i ∈ ks' →
      Takes lib (pairKey i) hashes [pairResponse ks] [pairResponse ks'] := by
    intro ks ks' hgrown hmem
    refine .signed (hstakes ks) hgrown (fun _ _ => ⟨_, delegationRespToDelegation_pair ks'⟩) ?_ .nil
    exact ⟨memberSig (pairKey i), List.mem_map_of_mem hmem, rfl⟩
  have hleft : ∀ ks, Takes lib (pairKey i) hashes [pairResponse ks] [] :=
    fun ks => .left (hstakes ks) .nil
  rw [pairPending_values, pairPending_values]
  cases i <;> cases ht : s true <;> cases hf : s false <;>
    simp only [signers, List.filter_cons, List.filter_nil, ht, hf, Function.update_self, ne_eq,
      reduceCtorEq, not_false_eq_true, Function.update_of_ne, Bool.and_true,
      Bool.and_false, if_true, if_false, Bool.false_eq_true, Bool.and_self]
  · exact hsigned [] [pairKey false] ⟨rfl, List.nil_prefix⟩ (by simp)
  · exact hsigned [pairKey false] [pairKey false] (.refl _) (by simp)
  · exact hleft _
  · exact .nil
  · exact hsigned [] [pairKey true] ⟨rfl, List.nil_prefix⟩ (by simp)
  · exact hleft _
  · exact hsigned [pairKey true] [pairKey true] (.refl _) (by simp)
  · exact .nil

theorem Takes.none {rs : List BTCDelegationResponse} {pk : PublicKey} {hashes : List Hash}
    (h : ∀ r ∈ rs, stakesOneOf lib hashes r.stakingTxHex = false) : Takes lib pk hashes rs rs := by
  induction rs with
  | nil => exact .nil
  | cons r rs ih =>
    rw [List.forall_mem_cons] at h
    exact .other h.1 (ih h.2)

theorem pair_serving (i : Bool) : Serving (pair.ce i) noDelegation (fun _ => params 10000) sign
    pairPending where
  static := ⟨fun _ _ => rfl, fun _ _ => rfl⟩
  signs _ _ := rfl
  lifts := table_liftsToEven table (pairKey i)
  pages _ _ := rfl
  delegation _ _ := rfl
  params _ _ := rfl
  signer _ _ := rfl
  submit sigs s _ _ := by
    refine ⟨trivial, ?_⟩
    change Takes lib (pairKey i) _ _ (pairPending (if sigs.any fun entry =>
      decide (entry.stakingTxHash = stakingHash) then Function.update s i true else s)).values
    split
    · rename_i hany
      obtain ⟨entry, hentry, hhash⟩ := List.any_eq_true.mp hany
      exact pair_takes i s (List.mem_map.mpr ⟨entry, hentry, of_decide_eq_true hhash⟩)
    · rename_i hany
      refine Takes.none fun r hr => ?_
      rw [pairPending_values] at hr
      split at hr
      · cases hr
      · obtain rfl := List.mem_singleton.mp hr
        rw [← Bool.not_eq_true, stakesOneOf_iff]
        rintro ⟨hash, hmem, hhash⟩
        obtain ⟨entry, hentry, rfl⟩ := List.mem_map.mp hmem
        have hsame : stakingHash = entry.stakingTxHash :=
          Option.some.inj (hashOfHex_staking.symm.trans hhash)
        exact hany (List.any_eq_true.mpr ⟨entry, hentry, decide_eq_true hsame.symm⟩)

theorem pair_served : pair.Served lib noDelegation (fun _ => params 10000) (fun _ => params 10000)
    (fun _ => sign) pairPending pairStart.world where
  lib _ := rfl
  serving := pair_serving
  knows _ _ := .inl rfl
  limit_pos _ := show 0 < (100 : UInt64).toNat by decide
  addressable _ := show Addressable pointerSize (100 : UInt64).toNat by decide
  batchSize _ := show 1 ≤ (30 : UInt64).toNat by decide

theorem pair_accepts {i : Bool} {ks : List PublicKey}
    (h : alreadySigned (serializePubKey (pairKey i)) (pairDelegation ks) = false) :
    ((pair.ce i).acceptDelegationToSign (pairDelegation ks) (pairStart.world i)).1 = .ok true := by
  have hknown : KnownCommittee (pair.ce i) (pairStart.world i) (pairDelegation ks) := by
    refine ⟨params 10000, rfl, ?_⟩
    cases i
    · exact ⟨key 4, by simp [params, committee], rfl⟩
    · exact ⟨key 3, by simp [params, committee], rfl⟩
  rw [acceptDelegationToSign_plain rfl h hknown]

theorem pair_opens (i : Bool) (ks : List PublicKey) :
    ¬ Blocks (pair.ce i) (pairStart.world i) (pairResponse ks) := by
  have hconv : delegationRespToDelegation (pair.ce i).lib (pairResponse ks) =
      .ok (pairDelegation ks) := delegationRespToDelegation_pair ks
  refine not_blocks_iff.mpr ?_
  rw [judges_eq hconv]
  cases hsigned : alreadySigned (serializePubKey (pairKey i)) (pairDelegation ks) with
  | false => exact ⟨true, pair_accepts hsigned⟩
  | true =>
    have hnone : alreadySigned (serializePubKey (pairKey i)) (pairDelegation []) = false := rfl
    exact ⟨false, acceptDelegationToSign_reported (pair_accepts hnone) rfl hsigned⟩

theorem pair_unfulfilled {ks : List PublicKey} (h : ks.length < 2) :
    (pairDelegation ks).hasCovenantQuorum (params 10000).covenantQuorum ≠ .ok true := by
  have hfew : ¬ ((pairDelegation ks).covenantSigs.length ≥
      (params 10000).covenantQuorum.toNat) := by
    simpa [pairDelegation, params] using h
  rw [Delegation.hasCovenantQuorum, if_neg hfew]
  simp

theorem pair_entry (i : Bool) {ks : List PublicKey} (h : ks.length < 2) :
    ∃ entry, signatureFor (pair.ce i) (fun _ => some (params 10000)) noDelegation sign
      (pairDelegation ks) = .ok entry := by
  have hsign : sign plainRequest = .ok (signerResponseToCovenantResponse (signatures none)) := by
    simp [sign, signWith_plain]
  have hplain : signatureFor (pair.ce i) (fun _ => some (params 10000)) noDelegation sign
      plainDelegation = .ok ((pair.ce i).covenantSigsOf plainRequest _) :=
    (entryFor_of_signed rfl rfl (checkDelegation_of_checked checked_plain rfl) rfl hsign).1
  have hbare : (pairDelegation ks).bare = plainDelegation.bare := rfl
  have hnone : ([] : List PublicKey).length < 2 := by decide
  have hfew : plainDelegation.hasCovenantQuorum (params 10000).covenantQuorum ≠ .ok true :=
    pair_unfulfilled hnone
  refine ⟨_, Eq.trans ?_ hplain⟩
  rw [← signatureFor_bare (P := fun _ => params 10000) hfew, ← hbare]
  exact (signatureFor_bare (P := fun _ => params 10000) (pair_unfulfilled h)).symm

theorem mem_pairPending {s : Bool → Bool} {r : BTCDelegationResponse}
    (h : r ∈ (pairPending s).values) : ∃ ks, ks.length < 2 ∧ r = pairResponse ks := by
  rw [pairPending_values] at h
  split at h
  · cases h
  · rename_i hboth
    refine ⟨signers s, ?_, List.mem_singleton.mp h⟩
    cases ht : s true <;> cases hf : s false <;> simp_all [signers]

theorem pair_calm (s : Bool → Bool) : pair.Calm lib noDelegation (fun _ => params 10000)
    (fun _ => sign) pairStart.world (pairPending s) where
  opens i r hr := by
    obtain ⟨ks, -, rfl⟩ := mem_pairPending hr
    exact pair_opens i ks
  distinct := by
    rw [pairPending_values]
    split <;> simp
  fuel_gt := by
    rw [pairPending_values]
    split
    · exact Nat.succ_pos 1
    · exact Nat.lt_succ_self 1
  ends i := by
    rintro ⟨hne, hdvd⟩
    have hsize : min maxPaginationLimit.toNat (pair.ce i).delegationLimit.toNat = 100 := rfl
    rw [hsize] at hdvd
    rw [pairPending_values] at hne hdvd
    split at hdvd
    · rename_i hboth
      rw [if_pos hboth] at hne
      exact hne rfl
    · exact absurd hdvd (by simp)
  quiet i d hd := by
    obtain ⟨r, hr, hwaits⟩ := List.mem_filterMap.mp hd
    obtain ⟨ks, hks, rfl⟩ := mem_pairPending hr
    have hconv := (waits_eq_some hwaits).1
    obtain rfl := Outcome.ok.inj ((delegationRespToDelegation_pair ks).symm.trans hconv)
    obtain ⟨entry, hentry⟩ := pair_entry i hks
    rw [hentry]
    exact id
  unfulfilled r hr d hd := by
    obtain ⟨ks, hks, rfl⟩ := mem_pairPending hr
    obtain rfl := Outcome.ok.inj ((delegationRespToDelegation_pair ks).symm.trans hd)
    exact pair_unfulfilled hks
  together r hr := by
    obtain ⟨ks, -, rfl⟩ := mem_pairPending hr
    intro sigs hsigs
    obtain ⟨pk, hpk, rfl⟩ := List.mem_map.mp hsigs
    exact ⟨_, rfl, ⟨serializePubKey pk, List.replicate 64 2⟩, List.mem_map_of_mem hpk, rfl⟩

/-- The members take turns. -/
theorem pair_run : ∃ run : Run (CommitteeState (Bool → Bool) Bool) (CommitteeEvent Bool),
    run.state 0 = pairStart ∧ run.Valid pair.Step ∧
      ∀ n, run.event n = some (.member (n % 2 == 0)) := by
  refine Run.exists_scheduled (P := fun s => ∀ i, pair.Ready noDelegation (fun _ => params 10000)
    (fun _ => params 10000) (fun _ => sign) i (s.world i) (s.todo i)) _ ?_ ?_
  · intro n s hready
    obtain ⟨t, hstep⟩ := pair_served.enabled (pair_calm s.env) (hready (n % 2 == 0))
    exact ⟨t, hstep, pair_served.ready_step (pair_calm s.env) hready hstep⟩
  · intro i
    exact ⟨fun _ => .inl rfl, by simp [pairStart], by simp [pairStart], by simp [pairStart]⟩

/-- With a quorum of two, two members that take turns bring the delegation to its quorum. -/
theorem pair_fulfils : ∃ run : Run (CommitteeState (Bool → Bool) Bool) (CommitteeEvent Bool),
    run.state 0 = pairStart ∧ run.Valid pair.Step ∧
      pendingOf lib stakingHash (pairPending (run.state 0).env).values =
        some (pairResponse []) ∧
      ∃ n, pendingOf lib stakingHash (pairPending (run.state n).env).values = none := by
  obtain ⟨run, hstart, hvalid, hevent⟩ := pair_run
  have hnone : (pairPending pairStart.env).values = [pairResponse []] := rfl
  have hstakes : stakes lib stakingHash (pairResponse []) = true :=
    stakes_iff.mpr hashOfHex_staking
  obtain ⟨hpending, hahead⟩ := pendingOf_cons_of_stakes hstakes []
  have hr : pendingOf lib stakingHash (pairPending (run.state 0).env).values =
      some (pairResponse []) := by
    rw [hstart, hnone, hpending]
  have hsteady : pair.SteadyRun lib noDelegation (fun _ => params 10000) (fun _ => params 10000)
      (fun _ => sign) pairPending stakingHash run := by
    refine ⟨?_, fun i => ?_, hvalid, fun n => ?_, fun _ _ => False.elim⟩
    · rw [hstart]
      exact pair_served
    · rw [hstart]
      rfl
    · rw [hstart]
      exact pair_calm _
  refine ⟨run, hstart, hvalid, hr, committee_fulfils hsteady hr
    (delegationRespToDelegation_pair []) [true, false] (by simp) ?_ ?_ ?_ ?_ ?_ ?_⟩
  · decide +kernel
  · decide
  · intro i _
    rw [hstart]
    exact decide_eq_true (pair_accepts rfl)
  · intro i _
    obtain ⟨entry, hentry⟩ := pair_entry i (show ([] : List PublicKey).length < 2 by decide)
    rw [signable, entryFor, hentry]
    rfl
  · intro i _
    rw [hstart, hnone, hahead]
    exact show 0 < (100 : UInt64).toNat by decide
  · rintro e ⟨i, -, rfl⟩ - n
    cases i
    · refine ⟨2 * n + 1, by omega, ?_⟩
      rw [hevent, show ((2 * n + 1) % 2 == 0) = false by simp]
    · refine ⟨2 * n, by omega, ?_⟩
      rw [hevent, show (2 * n % 2 == 0) = true by simp]

end Sample

end CovenantEmulator
