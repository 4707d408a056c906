import CovenantEmulator.Golang.Relate
import CovenantEmulator.Covenant.Cache

/-! Runs of `Get` calls: the cache holds the first successful answer for each version. -/
namespace CovenantEmulator

open Golang

section Captured
variable {σ : Type} (cc : ClientController σ)

/-- The outer variables of `getParamsByVersion`, which the retried closure assigns. -/
structure Captured where
  params : Option StakingParams
  err : Option String

/-- `params, err = v.cc.QueryStakingParamsByVersion(version)`. -/
def Captured.assign : Except String StakingParams → Captured
  | .ok params => ⟨some params, none⟩
  | .error err => ⟨none, some err⟩

/-- `if err != nil { return err }` in the closure. -/
def Captured.check (c : Captured) : Except String Unit :=
  match c.err with
  | some err => .error err
  | none => .ok ()

/-- The closure handed to `retry.Do`. -/
def retriedClosure (version : UInt32) : Go (World σ × Captured) Unit := do
  let answer ← Go.zoom Prod.fst (fun s w => (w, s.2)) (Go.attempt (queryParamsOnce cc version))
  Go.modify fun s => (s.1, .assign answer)
  Go.reads fun s => s.2.check

/-- `getParamsByVersion` with its captured variables: what they hold after `retry.Do` returned. -/
def getParamsByVersionCaptured (retry : Retry (World σ × Captured) Unit) (version : UInt32) :
    Go (World σ × Captured) (Option StakingParams) := do
  retry.run rtyAttNum (retriedClosure cc version)
  Go.reads fun s => .ok s.2.params

end Captured

section
variable {σ : Type} {cc : ClientController σ}

/-- One attempt assigns what the query answered, and fails when the query did. -/
theorem retriedClosure_relates (v : UInt32) (s : World σ × Captured) (w : World σ)
    (hs : s.1 = w) :
    Relates (retriedClosure cc v) (queryParamsOnce cc v) s w
      (fun _ s' P w' => s'.1 = w' ∧ s'.2.params = some P) (fun s' w' => s'.1 = w') := by
  subst hs
  unfold Relates
  rcases hq : queryParamsOnce cc v s.1 with ⟨P | e | p | _, w'⟩
  · have hrun : retriedClosure cc v s = (.ok (), (w', ⟨some P, none⟩)) := by
      simp [retriedClosure, Go.bind_apply, hq, Outcome.attempt, Captured.assign, Captured.check]
    rw [hrun]
    exact .ok ⟨rfl, rfl⟩
  · have hrun : retriedClosure cc v s = (.error e, (w', ⟨none, some e⟩)) := by
      simp [retriedClosure, Go.bind_apply, hq, Outcome.attempt, Captured.assign, Captured.check]
    rw [hrun]
    exact .error rfl
  · have hrun : retriedClosure cc v s = (.panic p, (w', s.2)) := by
      simp [retriedClosure, Go.bind_apply, hq, Outcome.attempt]
    rw [hrun]
    exact .panic rfl
  · have hrun : retriedClosure cc v s = (.diverged, (w', s.2)) := by
      simp [retriedClosure, Go.bind_apply, hq, Outcome.attempt]
    rw [hrun]
    exact .diverged rfl

/-- Whatever the captured variables held before, `getParamsByVersion` returns the answer of the
attempt that ended the retries. -/
theorem getParamsByVersion_captured (retry : ParamsRetry σ)
    (retry' : Retry (World σ × Captured) Unit) (v : UInt32) (w : World σ) (c : Captured) :
    Relates (getParamsByVersionCaptured cc retry' v) (getParamsByVersion retry cc v) (w, c) w
      (fun params s' P w' => params = some P ∧ s'.1 = w') (fun s' w' => s'.1 = w') := by
  rw [← bind_pure (getParamsByVersion retry cc v)]
  refine Relates.bind (retry'.relates retry (retriedClosure_relates v) _ rfl) ?_
  rintro _ s' P w' ⟨hw, hP⟩
  exact .ok ⟨hP, hw⟩

end

/-- What a recorded event answers for a version, if it is a successful answer for it. -/
def Event.successFor (v : UInt32) : Event → Option StakingParams
  | .paramsAnswer v' (.ok P) => if v' = v then some P else none
  | _ => none

/-- The answer of the first successful query for a version. -/
def firstSuccess (v : UInt32) (trace : List Event) : Option StakingParams :=
  trace.findSome? (Event.successFor v)

/-- Failed queries for one version, in order. -/
def failures (v : UInt32) (errs : List String) : List Event :=
  errs.map fun e => .paramsAnswer v (.error e)

section
variable {σ : Type} {retry : ParamsRetry σ} {cc : ClientController σ} {v v' : UInt32}
  {w w' : World σ}
  {o : Outcome StakingParams} {P : StakingParams} {trace : List Event} {errs : List String}

theorem firstSuccess_append (new : List Event) :
    firstSuccess v (trace ++ new) = (firstSuccess v trace).or (firstSuccess v new) :=
  List.findSome?_append

@[simp] theorem firstSuccess_failures : firstSuccess v' (failures v errs) = none := by
  simp [firstSuccess, failures, Event.successFor]

theorem firstSuccess_answer :
    firstSuccess v' [.paramsAnswer v (.ok P)] = if v = v' then some P else none := by
  by_cases h : v = v' <;> simp [firstSuccess, Event.successFor, h]

/-- Everything `n + 1` attempts can do. -/
inductive Asks (v : UInt32) (n : Nat) (w : World σ) : Outcome StakingParams → World σ → Prop
  | answered (P : StakingParams) (errs : List String) (env : σ) (hlen : errs.length ≤ n) :
    Asks v n w (.ok P) ⟨env, w.paramsByVersion,
      w.trace ++ (failures v errs ++ [.paramsAnswer v (.ok P)])⟩
  | failed (e : String) (errs : List String) (env : σ) (hlen : errs.length = n + 1)
    (hlast : errs.getLast? = some e) :
    Asks v n w (.error e) ⟨env, w.paramsByVersion, w.trace ++ failures v errs⟩
  | stuck (o : Outcome StakingParams) (errs : List String) (env : σ) (hlen : errs.length ≤ n)
    (ho : ¬ o.Returns) : Asks v n w o ⟨env, w.paramsByVersion, w.trace ++ failures v errs⟩

theorem queryParamsOnce_asks (h : queryParamsOnce cc v w = (o, w')) : Asks v 0 w o w' := by
  unfold queryParamsOnce onEnv record at h
  simp only [Go.bind_apply, Go.attempt_apply, Go.zoom_apply] at h
  have htrace : w.trace = w.trace ++ failures v [] := by simp [failures]
  rcases hq : cc.queryStakingParamsByVersion v w.env with ⟨P | e | p | _, env⟩ <;>
    rw [hq] at h <;> obtain ⟨rfl, rfl⟩ := Prod.mk.inj h
  · exact .answered P [] env (Nat.le_refl 0)
  · exact .failed e [e] env rfl rfl
  · rw [htrace]
    exact .stuck (.panic p) [] env (Nat.le_refl 0) id
  · rw [htrace]
    exact .stuck .diverged [] env (Nat.le_refl 0) id

/-- A failed attempt before the others. -/
theorem Asks.cons {n : Nat} {e : String} {env : σ}
    (h : Asks v n ⟨env, w.paramsByVersion, w.trace ++ failures v [e]⟩ o w') :
    Asks v (n + 1) w o w' := by
  have hcons (errs : List String) :
      failures v [e] ++ failures v errs = failures v (e :: errs) := rfl
  cases h with
  | answered P errs env hlen =>
    simp only [List.append_assoc]
    rw [← List.append_assoc (failures v [e]), hcons]
    exact .answered P (e :: errs) env (Nat.succ_le_succ hlen)
  | failed e' errs env hlen hlast =>
    have hlast' : (e :: errs).getLast? = some e' := by
      rw [List.getLast?_cons, hlast]
      rfl
    simp only [List.append_assoc, hcons]
    exact .failed e' (e :: errs) env (congrArg Nat.succ hlen) hlast'
  | stuck _ errs env hlen ho =>
    simp only [List.append_assoc, hcons]
    exact .stuck o (e :: errs) env (Nat.succ_le_succ hlen) ho

theorem retry_asks (n : Nat) (h : retry.run (n + 1) (queryParamsOnce cc v) w = (o, w')) :
    Asks v n w o w' := by
  induction n generalizing w with
  | zero =>
    rw [zero_add, retry.once] at h
    exact queryParamsOnce_asks h
  | succ n ih =>
    simp only [retry.again, Go.bind_apply, Go.attempt_apply] at h
    rcases hq : queryParamsOnce cc v w with ⟨r, w₁⟩
    rw [hq] at h
    cases queryParamsOnce_asks hq with
    | answered P errs env hlen =>
      obtain rfl : errs = [] := by simpa using hlen
      cases h
      exact .answered P [] env (Nat.zero_le _)
    | failed e errs env hlen hlast =>
      obtain ⟨e', rfl⟩ := List.length_eq_one_iff.mp hlen
      exact (ih h).cons
    | stuck _ errs env hlen ho =>
      have hw : (o, w') = (r, ⟨env, w.paramsByVersion, w.trace ++ failures v errs⟩) := by
        cases r with
        | ok a => exact absurd trivial ho
        | error e => exact absurd trivial ho
        | panic p => exact h.symm
        | diverged => exact h.symm
      cases hw
      exact .stuck o errs env (hlen.trans (Nat.zero_le _)) ho

/-- Everything a `Get` can do. -/
inductive Gets (v : UInt32) (w : World σ) : Outcome StakingParams → World σ → Prop
  | hit (P : StakingParams) (hv : w.paramsByVersion v = some P) : Gets v w (.ok P) w
  | stored (P : StakingParams) (w' : World σ) (hmiss : w.paramsByVersion v = none)
    (h : Asks v (rtyAttNum - 1) w (.ok P) w') : Gets v w (.ok P) (w'.cacheParams v P)
  | failed (o : Outcome StakingParams) (w' : World σ) (hmiss : w.paramsByVersion v = none)
    (ho : ∀ P, o ≠ .ok P) (h : Asks v (rtyAttNum - 1) w o w') : Gets v w o w'

theorem paramsGet_gets (h : paramsGet retry cc v w = (o, w')) : Gets v w o w' := by
  cases hv : w.paramsByVersion v with
  | some P =>
    rw [paramsGet_of_cached hv] at h
    cases h
    exact .hit P hv
  | none =>
    have hmiss : getMissing retry cc v w = (o, w') := by
      simpa [paramsGet, hv] using h
    unfold getMissing at hmiss
    rw [Go.bind_apply] at hmiss
    rcases hg : getParamsByVersion retry cc v w with ⟨P | e | p | _, w₁⟩ <;> rw [hg] at hmiss <;>
      cases hmiss
    · exact .stored P w₁ hv (retry_asks _ hg)
    all_goals exact .failed _ w' hv (by simp) (retry_asks _ hg)

end

/-- A step of a run: `Get` is called, or the outside changes between two calls. -/
inductive CacheAction (σ : Type) where
  | get (version : UInt32)
  | outside (env : σ)

/-- A `Get` of a run, with the states around it. -/
structure GetCall (σ : Type) where
  before : World σ
  version : UInt32
  outcome : Outcome StakingParams
  after : World σ

section
variable {σ : Type} (retry : ParamsRetry σ) (cc : ClientController σ)

def getCall (version : UInt32) (w : World σ) : GetCall σ where
  before := w
  version := version
  outcome := (paramsGet retry cc version w).1
  after := (paramsGet retry cc version w).2

/-- The `Get` calls of a run and the state it ends in. -/
def getRun : List (CacheAction σ) → World σ → List (GetCall σ) × World σ
  | [], w => ([], w)
  | .get version :: actions, w =>
    let (calls, w') := getRun actions (getCall retry cc version w).after
    (getCall retry cc version w :: calls, w')
  | .outside env :: actions, w => getRun actions { w with env := env }

/-- `NewCacheVersionedParams`, before any query. -/
def World.fresh (env : σ) : World σ := ⟨env, fun _ => none, []⟩

end

/-- The cache is the first success of each version, and no version is asked for after its own. -/
structure CacheTracks {σ : Type} (w : World σ) : Prop where
  cache : ∀ v, w.paramsByVersion v = firstSuccess v w.trace
  askedOnce : ∀ before v answer after,
    w.trace = before ++ .paramsAnswer v answer :: after → firstSuccess v before = none

section
variable {σ : Type} {retry : ParamsRetry σ} {cc : ClientController σ} {v : UInt32}
  {w w' : World σ}
  {o : Outcome StakingParams}

theorem CacheTracks.fresh (env : σ) : CacheTracks (World.fresh env) := by
  refine ⟨fun v => rfl, ?_⟩
  intro before v answer after h
  simp [World.fresh] at h

/-- New queries for a version not yet answered, all but the last of which failed. -/
theorem CacheTracks.append (h : CacheTracks w) (hmiss : w.paramsByVersion v = none)
    {new : List Event} (hnew : ∀ before v' answer after,
      new = before ++ .paramsAnswer v' answer :: after → v' = v ∧ firstSuccess v before = none) :
    ∀ before v' answer after, w.trace ++ new = before ++ .paramsAnswer v' answer :: after →
      firstSuccess v' before = none := by
  intro before v' answer after heq
  rcases List.append_eq_append_iff.mp heq with ⟨mid, rfl, hmid⟩ | ⟨mid, htrace, hmid⟩
  · obtain ⟨rfl, hnone⟩ := hnew mid v' answer after hmid
    rw [firstSuccess_append, ← h.cache, hmiss, hnone]
    rfl
  · cases mid with
    | nil =>
      obtain ⟨rfl, -⟩ := hnew [] v' answer after hmid.symm
      rw [List.append_nil] at htrace
      rw [← htrace, ← h.cache, hmiss]
    | cons e mid =>
      obtain ⟨rfl, -⟩ := List.cons.inj hmid
      exact h.askedOnce before v' answer mid htrace

/-- Failed queries for one version and at most one more: no success before any of them. -/
theorem failures_split {errs : List String} {last before after : List Event} {v' : UInt32}
    {answer : Except String StakingParams} (hlast : ∀ e ∈ last, ∃ a, e = .paramsAnswer v a)
    (hone : last.length ≤ 1)
    (h : failures v errs ++ last = before ++ .paramsAnswer v' answer :: after) :
    v' = v ∧ firstSuccess v before = none := by
  induction errs generalizing before with
  | nil =>
    have h : last = before ++ .paramsAnswer v' answer :: after := h
    obtain rfl : before = [] := by
      rw [h, List.length_append, List.length_cons] at hone
      exact List.eq_nil_of_length_eq_zero (by omega)
    obtain ⟨a, ha⟩ := hlast (.paramsAnswer v' answer) (by simp [h])
    cases ha
    exact ⟨rfl, rfl⟩
  | cons e errs ih =>
    cases before with
    | nil =>
      cases (List.cons.inj h).1
      exact ⟨rfl, rfl⟩
    | cons b before =>
      obtain ⟨rfl, hrest⟩ := List.cons.inj h
      have hrest : failures v errs ++ last = before ++ .paramsAnswer v' answer :: after := hrest
      obtain ⟨hv, hnone⟩ := ih hrest
      exact ⟨hv, hnone⟩

/-- A failed `Get` records failed queries only. -/
theorem CacheTracks.failed (h : CacheTracks w) (hmiss : w.paramsByVersion v = none)
    (errs : List String) (env : σ) :
    CacheTracks ⟨env, w.paramsByVersion, w.trace ++ failures v errs⟩ := by
  constructor
  · intro v'
    simpa [firstSuccess_append] using h.cache v'
  · apply h.append hmiss
    intro before v' answer after hsplit
    rw [← List.append_nil (failures v errs)] at hsplit
    exact failures_split (by simp) (by simp) hsplit

theorem CacheTracks.stored (h : CacheTracks w) (hmiss : w.paramsByVersion v = none)
    (P : StakingParams) (errs : List String) (env : σ) :
    CacheTracks (World.cacheParams ⟨env, w.paramsByVersion,
      w.trace ++ (failures v errs ++ [.paramsAnswer v (.ok P)])⟩ v P) := by
  constructor
  · intro v'
    simp only [World.cacheParams, firstSuccess_append, firstSuccess_failures, firstSuccess_answer,
      ← h.cache]
    by_cases hv : v' = v
    · subst hv
      simp [hmiss]
    · simp [hv, Ne.symm hv]
  · apply h.append hmiss
    intro before v' answer after hsplit
    exact failures_split (by simp) (by simp) hsplit

theorem CacheTracks.get (h : CacheTracks w) (hget : Gets v w o w') : CacheTracks w' := by
  cases hget with
  | hit P hv => exact h
  | stored P w' hmiss hask =>
    cases hask with
    | answered P errs env hlen => exact h.stored hmiss P errs env
    | stuck _ errs env hlen ho => exact absurd trivial ho
  | failed _ _ hmiss ho hask =>
    cases hask with
    | answered P errs env hlen => exact absurd rfl (ho P)
    | failed e errs env hlen hlast => exact h.failed hmiss errs env
    | stuck _ errs env hlen ho => exact h.failed hmiss errs env

theorem getCall_gets (v : UInt32) (w : World σ) :
    Gets v w (getCall retry cc v w).outcome (getCall retry cc v w).after :=
  paramsGet_gets rfl

/-- Every state of a run tracks the first successes. -/
theorem getRun_tracks (actions : List (CacheAction σ)) (h : CacheTracks w) :
    CacheTracks (getRun retry cc actions w).2 := by
  induction actions generalizing w with
  | nil => exact h
  | cons action actions ih =>
    cases action with
    | get v => exact ih (h.get (getCall_gets v w))
    | outside env => exact ih ⟨h.cache, h.askedOnce⟩

theorem getCall_keeps {v' : UInt32} {P : StakingParams} (hP : w.paramsByVersion v' = some P) :
    (getCall retry cc v w).after.paramsByVersion v' = some P := by
  have hspec : Triple (paramsGet retry cc v) w _ _ := paramsGet_spec (respects_any cc) v w
  have hquiet := hspec.final (R := Quiet (fun _ _ => True) w) (fun _ _ h => h.1) (fun _ h => h)
  exact hquiet.cache hP

/-- What is cached stays cached to the end of a run. -/
theorem getRun_keeps (actions : List (CacheAction σ)) {P : StakingParams}
    (hP : w.paramsByVersion v = some P) :
    (getRun retry cc actions w).2.paramsByVersion v = some P := by
  induction actions generalizing w with
  | nil => exact hP
  | cons action actions ih =>
    cases action with
    | get v' => exact ih (getCall_keeps hP)
    | outside env => exact ih hP

theorem Gets.cached {P : StakingParams} (hget : Gets v w (.ok P) w') :
    w'.paramsByVersion v = some P := by
  cases hget with
  | hit P hv => exact hv
  | stored P w' hmiss hask => simp [World.cacheParams]
  | failed _ _ hmiss ho hask => exact absurd rfl (ho P)

theorem Gets.unchanged {e : String} (hget : Gets v w (.error e) w') :
    w'.paramsByVersion = w.paramsByVersion ∧
      ∃ errs, errs.length = rtyAttNum ∧ w'.trace = w.trace ++ failures v errs := by
  cases hget with
  | failed _ _ hmiss ho hask =>
    cases hask with
    | failed e errs env hlen hlast => exact ⟨rfl, errs, hlen, rfl⟩
    | stuck _ errs env hlen ho => exact absurd trivial ho

/-- The run goes on from each of its calls. -/
theorem mem_getRun {actions : List (CacheAction σ)} {c : GetCall σ}
    (hc : c ∈ (getRun retry cc actions w).1) : ∃ v w₁ rest, c = getCall retry cc v w₁ ∧
      (getRun retry cc actions w).2 = (getRun retry cc rest c.after).2 := by
  induction actions generalizing w with
  | nil => simp [getRun] at hc
  | cons action actions ih =>
    cases action with
    | get v =>
      rcases List.mem_cons.mp hc with rfl | hc
      · exact ⟨v, w, actions, rfl, rfl⟩
      · exact ih hc
    | outside env => exact ih hc

/-- Each call of a run is one of the things a `Get` can do. -/
theorem getRun_gets {actions : List (CacheAction σ)} {c : GetCall σ}
    (hc : c ∈ (getRun retry cc actions w).1) : Gets c.version c.before c.outcome c.after := by
  obtain ⟨v, w₁, rest, rfl, -⟩ := mem_getRun hc
  exact getCall_gets v w₁

/-- A call of a run that returned left its answer in the cache at the end of the run. -/
theorem getRun_cached {actions : List (CacheAction σ)} {c : GetCall σ} {P : StakingParams}
    (hc : c ∈ (getRun retry cc actions w).1) (hP : c.outcome = .ok P) :
    (getRun retry cc actions w).2.paramsByVersion c.version = some P := by
  have hget := getRun_gets hc
  rw [hP] at hget
  obtain ⟨v, w₁, rest, -, hrest⟩ := mem_getRun hc
  rw [hrest]
  exact getRun_keeps rest hget.cached

end

/-- What a run of `Get` calls from the empty cache guarantees. -/
structure CacheSound {σ : Type} (calls : List (GetCall σ)) (w : World σ) : Prop where
  first : ∀ v P, w.paramsByVersion v = some P → firstSuccess v w.trace = some P
  returned : ∀ c ∈ calls, ∀ P, c.outcome = .ok P → firstSuccess c.version w.trace = some P
  agree : ∀ c ∈ calls, ∀ c' ∈ calls, c.version = c'.version →
    ∀ P P', c.outcome = .ok P → c'.outcome = .ok P' → P = P'
  failed : ∀ c ∈ calls, ∀ e, c.outcome = .error e →
    c.after.paramsByVersion = c.before.paramsByVersion ∧
      ∃ errs, errs.length = rtyAttNum ∧ c.after.trace = c.before.trace ++ failures c.version errs
  notAskedAgain : ∀ before v answer after,
    w.trace = before ++ .paramsAnswer v answer :: after → firstSuccess v before = none

/-- However the chain answers over time, every run of `Get` calls keeps the first success of each
version, returns nothing else, and stores nothing when all attempts failed. -/
theorem getRun_sound {σ : Type} (retry : ParamsRetry σ) (cc : ClientController σ) (env : σ)
    (actions : List (CacheAction σ)) :
    CacheSound (getRun retry cc actions (World.fresh env)).1
      (getRun retry cc actions (World.fresh env)).2 := by
  have htracks : CacheTracks (getRun retry cc actions (World.fresh env)).2 :=
    getRun_tracks actions (.fresh env)
  have hreturned : ∀ c ∈ (getRun retry cc actions (World.fresh env)).1, ∀ P, c.outcome = .ok P →
      firstSuccess c.version (getRun retry cc actions (World.fresh env)).2.trace = some P := by
    intro c hc P hP
    rw [← htracks.cache]
    exact getRun_cached hc hP
  refine ⟨?_, hreturned, ?_, ?_, htracks.askedOnce⟩
  · intro v P hP
    rw [← htracks.cache, hP]
  · intro c hc c' hc' hv P P' hP hP'
    have h := hreturned c hc P hP
    have h' := hreturned c' hc' P' hP'
    rw [hv, h'] at h
    exact (Option.some.inj h).symm
  · intro c hc e he
    have hget := getRun_gets hc
    rw [he] at hget
    exact hget.unchanged

end CovenantEmulator
