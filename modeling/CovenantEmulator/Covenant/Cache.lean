import CovenantEmulator.ClientController.Babylon
import CovenantEmulator.Golang.Retry

/-! The state of the emulator and its cache of versioned parameters. -/
namespace CovenantEmulator

open Golang

/-- What the emulator does to the outside, in order. The Go program keeps no such record. -/
inductive Event where
  | paramsAnswer (version : UInt32) (answer : Except String StakingParams)
  | signing (del : Delegation) (req : SigningRequest)
  | submitting (covenantSigs : List CovenantSigs)

structure World (σ : Type) where
  /-- Chain, signer and network. -/
  env : σ
  paramsByVersion : UInt32 → Option StakingParams
  trace : List Event

section
variable {σ α : Type}

def onEnv (m : Go σ α) : Go (World σ) α :=
  Go.zoom World.env (fun w env => { w with env := env }) m

def record (e : Event) : Go (World σ) Unit :=
  Go.modify fun w => { w with trace := w.trace ++ [e] }

def World.cacheParams (w : World σ) (version : UInt32) (params : StakingParams) : World σ :=
  { w with paramsByVersion := fun v => if v = version then some params else w.paramsByVersion v }

end

/-- `retry.Do` with `LastErrorOnly`, as `getParamsByVersion` calls it. -/
abbrev ParamsRetry (σ : Type) := Retry (World σ) StakingParams

section
variable {σ : Type} (retry : ParamsRetry σ) (cc : ClientController σ)

/-- `RtyAttNum`. -/
def rtyAttNum : Nat := 5

def queryParamsOnce (version : UInt32) : Go (World σ) StakingParams := do
  let answer ← Go.attempt (onEnv (cc.queryStakingParamsByVersion version))
  record (.paramsAnswer version answer)
  Go.lift (.ofExcept answer)

def getParamsByVersion (version : UInt32) : Go (World σ) StakingParams :=
  retry.run rtyAttNum (queryParamsOnce cc version)

/-- A miss queries the chain and stores the answer. -/
def getMissing (version : UInt32) : Go (World σ) StakingParams := do
  let params ← getParamsByVersion retry cc version
  Go.modify (·.cacheParams version params)
  pure params

/-- `CacheVersionedParams.Get`. -/
def paramsGet (version : UInt32) : Go (World σ) StakingParams := fun w =>
  match w.paramsByVersion version with
  | some params => (.ok params, w)
  | none => getMissing retry cc version w

end

/-- Every call of the controller moves the environment along the preorder `R`. -/
structure Respects {σ : Type} (cc : ClientController σ) (R : σ → σ → Prop) : Prop where
  refl : ∀ s, R s s
  trans : ∀ {a b c}, R a b → R b c → R a c
  submit : ∀ sigs s, R s (cc.submitCovenantSigs sigs s).2
  pages : ∀ status req s, R s (cc.btcDelegations status req s).2
  delegation : ∀ hash s, R s (cc.queryBTCDelegation hash s).2
  params : ∀ version s, R s (cc.queryStakingParamsByVersion version s).2

theorem respects_any {σ : Type} (cc : ClientController σ) : Respects cc fun _ _ => True := by
  constructor <;> simp

section
variable {τ : Type} {bc : BabylonController τ}
  {R : Net MsgAddCovenantSigs τ → Net MsgAddCovenantSigs τ → Prop}

/-- A delegation query moves the net as its one call of the chain does. -/
theorem queryBTCDelegation_moves {hash : String}
    (hcall : ∀ n, R n (onChain (bc.bbnClient.btcDelegation hash) n).2)
    (n : Net MsgAddCovenantSigs τ) : R n (bc.queryBTCDelegation hash n).2 := by
  have h : Triple (bc.queryBTCDelegation hash) n (fun _ n' => R n n') (fun n' => R n n') :=
    Triple.bind (Triple.wrap (Triple.state_iff.mpr (hcall n)))
      fun _ _ h => Triple.lift (fun _ _ => h) h
  exact Triple.state_iff.mp h

/-- A parameter query moves the net as its two calls of the chain do, one after the other. -/
theorem queryStakingParamsByVersion_moves {v : UInt32}
    (htrans : ∀ {a b c}, R a b → R b c → R a c)
    (hckpt : ∀ n, R n (onChain bc.bbnClient.btcCheckpointParams n).2)
    (hparams : ∀ n, R n (onChain (bc.bbnClient.btcStakingParamsByVersion v) n).2)
    (n : Net MsgAddCovenantSigs τ) : R n (bc.queryStakingParamsByVersion v n).2 := by
  have h : Triple (bc.queryStakingParamsByVersion v) n (fun _ n' => R n n') (fun n' => R n n') := by
    refine Triple.bind (Triple.wrap (Triple.state_iff.mpr (hckpt n))) fun _ n₁ h₁ => ?_
    have hmoved := htrans h₁ (hparams n₁)
    refine Triple.bind (Triple.wrap (Triple.state_iff.mpr hmoved)) fun _ n₂ h₂ => ?_
    exact Triple.lift (fun _ _ => h₂) h₂
  exact Triple.state_iff.mp h

end

/-- Only the cache grew, and only parameter queries were recorded. -/
structure Quiet {σ : Type} (R : σ → σ → Prop) (w w' : World σ) : Prop where
  env : R w.env w'.env
  cache : ∀ {v P}, w.paramsByVersion v = some P → w'.paramsByVersion v = some P
  trace : ∃ new, w'.trace = w.trace ++ new ∧ ∀ e ∈ new, ∃ v answer, e = .paramsAnswer v answer

section
variable {σ : Type} {retry : ParamsRetry σ} {cc : ClientController σ} {R : σ → σ → Prop}
  {w w' w'' : World σ}
  {v : UInt32} {P : StakingParams}

theorem Quiet.refl (hR : Respects cc R) (w : World σ) : Quiet R w w :=
  ⟨hR.refl _, id, [], by simp, by simp⟩

theorem Quiet.trans (hR : Respects cc R) (h : Quiet R w w') (h' : Quiet R w' w'') :
    Quiet R w w'' := by
  obtain ⟨new, hnew, hq⟩ := h.trace
  obtain ⟨new', hnew', hq'⟩ := h'.trace
  refine ⟨hR.trans h.env h'.env, fun hv => h'.cache (h.cache hv), new ++ new',
    by simp [hnew, hnew'], ?_⟩
  intro e he
  rcases List.mem_append.mp he with he | he
  · exact hq e he
  · exact hq' e he

/-- A call outside moves only the environment. -/
theorem onEnv_spec {α : Type} {m : Go σ α} (w : World σ) (hm : ∀ s, R s (m s).2) :
    Triple (onEnv m) w (fun a w' => Quiet R w w' ∧ m w.env = (.ok a, w'.env))
      (fun w' => Quiet R w w') := by
  have hfinal : Quiet R w { w with env := (m w.env).2 } :=
    ⟨hm _, id, [], by simp, by simp⟩
  exact Triple.zoom (fun _ s' hs => ⟨by simpa [hs] using hfinal, hs⟩) hfinal

theorem queryParamsOnce_quiet (hR : Respects cc R) (w : World σ) :
    Triple (queryParamsOnce cc v) w (fun _ w' => Quiet R w w') (fun w' => Quiet R w w') := by
  refine Triple.bind (Triple.attempt (R := fun _ w' => Quiet R w w')
    ((onEnv_spec w (hR.params v)).mono (fun _ _ h => h.1) fun _ h => h) (fun _ h _ => h)) ?_
  intro answer w' h
  have hrec : Quiet R w { w' with trace := w'.trace ++ [.paramsAnswer v answer] } :=
    h.trans hR ⟨hR.refl _, id, [.paramsAnswer v answer], rfl, by simp⟩
  exact Triple.bind (Q := fun _ w'' => Quiet R w w'') (Triple.modify hrec)
    (fun _ _ h => Triple.lift (fun _ _ => h) h)

theorem paramsGet_of_cached (h : w.paramsByVersion v = some P) :
    paramsGet retry cc v w = (.ok P, w) := by
  simp [paramsGet, h]

/-- Storing the answer of a miss overwrites nothing. -/
theorem cacheParams_quiet (hmiss : w.paramsByVersion v = none) (h : Quiet R w w') :
    Quiet R w (w'.cacheParams v P) := by
  refine ⟨h.env, fun {v' P'} hv' => ?_, h.trace⟩
  have hne : v' ≠ v := by
    rintro rfl
    simp [hmiss] at hv'
  simpa [World.cacheParams, hne] using h.cache hv'

theorem getMissing_spec (hR : Respects cc R) (hmiss : w.paramsByVersion v = none) :
    Triple (getMissing retry cc v) w (fun P w' => Quiet R w w' ∧ w'.paramsByVersion v = some P)
      (fun w' => Quiet R w w') := by
  refine Triple.bind (retry.triple (fun h h' => h.trans hR h') (queryParamsOnce_quiet hR) _ w) ?_
  intro P w' h
  refine Triple.bind (Q := fun _ w'' => w'' = w'.cacheParams v P) (Triple.modify rfl) ?_
  rintro _ _ rfl
  exact ⟨cacheParams_quiet hmiss h, by simp [World.cacheParams]⟩

/-- `Get` leaves its answer in the cache and overwrites nothing. -/
theorem paramsGet_spec (hR : Respects cc R) (v : UInt32) (w : World σ) :
    Triple (paramsGet retry cc v) w (fun P w' => Quiet R w w' ∧ w'.paramsByVersion v = some P)
      (fun w' => Quiet R w w') := by
  unfold Triple
  cases hv : w.paramsByVersion v with
  | some P =>
    rw [paramsGet_of_cached hv]
    exact ⟨Quiet.refl hR w, hv⟩
  | none =>
    rw [show paramsGet retry cc v w = getMissing retry cc v w by simp [paramsGet, hv]]
    exact getMissing_spec hR hv

end

end CovenantEmulator
