import CovenantEmulator.Sample.Remote
import CovenantEmulator.Signer.Keyring
import Mathlib.Logic.Function.Basic

/-! `Lock` and `Unlock` requests handled at the same time, and the gauge that reports the key. -/
namespace CovenantEmulator

open Golang

/-- The metrics that the two handlers write. -/
structure CovenantSignerMetrics where
  signerUnlockStatus : ℕ
  signerFailedUnlockRequests : ℕ
  deriving DecidableEq, Repr

namespace CovenantSignerMetrics

variable (m : CovenantSignerMetrics)

/-- `NewCovenantSignerMetrics`. -/
def new : CovenantSignerMetrics := ⟨0, 0⟩

def setSignerUnlocked : CovenantSignerMetrics := { m with signerUnlockStatus := 1 }

def setSignerLocked : CovenantSignerMetrics := { m with signerUnlockStatus := 0 }

def incFailedUnlockRequests : CovenantSignerMetrics :=
  { m with signerFailedUnlockRequests := m.signerFailedUnlockRequests + 1 }

end CovenantSignerMetrics

inductive LockOp where
  | unlock | lock
  deriving DecidableEq, Repr

/-- A request, and the handler its route has. -/
structure LockRequest where
  op : LockOp
  request : HttpRequest

def LockRequest.handle {σ : Type} (h : Handler σ) (r : LockRequest) :
    Go σ (Except ServiceError Result) :=
  match r.op with
  | .unlock => h.unlock r.request
  | .lock => h.lock r.request

/-- Where a request is: before the retriever, between the retriever and the metrics, or at its
response. -/
inductive LockPc where
  | start
  | called (res : Except String Unit)
  | responded (res : Except ServiceError Result)

/-- The retriever and the metrics of one server, and the requests by their index. -/
structure LockState (ι : Type) where
  retriever : KeyringRetriever
  metrics : CovenantSignerMetrics
  pc : ι → LockPc

/-- The request that moves, and what the keyring would answer to a passphrase. -/
structure LockAction (ι : Type) where
  thread : ι
  keyring : String → Except String (Option PrivateKey)

namespace LockState

variable {ι : Type} (s : LockState ι)

def init : LockState ι := ⟨.new, .new, fun _ => .start⟩

def setPc [DecidableEq ι] (t : ι) (pc : LockPc) : LockState ι :=
  { s with pc := Function.update s.pc t pc }

/-- No request is in progress. -/
def AtRest : Prop := ∀ t res, s.pc t ≠ .called res

def Succeeded : Prop := ∃ t result, s.pc t = .responded (.ok result)

/-- The gauge is 1 exactly when the retriever holds a key. -/
def StatusTrue : Prop := s.metrics.signerUnlockStatus = 1 ↔ s.retriever.btcecPrivKey ≠ none

end LockState

/-- A request is between its operation, which succeeded, and its update of the gauge. -/
def LockState.Unreported {ι : Type} (s : LockState ι) (t : ι) : Prop := s.pc t = .called (.ok ())

/-- What a step does to the key and to the gauge. -/
inductive StatusStep {ι : Type} (requests : ι → LockRequest) (s : LockState ι) (t : ι) :
    LockState ι → Prop
  | quiet {s' : LockState ι} (key : s'.retriever.btcecPrivKey = s.retriever.btcecPrivKey)
      (status : s'.metrics.signerUnlockStatus = s.metrics.signerUnlockStatus)
      (unreported : ∀ t', s'.Unreported t' ↔ s.Unreported t') : StatusStep requests s t s'
  | operated {s' : LockState ι}
      (key : s'.retriever.btcecPrivKey ≠ none ↔ (requests t).op = .unlock)
      (unreported : ∀ t', s'.Unreported t' ↔ t' = t ∨ s.Unreported t') : StatusStep requests s t s'
  | reported {s' : LockState ι} (called : s.Unreported t)
      (key : s'.retriever.btcecPrivKey = s.retriever.btcecPrivKey)
      (status : s'.metrics.signerUnlockStatus = 1 ↔ (requests t).op = .unlock)
      (unreported : ∀ t', s'.Unreported t' ↔ t' ≠ t ∧ s.Unreported t') : StatusStep requests s t s'

/-- The requests that are still to report agree with the key, and when there is none the gauge
does. -/
structure Consistent {ι : Type} (requests : ι → LockRequest) (s : LockState ι) : Prop where
  key : ∀ t, s.Unreported t → (s.retriever.btcecPrivKey ≠ none ↔ (requests t).op = .unlock)
  status : (∀ t, ¬ s.Unreported t) → s.StatusTrue

section
variable {ι : Type} [DecidableEq ι] (codec : Codec) (requests : ι → LockRequest)

/-- A handler until the retriever returns. -/
def callRetriever (s : LockState ι) (a : LockAction ι) : LockState ι :=
  match (requests a.thread).op with
  | .unlock =>
    match codec.decodeUnlockRequest (requests a.thread).request.body.visible with
    | .error _ => s.setPc a.thread (.responded (.error Handler.invalidPayload))
    | .ok passphrase =>
      { s with retriever := (s.retriever.unlock (a.keyring passphrase)).2 }.setPc a.thread
        (.called (s.retriever.unlock (a.keyring passphrase)).1)
  | .lock => { s with retriever := s.retriever.lock }.setPc a.thread (.called (.ok ()))

/-- A handler after the retriever has returned. -/
def updateMetrics (s : LockState ι) (t : ι) (res : Except String Unit) : LockState ι :=
  match (requests t).op, res with
  | .unlock, .error err =>
    { s with metrics := s.metrics.incFailedUnlockRequests }.setPc t
      (.responded (.error (newErrorWithMsg 400 .badRequest err)))
  | .unlock, .ok _ =>
    { s with metrics := s.metrics.setSignerUnlocked }.setPc t (.responded (.ok (newResult .unlock)))
  | .lock, .error err => s.setPc t (.responded (.error (newErrorWithMsg 400 .badRequest err)))
  | .lock, .ok _ =>
    { s with metrics := s.metrics.setSignerLocked }.setPc t (.responded (.ok (newResult .lock)))

def lockStep (s : LockState ι) (a : LockAction ι) : LockState ι :=
  match s.pc a.thread with
  | .start => callRetriever codec requests s a
  | .called res => updateMetrics requests s a.thread res
  | .responded _ => s

def lockRun (s : LockState ι) (actions : List (LockAction ι)) : LockState ι :=
  actions.foldl (lockStep codec requests) s

/-- The next step of this request is an operation on the retriever, and it succeeds. -/
def Operates (s : LockState ι) (a : LockAction ι) : Prop :=
  s.pc a.thread = .start ∧
    match (requests a.thread).op with
    | .unlock => ∃ passphrase,
        codec.decodeUnlockRequest (requests a.thread).request.body.visible = .ok passphrase ∧
          (s.retriever.unlock (a.keyring passphrase)).1 = .ok ()
    | .lock => True

/-- No operation succeeds between an operation of the other kind and its update of the gauge. -/
def Undisturbed (s : LockState ι) (a : LockAction ι) : Prop :=
  Operates codec requests s a →
    ∀ t, s.Unreported t → (requests t).op = (requests a.thread).op

def UndisturbedRun (s : LockState ι) : List (LockAction ι) → Prop
  | [] => True
  | a :: actions =>
    Undisturbed codec requests s a ∧ UndisturbedRun (lockStep codec requests s a) actions

/-- Whenever a request has succeeded and none is in progress, the gauge is true. -/
def TrueAtRest (actions : List (LockAction ι)) : Prop :=
  ∀ before, before <+: actions → (lockRun codec requests .init before).Succeeded →
    (lockRun codec requests .init before).AtRest → (lockRun codec requests .init before).StatusTrue

end

section
variable {ι : Type} [DecidableEq ι] {codec : Codec} {requests : ι → LockRequest}
  {s : LockState ι} {a : LockAction ι} {actions : List (LockAction ι)}

@[simp] theorem LockState.setPc_self (s : LockState ι) (t : ι) (pc : LockPc) :
    (s.setPc t pc).pc t = pc := by
  simp [setPc]

theorem LockState.setPc_of_ne (s : LockState ι) {t t' : ι} (h : t' ≠ t) (pc : LockPc) :
    (s.setPc t pc).pc t' = s.pc t' := by
  simp [setPc, h]

/-- A request that moves to neither side of its update leaves the others as they are. -/
theorem StatusStep.quiet_setPc {s' : LockState ι} {t : ι} {pc : LockPc}
    (hs' : s'.pc = s.pc) (key : s'.retriever.btcecPrivKey = s.retriever.btcecPrivKey)
    (status : s'.metrics.signerUnlockStatus = s.metrics.signerUnlockStatus)
    (hbefore : ¬ s.Unreported t) (hafter : pc ≠ .called (.ok ())) :
    StatusStep requests s t (s'.setPc t pc) := by
  refine .quiet key status fun t' => ?_
  unfold LockState.Unreported at *
  by_cases ht : t' = t
  · subst ht
    rw [LockState.setPc_self]
    exact iff_of_false hafter hbefore
  · rw [LockState.setPc_of_ne _ ht, hs']

theorem callRetriever_statusStep (hstart : s.pc a.thread = .start) :
    StatusStep requests s a.thread (callRetriever codec requests s a) := by
  have hbefore : ¬ s.Unreported a.thread := by
    rw [LockState.Unreported, hstart]
    exact LockPc.noConfusion
  have hcalled : ∀ {s' : LockState ι}, s'.pc = s.pc → ∀ t',
      (s'.setPc a.thread (.called (.ok ()))).Unreported t' ↔ t' = a.thread ∨ s.Unreported t' := by
    intro s' hs' t'
    unfold LockState.Unreported
    by_cases ht : t' = a.thread
    · subst ht
      simp
    · rw [LockState.setPc_of_ne _ ht, hs']
      simp [ht]
  cases hop : (requests a.thread).op with
  | unlock =>
    cases hpayload : codec.decodeUnlockRequest (requests a.thread).request.body.visible with
    | error e =>
      simp only [callRetriever, hop, hpayload]
      exact .quiet_setPc rfl rfl rfl hbefore (by simp)
    | ok passphrase =>
      simp only [callRetriever, hop, hpayload]
      cases hres : (s.retriever.unlock (a.keyring passphrase)).1 with
      | error e =>
        have hkey := KeyringRetriever.unlock_of_error hres
        exact .quiet_setPc rfl (congrArg _ hkey) rfl hbefore (by simp)
      | ok u =>
        have hkey := KeyringRetriever.unlock_of_ok hres
        exact .operated (iff_of_true hkey hop) (hcalled rfl)
  | lock =>
    have hkey := s.retriever.lock_btcecPrivKey
    simp only [callRetriever, hop]
    exact .operated (iff_of_false (not_not.mpr hkey) (by simp [hop])) (hcalled rfl)

theorem updateMetrics_statusStep {t : ι} {res : Except String Unit} (hpc : s.pc t = .called res) :
    StatusStep requests s t (updateMetrics requests s t res) := by
  cases res with
  | error e =>
    have hbefore : ¬ s.Unreported t := by
      rw [LockState.Unreported, hpc]
      simp
    cases hop : (requests t).op <;> simp only [updateMetrics, hop]
    all_goals
      exact .quiet_setPc rfl rfl rfl hbefore (by simp)
  | ok u =>
    have hresponded : ∀ {s' : LockState ι} {res}, s'.pc = s.pc → ∀ t',
        (s'.setPc t (.responded res)).Unreported t' ↔ t' ≠ t ∧ s.Unreported t' := by
      intro s' res hs' t'
      unfold LockState.Unreported
      by_cases ht : t' = t
      · subst ht
        simp
      · rw [LockState.setPc_of_ne _ ht, hs']
        simp [ht]
    cases hop : (requests t).op <;> simp only [updateMetrics, hop]
    · exact .reported hpc rfl
        (by simp [CovenantSignerMetrics.setSignerUnlocked, LockState.setPc, hop]) (hresponded rfl)
    · exact .reported hpc rfl
        (by simp [CovenantSignerMetrics.setSignerLocked, LockState.setPc, hop]) (hresponded rfl)

theorem lockStep_statusStep :
    StatusStep requests s a.thread (lockStep codec requests s a) := by
  cases hpc : s.pc a.thread with
  | start =>
    have hstep : StatusStep requests s a.thread (callRetriever codec requests s a) :=
      callRetriever_statusStep hpc
    simpa only [lockStep, hpc] using hstep
  | called res =>
    have hstep : StatusStep requests s a.thread (updateMetrics requests s a.thread res) :=
      updateMetrics_statusStep hpc
    simpa only [lockStep, hpc] using hstep
  | responded res =>
    rw [lockStep, hpc]
    exact .quiet rfl rfl fun _ => Iff.rfl

/-- A request that is still to report after its step has operated in it. -/
theorem operates_of_unreported
    (hafter : (lockStep codec requests s a).Unreported a.thread) :
    Operates codec requests s a := by
  unfold LockState.Unreported at hafter
  cases hpc : s.pc a.thread with
  | start =>
    refine ⟨hpc, ?_⟩
    simp only [lockStep, hpc, callRetriever] at hafter
    cases hop : (requests a.thread).op with
    | lock => trivial
    | unlock =>
      simp only [hop] at hafter
      cases hpayload : codec.decodeUnlockRequest (requests a.thread).request.body.visible with
      | error e => simp [hpayload] at hafter
      | ok passphrase => exact ⟨passphrase, rfl, by simpa [hpayload] using hafter⟩
  | called res =>
    simp only [lockStep, hpc, updateMetrics] at hafter
    split at hafter <;> simp at hafter
  | responded res =>
    simp only [lockStep, hpc] at hafter
    cases hafter

omit [DecidableEq ι] in
theorem consistent_init : Consistent requests (.init : LockState ι) where
  key t ht := by cases ht
  status _ := by simp [LockState.StatusTrue, LockState.init, CovenantSignerMetrics.new,
    KeyringRetriever.new]

/-- What one step preserves. -/
theorem Consistent.step (h : Consistent requests s) (hstep : Undisturbed codec requests s a) :
    Consistent requests (lockStep codec requests s a) := by
  have hstatus : StatusStep requests s a.thread (lockStep codec requests s a) :=
    lockStep_statusStep
  cases hstatus with
  | quiet key status unreported =>
    refine ⟨fun t ht => ?_, fun hnone => ?_⟩
    · rw [key]
      exact h.key t ((unreported t).mp ht)
    · have htrue := h.status fun t ht => hnone t ((unreported t).mpr ht)
      rwa [LockState.StatusTrue, status, key]
  | operated key unreported =>
    refine ⟨fun t ht => ?_, fun hnone => ?_⟩
    · rw [key]
      rcases (unreported t).mp ht with rfl | ht
      · rfl
      -- what waits is of the same kind, or this operation would disturb it
      · have hafter := (unreported a.thread).mpr (.inl rfl)
        rw [hstep (operates_of_unreported hafter) t ht]
    · exact (hnone a.thread ((unreported a.thread).mpr (.inl rfl))).elim
  | reported called key status unreported =>
    refine ⟨fun t ht => ?_, fun _ => ?_⟩
    · rw [key]
      exact h.key t ((unreported t).mp ht).2
    · rw [LockState.StatusTrue, status, key]
      exact (h.key a.thread called).symm

/-- What a run preserves, in every state it reaches. -/
theorem Consistent.run (h : Consistent requests s)
    (hrun : UndisturbedRun codec requests s actions) {before : List (LockAction ι)}
    (hbefore : before <+: actions) : Consistent requests (lockRun codec requests s before) := by
  induction actions generalizing s before with
  | nil =>
    rw [List.prefix_nil.mp hbefore]
    exact h
  | cons a actions ih =>
    cases before with
    | nil => exact h
    | cons b before =>
      obtain ⟨rfl, hrest⟩ := List.cons_prefix_cons.mp hbefore
      exact ih (h.step hrun.1) hrun.2 hrest

theorem attempt_unlock_keyring (lib : BabylonLib)
    (keyring : String → Except String (Option PrivateKey)) (passphrase : String)
    (k : KeyringRetriever) :
    Go.attempt (SignerApp.unlock ⟨lib, keyringRetriever keyring⟩ passphrase) k =
      (.ok (k.unlock (keyring passphrase)).1, (k.unlock (keyring passphrase)).2) := by
  rw [Go.attempt_apply]
  simp only [SignerApp.unlock, keyringRetriever]
  cases (k.unlock (keyring passphrase)).1 <;> rfl

/-- A request that nothing interrupts answers as its handler does. -/
theorem lockRun_handle {lib : BabylonLib} {b : LockAction ι} (hstart : s.pc a.thread = .start)
    (hb : b.thread = a.thread) :
    ∃ res, (lockRun codec requests s [a, b]).pc a.thread = .responded res ∧
      (requests a.thread).handle ⟨⟨lib, keyringRetriever a.keyring⟩, codec⟩ s.retriever =
        (.ok res, (lockRun codec requests s [a, b]).retriever) := by
  have hfirst : lockRun codec requests s [a, b] =
      lockStep codec requests (callRetriever codec requests s a) b := by
    simp only [lockRun, List.foldl_cons, List.foldl_nil, lockStep, hstart]
  rw [hfirst]
  unfold LockRequest.handle
  cases hop : (requests a.thread).op with
  | unlock =>
    cases hpayload : codec.decodeUnlockRequest (requests a.thread).request.body.visible with
    | error e =>
      refine ⟨.error Handler.invalidPayload, ?_⟩
      simp only [lockStep, callRetriever, hop, hpayload, hb, LockState.setPc_self, Handler.unlock,
        true_and]
      rfl
    | ok passphrase =>
      have hcall := attempt_unlock_keyring lib a.keyring passphrase s.retriever
      simp only [lockStep, callRetriever, hop, hpayload, hb, LockState.setPc_self, Handler.unlock]
      rw [Go.bind_of_ok hcall]
      cases (s.retriever.unlock (a.keyring passphrase)).1 with
      | error e =>
        simp only [updateMetrics, hop, LockState.setPc_self]
        exact ⟨_, rfl, rfl⟩
      | ok u =>
        simp only [updateMetrics, hop, LockState.setPc_self]
        exact ⟨_, rfl, rfl⟩
  | lock =>
    refine ⟨.ok (newResult .lock), ?_⟩
    simp only [lockStep, callRetriever, updateMetrics, hop, hb, LockState.setPc_self, true_and]
    rfl

/-- The reported status is true at rest in every run in which no operation succeeds between an
operation of the other kind and its update of the gauge. -/
theorem trueAtRest_of_undisturbed (codec : Codec) (requests : ι → LockRequest)
    (actions : List (LockAction ι)) (hrun : UndisturbedRun codec requests .init actions) :
    TrueAtRest codec requests actions := by
  intro before hbefore _ hrest
  have hconsistent := consistent_init.run hrun hbefore
  exact hconsistent.status fun t ht => hrest t (.ok ()) ht

end

namespace Sample

/-- The sample codec, which also decodes an empty passphrase. -/
def unlockCodec : Codec :=
  { codec plainWire (toResponse (signatures none)) with
    decodeUnlockRequest := fun bs =>
      if bs = Json.object [("passphrase", Json.string "")] then .ok ""
      else .error "invalid character" }

/-- A lock and an unlock, as the client sends them. -/
def statusRequests : Fin 2 → LockRequest
  | 0 => ⟨.lock, ⟨.post, "/v1/lock", "", 0, ⟨[], none⟩⟩⟩
  | 1 => ⟨.unlock, ⟨.post, "/v1/unlock", "", 17,
      ⟨Json.object [("passphrase", Json.string "")], none⟩⟩⟩

def statusSchedule (threads : List (Fin 2)) : List (LockAction (Fin 2)) :=
  threads.map fun t => ⟨t, fun _ => .ok (some signingKey)⟩

/-- The lock finds nothing to do, the unlock is handled, and the lock then reports itself. -/
theorem locked_reported_with_key :
    ((lockRun unlockCodec statusRequests .init (statusSchedule [0, 1, 1, 0])).Succeeded ∧
      (lockRun unlockCodec statusRequests .init (statusSchedule [0, 1, 1, 0])).AtRest) ∧
    (lockRun unlockCodec statusRequests .init
      (statusSchedule [0, 1, 1, 0])).metrics.signerUnlockStatus = 0 ∧
    (lockRun unlockCodec statusRequests .init
      (statusSchedule [0, 1, 1, 0])).retriever.btcecPrivKey = some 0 ∧
    ¬ TrueAtRest unlockCodec statusRequests (statusSchedule [0, 1, 1, 0]) := by
  have hsucceeded :
      (lockRun unlockCodec statusRequests .init (statusSchedule [0, 1, 1, 0])).Succeeded :=
    ⟨0, newResult .lock, rfl⟩
  have hrest : (lockRun unlockCodec statusRequests .init (statusSchedule [0, 1, 1, 0])).AtRest := by
    intro t res
    match t with
    | 0 => exact LockPc.noConfusion
    | 1 => exact LockPc.noConfusion
  refine ⟨⟨hsucceeded, hrest⟩, rfl, rfl, ?_⟩
  intro h
  have htrue := h _ List.prefix_rfl hsucceeded hrest
  exact absurd (htrue.mpr (by decide)) (by decide)

/-- Two unlocks and a lock. -/
def threeRequests : Fin 3 → LockRequest
  | 0 => statusRequests 1
  | 1 => statusRequests 1
  | 2 => statusRequests 0

/-- The unlocks are handled at the same time, and the lock once both have reported. -/
def threeSchedule : List (LockAction (Fin 3)) :=
  [0, 1, 1, 0, 2, 2].map fun t => ⟨t, fun _ => .ok (some signingKey)⟩

theorem undisturbed_three : UndisturbedRun unlockCodec threeRequests .init threeSchedule := by
  refine ⟨?_, ?_, ?_, ?_, ?_, ?_, trivial⟩
  all_goals
    intro _ t ht
    match t, ht with
    | 0, ht => first | rfl | exact LockPc.noConfusion ht
    | 1, ht => first | rfl | exact LockPc.noConfusion ht
    | 2, ht => first | rfl | exact LockPc.noConfusion ht

/-- At rest with the key, and at rest again without it. -/
theorem three_trueAtRest :
    TrueAtRest unlockCodec threeRequests threeSchedule ∧
      (∀ n, n = 4 ∨ n = 6 →
        (lockRun unlockCodec threeRequests .init (threeSchedule.take n)).Succeeded ∧
        (lockRun unlockCodec threeRequests .init (threeSchedule.take n)).AtRest) ∧
      (lockRun unlockCodec threeRequests .init
        (threeSchedule.take 4)).metrics.signerUnlockStatus = 1 ∧
      (lockRun unlockCodec threeRequests .init threeSchedule).metrics.signerUnlockStatus = 0 := by
  refine ⟨trueAtRest_of_undisturbed _ _ _ undisturbed_three, ?_, rfl, rfl⟩
  rintro n (rfl | rfl)
  all_goals
    refine ⟨⟨0, newResult .unlock, rfl⟩, fun t res => ?_⟩
    match t with
    | 0 | 1 | 2 => exact LockPc.noConfusion

end Sample

end CovenantEmulator
