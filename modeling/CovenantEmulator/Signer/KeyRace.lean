import CovenantEmulator.Sample
import CovenantEmulator.Signer.Keyring
import Mathlib.Logic.Function.Basic

/-! Requests that run at the same time on one signer application over the keyring retriever. -/
namespace CovenantEmulator

open Golang

/-- What a request calls. -/
inductive AppCall where
  | signTransactions (req : ParsedSigningRequest)
  | pubKey
  | lock
  | unlock

/-- Where a request is: before its retriever operation, between two reads of the key object it
was given, or at its response. -/
inductive AppPc where
  | start
  | signing (key : ℕ) (next : PrivateKey → Resumption PrivateKey ParsedSigningResponse)
  | computing (key : ℕ)
  | signed (res : Outcome ParsedSigningResponse)
  | pubKey (res : Except String PublicKey)
  | locked
  | unlocked (res : Except String Unit)

/-- The next signature, or the response. -/
def AppPc.ofSteps (key : ℕ) : Resumption PrivateKey ParsedSigningResponse → AppPc
  | .done res => .signed res
  | .read next => .signing key next

/-- The response is an error. -/
def AppPc.Failed : AppPc → Prop
  | .signed (.error _) | .pubKey (.error _) => True
  | _ => False

/-- The retriever, and the requests by their index. -/
structure AppState (ι : Type) where
  retriever : KeyringRetriever
  pc : ι → AppPc

/-- The request that moves, and what the keyring answers if it is asked. -/
structure AppAction (ι : Type) where
  thread : ι
  answer : Except String (Option PrivateKey)

section
variable {ι : Type} [DecidableEq ι] (lib : BabylonLib) (calls : ι → AppCall)

def AppState.init : AppState ι := ⟨.new, fun _ => .start⟩

def AppState.setPc (s : AppState ι) (t : ι) (pc : AppPc) : AppState ι :=
  { s with pc := Function.update s.pc t pc }

/-- The retriever operation a request begins with. -/
def startCall (s : AppState ι) (a : AppAction ι) : AppState ι :=
  match calls a.thread with
  | .signTransactions req =>
    match s.retriever.privKey with
    | .error e => s.setPc a.thread (.signed (.error e))
    | .ok key => s.setPc a.thread (.ofSteps key (signSteps lib req))
  | .pubKey =>
    match s.retriever.privKey with
    | .error e => s.setPc a.thread (.pubKey (.error e))
    | .ok key => s.setPc a.thread (.computing key)
  | .lock => { s with retriever := s.retriever.lock }.setPc a.thread .locked
  | .unlock =>
    { s with retriever := (s.retriever.unlock a.answer).2 }.setPc a.thread
      (.unlocked (s.retriever.unlock a.answer).1)

/-- One operation of one request: of the retriever, of a signature or of the public key. -/
def appStep (s : AppState ι) (a : AppAction ι) : AppState ι :=
  match s.pc a.thread with
  | .start => startCall lib calls s a
  | .signing key next => s.setPc a.thread (.ofSteps key (next (s.retriever.read key)))
  | .computing key => s.setPc a.thread (.pubKey (.ok (lib.pubKey (s.retriever.read key))))
  | _ => s

def appRun (s : AppState ι) (actions : List (AppAction ι)) : AppState ι :=
  actions.foldl (appStep lib calls) s

/-- A step of a run, with the state it is taken in. -/
structure Moment (ι : Type) where
  before : AppState ι
  action : AppAction ι

def moments (s : AppState ι) : List (AppAction ι) → List (Moment ι)
  | [] => []
  | a :: actions => ⟨s, a⟩ :: moments (appStep lib calls s a) actions

namespace Moment

variable (m : Moment ι)

def after : AppState ι := appStep lib calls m.before m.action

/-- The request is at its first operation. -/
def Starts (call : AppCall) : Prop :=
  m.before.pc m.action.thread = .start ∧ calls m.action.thread = call

def Unlocks : Prop :=
  m.Starts calls .unlock ∧ (m.before.retriever.unlock m.action.answer).1 = .ok ()

/-- The request fetches the key. -/
def Fetches : Prop :=
  m.Starts calls .pubKey ∨ ∃ req, m.Starts calls (.signTransactions req)

/-- The public key is computed from an object that `Lock` has overwritten. -/
def ComputesZeroed : Prop :=
  ∃ key, m.before.pc m.action.thread = .computing key ∧ m.before.retriever.read key = .zero

instance : DecidablePred (ComputesZeroed (ι := ι)) := fun m =>
  match hpc : m.before.pc m.action.thread with
  | .computing key =>
    decidable_of_iff (m.before.retriever.read key = .zero) (by simp [ComputesZeroed, hpc])
  | .start | .signing .. | .signed _ | .pubKey _ | .locked | .unlocked _ =>
    isFalse (by simp [ComputesZeroed, hpc])

end Moment

/-- Every answer that depends on the key comes from `sk`. -/
structure AnswersFromKey (sk : PrivateKey) (actions : List (AppAction ι)) : Prop where
  signatures : ∀ t req resp, calls t = .signTransactions req →
    (appRun lib calls .init actions).pc t = .signed (.ok resp) → signWith lib sk req = .ok resp
  pubKeys : ∀ t pk, (appRun lib calls .init actions).pc t = .pubKey (.ok pk) → pk = lib.pubKey sk
  afterLock : ∀ pre x mid y post, moments lib calls .init actions = pre ++ x :: mid ++ y :: post →
    x.Starts calls .lock → (∀ z ∈ mid, ¬ z.Unlocks calls) → y.Fetches calls →
    ((y.after lib calls).pc y.action.thread).Failed

/-- A request between signatures will return what signing with `sk` returns, or fail. -/
def PcSound (sk : PrivateKey) (call : AppCall) : AppPc → Prop
  | .signing _ next => ∃ req, call = .signTransactions req ∧
    (Resumption.read next).run sk = signWith lib sk req ∧ (Resumption.read next).FailsOn .zero
  | .signed res => ∃ req, call = .signTransactions req ∧
    ∀ resp, res = .ok resp → signWith lib sk req = .ok resp
  | _ => True

structure RaceSound (sk : PrivateKey) (s : AppState ι) : Prop where
  retriever : s.retriever.Holds sk
  requests : ∀ t, PcSound lib sk (calls t) (s.pc t)

/-- The public keys returned so far are the one of `sk`. -/
def PubKeysSound (sk : PrivateKey) (s : AppState ι) : Prop :=
  ∀ t pk, s.pc t = .pubKey (.ok pk) → pk = lib.pubKey sk

end

section
variable {ι : Type} [DecidableEq ι] {lib : BabylonLib} {calls : ι → AppCall} {sk : PrivateKey}
  {s : AppState ι} {a : AppAction ι} {actions : List (AppAction ι)} {m : Moment ι}

@[simp] theorem setPc_pc_self (s : AppState ι) (t : ι) (pc : AppPc) : (s.setPc t pc).pc t = pc := by
  simp [AppState.setPc]

@[simp] theorem setPc_pc_of_ne (s : AppState ι) {t t' : ι} (h : t' ≠ t) (pc : AppPc) :
    (s.setPc t pc).pc t' = s.pc t' := by
  simp [AppState.setPc, h]

/-- A step moves one request. -/
theorem appStep_pc_of_ne {t : ι} (h : t ≠ a.thread) : (appStep lib calls s a).pc t = s.pc t := by
  unfold appStep startCall
  split
  · split
    · split <;> simp [h]
    · split <;> simp [h]
    · simp [h]
    · simp [h]
  · simp [h]
  · simp [h]
  · rfl

omit [DecidableEq ι] in
theorem raceSound_init : RaceSound lib calls sk (.init : AppState ι) where
  retriever := KeyringRetriever.holds_new
  requests _ := trivial

omit [DecidableEq ι] in
theorem RaceSound.withRetriever (h : RaceSound lib calls sk s) {k : KeyringRetriever}
    (hk : k.Holds sk) : RaceSound lib calls sk { s with retriever := k } :=
  ⟨hk, h.requests⟩

theorem RaceSound.setPc (h : RaceSound lib calls sk s) {t : ι} {pc : AppPc}
    (hpc : PcSound lib sk (calls t) pc) : RaceSound lib calls sk (s.setPc t pc) where
  retriever := h.retriever
  requests t' := by
    by_cases ht : t' = t
    · subst ht
      simpa using hpc
    · simpa [ht] using h.requests t'

theorem pcSound_ofSteps {call : AppCall} {req : ParsedSigningRequest} {key : ℕ}
    {steps : Resumption PrivateKey ParsedSigningResponse} (hcall : call = .signTransactions req)
    (hrun : steps.run sk = signWith lib sk req) (hfails : steps.FailsOn .zero) :
    PcSound lib sk call (.ofSteps key steps) := by
  cases steps with
  | done res =>
    refine ⟨req, hcall, ?_⟩
    rintro resp rfl
    exact hrun.symm
  | read next => exact ⟨req, hcall, hrun, hfails⟩

theorem startCall_sound (hzero : RejectsZero lib) (h : RaceSound lib calls sk s)
    (hanswer : ∀ sk', a.answer = .ok (some sk') → sk' = sk) :
    RaceSound lib calls sk (startCall lib calls s a) := by
  unfold startCall
  split
  · rename_i req hcall
    split
    · exact h.setPc ⟨req, hcall, by simp⟩
    · exact h.setPc (pcSound_ofSteps hcall run_signSteps (failsOn_signSteps hzero))
  · split <;> exact h.setPc trivial
  · exact (h.withRetriever h.retriever.lock).setPc trivial
  · exact (h.withRetriever (h.retriever.unlock hanswer)).setPc trivial

/-- What one step preserves. A signature from an overwritten object ends its request. -/
theorem appStep_sound (hzero : RejectsZero lib) (h : RaceSound lib calls sk s)
    (hanswer : ∀ sk', a.answer = .ok (some sk') → sk' = sk) :
    RaceSound lib calls sk (appStep lib calls s a) := by
  have hthread := h.requests a.thread
  unfold appStep
  split
  · exact startCall_sound hzero h hanswer
  · rename_i key next hpc
    rw [hpc] at hthread
    obtain ⟨req, hcall, hrun, ⟨e, he⟩, hnext⟩ := hthread
    rcases h.retriever.object key with hkey | hkey
    · rw [hkey]
      exact h.setPc (pcSound_ofSteps hcall hrun (hnext sk))
    · rw [hkey, he]
      exact h.setPc ⟨req, hcall, by simp⟩
  · exact h.setPc trivial
  · exact h

theorem PubKeysSound.setPc (h : PubKeysSound lib sk s) {t : ι} {pc : AppPc}
    (hpc : ∀ pk, pc = .pubKey (.ok pk) → pk = lib.pubKey sk) :
    PubKeysSound lib sk (s.setPc t pc) := by
  intro t' pk hpk
  by_cases ht : t' = t
  · subst ht
    exact hpc pk (by simpa using hpk)
  · exact h t' pk (by simpa [ht] using hpk)

theorem ofSteps_ne_pubKey (key : ℕ) (steps : Resumption PrivateKey ParsedSigningResponse)
    (res : Except String PublicKey) : AppPc.ofSteps key steps ≠ .pubKey res := by
  cases steps <;> simp [AppPc.ofSteps]

/-- A public key is right if the object it is computed from has not been overwritten. -/
theorem appStep_pubKeys (hsound : RaceSound lib calls sk s) (h : PubKeysSound lib sk s)
    (hlive : lib.pubKey .zero ≠ lib.pubKey sk → ¬ Moment.ComputesZeroed ⟨s, a⟩) :
    PubKeysSound lib sk (appStep lib calls s a) := by
  unfold appStep startCall
  split
  · split
    · split
      · exact h.setPc (by simp)
      · exact h.setPc fun pk hpk => (ofSteps_ne_pubKey _ _ _ hpk).elim
    · split <;> exact h.setPc (by simp)
    · exact PubKeysSound.setPc (s := { s with retriever := s.retriever.lock }) h (by simp)
    · exact PubKeysSound.setPc
        (s := { s with retriever := (s.retriever.unlock a.answer).2 }) h (by simp)
  · exact h.setPc fun pk hpk => (ofSteps_ne_pubKey _ _ _ hpk).elim
  · rename_i key hpc
    have hpub : lib.pubKey (s.retriever.read key) = lib.pubKey sk := by
      rcases hsound.retriever.object key with hkey | hkey
      · rw [hkey]
      · by_contra hne
        rw [hkey] at hne
        exact hlive hne ⟨key, hpc, hkey⟩
    rw [hpub]
    exact h.setPc (by rintro pk ⟨rfl⟩; rfl)
  · exact h

/-- What a run preserves. -/
theorem appRun_sound (hzero : RejectsZero lib) (h : RaceSound lib calls sk s)
    (hsame : ∀ a ∈ actions, ∀ sk', a.answer = .ok (some sk') → sk' = sk) :
    RaceSound lib calls sk (appRun lib calls s actions) := by
  induction actions generalizing s with
  | nil => exact h
  | cons a actions ih =>
    have hstep := appStep_sound hzero h (hsame a List.mem_cons_self)
    exact ih hstep fun a' ha' => hsame a' (List.mem_cons_of_mem _ ha')

theorem appRun_pubKeys (hzero : RejectsZero lib) (hsound : RaceSound lib calls sk s)
    (h : PubKeysSound lib sk s)
    (hsame : ∀ a ∈ actions, ∀ sk', a.answer = .ok (some sk') → sk' = sk)
    (hlive : lib.pubKey .zero ≠ lib.pubKey sk →
      ∀ m ∈ moments lib calls s actions, ¬ m.ComputesZeroed) :
    PubKeysSound lib sk (appRun lib calls s actions) := by
  induction actions generalizing s with
  | nil => exact h
  | cons a actions ih =>
    have hstep := appStep_sound hzero hsound (hsame a List.mem_cons_self)
    have hpub := appStep_pubKeys hsound h fun hne => hlive hne ⟨s, a⟩ List.mem_cons_self
    refine ih hstep hpub (fun a' ha' => hsame a' (List.mem_cons_of_mem _ ha')) ?_
    intro hne m hm
    exact hlive hne m (List.mem_cons_of_mem _ hm)

/-- A response does not change. -/
theorem appRun_pubKey {t : ι} {res : Except String PublicKey} (h : s.pc t = .pubKey res)
    (actions : List (AppAction ι)) : (appRun lib calls s actions).pc t = .pubKey res := by
  induction actions generalizing s with
  | nil => exact h
  | cons a actions ih =>
    refine ih ?_
    by_cases ht : t = a.thread
    · subst ht
      simp [appStep, h]
    · rw [appStep_pc_of_ne ht]
      exact h

/-- A moment of a run comes after the actions before it and before the others. -/
theorem moments_split {pre post : List (Moment ι)}
    (h : moments lib calls s actions = pre ++ m :: post) :
    ∃ before rest, actions = before ++ m.action :: rest ∧ pre = moments lib calls s before ∧
      m.before = appRun lib calls s before ∧
      post = moments lib calls (m.after lib calls) rest := by
  induction pre generalizing s actions with
  | nil =>
    cases actions with
    | nil => cases h
    | cons a actions =>
      cases h
      exact ⟨[], actions, rfl, rfl, rfl, rfl⟩
  | cons x pre ih =>
    cases actions with
    | nil => cases h
    | cons a actions =>
      obtain ⟨rfl, hrest⟩ := List.cons.inj h
      obtain ⟨before, rest, rfl, rfl, hbefore, hpost⟩ := ih hrest
      exact ⟨a :: before, rest, rfl, rfl, hbefore, hpost⟩

/-- The run goes on from every moment of it. -/
theorem appRun_after (hm : m ∈ moments lib calls s actions) :
    ∃ rest, appRun lib calls s actions = appRun lib calls (m.after lib calls) rest := by
  obtain ⟨pre, post, h⟩ := List.append_of_mem hm
  obtain ⟨before, rest, rfl, -, hbefore, -⟩ := moments_split h
  refine ⟨rest, ?_⟩
  rw [Moment.after, hbefore, appRun, List.foldl_append]
  rfl

/-- A step that is not a successful `Unlock` leaves the retriever locked. -/
theorem appStep_locked (hlocked : s.retriever.btcecPrivKey = none)
    (hno : ¬ Moment.Unlocks calls ⟨s, a⟩) :
    (appStep lib calls s a).retriever.btcecPrivKey = none := by
  unfold appStep startCall
  split
  · rename_i hpc
    split
    · split <;> exact hlocked
    · split <;> exact hlocked
    · exact s.retriever.lock_btcecPrivKey
    · rename_i hcall
      apply KeyringRetriever.unlock_btcecPrivKey hlocked
      intro hok
      exact hno ⟨⟨hpc, hcall⟩, hok⟩
  · exact hlocked
  · exact hlocked
  · exact hlocked

theorem appRun_locked (hlocked : s.retriever.btcecPrivKey = none)
    (hno : ∀ z ∈ moments lib calls s actions, ¬ z.Unlocks calls) :
    (appRun lib calls s actions).retriever.btcecPrivKey = none := by
  induction actions generalizing s with
  | nil => exact hlocked
  | cons a actions ih =>
    have hstep : (appStep lib calls s a).retriever.btcecPrivKey = none :=
      appStep_locked hlocked (hno _ List.mem_cons_self)
    exact ih hstep fun z hz => hno z (List.mem_cons_of_mem _ hz)

theorem failed_of_locked (hlocked : m.before.retriever.btcecPrivKey = none)
    (hfetch : m.Fetches calls) : ((m.after lib calls).pc m.action.thread).Failed := by
  have herr := KeyringRetriever.privKey_of_none hlocked
  unfold Moment.after appStep
  rcases hfetch with ⟨hpc, hcall⟩ | ⟨req, hpc, hcall⟩
  · simp [hpc, startCall, hcall, herr, AppPc.Failed]
  · simp [hpc, startCall, hcall, herr, AppPc.Failed]

theorem afterLock_failed {pre mid post : List (Moment ι)} {x y : Moment ι}
    (h : moments lib calls s actions = pre ++ x :: mid ++ y :: post)
    (hlock : x.Starts calls .lock) (hno : ∀ z ∈ mid, ¬ z.Unlocks calls)
    (hfetch : y.Fetches calls) : ((y.after lib calls).pc y.action.thread).Failed := by
  rw [List.append_assoc, List.cons_append] at h
  obtain ⟨-, rest, -, -, -, hrest⟩ := moments_split h
  obtain ⟨between, -, -, rfl, hbefore, -⟩ := moments_split hrest.symm
  have hlocked : (x.after lib calls).retriever.btcecPrivKey = none := by
    obtain ⟨hpc, hcall⟩ := hlock
    simp only [Moment.after, appStep, hpc, startCall, hcall]
    exact x.before.retriever.lock_btcecPrivKey
  refine failed_of_locked ?_ hfetch
  rw [hbefore]
  exact appRun_locked hlocked hno

/-- The answers come from the key exactly in the runs in which no public key is computed from an
object that `Lock` has overwritten since it was fetched. -/
theorem answersFromKey_iff (hzero : RejectsZero lib) (calls : ι → AppCall)
    (hsame : ∀ a ∈ actions, ∀ sk', a.answer = .ok (some sk') → sk' = sk) :
    AnswersFromKey lib calls sk actions ↔
      (lib.pubKey .zero ≠ lib.pubKey sk →
        ∀ m ∈ moments lib calls .init actions, ¬ m.ComputesZeroed) := by
  constructor
  · rintro hans hpub m hm ⟨key, hpc, hkey⟩
    have hafter : (m.after lib calls).pc m.action.thread = .pubKey (.ok (lib.pubKey .zero)) := by
      simp [Moment.after, appStep, hpc, hkey]
    obtain ⟨rest, hrun⟩ := appRun_after hm
    refine hpub (hans.pubKeys m.action.thread _ ?_)
    rw [hrun]
    exact appRun_pubKey hafter rest
  · intro hlive
    have hinit : RaceSound lib calls sk .init := raceSound_init
    have hsound := appRun_sound hzero hinit hsame
    refine ⟨?_, ?_, ?_⟩
    · intro t req resp hcall hsigned
      have hthread := hsound.requests t
      rw [hsigned] at hthread
      obtain ⟨req', hcall', hresp⟩ := hthread
      obtain rfl : req = req' := by simpa [hcall] using hcall'
      exact hresp resp rfl
    · exact appRun_pubKeys hzero hinit (fun t pk hpk => by cases hpk) hsame hlive
    · intro pre x mid y post h hlock hno hfetch
      exact afterLock_failed h hlock hno hfetch

end

namespace Sample

/-- The sample library, refusing to sign with a key of zeros. -/
def strictLib : BabylonLib :=
  { lib with
    encSignTxWithOneScriptSpendInputStrict := fun tx funding idx script sk ek =>
      if sk = .zero then .error "private key is zero"
      else lib.encSignTxWithOneScriptSpendInputStrict tx funding idx script sk ek
    signTxWithOneScriptSpendInputStrict := fun tx funding idx script sk =>
      if sk = .zero then .error "private key is zero"
      else lib.signTxWithOneScriptSpendInputStrict tx funding idx script sk
    signTxForFirstScriptSpendWithTwoInputsFromScript := fun tx first second sk script =>
      if sk = .zero then .error "private key is zero"
      else lib.signTxForFirstScriptSpendWithTwoInputsFromScript tx first second sk script }

theorem strictLib_rejectsZero : RejectsZero strictLib where
  encSign _ _ _ _ _ := ⟨"private key is zero", by simp [strictLib]⟩
  sign _ _ _ _ := ⟨"private key is zero", by simp [strictLib]⟩
  signStkExp _ _ _ _ := ⟨"private key is zero", by simp [strictLib]⟩

/-- An unlock, a signing request, a request for the public key, and a lock. -/
def raceCalls : Fin 4 → AppCall
  | 0 => .unlock
  | 1 => .signTransactions (covenantRequestToSignerRequest plainRequest)
  | 2 => .pubKey
  | 3 => .lock

/-- The requests move in this order, over a keyring that answers with the key. -/
def schedule (threads : List (Fin 4)) : List (AppAction (Fin 4)) :=
  threads.map fun t => ⟨t, .ok (some signingKey)⟩

theorem schedule_same (threads : List (Fin 4)) :
    ∀ a ∈ schedule threads, ∀ sk', a.answer = .ok (some sk') → sk' = signingKey := by
  intro a ha sk' hsk'
  obtain ⟨t, _, rfl⟩ := List.mem_map.mp ha
  cases hsk'
  rfl

/-- The key is overwritten when every answer is there. -/
theorem lock_last_answersFromKey :
    AnswersFromKey strictLib raceCalls signingKey (schedule [0, 1, 2, 1, 1, 2, 1, 1, 1, 3]) ∧
      (appRun strictLib raceCalls .init (schedule [0, 1, 2, 1, 1, 2, 1, 1, 1, 3])).pc 1 =
        .signed (.ok (signatures none)) := by
  refine ⟨(answersFromKey_iff strictLib_rejectsZero raceCalls (schedule_same _)).mpr ?_, rfl⟩
  intro _
  decide +kernel

/-- A public key computed after the lock is the one of a key of zeros. -/
theorem lock_before_pubKey_not_answersFromKey :
    RejectsZero strictLib ∧
      (∀ a ∈ schedule [0, 2, 3, 2], ∀ sk', a.answer = .ok (some sk') → sk' = signingKey) ∧
      ¬ AnswersFromKey strictLib raceCalls signingKey (schedule [0, 2, 3, 2]) := by
  refine ⟨strictLib_rejectsZero, schedule_same _, ?_⟩
  intro h
  have hpub := h.pubKeys 2 (strictLib.pubKey .zero) rfl
  exact absurd hpub (by decide)

end Sample

end CovenantEmulator
