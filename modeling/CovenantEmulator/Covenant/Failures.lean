import CovenantEmulator.ClientController.MessageIndex
import CovenantEmulator.Covenant.Resigning
import CovenantEmulator.Covenant.Skips

/-! What an error of `AddCovenantSignatures` stands for, over the Babylon controller. -/
namespace CovenantEmulator

open Golang

def SendFailed {μ : Type} (sent : List (Sent μ)) : Prop := ∃ s ∈ sent, ∃ e, s.res = .error e

/-- The events recorded since `w`. -/
def World.since {σ : Type} (w w' : World σ) : List Event := w'.trace.drop w.trace.length

/-- The batches sent since `n`. -/
def Net.since {μ τ : Type} (n n' : Net μ τ) : List (Sent μ) := n'.sent.drop n.sent.length

/-- The call returns an error only after a lookup or a send has failed, and otherwise succeeds. -/
structure ErrorMeansFailure {τ : Type} (ce : Emulator (Net MsgAddCovenantSigs τ))
    (btcDels : List (Option Delegation)) (w : World (Net MsgAddCovenantSigs τ)) : Prop where
  failed : ∀ e w', ce.addCovenantSignatures btcDels w = (.error e, w') →
    LookupFailed (w.since w') ∨ SendFailed (w.env.since w'.env)
  succeeds : ∀ o w', ce.addCovenantSignatures btcDels w = (o, w') → o.Returns →
    ¬ LookupFailed (w.since w') → ¬ SendFailed (w.env.since w'.env) → ∃ res, o = .ok res

section
variable {σ μ τ : Type} {w w' : World σ} {n n' : Net μ τ} {new : List Event}

theorem World.since_of_append (h : w'.trace = w.trace ++ new) : w.since w' = new := by
  rw [since, h, List.drop_left]

/-- One more event. -/
theorem World.since_record (h : w'.trace = w.trace ++ new) (e : Event) :
    w.since { w' with trace := w'.trace ++ [e] } = w.since w' ++ [e] := by
  simp [since, h]

theorem Net.since_of_append {sent : List (Sent μ)} (h : n'.sent = n.sent ++ sent) :
    n.since n' = sent := by
  rw [since, h, List.drop_left]

end

section
variable {τ : Type} {bc : BabylonController τ} {ce : Emulator (Net MsgAddCovenantSigs τ)}
  {w w' : World (Net MsgAddCovenantSigs τ)} {btcDels : List (Option Delegation)}

/-- No batch was sent on the way from `n` to `n'`. -/
def NothingSent (n n' : Net MsgAddCovenantSigs τ) : Prop := n'.sent = n.sent

/-- The controller without its submissions, which the loop over the delegations does not use. -/
def BabylonController.queries (bc : BabylonController τ) :
    ClientController (Net MsgAddCovenantSigs τ) :=
  { bc.toClientController with submitCovenantSigs := fun _ => pure ⟨"", []⟩ }

theorem queries_respects (bc : BabylonController τ) : Respects bc.queries NothingSent where
  refl _ := rfl
  trans h h' := Eq.trans h' h
  submit _ _ := rfl
  pages _ _ _ := rfl
  delegation _ := queryBTCDelegation_moves fun _ => rfl
  params _ := queryStakingParamsByVersion_moves (fun h h' => Eq.trans h' h) (fun _ => rfl)
    fun _ => rfl

/-- Collecting the signatures moves the outside as its calls do, and adds to the trace. -/
theorem collectSigs_grows {σ : Type} {R : σ → σ → Prop} {ce : Emulator σ}
    (hR : Respects ce.cc R) (hS : ∀ req s, R s (ce.signer req s).2)
    (btcDels : List (Option Delegation)) (w : World σ) :
    R w.env (ce.collectSigs btcDels w).2.env ∧
      ∃ new, (ce.collectSigs btcDels w).2.trace = w.trace ++ new := by
  have hspec : Triple (ce.collectSigs btcDels) w (fun _ w' => Runs ce R (fun _ => True) w w')
      (fun w' => Runs ce R (fun _ => True) w w') :=
    (collectSigs_spec hR hS w fun _ _ => trivial).mono (fun _ _ h => h.1) fun _ h => h
  have hruns := Triple.state_iff.mp hspec
  obtain ⟨new, hnew, -⟩ := hruns.trace
  exact ⟨hruns.env, new, hnew⟩

/-- Collecting the signatures sends nothing. -/
theorem collectSigs_nothingSent (hcc : ce.cc = bc.toClientController)
    (hS : ∀ req n, NothingSent n (ce.signer req n).2) (btcDels : List (Option Delegation))
    (w : World (Net MsgAddCovenantSigs τ)) :
    NothingSent w.env (ce.collectSigs btcDels w).2.env ∧
      ∃ new, (ce.collectSigs btcDels w).2.trace = w.trace ++ new := by
  let asking : Emulator (Net MsgAddCovenantSigs τ) := { ce with cc := bc.queries }
  have hsame : ce.collectSigs btcDels = asking.collectSigs btcDels := by
    obtain ⟨lib, retry, cc, signer, pk, net, limit, size⟩ := ce
    obtain rfl : cc = bc.toClientController := hcc
    rfl
  have hR : Respects asking.cc NothingSent := queries_respects bc
  rw [hsame]
  exact collectSigs_grows hR hS btcDels w

/-- The loop body fails only when the lookup of the delegation's parameters does. -/
theorem addCovenantSignature_error {σ : Type} {ce : Emulator σ} {btcDel : Option Delegation}
    {w w' : World σ} {e : String} (h : ce.addCovenantSignature btcDel w = (.error e, w')) :
    LookupFails w w' := by
  cases btcDel with
  | none => cases h
  | some d =>
    cases hud : d.btcUndelegation with
    | none =>
      rw [ce.addCovenantSignature_empty hud] at h
      cases h
    | some ud =>
      rw [ce.addCovenantSignature_some hud] at h
      rcases Go.bind_eq_error.mp h with hget | ⟨P, w₁, -, hsign⟩
      · obtain ⟨e', hget, -⟩ := Go.wrap_eq_error.mp hget
        exact paramsGet_error hget
      · exact (Go.attempt_ne_error hsign).elim

theorem collectSigs_error (hcc : ce.cc = bc.toClientController)
    (hS : ∀ req n, NothingSent n (ce.signer req n).2) {e : String}
    (h : ce.collectSigs btcDels w = (.error e, w')) : LookupFailed (w.since w') := by
  obtain ⟨pre, btcDel, post, sigs, w₁, rfl, hpre, hstep⟩ := Go.foldlM_eq_error h
  obtain ⟨-, new, hnew⟩ := collectSigs_nothingSent hcc hS pre w
  rw [Emulator.collectSigs, hpre] at hnew
  rcases Go.bind_eq_error.mp hstep with hbody | ⟨signed, w₂, -, hpure⟩
  · obtain ⟨new', hnew', hfailed⟩ := addCovenantSignature_error hbody
    rw [hnew, List.append_assoc] at hnew'
    rw [World.since_of_append hnew']
    exact hfailed.prepend new
  · cases hpure

/-- With at least one retry, the loop ends in an error only after a send has failed. -/
theorem resendLoop_error {μ : Type} {dup : SdkError}
    {send : List μ → Go τ (Option RelayerTxResponse)} {k : ℕ} {msgs : List μ}
    {err : Option String} {n n' : Net μ τ} {e : String}
    (h : resendLoop dup send (k + 1) msgs err n = (.error e, n')) : SendFailed (n.since n') := by
  rcases resendLoop_round k msgs err n with
    ⟨res, c, hrun⟩ | ⟨e₁, c, hrun⟩ | ⟨e₁, i, c, -, hrun⟩ | ⟨o, c, -, ho, hrun⟩
  · cases hrun.symm.trans h
  · cases hrun.symm.trans h
    rw [Net.since_of_append rfl]
    exact ⟨⟨msgs, .error e⟩, by simp, e, rfl⟩
  · obtain ⟨new, hnew, -, -⟩ := resendLoop_removesNamed k (removeMsgAtIndex msgs i)
      (some (joinErrors err e₁)) ⟨c, n.sent ++ [⟨msgs, .error e₁⟩]⟩
    rw [← hrun, h, List.append_assoc] at hnew
    rw [Net.since_of_append hnew]
    exact ⟨⟨msgs, .error e₁⟩, by simp, e₁, rfl⟩
  · cases hrun.symm.trans h
    exact (ho trivial).elim

theorem submitCovenantSigs_error {sigs : List CovenantSigs} {n n' : Net MsgAddCovenantSigs τ}
    {e : String} (hne : sigs ≠ []) (h : bc.submitCovenantSigs sigs n = (.error e, n')) :
    SendFailed (n.since n') := by
  have hmsgs : sigs.map bc.msgAddCovenantSigs ≠ [] := by simpa using hne
  obtain ⟨hpos, -⟩ := batchRetries_bounds _ bc.maxRetiresBatchRemovingMsgs hmsgs
  obtain ⟨k, hk⟩ := Nat.exists_eq_succ_of_ne_zero (Nat.ne_of_gt hpos)
  rw [BabylonController.submitCovenantSigs_eq, reliablySendMsgsResendingOnMsgErr, hk] at h
  exact resendLoop_error h

/-- With no entry the loop is not entered, and the error that was never set is reported. -/
theorem submitCovenantSigs_nil (bc : BabylonController τ) (n : Net MsgAddCovenantSigs τ) :
    bc.submitCovenantSigs [] n = (.error "failed to send batch of msgs: %!w(<nil>)", n) := by
  have hretries : ∀ max, batchRetries ([] : List MsgAddCovenantSigs) max = 0 := by
    intro max
    rcases batchRetries_cases ([] : List MsgAddCovenantSigs) max with hall | ⟨-, hlt, -⟩
    · exact hall
    · cases hlt
  rw [BabylonController.submitCovenantSigs_eq, reliablySendMsgsResendingOnMsgErr, List.map_nil,
    hretries]
  rfl

/-- The run when every delegation was skipped. -/
theorem addCovenantSignatures_of_skipped (hcc : ce.cc = bc.toClientController)
    (hne : btcDels ≠ []) (h : ce.collectSigs btcDels w = (.ok [], w')) :
    ce.addCovenantSignatures btcDels w =
      (.error "failed to send batch of msgs: %!w(<nil>)",
        { w' with trace := w'.trace ++ [.submitting []] }) := by
  rw [ce.addCovenantSignatures_of_collected hne h, hcc]
  have hsubmit : bc.toClientController.submitCovenantSigs [] w'.env = _ :=
    submitCovenantSigs_nil bc w'.env
  rw [hsubmit]

section
variable (hcc : ce.cc = bc.toClientController) (hS : ∀ req n, NothingSent n (ce.signer req n).2)
  (hne : btcDels ≠ [])
include hcc hS hne

theorem failure_of_error (hskip : ¬ ∃ w₁, AllSkipped ce btcDels w w₁) {e : String}
    (h : ce.addCovenantSignatures btcDels w = (.error e, w')) :
    LookupFailed (w.since w') ∨ SendFailed (w.env.since w'.env) := by
  obtain ⟨hsent, new, hnew⟩ := collectSigs_nothingSent hcc hS btcDels w
  rcases hcollect : ce.collectSigs btcDels w with ⟨sigs | e₁ | p | _, w₁⟩
  · rw [hcollect] at hsent hnew
    cases sigs with
    | nil =>
      left
      rcases (allSkipped_or_lookupFails hcollect).2 with hall | ⟨events, hevents, hfailed⟩
      · exact (hskip ⟨w₁, hall⟩).elim
      · rw [addCovenantSignatures_of_skipped hcc hne hcollect] at h
        cases h
        rw [World.since_record hnew, World.since_of_append hevents]
        exact hfailed.append _
    | cons entry sigs =>
      right
      rw [ce.addCovenantSignatures_of_collected hne hcollect, hcc] at h
      rcases hsubmit : bc.submitCovenantSigs (entry :: sigs) w₁.env with ⟨o, n⟩
      have hrun : bc.toClientController.submitCovenantSigs (entry :: sigs) w₁.env = (o, n) :=
        hsubmit
      rw [hrun] at h
      cases h
      have hfailed := submitCovenantSigs_error (by simp) hsubmit
      unfold Net.since at hfailed ⊢
      rw [← (hsent : w₁.env.sent = w.env.sent)]
      exact hfailed
  · left
    rw [Emulator.addCovenantSignatures, if_neg (by simpa using hne), Go.bind_apply, hcollect] at h
    cases h
    exact collectSigs_error hcc hS hcollect
  all_goals
    rw [Emulator.addCovenantSignatures, if_neg (by simpa using hne), Go.bind_apply, hcollect] at h
    cases h

/-- Nothing has failed when every delegation is skipped. -/
theorem AllSkipped.not_errorMeansFailure {w₁ : World (Net MsgAddCovenantSigs τ)}
    (hall : AllSkipped ce btcDels w w₁) : ¬ ErrorMeansFailure ce btcDels w := by
  intro h
  obtain ⟨hsent, -⟩ := collectSigs_nothingSent hcc hS btcDels w
  rw [hall.collectSigs] at hsent
  obtain ⟨new, hnew, hsettled⟩ := hall.lookupsSucceed
  rcases h.failed _ _ (addCovenantSignatures_of_skipped hcc hne hall.collectSigs) with
    hlookup | hsend
  · rw [World.since_record hnew, World.since_of_append hnew] at hlookup
    exact (hsettled.append (settled_singleton id)).succeeded hlookup
  · have hsame : w₁.env.sent = w.env.sent ++ [] := by
      rw [List.append_nil]
      exact hsent
    obtain ⟨s, hs, -⟩ := hsend
    rw [Net.since_of_append hsame] at hs
    cases hs

end

/-- An error means that a lookup or a send has failed, unless every delegation in its turn fails a
check or is refused by the signer: the batch of no messages is then reported as one that failed. -/
theorem errorMeansFailure_iff (bc : BabylonController τ) (hcc : ce.cc = bc.toClientController)
    (hS : ∀ req n, NothingSent n (ce.signer req n).2) (hne : btcDels ≠ [])
    (w : World (Net MsgAddCovenantSigs τ)) :
    ErrorMeansFailure ce btcDels w ↔ ¬ ∃ w₁, AllSkipped ce btcDels w w₁ := by
  constructor
  · rintro h ⟨w₁, hall⟩
    exact hall.not_errorMeansFailure hcc hS hne h
  · intro hskip
    refine ⟨fun e w' h => failure_of_error hcc hS hne hskip h, ?_⟩
    intro o w' h hreturns hlookup hsend
    cases o with
    | ok res => exact ⟨res, rfl⟩
    | error e =>
      rcases failure_of_error hcc hS hne hskip h with hfailed | hfailed
      · exact (hlookup hfailed).elim
      · exact (hsend hfailed).elim
    | panic p => exact hreturns.elim
    | diverged => exact hreturns.elim

end

namespace Sample

/-- The sample delegation with an unbonding time that is not the one of the parameters. -/
def invalidDelegation : Delegation := { plainDelegation with unbondingTime := 100 }

theorem signer_nothingSent (req : SigningRequest)
    (n : Net MsgAddCovenantSigs (List MsgAddCovenantSigs)) :
    NothingSent n (babylonEmulator.signer req n).2 := rfl

/-- The parameters are cached, and the check of the unbonding time fails. -/
theorem skips_invalid : Skips babylonEmulator (some invalidDelegation) start start :=
  .unchecked rfl rfl rfl

theorem allSkipped_invalid : AllSkipped babylonEmulator [some invalidDelegation] start start :=
  .cons skips_invalid .nil

/-- One delegation, skipped as invalid: nothing was asked for or sent, and the call fails. -/
theorem skipped_reported_as_failed :
    babylonEmulator.addCovenantSignatures [some invalidDelegation] start =
        (.error "failed to send batch of msgs: %!w(<nil>)",
          { start with trace := [.submitting []] }) ∧
      ¬ ErrorMeansFailure babylonEmulator [some invalidDelegation] start :=
  ⟨addCovenantSignatures_of_skipped rfl (by simp) allSkipped_invalid.collectSigs,
    allSkipped_invalid.not_errorMeansFailure rfl signer_nothingSent (by simp)⟩

theorem collectSigs_after_invalid :
    babylonEmulator.collectSigs [some invalidDelegation, some plainDelegation] start =
      babylonEmulator.collectSigs [some plainDelegation] start := by
  have hskip : babylonEmulator.collectStep [] (some invalidDelegation) start = (.ok [], start) :=
    allSkipped_invalid.collectSigs
  rw [Emulator.collectSigs, List.foldlM_cons, Go.bind_of_ok hskip, Emulator.collectSigs]

/-- A delegation that is skipped and one that is signed. -/
theorem mixed_errorMeansFailure :
    ErrorMeansFailure babylonEmulator [some invalidDelegation, some plainDelegation] start ∧
      ∃ w', babylonEmulator.addCovenantSignatures [some invalidDelegation, some plainDelegation]
        start = (.ok ⟨"", []⟩, w') := by
  have hcollect := collectSigs_of_passes (passes_plain babylon.toClientController
    (signer_of_signWith signWith_plain start.env))
  refine ⟨(errorMeansFailure_iff babylon rfl signer_nothingSent (by simp) start).mpr ?_, ?_⟩
  · rintro ⟨w₁, hall⟩
    have hnone := hall.collectSigs
    rw [collectSigs_after_invalid] at hnone
    cases hcollect.symm.trans hnone
  · exact ⟨_, (babylonEmulator.addCovenantSignatures_of_collected (by simp)
      (collectSigs_after_invalid.trans hcollect)).trans
      (congrArg (·, _) (congrArg Prod.fst submitCovenantSigs_babylon))⟩

end Sample

end CovenantEmulator
