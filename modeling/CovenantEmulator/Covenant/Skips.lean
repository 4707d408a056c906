import CovenantEmulator.Covenant.CacheRuns
import CovenantEmulator.Covenant.Emulator

/-! How the loop body skips a delegation, and what that leaves in the trace. -/
namespace CovenantEmulator

open Golang

/-- A lookup of parameters used up its attempts: so many failed queries for one version. -/
def LookupFailed (events : List Event) : Prop :=
  ∃ before v errs after, events = before ++ failures v errs ++ after ∧ errs.length = rtyAttNum

def Event.FailedAnswer : Event → Prop
  | .paramsAnswer _ (.error _) => True
  | _ => False

/-- No lookup has failed, and the last one is over. -/
structure Settled (events : List Event) : Prop where
  succeeded : ¬ LookupFailed events
  ended : ∀ event ∈ events.getLast?, ¬ event.FailedAnswer

section
variable {events new : List Event} {v : UInt32} {errs : List String}

theorem failedAnswer_of_mem {event : Event} (h : event ∈ failures v errs) :
    event.FailedAnswer := by
  obtain ⟨e, -, rfl⟩ := List.mem_map.mp h
  trivial

theorem LookupFailed.append (h : LookupFailed events) (new : List Event) :
    LookupFailed (events ++ new) := by
  obtain ⟨before, v, errs, after, rfl, hlen⟩ := h
  exact ⟨before, v, errs, after ++ new, by simp, hlen⟩

theorem LookupFailed.prepend (h : LookupFailed new) (events : List Event) :
    LookupFailed (events ++ new) := by
  obtain ⟨before, v, errs, after, rfl, hlen⟩ := h
  exact ⟨events ++ before, v, errs, after, by simp, hlen⟩

/-- A failed lookup is on one side of a cut that has something else next to it. -/
theorem LookupFailed.of_append (h : LookupFailed (events ++ new))
    (hcut : (∀ event ∈ events.getLast?, ¬ event.FailedAnswer) ∨
      ∀ event ∈ new.head?, ¬ event.FailedAnswer) :
    LookupFailed events ∨ LookupFailed new := by
  obtain ⟨before, v, errs, after, heq, hlen⟩ := h
  rw [List.append_assoc] at heq
  rcases List.append_eq_append_iff.mp heq with ⟨rest, rfl, hnew⟩ | ⟨left, rfl, hrest⟩
  · exact .inr ⟨rest, v, errs, after, by rw [hnew, List.append_assoc], hlen⟩
  rcases List.append_eq_append_iff.mp hrest with ⟨rest, rfl, -⟩ | ⟨right, hsplit, rfl⟩
  · exact .inl ⟨before, v, errs, rest, by rw [List.append_assoc], hlen⟩
  -- the failed queries would lie on both sides of the cut
  have hleft : ∀ event ∈ left, event.FailedAnswer := fun event hmem =>
    failedAnswer_of_mem (hsplit ▸ List.mem_append_left right hmem)
  have hright : ∀ event ∈ right, event.FailedAnswer := fun event hmem =>
    failedAnswer_of_mem (hsplit ▸ List.mem_append_right left hmem)
  rcases List.eq_nil_or_concat left with rfl | ⟨init, last, rfl⟩
  · exact .inr ⟨[], v, errs, after, by simpa using hsplit.symm, hlen⟩
  cases right with
  | nil => exact .inl ⟨before, v, errs, [], by simpa using hsplit.symm, hlen⟩
  | cons first right =>
    exfalso
    rcases hcut with hcut | hcut
    · exact hcut last (by simp) (hleft last (by simp))
    · exact hcut first (by simp) (hright first (by simp))

theorem LookupFailed.rtyAttNum_le (h : LookupFailed events) : rtyAttNum ≤ events.length := by
  obtain ⟨before, v, errs, after, rfl, hlen⟩ := h
  simp only [failures, List.length_append, List.length_map]
  omega

theorem settled_nil : Settled [] where
  succeeded h := absurd h.rtyAttNum_le (by decide)
  ended := by simp

theorem settled_singleton {event : Event} (h : ¬ event.FailedAnswer) : Settled [event] where
  succeeded hfailed := absurd hfailed.rtyAttNum_le (by simp [rtyAttNum])
  ended := by simpa using h

theorem Settled.append (h : Settled events) (h' : Settled new) : Settled (events ++ new) where
  succeeded hfailed := (hfailed.of_append (.inl h.ended)).elim h.succeeded h'.succeeded
  ended := by
    intro event hevent
    rw [List.getLast?_append, Option.mem_def, Option.or_eq_some_iff] at hevent
    rcases hevent with hnew | ⟨-, hevents⟩
    · exact h'.ended event hnew
    · exact h.ended event hevents

/-- A lookup that was answered in time. -/
theorem settled_answered {P : StakingParams} (hlen : errs.length < rtyAttNum) :
    Settled (failures v errs ++ [.paramsAnswer v (.ok P)]) where
  succeeded hfailed := by
    rcases hfailed.of_append (.inr (by simp [Event.FailedAnswer])) with hearly | hlast
    · have hle := hearly.rtyAttNum_le
      simp only [failures, List.length_map] at hle
      omega
    · exact absurd hlast.rtyAttNum_le (by simp [rtyAttNum])
  ended := by simp [Event.FailedAnswer]

end

section
variable {σ : Type} {w w₁ w₂ : World σ}

/-- Every lookup on the way from `w` to `w₁` succeeded. -/
def LookupsSucceed (w w₁ : World σ) : Prop :=
  ∃ new, w₁.trace = w.trace ++ new ∧ Settled new

/-- A lookup failed on the way from `w` to `w₁`. -/
def LookupFails (w w₁ : World σ) : Prop :=
  ∃ new, w₁.trace = w.trace ++ new ∧ LookupFailed new

theorem LookupsSucceed.of_trace_eq (h : w₁.trace = w.trace) : LookupsSucceed w w₁ :=
  ⟨[], by rw [h, List.append_nil], settled_nil⟩

theorem LookupsSucceed.trans (h : LookupsSucceed w w₁) (h' : LookupsSucceed w₁ w₂) :
    LookupsSucceed w w₂ := by
  obtain ⟨new, hnew, hsettled⟩ := h
  obtain ⟨new', hnew', hsettled'⟩ := h'
  exact ⟨new ++ new', by rw [hnew', hnew, List.append_assoc], hsettled.append hsettled'⟩

theorem LookupsSucceed.fails_after (h : LookupsSucceed w w₁) (h' : LookupFails w₁ w₂) :
    LookupFails w w₂ := by
  obtain ⟨new, hnew, -⟩ := h
  obtain ⟨new', hnew', hfailed⟩ := h'
  exact ⟨new ++ new', by rw [hnew', hnew, List.append_assoc], hfailed.prepend new⟩

theorem LookupFails.before {new : List Event} (h : LookupFails w w₁)
    (hnew : w₂.trace = w₁.trace ++ new) : LookupFails w w₂ := by
  obtain ⟨events, hevents, hfailed⟩ := h
  exact ⟨events ++ new, by rw [hnew, hevents, List.append_assoc], hfailed.append new⟩

variable {retry : ParamsRetry σ} {cc : ClientController σ} {v : UInt32}

/-- A lookup that returns an error has used up its attempts. -/
theorem paramsGet_error {e : String} (h : paramsGet retry cc v w = (.error e, w₁)) :
    LookupFails w w₁ := by
  cases paramsGet_gets h with
  | failed _ _ hmiss ho hasks =>
    cases hasks with
    | failed _ errs env hlen hlast =>
      exact ⟨failures v errs, rfl, [], v, errs, [], by simp, hlen⟩
    | stuck _ errs env hlen hreturns => exact (hreturns trivial).elim

theorem paramsGet_succeeds {P : StakingParams} (h : paramsGet retry cc v w = (.ok P, w₁)) :
    LookupsSucceed w w₁ := by
  cases paramsGet_gets h with
  | hit _ hv => exact .of_trace_eq rfl
  | stored _ w' hmiss hasks =>
    cases hasks with
    | answered _ errs env hlen =>
      have hshort : errs.length < rtyAttNum := Nat.lt_of_le_of_lt hlen (by decide)
      exact ⟨_, rfl, settled_answered hshort⟩
    | stuck _ errs env hlen hreturns => exact (hreturns trivial).elim
  | failed _ _ hmiss ho hasks => exact (ho P rfl).elim

end

section
variable {σ : Type} (ce : Emulator σ)

/-- How building the request of a stake expansion fails while its lookup succeeds. -/
inductive ExpansionFails (d : Delegation) (exp : DelegationStakeExpansion) (w : World σ) :
    World σ → Prop
  | invalid {e : String} (h : stakeExpValidateBasic ce.lib d = .error e) :
      ExpansionFails d exp w w
  | noPrev {out : TxOut} {e : String} {env : σ}
      (hvalid : stakeExpValidateBasic ce.lib d = .ok out)
      (h : ce.cc.queryBTCDelegation exp.previousStakingTxHashHex w.env = (.error e, env)) :
      ExpansionFails d exp w { w with env := env }
  | prevTx {out : TxOut} {prevDel : Delegation} {e : String} {env : σ}
      (hvalid : stakeExpValidateBasic ce.lib d = .ok out)
      (hprev : ce.cc.queryBTCDelegation exp.previousStakingTxHashHex w.env = (.ok prevDel, env))
      (h : ce.lib.newBTCTxFromHex prevDel.stakingTxHex = .error e) :
      ExpansionFails d exp w { w with env := env }
  | prevPaths {out : TxOut} {prevDel : Delegation} {tx : MsgTx} {P : StakingParams}
      {e : String} {env : σ} {w₁ : World σ}
      (hvalid : stakeExpValidateBasic ce.lib d = .ok out)
      (hprev : ce.cc.queryBTCDelegation exp.previousStakingTxHashHex w.env = (.ok prevDel, env))
      (htx : ce.lib.newBTCTxFromHex prevDel.stakingTxHex = .ok tx)
      (hP : paramsGet ce.retry ce.cc prevDel.paramsVersion { w with env := env } = (.ok P, w₁))
      (h : pkScriptPathSlashAndUnbond ce.lib prevDel P ce.btcNetParams = .error e) :
      ExpansionFails d exp w w₁

/-- The delegation is skipped in state `w` while every lookup succeeds: a check of it fails, its
stake expansion cannot be built, or the signer refuses the request. -/
inductive Skips : Option Delegation → World σ → World σ → Prop
  | noUndelegation {d : Delegation} {w : World σ} (hud : d.btcUndelegation = none) :
      Skips (some d) w w
  | unchecked {d : Delegation} {ud : Undelegation} {P : StakingParams} {line : String}
      {w w₁ : World σ} (hud : d.btcUndelegation = some ud)
      (hP : paramsGet ce.retry ce.cc d.paramsVersion w = (.ok P, w₁))
      (h : checkDelegation ce.lib d P ce.btcNetParams = .error line) : Skips (some d) w w₁
  | expansion {d : Delegation} {ud : Undelegation} {P : StakingParams} {req : SigningRequest}
      {exp : DelegationStakeExpansion} {w w₁ w₂ : World σ} (hud : d.btcUndelegation = some ud)
      (hP : paramsGet ce.retry ce.cc d.paramsVersion w = (.ok P, w₁))
      (hreq : checkDelegation ce.lib d P ce.btcNetParams = .ok req)
      (hexp : d.stakeExpansion = some exp) (h : ExpansionFails ce d exp w₁ w₂) :
      Skips (some d) w w₂
  | unsigned {d : Delegation} {ud : Undelegation} {P : StakingParams} {req req' : SigningRequest}
      {e : String} {env : σ} {w w₁ w₂ : World σ} (hud : d.btcUndelegation = some ud)
      (hP : paramsGet ce.retry ce.cc d.paramsVersion w = (.ok P, w₁))
      (hreq : checkDelegation ce.lib d P ce.btcNetParams = .ok req)
      (hexp : ce.withStakeExp d req w₁ = (.ok req', w₂))
      (h : ce.signer req' w₂.env = (.error e, env)) :
      Skips (some d) w { w₂ with env := env, trace := w₂.trace ++ [.signing d req'] }

/-- Every delegation is skipped in its turn. -/
inductive AllSkipped : List (Option Delegation) → World σ → World σ → Prop
  | nil {w : World σ} : AllSkipped [] w w
  | cons {btcDel : Option Delegation} {btcDels : List (Option Delegation)} {w w₁ w₂ : World σ}
      (h : Skips ce btcDel w w₁) (hrest : AllSkipped btcDels w₁ w₂) :
      AllSkipped (btcDel :: btcDels) w w₂

end

section
variable {σ : Type} {ce : Emulator σ} {d : Delegation} {exp : DelegationStakeExpansion}
  {btcDel : Option Delegation} {btcDels : List (Option Delegation)} {w w₁ : World σ}

theorem onEnv_queryBTCDelegation {hash : String} {o : Outcome Delegation} {env : σ}
    (h : ce.cc.queryBTCDelegation hash w.env = (o, env)) :
    onEnv (ce.cc.queryBTCDelegation hash) w = (o, { w with env := env }) := by
  rw [onEnv, Go.zoom_apply, h]

theorem ExpansionFails.lookupsSucceed (h : ExpansionFails ce d exp w w₁) :
    LookupsSucceed w w₁ := by
  cases h with
  | invalid h => exact .of_trace_eq rfl
  | noPrev hvalid h => exact .of_trace_eq rfl
  | prevTx hvalid hprev h => exact .of_trace_eq rfl
  | @prevPaths _ _ _ _ _ env _ hvalid hprev htx hP h =>
    have hquery : LookupsSucceed w { w with env := env } := .of_trace_eq rfl
    exact hquery.trans (paramsGet_succeeds hP)

theorem ExpansionFails.build_error (h : ExpansionFails ce d exp w w₁)
    (hexp : d.stakeExpansion = some exp) :
    ∃ e, ce.buildStkExpSigningRequest d w = (.error e, w₁) := by
  unfold Emulator.buildStkExpSigningRequest
  simp only [hexp]
  cases h with
  | invalid h => exact ⟨_, Go.bind_of_error (Go.lift_eq_error.mpr ⟨h, rfl⟩)⟩
  | noPrev hvalid h =>
    rw [Go.bind_of_ok (Go.lift_eq_ok.mpr ⟨hvalid, rfl⟩)]
    exact ⟨_, Go.bind_of_error (onEnv_queryBTCDelegation h)⟩
  | prevTx hvalid hprev h =>
    rw [Go.bind_of_ok (Go.lift_eq_ok.mpr ⟨hvalid, rfl⟩),
      Go.bind_of_ok (onEnv_queryBTCDelegation hprev)]
    exact ⟨_, Go.bind_of_error (Go.lift_eq_error.mpr ⟨Outcome.ofExcept_eq_error.mpr h, rfl⟩)⟩
  | prevPaths hvalid hprev htx hP h =>
    rw [Go.bind_of_ok (Go.lift_eq_ok.mpr ⟨hvalid, rfl⟩),
      Go.bind_of_ok (onEnv_queryBTCDelegation hprev),
      Go.bind_of_ok (Go.lift_eq_ok.mpr ⟨Outcome.ofExcept_eq_ok.mpr htx, rfl⟩),
      Go.bind_of_ok (Go.wrap_eq_ok.mpr hP)]
    exact ⟨_, Go.bind_of_error (Go.lift_eq_error.mpr ⟨h, rfl⟩)⟩

theorem expansionFails_or_lookupFails {e : String} (hexp : d.stakeExpansion = some exp)
    (h : ce.buildStkExpSigningRequest d w = (.error e, w₁)) :
    ExpansionFails ce d exp w w₁ ∨ LookupFails w w₁ := by
  unfold Emulator.buildStkExpSigningRequest at h
  simp only [hexp] at h
  rcases Go.bind_eq_error.mp h with h | ⟨out, w₂, hout, h⟩
  · obtain ⟨hinvalid, rfl⟩ := Go.lift_eq_error.mp h
    exact .inl (.invalid hinvalid)
  obtain ⟨hvalid, rfl⟩ := Go.lift_eq_ok.mp hout
  rcases Go.bind_eq_error.mp h with h | ⟨prevDel, w₃, hprev, h⟩
  · obtain ⟨env, hnone, rfl⟩ := Go.zoom_eq_error.mp h
    exact .inl (.noPrev hvalid hnone)
  obtain ⟨env, hans, rfl⟩ := Go.zoom_eq_ok.mp hprev
  rcases Go.bind_eq_error.mp h with h | ⟨tx, w₄, htx, h⟩
  · obtain ⟨hdecode, rfl⟩ := Go.lift_eq_error.mp h
    exact .inl (.prevTx hvalid hans (Outcome.ofExcept_eq_error.mp hdecode))
  obtain ⟨hdecode, rfl⟩ := Go.lift_eq_ok.mp htx
  rcases Go.bind_eq_error.mp h with h | ⟨P, w₅, hP, h⟩
  · obtain ⟨e', hlookup, -⟩ := Go.wrap_eq_error.mp h
    have hquery : LookupsSucceed w { w with env := env } := .of_trace_eq rfl
    exact .inr (hquery.fails_after (paramsGet_error hlookup))
  rcases Go.bind_eq_error.mp h with h | ⟨paths, w₆, -, h⟩
  · obtain ⟨hpaths, rfl⟩ := Go.lift_eq_error.mp h
    exact .inl (.prevPaths hvalid hans (Outcome.ofExcept_eq_ok.mp hdecode)
      (Go.wrap_eq_ok.mp hP) hpaths)
  · cases h

theorem withStakeExp_succeeds {req req' : SigningRequest}
    (h : ce.withStakeExp d req w = (.ok req', w₁)) : LookupsSucceed w w₁ := by
  unfold Emulator.withStakeExp at h
  split at h
  · obtain ⟨stkExp, w₂, hbuild, hpure⟩ := Go.bind_eq_ok.mp h
    obtain ⟨-, rfl⟩ := Go.pure_eq_ok.mp hpure
    replace hbuild := Go.wrap_eq_ok.mp hbuild
    unfold Emulator.buildStkExpSigningRequest at hbuild
    cases hexp : d.stakeExpansion with
    | none =>
      simp only [hexp] at hbuild
      cases hbuild
    | some exp =>
      simp only [hexp] at hbuild
      obtain ⟨out, w₃, hout, hbuild⟩ := Go.bind_eq_ok.mp hbuild
      obtain ⟨-, rfl⟩ := Go.lift_eq_ok.mp hout
      obtain ⟨prevDel, w₄, hprev, hbuild⟩ := Go.bind_eq_ok.mp hbuild
      obtain ⟨env, -, rfl⟩ := Go.zoom_eq_ok.mp hprev
      obtain ⟨tx, w₅, htx, hbuild⟩ := Go.bind_eq_ok.mp hbuild
      obtain ⟨-, rfl⟩ := Go.lift_eq_ok.mp htx
      obtain ⟨P, w₆, hP, hbuild⟩ := Go.bind_eq_ok.mp hbuild
      obtain ⟨paths, w₇, hpaths, hpure⟩ := Go.bind_eq_ok.mp hbuild
      obtain ⟨-, rfl⟩ := Go.lift_eq_ok.mp hpaths
      obtain ⟨-, rfl⟩ := Go.pure_eq_ok.mp hpure
      have hquery : LookupsSucceed w { w with env := env } := .of_trace_eq rfl
      exact hquery.trans (paramsGet_succeeds (Go.wrap_eq_ok.mp hP))
  · obtain ⟨-, rfl⟩ := Go.pure_eq_ok.mp h
    exact .of_trace_eq rfl

theorem Skips.lookupsSucceed (h : Skips ce btcDel w w₁) : LookupsSucceed w w₁ := by
  cases h with
  | noUndelegation hud => exact .of_trace_eq rfl
  | unchecked hud hP h => exact paramsGet_succeeds hP
  | expansion hud hP hreq hexp h => exact (paramsGet_succeeds hP).trans h.lookupsSucceed
  | @unsigned d _ _ _ req' _ env _ _ w₂ hud hP hreq hexp h =>
    have hsigning : LookupsSucceed w₂
        { w₂ with env := env, trace := w₂.trace ++ [.signing d req'] } :=
      ⟨_, rfl, settled_singleton id⟩
    exact ((paramsGet_succeeds hP).trans (withStakeExp_succeeds hexp)).trans hsigning

theorem Skips.addCovenantSignature (h : Skips ce btcDel w w₁) :
    ∃ line, ce.addCovenantSignature btcDel w = (.ok (.error line), w₁) := by
  cases h with
  | noUndelegation hud => exact ⟨_, by rw [ce.addCovenantSignature_empty hud, Go.pure_apply]⟩
  | unchecked hud hP h =>
    rw [ce.addCovenantSignature_some hud, Go.bind_of_ok (Go.wrap_eq_ok.mpr hP)]
    exact ⟨_, Go.attempt_eq_error.mpr (Go.bind_of_error (Go.lift_eq_error.mpr ⟨h, rfl⟩))⟩
  | @expansion d _ P req exp _ w₂ _ hud hP hreq hexp h =>
    rw [ce.addCovenantSignature_some hud, Go.bind_of_ok (Go.wrap_eq_ok.mpr hP)]
    obtain ⟨e, he⟩ := h.build_error hexp
    have hstk : d.isStakeExpansion = true := by simp [Delegation.isStakeExpansion, hexp]
    have hwith : ce.withStakeExp d req w₂ =
        (.error ("error building stake expansion request: " ++ e), w₁) := by
      rw [Emulator.withStakeExp, if_pos hstk]
      exact Go.bind_of_error (Go.wrap_eq_error.mpr ⟨e, he, rfl⟩)
    have hsign : ce.signDelegation d P w₂ =
        (.error ("error building stake expansion request: " ++ e), w₁) := by
      rw [Emulator.signDelegation, Go.bind_of_ok (Go.lift_eq_ok.mpr ⟨hreq, rfl⟩)]
      exact Go.bind_of_error hwith
    exact ⟨_, Go.attempt_eq_error.mpr hsign⟩
  | @unsigned d _ P req req' e env _ w₁ w₂ hud hP hreq hexp h =>
    rw [ce.addCovenantSignature_some hud, Go.bind_of_ok (Go.wrap_eq_ok.mpr hP)]
    have hrefused : ce.signTransactions d req' w₂ =
        (.error ("failed to sign transactions: " ++ e),
          { w₂ with env := env, trace := w₂.trace ++ [.signing d req'] }) :=
      Go.wrap_eq_error.mpr ⟨e, Go.zoom_eq_error.mpr ⟨env, h, rfl⟩, rfl⟩
    have hsign : ce.signDelegation d P w₁ =
        (.error ("failed to sign transactions: " ++ e),
          { w₂ with env := env, trace := w₂.trace ++ [.signing d req'] }) := by
      rw [Emulator.signDelegation, Go.bind_of_ok (Go.lift_eq_ok.mpr ⟨hreq, rfl⟩),
        Go.bind_of_ok hexp]
      exact Go.bind_of_error hrefused
    exact ⟨_, Go.attempt_eq_error.mpr hsign⟩

/-- The loop body skips a delegation in one of these ways, or because a lookup failed for its
previous delegation. -/
theorem skips_or_lookupFails {line : String}
    (h : ce.addCovenantSignature btcDel w = (.ok (.error line), w₁)) :
    Skips ce btcDel w w₁ ∨ LookupFails w w₁ := by
  cases btcDel with
  | none => cases h
  | some d =>
    cases hud : d.btcUndelegation with
    | none =>
      rw [ce.addCovenantSignature_empty hud] at h
      obtain ⟨-, rfl⟩ := Go.pure_eq_ok.mp h
      exact .inl (.noUndelegation hud)
    | some ud =>
      rw [ce.addCovenantSignature_some hud] at h
      obtain ⟨P, w₂, hP, h⟩ := Go.bind_eq_ok.mp h
      have hP := Go.wrap_eq_ok.mp hP
      rcases Go.bind_eq_error.mp (Go.attempt_eq_error.mp h) with h | ⟨req, w₃, hreq, h⟩
      · obtain ⟨hcheck, rfl⟩ := Go.lift_eq_error.mp h
        exact .inl (.unchecked hud hP hcheck)
      obtain ⟨hcheck, rfl⟩ := Go.lift_eq_ok.mp hreq
      rcases Go.bind_eq_error.mp h with h | ⟨req', w₄, hwith, h⟩
      · unfold Emulator.withStakeExp at h
        split at h
        · rename_i hstk
          obtain ⟨exp, hexp⟩ := Option.isSome_iff_exists.mp hstk
          rcases Go.bind_eq_error.mp h with h | ⟨stkExp, w₄, -, hpure⟩
          · obtain ⟨e, hbuild, -⟩ := Go.wrap_eq_error.mp h
            rcases expansionFails_or_lookupFails hexp hbuild with hfails | hlookup
            · exact .inl (.expansion hud hP hcheck hexp hfails)
            · exact .inr ((paramsGet_succeeds hP).fails_after hlookup)
          · cases hpure
        · cases h
      · rcases Go.bind_eq_error.mp h with h | ⟨resp, w₅, -, hpure⟩
        · obtain ⟨e, hsigner, -⟩ := Go.wrap_eq_error.mp h
          obtain ⟨env, hrefused, rfl⟩ := Go.zoom_eq_error.mp hsigner
          exact .inl (.unsigned hud hP hcheck hwith hrefused)
        · cases hpure

theorem AllSkipped.lookupsSucceed (h : AllSkipped ce btcDels w w₁) : LookupsSucceed w w₁ := by
  induction h with
  | nil => exact .of_trace_eq rfl
  | cons h _ ih => exact h.lookupsSucceed.trans ih

theorem AllSkipped.collectSigs (h : AllSkipped ce btcDels w w₁) :
    ce.collectSigs btcDels w = (.ok [], w₁) := by
  unfold Emulator.collectSigs
  induction h with
  | nil => rfl
  | cons h _ ih =>
    obtain ⟨line, hline⟩ := h.addCovenantSignature
    rw [List.foldlM_cons, Emulator.collectStep, bind_assoc, Go.bind_of_ok hline, pure_bind]
    exact ih

/-- When nothing was collected, every delegation was skipped. -/
theorem allSkipped_or_lookupFails {sigs : List CovenantSigs}
    (h : btcDels.foldlM ce.collectStep sigs w = (.ok [], w₁)) :
    sigs = [] ∧ (AllSkipped ce btcDels w w₁ ∨ LookupFails w w₁) := by
  induction btcDels generalizing sigs w with
  | nil =>
    obtain ⟨rfl, rfl⟩ := Go.pure_eq_ok.mp h
    exact ⟨rfl, .inl .nil⟩
  | cons btcDel btcDels ih =>
    rw [List.foldlM_cons] at h
    obtain ⟨sigs', w₂, hstep, hrest⟩ := Go.bind_eq_ok.mp h
    obtain ⟨rfl, hskipped⟩ := ih hrest
    obtain ⟨signed, w₃, hbody, hpure⟩ := Go.bind_eq_ok.mp hstep
    obtain ⟨hsigs, rfl⟩ := Go.pure_eq_ok.mp hpure
    obtain ⟨rfl, hnone⟩ := List.append_eq_nil_iff.mp hsigs
    cases signed with
    | ok entry => cases hnone
    | error line =>
      refine ⟨rfl, ?_⟩
      rcases skips_or_lookupFails hbody with hskips | hfails
      · rcases hskipped with hall | hlookup
        · exact .inl (.cons hskips hall)
        · exact .inr (hskips.lookupsSucceed.fails_after hlookup)
      · rcases hskipped with hall | ⟨new, hnew, -⟩
        · obtain ⟨new, hnew, -⟩ := hall.lookupsSucceed
          exact .inr (hfails.before hnew)
        · exact .inr (hfails.before hnew)

end

end CovenantEmulator
