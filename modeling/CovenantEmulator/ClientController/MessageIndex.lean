import CovenantEmulator.Golang.Numeral
import CovenantEmulator.ClientController.Resend
import Mathlib.Data.List.TakeWhile

/-! The message index an error text names. -/
namespace CovenantEmulator

open Golang

/-- An occurrence of the pattern at `i`, with the maximal run of digits it ends in. -/
structure OccursAt (text : List Char) (i : ℕ) (digits : List Char) : Prop where
  numeral : IsNumeral digits
  reads : ∃ spaces rest, text.drop i = "message index:".toList ++ (spaces ++ (digits ++ rest)) ∧
    (∀ c ∈ spaces, c ∈ ['\t', '\n', '\x0c', '\r', ' ']) ∧ ∀ c ∈ rest.head?, c.isDigit = false

/-- The leftmost occurrence ends in these digits. -/
def Leftmost (text digits : List Char) : Prop :=
  ∃ i, OccursAt text i digits ∧ ∀ j < i, ∀ ds, ¬ OccursAt text j ds

/-- The leftmost occurrence denotes `n`, and `n` is an `int`. -/
def ReadsIndex (err : String) (n : ℕ) : Prop :=
  ∃ digits, Leftmost err.toList digits ∧ decimal digits = n ∧ n ≤ 2 ^ 63 - 1

section
variable {text pre tail digits ds spaces rest : List Char} {i : ℕ}

theorem isSpace_iff {c : Char} : isSpace c = true ↔ c ∈ ['\t', '\n', '\x0c', '\r', ' '] := by
  simp [isSpace, or_assoc]

theorem isSpace_of_isDigit {c : Char} (hc : c.isDigit = true) : isSpace c = false := by
  by_contra h
  have hmem := isSpace_iff.mp (by simpa using h)
  simp only [List.mem_cons, List.not_mem_nil, or_false] at hmem
  rcases hmem with rfl | rfl | rfl | rfl | rfl <;> revert hc <;> decide

theorem head_dropWhile_isDigit (text : List Char) :
    ∀ c ∈ (text.dropWhile Char.isDigit).head?, c.isDigit = false := by
  intro c hc
  have := List.head?_dropWhile_not Char.isDigit text
  simp_all

/-- The scan takes the spaces and then all the digits. -/
theorem takeWhile_digits (hspaces : ∀ c ∈ spaces, c ∈ ['\t', '\n', '\x0c', '\r', ' '])
    (hdigits : IsNumeral digits) (hrest : ∀ c ∈ rest.head?, c.isDigit = false) :
    ((spaces ++ (digits ++ rest)).dropWhile isSpace).takeWhile Char.isDigit = digits := by
  have hstop : (digits ++ rest).dropWhile isSpace = digits ++ rest := by
    cases digits with
    | nil => exact (hdigits.1 rfl).elim
    | cons d digits => simp [isSpace_of_isDigit (hdigits.2 d List.mem_cons_self)]
  have hend : rest.takeWhile Char.isDigit = [] := by
    cases rest with
    | nil => rfl
    | cons c rest => simp [hrest c rfl]
  rw [List.dropWhile_append_of_pos fun c hc => isSpace_iff.mpr (hspaces c hc), hstop,
    List.takeWhile_append_of_pos hdigits.2, hend, List.append_nil]

theorem occursAt_iff : OccursAt text i digits ↔ matchMessageIndex (text.drop i) = some digits := by
  unfold matchMessageIndex
  constructor
  · rintro ⟨hdigits, spaces, rest, htext, hspaces, hrest⟩
    have hdrop : (text.drop i).drop "message index:".length = spaces ++ (digits ++ rest) := by
      rw [htext]
      exact List.drop_left
    rw [if_pos (htext ▸ List.prefix_append _ _), hdrop, takeWhile_digits hspaces hdigits hrest]
    exact if_neg hdigits.1
  · intro h
    split at h
    · rename_i hpre
      obtain ⟨t, ht⟩ := hpre
      have hdrop : (text.drop i).drop "message index:".length = t := by
        rw [← ht]
        exact List.drop_left
      rw [hdrop] at h
      dsimp only at h
      split at h
      · cases h
      · rename_i hne
        cases h
        refine ⟨⟨hne, fun c hc => List.mem_takeWhile_imp hc⟩, t.takeWhile isSpace,
          (t.dropWhile isSpace).dropWhile Char.isDigit, ?_,
          fun c hc => isSpace_iff.mp (List.mem_takeWhile_imp hc), head_dropWhile_isDigit _⟩
        rw [List.takeWhile_append_dropWhile, List.takeWhile_append_dropWhile, ht]
    · cases h

theorem OccursAt.contains (h : OccursAt text i digits) : "message index:".toList <:+: text := by
  obtain ⟨-, spaces, rest, htext, -⟩ := h
  exact ⟨text.take i, spaces ++ (digits ++ rest), by
    rw [List.append_assoc, ← htext, List.take_append_drop]⟩

theorem not_occursAt_nil : ¬ OccursAt [] i digits := fun h => by
  simpa using h.contains

theorem occursAt_cons_succ {c : Char} : OccursAt (c :: text) (i + 1) ds ↔ OccursAt text i ds := by
  rw [occursAt_iff, occursAt_iff, List.drop_succ_cons]

theorem findStringSubmatch_eq_some :
    findStringSubmatch text = some digits ↔ Leftmost text digits := by
  induction text with
  | nil =>
    simp only [findStringSubmatch, reduceCtorEq, false_iff]
    rintro ⟨i, hi, -⟩
    exact not_occursAt_nil hi
  | cons c text ih =>
    rw [findStringSubmatch]
    have hhead : ∀ ds, OccursAt (c :: text) 0 ds ↔ matchMessageIndex (c :: text) = some ds :=
      fun ds => occursAt_iff
    cases hmatch : matchMessageIndex (c :: text) with
    | some ds =>
      simp only [Option.some.injEq]
      constructor
      · rintro rfl
        exact ⟨0, (hhead ds).mpr hmatch, by omega⟩
      · rintro ⟨i, hi, hbefore⟩
        cases i with
        | zero => simpa [hmatch] using (hhead digits).mp hi
        | succ i => exact (hbefore 0 (by omega) ds ((hhead ds).mpr hmatch)).elim
    | none =>
      have hnone : ∀ ds, ¬ OccursAt (c :: text) 0 ds := by simp [hhead, hmatch]
      rw [ih]
      constructor
      · rintro ⟨i, hi, hbefore⟩
        refine ⟨i + 1, occursAt_cons_succ.mpr hi, fun j hj ds hds => ?_⟩
        cases j with
        | zero => exact hnone ds hds
        | succ j => exact hbefore j (by omega) ds (occursAt_cons_succ.mp hds)
      · rintro ⟨i, hi, hbefore⟩
        cases i with
        | zero => exact (hnone digits hi).elim
        | succ i =>
          refine ⟨i, occursAt_cons_succ.mp hi, fun j hj ds hds => ?_⟩
          exact hbefore (j + 1) (by omega) ds (occursAt_cons_succ.mpr hds)

/-- `m` starts the pattern and is nowhere else in an occurrence. -/
theorem not_mem_after_head (hspaces : ∀ c ∈ spaces, c ∈ ['\t', '\n', '\x0c', '\r', ' '])
    (hdigits : IsNumeral digits) :
    'm' ∉ "essage index:".toList ++ (spaces ++ digits) := by
  intro h
  rcases List.mem_append.mp h with h | h
  · revert h
    decide
  · rcases List.mem_append.mp h with h | h
    · have := hspaces 'm' h
      revert this
      decide
    · have := hdigits.2 'm' h
      revert this
      decide

/-- An occurrence that begins before a text starting with `m` ends before it. -/
theorem OccursAt.of_append (h : OccursAt (pre ++ 'm' :: tail) i digits) (hi : i < pre.length) :
    OccursAt pre i digits := by
  obtain ⟨hdigits, spaces, rest, htext, hspaces, hrest⟩ := h
  refine ⟨hdigits, spaces, ?_⟩
  rw [List.drop_append_of_le_length hi.le, ← List.append_assoc spaces, ← List.append_assoc,
    List.append_eq_append_iff] at htext
  rcases htext with ⟨a, ha, htail⟩ | ⟨a, ha, htail⟩
  · cases a with
    | nil => exact ⟨[], by simpa using ha.symm, hspaces, by simp⟩
    | cons c a =>
      -- The overlap would put an `m` after the head of the occurrence.
      exfalso
      obtain ⟨rfl, -⟩ := List.cons_eq_cons.mp htail
      cases hdrop : pre.drop i with
      | nil =>
        have := List.drop_eq_nil_iff.mp hdrop
        omega
      | cons d q =>
        rw [hdrop] at ha
        have hq : "essage index:".toList ++ (spaces ++ digits) = q ++ 'm' :: a :=
          (List.cons_eq_cons.mp ha).2
        refine not_mem_after_head hspaces hdigits ?_
        rw [hq]
        simp
  · refine ⟨a, by simpa using ha, hspaces, fun c hc => hrest c ?_⟩
    cases a with
    | nil => cases hc
    | cons d a => simpa [htail] using hc

end

section
variable {err before after : String} {n : ℕ}

theorem leftmost_unique {text ds ds' : List Char} (h : Leftmost text ds) (h' : Leftmost text ds') :
    ds = ds' := by
  have heq := (findStringSubmatch_eq_some.mpr h).symm.trans (findStringSubmatch_eq_some.mpr h')
  simpa using heq

/-- The function returns the index read, and reports none otherwise. -/
theorem failedMessageIndex_cases (err : String) :
    (∃ n : ℕ, ReadsIndex err n ∧ failedMessageIndex err = ((n : Int), true)) ∨
      (∀ n, ¬ ReadsIndex err n) ∧ failedMessageIndex err = (0, false) := by
  unfold failedMessageIndex
  cases hfind : findStringSubmatch err.toList with
  | none =>
    refine Or.inr ⟨?_, rfl⟩
    rintro n ⟨ds, hds, -⟩
    simp [findStringSubmatch_eq_some.mpr hds] at hfind
  | some ds =>
    have hleft := findStringSubmatch_eq_some.mp hfind
    by_cases hle : decimal ds ≤ 2 ^ 63 - 1
    · refine Or.inl ⟨decimal ds, ⟨ds, hleft, rfl, hle⟩, ?_⟩
      simp only [atoi, if_pos hle]
    · refine Or.inr ⟨?_, by simp only [atoi, if_neg hle]⟩
      rintro n ⟨ds', hleft', rfl, hn⟩
      rw [leftmost_unique hleft' hleft] at hn
      exact hle hn

theorem readsIndex_unique {m : ℕ} (h : ReadsIndex err n) (h' : ReadsIndex err m) : n = m := by
  obtain ⟨ds, hleft, rfl, -⟩ := h
  obtain ⟨ds', hleft', rfl, -⟩ := h'
  rw [leftmost_unique hleft hleft']

theorem failedMessageIndex_eq_iff {i : Int} :
    failedMessageIndex err = (i, true) ↔ ∃ n : ℕ, i = n ∧ ReadsIndex err n := by
  rcases failedMessageIndex_cases err with ⟨m, hm, heq⟩ | ⟨hno, heq⟩
  · rw [heq]
    constructor
    · intro h
      cases h
      exact ⟨m, rfl, hm⟩
    · rintro ⟨n, rfl, hn⟩
      rw [readsIndex_unique hm hn]
  · rw [heq]
    constructor
    · intro h
      cases h
    · rintro ⟨n, -, hn⟩
      exact (hno n hn).elim

/-- The error text of the Cosmos SDK, behind any wrapping without an occurrence of its own. -/
theorem readsIndex_sdk (hbefore : ∀ i ds, ¬ OccursAt before.toList i ds) (hn : n < 2 ^ 63)
    (hafter : ∀ c ∈ after.toList.head?, c.isDigit = false) :
    ReadsIndex (before ++ "message index: " ++ toString n ++ after) n := by
  have htext : (before ++ "message index: " ++ toString n ++ after).toList =
      before.toList ++
        ("message index:".toList ++ ([' '] ++ (Nat.toDigits 10 n ++ after.toList))) := by
    simp [String.toList_append]
  refine ⟨Nat.toDigits 10 n, ⟨before.toList.length, ?_, ?_⟩, decimal_toDigits n, by omega⟩
  · refine ⟨isNumeral_toDigits n, [' '], after.toList, ?_, by simp, hafter⟩
    rw [htext, List.drop_left]
  · intro j hj ds hds
    rw [htext] at hds
    exact hbefore j ds (hds.of_append hj)

end

/-- The second batch is the first without the message its error names, if there is one. -/
def RemovesNamed {μ : Type} (s s' : Sent μ) : Prop :=
  ∃ e n, s.res = .error e ∧ ReadsIndex e n ∧ s'.msgs = s.msgs.eraseIdx n

section
variable {μ τ : Type} {dup : SdkError} {send : List μ → Go τ (Option RelayerTxResponse)}
  {msgs : List μ}
  {e : String} {i : Int} {n : ℕ}

theorem removeMsgAtIndex_eq_eraseIdx (msgs : List μ) (n : ℕ) :
    removeMsgAtIndex msgs n = msgs.eraseIdx n := by
  by_cases hlt : (n : Int) < msgs.length
  · rw [removeMsgAtIndex_eq (Int.natCast_nonneg n) hlt]
    rfl
  · rw [removeMsgAtIndex, if_pos (by omega), List.eraseIdx_of_length_le (by omega)]

theorem NamesIndex.readsIndex (h : NamesIndex e i) : ∃ n : ℕ, i = n ∧ ReadsIndex e n :=
  failedMessageIndex_eq_iff.mp h.2

/-- One send ends the call, or the loop goes on without the message its error names. -/
theorem resendLoop_send (k : ℕ) (err : Option String) (net : Net μ τ) :
    (∃ new, (resendLoop dup send (k + 1) msgs err net).2.sent = net.sent ++ new ∧
      ∀ s ∈ new, new = [s] ∧ s.msgs = msgs) ∨
    ∃ e n c, ReadsIndex e n ∧ resendLoop dup send (k + 1) msgs err net =
      resendLoop dup send k (msgs.eraseIdx n) (some (joinErrors err e))
        ⟨c, net.sent ++ [⟨msgs, .error e⟩]⟩ := by
  rcases resendLoop_round k msgs err net with
    ⟨res, c, hrun⟩ | ⟨e, c, hrun⟩ | ⟨e, i, c, hi, hrun⟩ | ⟨o, c, -, -, hrun⟩
  · exact Or.inl ⟨[⟨msgs, .ok res⟩], by rw [hrun], by simp⟩
  · exact Or.inl ⟨[⟨msgs, .error e⟩], by rw [hrun], by simp⟩
  · obtain ⟨n, rfl, hn⟩ := hi.readsIndex
    refine Or.inr ⟨e, n, c, hn, ?_⟩
    rw [hrun, removeMsgAtIndex_eq_eraseIdx]
  · exact Or.inl ⟨[], by rw [hrun, List.append_nil], by simp⟩

/-- Every batch after the first is the one before it without the message its error named. -/
theorem resendLoop_removesNamed (k : ℕ) (msgs : List μ) (err : Option String) (net : Net μ τ) :
    ∃ new, (resendLoop dup send k msgs err net).2.sent = net.sent ++ new ∧
      (∀ s ∈ new.head?, s.msgs = msgs) ∧ new.IsChain RemovesNamed := by
  induction k generalizing msgs err net with
  | zero =>
    refine ⟨[], ?_, by simp, .nil⟩
    rw [resendLoop, afterRetries_state, List.append_nil]
  | succ k ih =>
    rcases resendLoop_send k err net with ⟨new, hsent, hone⟩ | ⟨e, n, c, hn, hrun⟩
    · refine ⟨new, hsent, fun s hs => (hone s (List.mem_of_mem_head? hs)).2, ?_⟩
      cases new with
      | nil => exact .nil
      | cons s new =>
        rw [(hone s List.mem_cons_self).1]
        exact .singleton s
    · obtain ⟨new, hsent, hhead, hchain⟩ := ih (msgs.eraseIdx n) (some (joinErrors err e))
        ⟨c, net.sent ++ [⟨msgs, .error e⟩]⟩
      refine ⟨⟨msgs, .error e⟩ :: new, ?_, by simp, ?_⟩
      · rw [hrun, hsent, List.append_assoc]
        rfl
      · cases new with
        | nil => exact .singleton _
        | cons s new => exact .cons_cons ⟨e, n, rfl, hn, hhead s rfl⟩ hchain

/-- The index is read back exactly, and it is that message which leaves the batch just sent. -/
theorem failedMessageIndex_exact (dup : SdkError)
    (send : List μ → Go τ (Option RelayerTxResponse)) :
    (∀ err : String,
      (∀ i : Int, failedMessageIndex err = (i, true) ↔ ∃ n : ℕ, i = n ∧ ReadsIndex err n) ∧
      ((∀ n, ¬ ReadsIndex err n) → failedMessageIndex err = (0, false))) ∧
    (∀ (before after : String) (n : ℕ), (∀ i ds, ¬ OccursAt before.toList i ds) → n < 2 ^ 63 →
      (∀ c ∈ after.toList.head?, c.isDigit = false) →
      failedMessageIndex (before ++ "message index: " ++ toString n ++ after) = ((n : Int), true)) ∧
    (∀ (k : ℕ) (msgs : Slice μ) (err : Option String) (net : Net μ τ) (e : String) (c : τ),
      send msgs.toList net.chain = (.error e, c) → contains e "message index: " = true →
      ∀ n, ReadsIndex e n →
        resendLoopInPlace dup send (k + 1) msgs err net =
          resendLoopInPlace dup send k (removeMsgInPlace msgs n) (some (joinErrors err e))
            ⟨c, net.sent ++ [⟨msgs.toList, .error e⟩]⟩ ∧
        (removeMsgInPlace msgs n).toList = msgs.toList.eraseIdx n) ∧
    ∀ (max : UInt64) (msgs : Slice μ) (net : Net μ τ), ∃ new,
      (resendInPlace dup send max msgs net).2.sent = net.sent ++ new ∧
        new.IsChain RemovesNamed := by
  refine ⟨fun err => ⟨fun i => failedMessageIndex_eq_iff, fun hno => ?_⟩, ?_, ?_, ?_⟩
  · rcases failedMessageIndex_cases err with ⟨n, hn, -⟩ | ⟨-, heq⟩
    · exact (hno n hn).elim
    · exact heq
  · intro before after n hbefore hn hafter
    exact failedMessageIndex_eq_iff.mpr ⟨n, rfl, readsIndex_sdk hbefore hn hafter⟩
  · intro k msgs err net e c hsend hgate n hn
    have hi : NamesIndex e n := ⟨hgate, failedMessageIndex_eq_iff.mpr ⟨n, rfl, hn⟩⟩
    rw [toList_removeMsgInPlace, removeMsgAtIndex_eq_eraseIdx, resendLoopInPlace_eq,
      resendLoopInPlace_eq, resendLoop_of_named hsend hi, toList_removeMsgInPlace]
    exact ⟨rfl, rfl⟩
  · intro max msgs net
    rw [resendInPlace_eq]
    obtain ⟨new, hsent, -, hchain⟩ := resendLoop_removesNamed
      (batchRetries msgs.toList max) msgs.toList none net
    exact ⟨new, hsent, hchain⟩

end

namespace Sample

theorem duplicateError_readsIndex : ReadsIndex duplicateError 0 := by
  obtain ⟨n, hn, hreads⟩ := failedMessageIndex_eq_iff.mp duplicateError_names.2
  obtain rfl : 0 = n := by exact_mod_cast hn
  exact hreads

theorem duplicateError_exact :
    failedMessageIndex ("failed to execute message; " ++ "message index: " ++ toString 1 ++
      ": the covenant signature is already submitted") = (1, true) ∧
    (removeMsgInPlace (Slice.ofList ["a", "b"]) (0 : ℕ)).toList = ["b"] ∧
    ∃ new, (resendInPlace duplicated (answering rejectsOnce) 0 (.ofList ["a", "b"])
        ⟨false, []⟩).2.sent = [] ++ new ∧ new.IsChain RemovesNamed := by
  obtain ⟨-, hsdk, hremove, hrun⟩ := failedMessageIndex_exact duplicated (answering rejectsOnce)
  refine ⟨?_, ?_, hrun 0 (.ofList ["a", "b"]) ⟨false, []⟩⟩
  · exact hsdk "failed to execute message; " ": the covenant signature is already submitted" 1
      (fun i ds h => absurd h.contains (by decide)) (by decide) (by rintro c ⟨rfl⟩; decide)
  · exact (hremove 1 (.ofList ["a", "b"]) none ⟨false, []⟩ duplicateError true rfl
      duplicateError_names.1 0 duplicateError_readsIndex).2

end Sample

end CovenantEmulator
