import Mathlib.Data.List.Basic
import Mathlib.Logic.Function.Iterate

/-! A backlog served in rounds: each round looks at the first elements only and removes those that
can be served. -/
namespace Backlog

variable {α : Type}

/-- What is left after a round that looks at the first `limit` elements. -/
def serve (limit : ℕ) (good : α → Bool) (waiting : List α) : List α :=
  (waiting.take limit).filter (fun a => !good a) ++ waiting.drop limit

section
variable {limit : ℕ} {good : α → Bool} {before after : List α} {a : α}

theorem serve_subset (waiting : List α) : serve limit good waiting ⊆ waiting := by
  intro x hx
  rcases List.mem_append.mp hx with hx | hx
  · exact List.mem_of_mem_take (List.mem_of_mem_filter hx)
  · exact List.mem_of_mem_drop hx

theorem iterate_serve_subset (n : ℕ) (waiting : List α) :
    (serve limit good)^[n] waiting ⊆ waiting := by
  induction n with
  | zero => exact fun _ h => h
  | succ n ih =>
    rw [Function.iterate_succ_apply']
    exact fun _ h => ih (serve_subset _ h)

/-- The round does not look beyond its limit. -/
theorem serve_append (h : limit ≤ before.length) :
    serve limit good (before ++ after) = serve limit good before ++ after := by
  rw [serve, serve, List.take_append_of_le_length h, List.drop_append_of_le_length h,
    List.append_assoc]

/-- What cannot be served stays. -/
theorem countP_bad_serve (limit : ℕ) (good : α → Bool) (waiting : List α) :
    (serve limit good waiting).countP (fun a => !good a) = waiting.countP fun a => !good a := by
  have hsplit := congrArg (List.countP fun a => !good a) (List.take_append_drop limit waiting)
  rw [List.countP_append] at hsplit
  simpa [serve, List.countP_append, List.countP_filter] using hsplit

/-- A full round serves at least as many as there are places left by what cannot be served. -/
theorem countP_good_serve (good : α → Bool) (h : limit ≤ before.length) :
    (serve limit good before).countP good + (limit - before.countP fun a => !good a) ≤
      before.countP good := by
  have hsplit := congrArg (List.countP good) (List.take_append_drop limit before)
  have hbad := congrArg (List.countP fun a => !good a) (List.take_append_drop limit before)
  have hwindow := List.length_eq_countP_add_countP (p := good) (l := before.take limit)
  have hnone : ((before.take limit).filter fun a => !good a).countP good = 0 := by
    rw [List.countP_filter, List.countP_eq_zero]
    simp
  rw [List.countP_append] at hsplit hbad
  rw [List.length_take, Nat.min_eq_left h] at hwindow
  simp only [Bool.not_eq_true, Bool.decide_eq_false] at hwindow
  rw [serve, List.countP_append, hnone]
  omega

/-- Behind more than `limit` of what cannot be served, an element stays where it is. -/
theorem iterate_serve_blocked (after : List α) (h : limit ≤ before.countP fun a => !good a)
    (n : ℕ) :
    ∃ before', before' ⊆ before ∧ limit ≤ before'.length ∧
      (serve limit good)^[n] (before ++ after) = before' ++ after := by
  induction n generalizing before with
  | zero => exact ⟨before, fun _ h => h, Nat.le_trans h List.countP_le_length, rfl⟩
  | succ n ih =>
    have hlen : limit ≤ before.length := Nat.le_trans h List.countP_le_length
    have hbad : limit ≤ (serve limit good before).countP fun a => !good a := by
      rwa [countP_bad_serve]
    obtain ⟨before', hsub, hlen', hrest⟩ := ih hbad
    refine ⟨before', List.Subset.trans hsub (serve_subset before), hlen', ?_⟩
    rw [Function.iterate_succ_apply, serve_append hlen, hrest]

/-- Otherwise it comes to the front, in a number of rounds that the elements before it bound. -/
theorem iterate_serve_reaches (a : α) (after : List α)
    (h : before.countP (fun a => !good a) < limit) :
    ∃ n, n * (limit - before.countP fun a => !good a) ≤ before.countP good ∧
      a ∈ ((serve limit good)^[n] (before ++ a :: after)).take limit := by
  -- The elements before it that can be served decrease in every round.
  induction hk : before.countP good using Nat.strongRecOn generalizing before with
  | ind k ih =>
    by_cases hlen : limit ≤ before.length
    · have hfewer := countP_good_serve good hlen
      have hbad := countP_bad_serve limit good before
      have hfew : (serve limit good before).countP (fun a => !good a) < limit := by rwa [hbad]
      obtain ⟨n, hn, hmem⟩ := ih ((serve limit good before).countP good) (by omega) hfew rfl
      refine ⟨n + 1, ?_, ?_⟩
      · rw [hbad] at hn
        rw [Nat.add_mul, Nat.one_mul]
        omega
      · rwa [Function.iterate_succ_apply, serve_append hlen]
    · refine ⟨0, by simp, ?_⟩
      rw [Function.iterate_zero_apply, List.take_append, List.take_of_length_le (by omega)]
      refine List.mem_append_right _ ?_
      obtain ⟨m, hm⟩ : ∃ m, limit - before.length = m + 1 := ⟨limit - before.length - 1, by omega⟩
      rw [hm, List.take_succ_cons]
      exact List.mem_cons_self

/-- An element comes to the front of the backlog exactly if fewer than `limit` of those before it
cannot be served. -/
theorem reaches_iff (hbefore : a ∉ before) :
    (∃ n, a ∈ ((serve limit good)^[n] (before ++ a :: after)).take limit) ↔
      before.countP (fun a => !good a) < limit := by
  constructor
  · rintro ⟨n, hn⟩
    by_contra hblocked
    obtain ⟨before', hsub, hlen, hrun⟩ := iterate_serve_blocked (a :: after)
      (Nat.le_of_not_lt hblocked) n
    rw [hrun, List.take_append_of_le_length hlen] at hn
    exact hbefore (hsub (List.mem_of_mem_take hn))
  · intro h
    obtain ⟨n, -, hn⟩ := iterate_serve_reaches a after h
    exact ⟨n, hn⟩

end

end Backlog
