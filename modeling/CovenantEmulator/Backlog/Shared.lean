import Mathlib.Algebra.Order.Group.Nat
import Mathlib.Data.List.Basic

/-! A backlog that several servers share, as one of them works towards one element: it fetches the
first elements in batches, serves the batches one by one, and the others only remove elements. -/
namespace Backlog

variable {α : Type} [DecidableEq α]

/-- What stands ahead of the element, and the batches fetched and not served yet. -/
structure Desk (α : Type) where
  ahead : List α
  todo : List (List α)

namespace Desk

/-- Fetched, the element waits for the batches before it; otherwise every element ahead that can be
served and is not fetched yet may cost a round of at most `limit` batches. -/
def rank (limit : ℕ) (good : α → Bool) (a : α) (desk : Desk α) : ℕ :=
  if a ∈ desk.todo.flatten then desk.todo.length
  else (limit + 2) * (desk.ahead.countP (fun x => good x && x ∉ desk.todo.flatten) + 1) +
    desk.todo.length

variable {limit : ℕ} {good : α → Bool} {a : α} {ahead ahead' after batch : List α}
  {todo : List (List α)}

theorem rank_le_of_sublist (h : ahead'.Sublist ahead) :
    rank limit good a ⟨ahead', todo⟩ ≤ rank limit good a ⟨ahead, todo⟩ := by
  unfold rank
  dsimp only
  split
  · exact le_rfl
  · have hcount := h.countP_le (p := fun x => good x && x ∉ todo.flatten)
    exact Nat.add_le_add_right (Nat.mul_le_mul_left _ (by omega)) _

/-- Serving a batch removes what can be served of it. -/
theorem rank_serve (h : ahead'.Sublist ahead) (hserved : ∀ x ∈ batch, good x = true → x ∉ ahead')
    (ha : a ∉ batch) :
    rank limit good a ⟨ahead', todo⟩ < rank limit good a ⟨ahead, batch :: todo⟩ := by
  have hcount : ahead'.countP (fun x => good x && x ∉ todo.flatten) ≤
      ahead.countP (fun x => good x && x ∉ (batch :: todo).flatten) := by
    refine le_trans (List.countP_mono_left fun x hx hgood => ?_) h.countP_le
    simp only [Bool.and_eq_true, decide_eq_true_eq] at hgood ⊢
    refine ⟨hgood.1, fun hmem => ?_⟩
    rcases List.mem_append.mp hmem with hbatch | htodo
    · exact hserved x hbatch hgood.1 hx
    · exact hgood.2 htodo
  unfold rank
  dsimp only
  by_cases hmem : a ∈ todo.flatten
  · have hmem' : a ∈ (batch :: todo).flatten := List.mem_append_right _ hmem
    rw [if_pos hmem, if_pos hmem']
    exact Nat.lt_succ_self _
  · have hnot : a ∉ (batch :: todo).flatten := by
      intro hmem'
      rcases List.mem_append.mp hmem' with hbatch | htodo
      · exact ha hbatch
      · exact hmem htodo
    rw [if_neg hmem, if_neg hnot, List.length_cons]
    have hmul := Nat.mul_le_mul_left (limit + 2) (Nat.add_le_add_right hcount 1)
    omega

omit [DecidableEq α] in
theorem length_le_flatten {todo : List (List α)} (h : ∀ batch ∈ todo, batch ≠ []) :
    todo.length ≤ todo.flatten.length := by
  induction todo with
  | nil => exact le_rfl
  | cons batch todo ih =>
    have hne := List.length_pos_iff.mpr (h batch List.mem_cons_self)
    have hrest := ih fun b hb => h b (List.mem_cons_of_mem _ hb)
    rw [List.flatten_cons, List.length_append, List.length_cons]
    omega

/-- A full round fetches an element that can be served, if not all of it goes to others. -/
theorem countP_fetched (hlen : limit ≤ ahead.length)
    (hbad : ahead.countP (fun x => !good x) < limit) :
    ahead.countP (fun x => good x && x ∉ ahead.take limit) + 1 ≤ ahead.countP good := by
  have hgood := congrArg (List.countP good) (List.take_append_drop limit ahead)
  have hbadSplit := congrArg (List.countP fun x => !good x) (List.take_append_drop limit ahead)
  have hwindow := List.length_eq_countP_add_countP (p := good) (l := ahead.take limit)
  have hsplit := congrArg (List.countP fun x => good x && x ∉ ahead.take limit)
    (List.take_append_drop limit ahead)
  rw [List.countP_append] at hgood hbadSplit hsplit
  rw [List.length_take, Nat.min_eq_left hlen] at hwindow
  simp only [Bool.not_eq_true, Bool.decide_eq_false] at hwindow
  have hnone : (ahead.take limit).countP (fun x => good x && x ∉ ahead.take limit) = 0 := by
    rw [List.countP_eq_zero]
    intro x hx
    simp [hx]
  have hrest : (ahead.drop limit).countP (fun x => good x && x ∉ ahead.take limit) ≤
      (ahead.drop limit).countP good := by
    refine List.countP_mono_left fun x _ hx => ?_
    rw [Bool.and_eq_true] at hx
    exact hx.1
  omega

/-- Fetching brings the element, or others ahead of it. -/
theorem rank_fetch (hfetch : todo.flatten = (ahead ++ a :: after).take limit)
    (hne : ∀ batch ∈ todo, batch ≠ []) (hbad : ahead.countP (fun x => !good x) < limit) :
    rank limit good a ⟨ahead, todo⟩ < rank limit good a ⟨ahead, []⟩ := by
  have hlength : todo.length ≤ limit := by
    refine (length_le_flatten hne).trans ?_
    rw [hfetch, List.length_take]
    exact Nat.min_le_left _ _
  have hstart : rank limit good a ⟨ahead, []⟩ = (limit + 2) * (ahead.countP good + 1) := by
    simp [rank]
  rw [hstart]
  unfold rank
  dsimp only
  by_cases hmem : a ∈ todo.flatten
  · rw [if_pos hmem, Nat.mul_add]
    omega
  · have hlen : limit ≤ ahead.length := by
      by_contra hshort
      refine hmem ?_
      rw [hfetch, List.take_append, List.take_of_length_le (by omega)]
      refine List.mem_append_right _ ?_
      obtain ⟨m, hm⟩ : ∃ m, limit - ahead.length = m + 1 := ⟨limit - ahead.length - 1, by omega⟩
      rw [hm, List.take_succ_cons]
      exact List.mem_cons_self
    rw [List.take_append_of_le_length hlen] at hfetch
    rw [if_neg hmem, hfetch]
    have hmul := Nat.mul_le_mul_left (limit + 2) (Nat.add_le_add_right (countP_fetched hlen hbad) 1)
    rw [Nat.mul_add (limit + 2) (_ + 1) 1] at hmul
    omega

end Desk

end Backlog
