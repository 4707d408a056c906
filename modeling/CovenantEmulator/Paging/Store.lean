import CovenantEmulator.Golang.Hex

/-! Key-set pagination over a finite store: cursors, pages and where a cursor leads. -/
namespace Paging

open Golang

/-- A store in iteration order. The empty key is the request for the first page, so no
element carries it. -/
structure Store (α : Type) where
  entries : List (Bytes × α)
  nodup : (entries.map Prod.fst).Nodup
  keyed : ∀ e ∈ entries, e.1 ≠ []

namespace Store

variable {α : Type} (S : Store α)

def values : List α := S.entries.map Prod.snd

/-- The elements a request with this key starts from. -/
def startingAt (key : Bytes) : List (Bytes × α) :=
  if key = [] then S.entries else S.entries.dropWhile fun e => decide (e.1 ≠ key)

/-- The key of the first of these elements, or nil. -/
def headKey (es : List (Bytes × α)) : Bytes :=
  match es with
  | [] => []
  | e :: _ => e.1

/-- The honest answer: up to `limit` elements, and the key of the element after them. -/
def page (key : Bytes) (limit : Nat) : List α × Bytes :=
  (((S.startingAt key).take limit).map Prod.snd, headKey ((S.startingAt key).drop limit))

/-- The cursor that points at position `n`. -/
def cursor (n : Nat) : Bytes := headKey (S.entries.drop n)

@[simp] theorem length_values : S.values.length = S.entries.length := by simp [values]

theorem cursor_of_le {n : Nat} (h : S.entries.length ≤ n) : S.cursor n = [] := by
  simp [cursor, List.drop_eq_nil_of_le h, headKey]

theorem cursor_of_lt {n : Nat} (h : n < S.entries.length) :
    S.cursor n = (S.entries.get ⟨n, h⟩).1 := by
  rw [cursor, List.drop_eq_getElem_cons h]
  rfl

theorem cursor_ne_nil {n : Nat} (h : n < S.entries.length) : S.cursor n ≠ [] := by
  rw [S.cursor_of_lt h]
  exact S.keyed _ (List.get_mem _ _)

/-- Dropping up to a key of a duplicate-free list lands on that key. -/
theorem dropWhile_key {es : List (Bytes × α)} (hnd : (es.map Prod.fst).Nodup) {n : Nat}
    (h : n < es.length) :
    es.dropWhile (fun e => decide (e.1 ≠ (es.get ⟨n, h⟩).1)) = es.drop n := by
  induction es generalizing n with
  | nil => simp at h
  | cons e es ih =>
    rw [List.map_cons, List.nodup_cons] at hnd
    cases n with
    | zero => simp
    | succ n =>
      have hn : n < es.length := by simpa using h
      have hmem : (es.get ⟨n, hn⟩).1 ∈ es.map Prod.fst :=
        List.mem_map_of_mem (List.get_mem _ _)
      have hne : e.1 ≠ (es.get ⟨n, hn⟩).1 := fun he => hnd.1 (he ▸ hmem)
      have hstep := ih hnd.2 hn
      simp only [List.get_eq_getElem] at hstep hne
      simpa [hne] using hstep

/-- A cursor inside the store leads back to its position. -/
theorem startingAt_cursor {n : Nat} (h : n < S.entries.length) :
    S.startingAt (S.cursor n) = S.entries.drop n := by
  rw [startingAt, if_neg (S.cursor_ne_nil h), S.cursor_of_lt h]
  exact dropWhile_key S.nodup h

/-- The nil cursor leads to the first element again. -/
theorem startingAt_nil : S.startingAt [] = S.entries.drop 0 := by simp [startingAt]

theorem mem_of_startingAt {key : Bytes} {e : Bytes × α} (h : e ∈ S.startingAt key) :
    e ∈ S.entries := by
  unfold startingAt at h
  split at h
  · exact h
  · exact (List.dropWhile_sublist _).mem h

theorem mem_values_of_page {key : Bytes} {limit : Nat} {x : α} (h : x ∈ (S.page key limit).1) :
    x ∈ S.values := by
  obtain ⟨e, he, rfl⟩ := List.mem_map.mp h
  exact List.mem_map_of_mem (S.mem_of_startingAt (List.mem_of_mem_take he))

theorem page_of_startingAt {key : Bytes} {n : Nat} (limit : Nat)
    (h : S.startingAt key = S.entries.drop n) :
    S.page key limit = ((S.values.drop n).take limit, S.cursor (n + limit)) := by
  rw [page, h, cursor, values, List.map_take, List.map_drop, List.drop_drop]

/-- The store without its element at a position. -/
def eraseIdx (i : Nat) : Store α where
  entries := S.entries.eraseIdx i
  nodup := S.nodup.sublist ((List.eraseIdx_sublist ..).map _)
  keyed e he := S.keyed e (List.mem_of_mem_eraseIdx he)

theorem values_eraseIdx (i : Nat) : (S.eraseIdx i).values = S.values.eraseIdx i := by
  simp only [values, eraseIdx, List.eraseIdx_eq_take_drop_succ, List.map_append, List.map_take,
    List.map_drop]

end Store

end Paging
