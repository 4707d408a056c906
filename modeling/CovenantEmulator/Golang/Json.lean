import CovenantEmulator.Golang.Hex

/-! The text `encoding/json` writes for objects, arrays, numbers and plain strings. -/
namespace Golang.Json

/-- A string without characters that need an escape. -/
def string (s : String) : Bytes :=
  0x22 :: s.toList.map (fun c => UInt8.ofNat c.toNat) ++ [0x22]

def number (n : Nat) : Bytes := (toString n).toList.map fun c => UInt8.ofNat c.toNat

/-- Values with commas between them. -/
def commas : List Bytes → Bytes
  | [] => []
  | [v] => v
  | v :: vs => v ++ 0x2c :: commas vs

def array (vs : List Bytes) : Bytes := 0x5b :: commas vs ++ [0x5d]

def object (fields : List (String × Bytes)) : Bytes :=
  0x7b :: commas (fields.map fun f => string f.1 ++ 0x3a :: f.2) ++ [0x7d]

theorem length_string (s : String) : (string s).length = s.toList.length + 2 := by
  simp [string]

theorem length_commas_le (vs : List Bytes) :
    (commas vs).length ≤ (vs.map fun v => v.length + 1).sum := by
  induction vs with
  | nil => simp [commas]
  | cons v vs ih =>
    cases vs with
    | nil => simp [commas]
    | cons v' vs =>
      simp only [commas, List.length_append, List.length_cons, List.map_cons, List.sum_cons] at ih ⊢
      omega

theorem length_array_le (vs : List Bytes) :
    (array vs).length ≤ (vs.map fun v => v.length + 1).sum + 2 := by
  have h := length_commas_le vs
  simp only [array, List.length_append, List.length_cons, List.length_nil]
  omega

/-- A field costs its name, its value, two quotes, a colon and a comma. -/
theorem length_object_le (fields : List (String × Bytes)) :
    (object fields).length ≤ (fields.map fun f => f.1.toList.length + f.2.length + 4).sum + 2 := by
  have h := length_commas_le (fields.map fun f => string f.1 ++ 0x3a :: f.2)
  have hsum : ((fields.map fun f => string f.1 ++ 0x3a :: f.2).map fun v => v.length + 1) =
      fields.map fun f => f.1.toList.length + f.2.length + 4 := by
    rw [List.map_map]
    refine List.map_congr_left fun f _ => ?_
    simp only [Function.comp_apply, List.length_append, List.length_cons, length_string]
    omega
  rw [hsum] at h
  simp only [object, List.length_append, List.length_cons, List.length_nil]
  omega

example : array [number 7, string "x"] = [0x5b, 0x37, 0x2c, 0x22, 0x78, 0x22, 0x5d] := by decide

end Golang.Json
