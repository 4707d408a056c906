import Mathlib.Logic.Basic
import Mathlib.Data.List.Basic
import Mathlib.Algebra.Ring.Int.Defs
import Mathlib.Algebra.Ring.Nat

/-! `encoding/hex`: lower case out, either case in. -/
namespace Golang

abbrev Bytes := List UInt8

namespace Hex

/-- The value of one digit, as in `reverseHexTable`. -/
def nibble (c : Char) : Option Nat :=
  if '0' ≤ c ∧ c ≤ '9' then some (c.toNat - '0'.toNat)
  else if 'a' ≤ c ∧ c ≤ 'f' then some (c.toNat - 'a'.toNat + 10)
  else if 'A' ≤ c ∧ c ≤ 'F' then some (c.toNat - 'A'.toNat + 10)
  else none

/-- The text of `InvalidByteError`. -/
def invalidByte (c : Char) : String :=
  let code := (Nat.toDigits 16 c.toNat).map Char.toUpper
  "encoding/hex: invalid byte: U+" ++ String.ofList (code.leftpad 4 '0') ++
    " '" ++ String.ofList [c] ++ "'"

def encodeDigits : Bytes → List Char
  | [] => []
  | b :: bs => Nat.digitChar (b.toNat / 16) :: Nat.digitChar (b.toNat % 16) :: encodeDigits bs

def decodeDigits : List Char → Except String Bytes
  | [] => .ok []
  | [c] =>
    match nibble c with
    | none => .error (invalidByte c)
    | some _ => .error "encoding/hex: odd length hex string"
  | c :: d :: rest =>
    match nibble c, nibble d with
    | none, _ => .error (invalidByte c)
    | some _, none => .error (invalidByte d)
    | some hi, some lo =>
      match decodeDigits rest with
      | .ok bs => .ok (UInt8.ofNat (16 * hi + lo) :: bs)
      | .error e => .error e

def encodeToString (bs : Bytes) : String := String.ofList (encodeDigits bs)

def decodeString (s : String) : Except String Bytes := decodeDigits s.toList

theorem nibble_digitChar {n : Nat} (h : n < 16) : nibble (Nat.digitChar n) = some n := by
  have all : ∀ k : Fin 16, nibble (Nat.digitChar k) = some k.val := by decide
  exact all ⟨n, h⟩

theorem decodeDigits_encodeDigits (bs : Bytes) : decodeDigits (encodeDigits bs) = .ok bs := by
  induction bs with
  | nil => rfl
  | cons b bs ih =>
    have hb : b.toNat < 256 := b.toNat_lt
    have hhi := nibble_digitChar (show b.toNat / 16 < 16 by omega)
    have hlo := nibble_digitChar (show b.toNat % 16 < 16 by omega)
    have hsum : 16 * (b.toNat / 16) + b.toNat % 16 = b.toNat := by omega
    simp [encodeDigits, decodeDigits, hhi, hlo, ih, hsum]

@[simp] theorem decodeString_encodeToString (bs : Bytes) :
    decodeString (encodeToString bs) = .ok bs := by
  simp [decodeString, encodeToString, decodeDigits_encodeDigits]

theorem encodeDigits_eq_nil {bs : Bytes} : encodeDigits bs = [] ↔ bs = [] := by
  cases bs <;> simp [encodeDigits]

/-- Only the empty byte string is written as the empty text. -/
theorem encodeToString_eq_empty {bs : Bytes} : encodeToString bs = "" ↔ bs = [] := by
  rw [encodeToString, ← String.toList_inj]
  simp [encodeDigits_eq_nil]

theorem length_encodeDigits (bs : Bytes) : (encodeDigits bs).length = 2 * bs.length := by
  induction bs with
  | nil => rfl
  | cons b bs ih =>
    simp only [encodeDigits, List.length_cons, ih]
    omega

@[simp] theorem length_toList_encodeToString (bs : Bytes) :
    (encodeToString bs).toList.length = 2 * bs.length := by
  rw [encodeToString, String.toList_ofList, length_encodeDigits]

theorem nibble_of_large {c : Char} (hc : ¬ c.toNat < 103) : nibble c = none := by
  have hle : ∀ d : Char, c ≤ d → c.toNat ≤ d.toNat := fun d h => UInt32.le_iff_toNat_le.mp h
  have h9 : ¬ c ≤ '9' := fun h => hc (Nat.lt_of_le_of_lt (hle '9' h) (by decide))
  have hf : ¬ c ≤ 'f' := fun h => hc (Nat.lt_of_le_of_lt (hle 'f' h) (by decide))
  have hF : ¬ c ≤ 'F' := fun h => hc (Nat.lt_of_le_of_lt (hle 'F' h) (by decide))
  simp only [nibble, h9, hf, hF, and_false, if_false]

/-- A digit is written back in lower case. -/
theorem digitChar_of_nibble {c : Char} {n : Nat} (h : nibble c = some n) :
    n < 16 ∧ Nat.digitChar n = c.toLower := by
  have hall : ∀ k : Fin 103, ∀ m ∈ nibble (Char.ofNat k),
      m < 16 ∧ Nat.digitChar m = (Char.ofNat k).toLower := by decide
  by_cases hc : c.toNat < 103
  · have hk := hall ⟨c.toNat, hc⟩ n
    simp only [Char.ofNat_toNat] at hk
    exact hk h
  · rw [nibble_of_large hc] at h
    cases h

theorem encodeDigits_of_decodeDigits {cs : List Char} {bs : Bytes}
    (h : decodeDigits cs = .ok bs) : encodeDigits bs = cs.map Char.toLower := by
  fun_induction decodeDigits cs generalizing bs with
  | case1 =>
    cases h
    rfl
  | case6 c d rest hi lo hlo hhi bs' hrest ih =>
    cases h
    obtain ⟨hlt, hchar⟩ := digitChar_of_nibble hhi
    obtain ⟨hlt', hchar'⟩ := digitChar_of_nibble hlo
    have hval : (UInt8.ofNat (16 * hi + lo)).toNat = 16 * hi + lo :=
      UInt8.toNat_ofNat_of_lt' (by simp only [UInt8.size]; omega)
    have hdiv : (16 * hi + lo) / 16 = hi := by omega
    have hmod : (16 * hi + lo) % 16 = lo := by omega
    rw [encodeDigits, hval, hdiv, hmod, hchar, hchar', ih hrest]
    rfl
  | _ => cases h

/-- Bytes that were decoded are written back as the text in lower case. -/
theorem encodeToString_of_decodeString {s : String} {bs : Bytes} (h : decodeString s = .ok bs) :
    encodeToString bs = String.ofList (s.toList.map Char.toLower) := by
  rw [encodeToString, encodeDigits_of_decodeDigits h]

example : decodeString "0aFf" = .ok [0x0a, 0xff] := by decide
example : decodeString "0" = .error "encoding/hex: odd length hex string" := by decide

end Hex

end Golang
