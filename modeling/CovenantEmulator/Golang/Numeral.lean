import CovenantEmulator.Golang.Text

/-! Decimal numerals: `strconv.ParseUint`, and numerals up to leading zeros. -/
namespace Golang

/-- `strings.Split(s, sep)` at a separator of one character. -/
def split (s : String) (sep : Char) : List String := (s.toList.splitOn sep).map String.ofList

/-- `strings.TrimSuffix(s, suffix)`. -/
def trimSuffix (s suffix : String) : String :=
  if suffix.toList <:+ s.toList then
    String.ofList (s.toList.take (s.toList.length - suffix.toList.length))
  else s

/-- A non-empty run of ASCII digits. -/
def IsNumeral (s : List Char) : Prop := s ≠ [] ∧ ∀ c ∈ s, c.isDigit = true

instance (s : List Char) : Decidable (IsNumeral s) :=
  decidable_of_iff (s ≠ [] ∧ s.all Char.isDigit = true) (by simp [IsNumeral])

/-- `strconv.ParseUint(s, 10, bitSize)`, where `none` stands for either error. -/
def parseUint (s : String) (bitSize : ℕ) : Option UInt64 :=
  if IsNumeral s.toList ∧ decimal s.toList < 2 ^ bitSize then
    some (UInt64.ofNat (decimal s.toList))
  else none

/-- The text without its redundant leading zeros: those another digit follows. -/
def stripZeros : List Char → List Char
  | [] => []
  | [c] => [c]
  | c :: d :: s => if c = '0' ∧ d.isDigit then stripZeros (d :: s) else c :: d :: s

theorem decimal_eq_ofDigitChars (s : List Char) : decimal s = Nat.ofDigitChars 10 s 0 := rfl

@[simp] theorem decimal_toDigits (n : ℕ) : decimal (Nat.toDigits 10 n) = n := by
  rw [decimal_eq_ofDigitChars]
  exact Nat.ofDigitChars_ten_toDigits

theorem decimal_zeros (k : ℕ) (s : List Char) :
    decimal (List.replicate k '0' ++ s) = decimal s := by
  rw [decimal_eq_ofDigitChars, Nat.ofDigitChars_append, Nat.ofDigitChars_replicate_zero]
  simp [decimal_eq_ofDigitChars]

theorem decimal_cons_zero (s : List Char) : decimal ('0' :: s) = decimal s := decimal_zeros 1 s

theorem isNumeral_toDigits (n : ℕ) : IsNumeral (Nat.toDigits 10 n) :=
  ⟨Nat.toDigits_ne_nil, fun _ hc => Nat.isDigit_of_mem_toDigits (by omega) (by omega) hc⟩

theorem isNumeral_zeros (k : ℕ) {s : List Char} (hs : IsNumeral s) :
    IsNumeral (List.replicate k '0' ++ s) := by
  refine ⟨by simp [hs.1], fun c hc => ?_⟩
  rcases List.mem_append.mp hc with hc | hc
  · obtain ⟨-, rfl⟩ := List.mem_replicate.mp hc
    decide
  · exact hs.2 c hc

/-- A digit is written as itself. -/
theorem digitChar_of_isDigit {c : Char} (hc : c.isDigit = true) :
    c.toNat - '0'.toNat < 10 ∧ Nat.digitChar (c.toNat - '0'.toNat) = c := by
  have hrange : 48 ≤ c.toNat ∧ c.toNat ≤ 57 := by
    simpa [Char.isDigit, UInt32.le_iff_toNat_le] using hc
  have hzero : '0'.toNat = 48 := rfl
  have hsum : 48 + (c.toNat - 48) = c.toNat := by omega
  have hall : ∀ k : Fin 10, (Nat.digitChar k).toNat = 48 + k := by decide
  have hlt : c.toNat - 48 < 10 := by omega
  rw [hzero]
  refine ⟨hlt, Char.toNat_inj.mp ?_⟩
  rw [hall ⟨_, hlt⟩, hsum]

/-- Reading on after a positive number writes the digits after its own. -/
theorem toDigits_ofDigitChars {s : List Char} (hs : ∀ c ∈ s, c.isDigit = true) {n : ℕ}
    (hn : 0 < n) : Nat.toDigits 10 (Nat.ofDigitChars 10 s n) = Nat.toDigits 10 n ++ s := by
  induction s generalizing n with
  | nil => simp
  | cons c s ih =>
    obtain ⟨hlt, hchar⟩ := digitChar_of_isDigit (hs c List.mem_cons_self)
    have htail := ih (fun d hd => hs d (List.mem_cons_of_mem c hd))
      (show 0 < 10 * n + (c.toNat - '0'.toNat) by omega)
    have hhead := Nat.toDigits_append_toDigits (show 1 < 10 by omega) hn hlt
    rw [Nat.toDigits_of_lt_base hlt, hchar] at hhead
    rw [Nat.ofDigitChars_cons, htail, ← hhead]
    simp

theorem decimal_stripZeros (s : List Char) : decimal (stripZeros s) = decimal s := by
  induction s with
  | nil => rfl
  | cons c s ih =>
    cases s with
    | nil => rfl
    | cons d s =>
      rw [stripZeros]
      split
      · rename_i h
        rw [ih, h.1, decimal_cons_zero]
      · rfl

/-- Stripped of redundant zeros, a numeral is the decimal of its value. -/
theorem stripZeros_eq_toDigits {s : List Char} (hs : IsNumeral s) :
    stripZeros s = Nat.toDigits 10 (decimal s) := by
  obtain ⟨hne, hdigits⟩ := hs
  induction s with
  | nil => exact (hne rfl).elim
  | cons c s ih =>
    obtain ⟨hlt, hchar⟩ := digitChar_of_isDigit (hdigits c List.mem_cons_self)
    have htail : ∀ d ∈ s, d.isDigit = true := fun d hd => hdigits d (List.mem_cons_of_mem c hd)
    have hone : Nat.toDigits 10 (c.toNat - '0'.toNat) = [c] := by
      rw [Nat.toDigits_of_lt_base hlt, hchar]
    have hread : decimal (c :: s) = Nat.ofDigitChars 10 s (c.toNat - '0'.toNat) := by
      simp [decimal_eq_ofDigitChars, Nat.ofDigitChars_cons]
    cases s with
    | nil => simpa [hread, stripZeros] using hone.symm
    | cons d s =>
      rw [stripZeros]
      by_cases hc : c = '0'
      · subst hc
        rw [if_pos ⟨rfl, htail d List.mem_cons_self⟩, ih (by simp) htail, decimal_cons_zero]
      · have hpos : 0 < c.toNat - '0'.toNat := by
          rcases Nat.eq_zero_or_pos (c.toNat - '0'.toNat) with h0 | hpos
          · rw [h0] at hchar
            exact (hc hchar.symm).elim
          · exact hpos
        rw [if_neg (fun h => hc h.1), hread, toDigits_ofDigitChars htail hpos, hone]
        rfl

/-- Two numerals have one value when they differ in redundant zeros only. -/
theorem decimal_eq_iff {s t : List Char} (hs : IsNumeral s) (ht : IsNumeral t) :
    decimal s = decimal t ↔ stripZeros s = stripZeros t := by
  constructor
  · intro h
    rw [stripZeros_eq_toDigits hs, stripZeros_eq_toDigits ht, h]
  · intro h
    rw [← decimal_stripZeros s, h, decimal_stripZeros]

/-- A letter after the numeral is no digit, so the zeros before it are those of the numeral. -/
theorem stripZeros_append_singleton {s : List Char} (hs : IsNumeral s) {c : Char}
    (hc : c.isDigit = false) : stripZeros (s ++ [c]) = stripZeros s ++ [c] := by
  obtain ⟨hne, hdigits⟩ := hs
  induction s with
  | nil => exact (hne rfl).elim
  | cons d s ih =>
    cases s with
    | nil => simp [stripZeros, hc]
    | cons e s =>
      have htail := ih (by simp) fun x hx => hdigits x (List.mem_cons_of_mem d hx)
      simp only [List.cons_append] at htail ⊢
      simp only [stripZeros, htail]
      split <;> rfl

theorem parseUint_eq_some {s : String} {bitSize : ℕ} (hsize : bitSize ≤ 64) {n : UInt64} :
    parseUint s bitSize = some n ↔
      IsNumeral s.toList ∧ decimal s.toList < 2 ^ bitSize ∧ n.toNat = decimal s.toList := by
  have hpow : 2 ^ bitSize ≤ 2 ^ 64 := Nat.pow_le_pow_right (by omega) hsize
  unfold parseUint
  split
  · rename_i h
    have hval : (UInt64.ofNat (decimal s.toList)).toNat = decimal s.toList :=
      UInt64.toNat_ofNat_of_lt' (by have := h.2; simp only [UInt64.size]; omega)
    simp only [Option.some.injEq, ← UInt64.toNat_inj, hval]
    exact ⟨fun hn => ⟨h.1, h.2, hn.symm⟩, fun hn => hn.2.2.symm⟩
  · rename_i h
    simp only [reduceCtorEq, false_iff]
    exact fun hn => h ⟨hn.1, hn.2.1⟩

/-- The suffix was there exactly when trimming changes the text. -/
theorem trimSuffix_ne_iff {s suffix : String} (hne : suffix ≠ "") :
    trimSuffix s suffix ≠ s ↔ s.toList = (trimSuffix s suffix).toList ++ suffix.toList := by
  have hlen : suffix.toList.length ≠ 0 := by
    intro h
    exact hne (String.toList_inj.mp (by simpa using h))
  constructor
  · intro h
    unfold trimSuffix at h ⊢
    split at h
    · rename_i hsuf
      rw [if_pos hsuf]
      obtain ⟨t, ht⟩ := hsuf
      simp [← ht]
    · exact (h rfl).elim
  · intro h heq
    have := congrArg List.length h
    simp only [heq, List.length_append] at this
    omega

/-- Splitting the joined elements gives them back when none holds the separator. -/
theorem split_intercalate {sep : Char} {elems : List (List Char)} (hne : elems ≠ [])
    (hsep : ∀ e ∈ elems, sep ∉ e) :
    split (String.ofList ([sep].intercalate elems)) sep = elems.map String.ofList := by
  simp [split, List.splitOn_intercalate sep hsep hne]

end Golang
