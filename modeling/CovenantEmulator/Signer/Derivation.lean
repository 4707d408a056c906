import CovenantEmulator.Golang.Outcome
import CovenantEmulator.Golang.Numeral
import CovenantEmulator.Golang.Hex
import Mathlib.Tactic.IntervalCases

/-! `keyutils`: derivation paths, and the child key derived along one. -/
namespace CovenantEmulator

open Golang

def hardenedPostfix : String := "h"

def expectedDerivationDepth : ℕ := 5

/-- `hdkeychain.HardenedKeyStart`. -/
def hardenedKeyStart : UInt32 := 0x80000000

def parseHardened (elem : String) : Outcome UInt32 :=
  if elem.utf8ByteSize < 2 then .error ("invalid hardened element: " ++ elem)
  else
    let number := trimSuffix elem hardenedPostfix
    if number = elem then .error "invalid hardened element"
    else
      match parseUint number 32 with
      | none => .error "invalid hardened element"
      | some parsedNum =>
        let numAsUint32 := parsedNum.toUInt32
        if numAsUint32 ≥ hardenedKeyStart then
          .error ("hardened index " ++ toString numAsUint32 ++
            " exceeds maximum allowed value " ++ toString (hardenedKeyStart - 1))
        else .ok (hardenedKeyStart + numAsUint32)

def parseNormal (elem : String) : Outcome UInt32 :=
  if elem.utf8ByteSize = 0 then .error "invalid normal element"
  else
    match parseUint elem 32 with
    | none => .error "invalid normal element"
    | some parsedNum => .ok parsedNum.toUInt32

/-- The error of an element, with its place in the path. -/
def atIndex (i : ℕ) (o : Outcome UInt32) : Outcome UInt32 :=
  o.wrap fun err => "invalid derivation path element at index " ++ toString i ++ ": " ++ err

def parsePath (path : String) : Outcome (List UInt32) := do
  let splitted := split path '/'
  if splitted.length ≠ expectedDerivationDepth then .error "invalid derivation path length"
  else
    let h1 ← atIndex 0 ((Outcome.index splitted 0).bind parseHardened)
    let h2 ← atIndex 1 ((Outcome.index splitted 1).bind parseHardened)
    let h3 ← atIndex 2 ((Outcome.index splitted 2).bind parseHardened)
    let n4 ← atIndex 3 ((Outcome.index splitted 3).bind parseNormal)
    let n5 ← atIndex 4 ((Outcome.index splitted 4).bind parseNormal)
    pure [h1, h2, h3, n4, n5]

structure DerivationResult where
  privateKey : String
  publicKey : String
  deriving DecidableEq, Repr

/-- What the derivation calls of `hdkeychain` and `btcec`. -/
structure HDKeyChain (Key PrivKey : Type) where
  newKeyFromString : String → Except String Key
  derive : Key → UInt32 → Except String Key
  ecPrivKey : Key → Except String PrivKey
  serialize : PrivKey → Bytes
  serializePubKeyCompressed : PrivKey → Bytes

section
variable {Key PrivKey : Type} (lib : HDKeyChain Key PrivKey)

/-- `keyResult.Derive(elem)`; the state holds the indices derived so far. -/
def deriveIndex (keyResult : Key) (elem : UInt32) : Go (List UInt32) Key := do
  Go.modify (· ++ [elem])
  Go.wrap ("failed to derive child key: " ++ ·) (Go.lift (.ofExcept (lib.derive keyResult elem)))

def deriveChildKey (masterKey childPath : String) : Go (List UInt32) DerivationResult := do
  let parsedMasterKey ← Go.wrap ("invalid master key: " ++ ·)
    (Go.lift (.ofExcept (lib.newKeyFromString masterKey)))
  let derivationPath ← Go.wrap ("invalid derivation path: " ++ ·) (Go.lift (parsePath childPath))
  let keyResult ← derivationPath.foldlM (deriveIndex lib) parsedMasterKey
  let privKey ← Go.wrap ("failed to get private key: " ++ ·)
    (Go.lift (.ofExcept (lib.ecPrivKey keyResult)))
  pure ⟨Hex.encodeToString (lib.serialize privKey),
    Hex.encodeToString (lib.serializePubKeyCompressed privKey)⟩

end

/-- The element is a decimal below `2 ^ 31` with the suffix, and the index its hardened one. -/
def HardenedAs (elem : String) (index : UInt32) : Prop :=
  ∃ digits, elem.toList = digits ++ ['h'] ∧ IsNumeral digits ∧ decimal digits < 2 ^ 31 ∧
    index.toNat = 2 ^ 31 + decimal digits

/-- The element is the decimal of the index. -/
def DecimalOf (elem : String) (index : UInt32) : Prop :=
  IsNumeral elem.toList ∧ index.toNat = decimal elem.toList

/-- Three hardened elements and two decimals, with their indices. -/
inductive ReadsPath : List String → List UInt32 → Prop
  | five {s1 s2 s3 s4 s5 : String} {h1 h2 h3 n4 n5 : UInt32} (hs1 : HardenedAs s1 h1)
      (hs2 : HardenedAs s2 h2) (hs3 : HardenedAs s3 h3) (hs4 : DecimalOf s4 n4)
      (hs5 : DecimalOf s5 n5) : ReadsPath [s1, s2, s3, s4, s5] [h1, h2, h3, n4, n5]

section
variable {path elem : String} {index : UInt32} {indices : List UInt32}

theorem hardenedKeyStart_toNat : hardenedKeyStart.toNat = 2 ^ 31 := rfl

theorem toUInt32_toNat {n : UInt64} (h : n.toNat < 2 ^ 32) : n.toUInt32.toNat = n.toNat := by
  rw [UInt64.toNat_toUInt32, Nat.mod_eq_of_lt h]

/-- A numeral with the suffix has the two bytes the length check asks for. -/
theorem two_le_utf8ByteSize {digits : List Char} (helem : elem.toList = digits ++ ['h'])
    (hdigits : digits ≠ []) : 2 ≤ elem.utf8ByteSize := by
  have hsplit : elem = String.ofList digits ++ "h" := by
    rw [← String.toList_inj, helem, String.toList_append, String.toList_ofList]
    rfl
  have hpos : (String.ofList digits).utf8ByteSize ≠ 0 := by
    rw [Ne, String.utf8ByteSize_eq_zero_iff, ← String.toList_inj, String.toList_ofList]
    exact hdigits
  have hone : "h".utf8ByteSize = 1 := by decide
  rw [hsplit, String.utf8ByteSize_append, hone]
  omega

theorem hardenedAs_of_parseHardened (h : parseHardened elem = .ok index) :
    HardenedAs elem index := by
  unfold parseHardened at h
  split at h
  · cases h
  · dsimp only at h
    split at h
    · cases h
    · rename_i hne
      have helem := (trimSuffix_ne_iff (by decide)).mp hne
      split at h
      · cases h
      · rename_i parsedNum hparse
        obtain ⟨hnum, hlt, hval⟩ := (parseUint_eq_some (by omega)).mp hparse
        have hnat := toUInt32_toNat (hval ▸ hlt)
        split at h
        · cases h
        · rename_i hsmall
          cases h
          have hbelow : parsedNum.toUInt32.toNat < 2 ^ 31 := by
            simpa [UInt32.le_iff_toNat_le, hardenedKeyStart_toNat] using hsmall
          refine ⟨_, helem, hnum, by omega, ?_⟩
          rw [UInt32.toNat_add, hardenedKeyStart_toNat, hnat, hval]
          omega

theorem parseHardened_of_hardenedAs (h : HardenedAs elem index) :
    parseHardened elem = .ok index := by
  obtain ⟨digits, helem, hnum, hlt, hindex⟩ := h
  have htrim : trimSuffix elem hardenedPostfix = String.ofList digits := by
    have hsuf : hardenedPostfix.toList <:+ elem.toList := ⟨digits, helem.symm⟩
    rw [trimSuffix, if_pos hsuf, helem]
    simp [hardenedPostfix]
  have hne : String.ofList digits ≠ elem := by
    intro heq
    have hlen := congrArg List.length (helem.symm.trans (congrArg String.toList heq.symm))
    simp at hlen
  have hparse : parseUint (String.ofList digits) 32 = some (UInt64.ofNat (decimal digits)) := by
    rw [parseUint, String.toList_ofList, if_pos ⟨hnum, by omega⟩]
  have hval : (UInt64.ofNat (decimal digits)).toUInt32.toNat = decimal digits := by
    have h64 : (UInt64.ofNat (decimal digits)).toNat = decimal digits :=
      UInt64.toNat_ofNat_of_lt' (by simp only [UInt64.size]; omega)
    rw [toUInt32_toNat (by omega), h64]
  have hsmall : ¬ (UInt64.ofNat (decimal digits)).toUInt32 ≥ hardenedKeyStart := by
    rw [ge_iff_le, UInt32.le_iff_toNat_le, hval, hardenedKeyStart_toNat]
    omega
  have hsize := two_le_utf8ByteSize helem hnum.1
  rw [parseHardened, if_neg (by omega), htrim]
  simp only [if_neg hne, hparse, if_neg hsmall, Outcome.ok.injEq]
  rw [← UInt32.toNat_inj, UInt32.toNat_add, hval, hardenedKeyStart_toNat, hindex]
  omega

/-- What a hardened element is read as. -/
theorem parseHardened_eq_ok : parseHardened elem = .ok index ↔ HardenedAs elem index :=
  ⟨hardenedAs_of_parseHardened, parseHardened_of_hardenedAs⟩

/-- What a normal element is read as: any 32-bit decimal, the hardened range included. -/
theorem parseNormal_eq_ok : parseNormal elem = .ok index ↔ DecimalOf elem index := by
  unfold parseNormal DecimalOf
  have hindex := index.toNat_lt
  constructor
  · intro h
    split at h
    · cases h
    · split at h
      · cases h
      · rename_i parsedNum hparse
        cases h
        obtain ⟨hnum, hlt, hval⟩ := (parseUint_eq_some (by omega)).mp hparse
        exact ⟨hnum, by rw [toUInt32_toNat (hval ▸ hlt), hval]⟩
  · rintro ⟨hnum, hval⟩
    have hsize : elem.utf8ByteSize ≠ 0 := by
      rw [Ne, String.utf8ByteSize_eq_zero_iff, ← String.toList_inj]
      exact hnum.1
    have hparse : parseUint elem 32 = some (UInt64.ofNat index.toNat) := by
      rw [parseUint, if_pos ⟨hnum, by omega⟩, hval]
    rw [if_neg hsize]
    simp only [hparse, Outcome.ok.injEq]
    have h64 : (UInt64.ofNat index.toNat).toNat = index.toNat :=
      UInt64.toNat_ofNat_of_lt' (by simp only [UInt64.size]; omega)
    rw [← UInt32.toNat_inj, toUInt32_toNat (by omega), h64]

theorem atIndex_eq_ok {elems : List String} {parse : String → Outcome UInt32} {i : ℕ} :
    atIndex i ((Outcome.index elems i).bind parse) = .ok index ↔
      ∃ elem, elems[i]? = some elem ∧ parse elem = .ok index := by
  rw [atIndex, Outcome.wrap_eq_ok]
  exact Outcome.bind_eq_ok.trans (by simp only [Outcome.index_eq_ok])

theorem parsePath_eq_ok : parsePath path = .ok indices ↔ ReadsPath (split path '/') indices := by
  unfold parsePath
  dsimp only
  constructor
  · intro h
    split at h
    · cases h
    · rename_i hlen
      obtain ⟨h1, hs1, h⟩ := Outcome.bind_eq_ok.mp h
      obtain ⟨h2, hs2, h⟩ := Outcome.bind_eq_ok.mp h
      obtain ⟨h3, hs3, h⟩ := Outcome.bind_eq_ok.mp h
      obtain ⟨n4, hs4, h⟩ := Outcome.bind_eq_ok.mp h
      obtain ⟨n5, hs5, h⟩ := Outcome.bind_eq_ok.mp h
      cases h
      obtain ⟨s1, hs1, hp1⟩ := atIndex_eq_ok.mp hs1
      obtain ⟨s2, hs2, hp2⟩ := atIndex_eq_ok.mp hs2
      obtain ⟨s3, hs3, hp3⟩ := atIndex_eq_ok.mp hs3
      obtain ⟨s4, hs4, hp4⟩ := atIndex_eq_ok.mp hs4
      obtain ⟨s5, hs5, hp5⟩ := atIndex_eq_ok.mp hs5
      have hsplit : split path '/' = [s1, s2, s3, s4, s5] := by
        refine List.ext_getElem? fun i => ?_
        match i with
        | 0 => exact hs1
        | 1 => exact hs2
        | 2 => exact hs3
        | 3 => exact hs4
        | 4 => exact hs5
        | i + 5 =>
          have hlen : (split path '/').length = 5 := not_not.mp hlen
          rw [List.getElem?_eq_none (by omega)]
          rfl
      rw [hsplit]
      exact .five (parseHardened_eq_ok.mp hp1) (parseHardened_eq_ok.mp hp2)
        (parseHardened_eq_ok.mp hp3) (parseNormal_eq_ok.mp hp4) (parseNormal_eq_ok.mp hp5)
  · intro h
    generalize split path '/' = elems at h ⊢
    cases h with
    | five hs1 hs2 hs3 hs4 hs5 =>
      rw [if_neg (by simp [expectedDerivationDepth]),
        atIndex_eq_ok.mpr ⟨_, rfl, parseHardened_eq_ok.mpr hs1⟩,
        atIndex_eq_ok.mpr ⟨_, rfl, parseHardened_eq_ok.mpr hs2⟩,
        atIndex_eq_ok.mpr ⟨_, rfl, parseHardened_eq_ok.mpr hs3⟩,
        atIndex_eq_ok.mpr ⟨_, rfl, parseNormal_eq_ok.mpr hs4⟩,
        atIndex_eq_ok.mpr ⟨_, rfl, parseNormal_eq_ok.mpr hs5⟩]
      rfl

end

section
variable {Key PrivKey : Type} {lib : HDKeyChain Key PrivKey}

theorem deriveIndex_state (key : Key) (elem : UInt32) (derived : List UInt32) :
    (deriveIndex lib key elem derived).2 = derived ++ [elem] := by
  unfold deriveIndex Go.wrap
  cases lib.derive key elem <;> rfl

/-- The indices are derived in the order of the path, up to the first that fails. -/
theorem foldlM_deriveIndex_state (indices : List UInt32) (key : Key) (derived : List UInt32) :
    ∃ done, done <+: indices ∧
      (indices.foldlM (deriveIndex lib) key derived).2 = derived ++ done := by
  induction indices generalizing key derived with
  | nil => exact ⟨[], List.nil_prefix, by simp⟩
  | cons elem indices ih =>
    have hstep : (deriveIndex lib key elem derived).2 = _ := deriveIndex_state key elem derived
    rw [List.foldlM_cons, Go.bind_apply]
    rcases hrun : deriveIndex lib key elem derived with ⟨key' | e | p | _, derived'⟩
    · obtain rfl : derived' = derived ++ [elem] := by simpa [hrun] using hstep
      obtain ⟨done, hpre, hdone⟩ := ih key' (derived ++ [elem])
      exact ⟨elem :: done, List.cons_prefix_cons.mpr ⟨rfl, hpre⟩, by simp [hdone]⟩
    all_goals
      refine ⟨[elem], by simp, ?_⟩
      simpa [hrun] using hstep

/-- Only indices of the parsed path are derived, each at its place. -/
theorem deriveChildKey_derives (lib : HDKeyChain Key PrivKey) (masterKey : String) {path : String}
    {indices : List UInt32} (hpath : parsePath path = .ok indices) :
    (deriveChildKey lib masterKey path []).2 <+: indices := by
  unfold deriveChildKey
  rw [Go.bind_apply]
  cases hkey : lib.newKeyFromString masterKey with
  | error e => simp [Go.wrap]
  | ok key =>
    obtain ⟨done, hpre, hdone⟩ : ∃ done, done <+: indices ∧
      (indices.foldlM (deriveIndex lib) key []).2 = [] ++ done := foldlM_deriveIndex_state _ _ _
    simp only [Go.wrap, Go.lift_apply, Outcome.ofExcept_ok, Go.bind_apply, hpath]
    rcases hrun : indices.foldlM (deriveIndex lib) key [] with ⟨key' | e | p | _, derived⟩
    · obtain rfl : derived = done := by simpa [hrun] using hdone
      dsimp only
      cases lib.ecPrivKey key' <;> exact hpre
    all_goals
      obtain rfl : derived = done := by simpa [hrun] using hdone
      exact hpre

end

/-- The path read as it was written, hardened where it says so and nowhere else. -/
structure KeepsStructure (path : String) (indices : List UInt32) : Prop where
  length : indices.length = 5
  hardened : ∀ i < 3, ∃ elem index, (split path '/')[i]? = some elem ∧
    indices[i]? = some index ∧ HardenedAs elem index
  normal : ∀ i, 3 ≤ i → i < 5 → ∃ elem index, (split path '/')[i]? = some elem ∧
    indices[i]? = some index ∧ DecimalOf elem index ∧ index.toNat < 2 ^ 31

/-- Every hardened child is derived for an element with the suffix. -/
def HardensMarkedOnly {Key PrivKey : Type} (lib : HDKeyChain Key PrivKey)
    (masterKey path : String) : Prop :=
  ∀ (i : ℕ) (index : UInt32), (deriveChildKey lib masterKey path []).2[i]? = some index →
    hardenedKeyStart ≤ index →
    ∃ elem, (split path '/')[i]? = some elem ∧ hardenedPostfix.toList <:+ elem.toList

section
variable {path masterKey : String} {indices : List UInt32} {Key PrivKey : Type}
  {lib : HDKeyChain Key PrivKey}

theorem keepsStructure_of_small (hpath : parsePath path = .ok indices)
    (hsmall : ∀ elem ∈ (split path '/').drop 3, decimal elem.toList < 2 ^ 31) :
    KeepsStructure path indices := by
  have hreads := parsePath_eq_ok.mp hpath
  generalize hsplit : split path '/' = elems at hreads hsmall
  cases hreads with
  | five hs1 hs2 hs3 hs4 hs5 =>
    refine ⟨rfl, ?_, ?_⟩ <;> rw [hsplit]
    · intro i hi
      interval_cases i
      · exact ⟨_, _, rfl, rfl, hs1⟩
      · exact ⟨_, _, rfl, rfl, hs2⟩
      · exact ⟨_, _, rfl, rfl, hs3⟩
    · intro i h3 h5
      interval_cases i
      · exact ⟨_, _, rfl, rfl, hs4, hs4.2 ▸ hsmall _ (by simp)⟩
      · exact ⟨_, _, rfl, rfl, hs5, hs5.2 ▸ hsmall _ (by simp)⟩

theorem small_of_keepsStructure (hpath : parsePath path = .ok indices)
    (hkeeps : KeepsStructure path indices) :
    ∀ elem ∈ (split path '/').drop 3, decimal elem.toList < 2 ^ 31 := by
  have hreads := parsePath_eq_ok.mp hpath
  have hnormal : ∀ i, 3 ≤ i → i < 5 → ∀ elem ∈ (split path '/')[i]?,
      decimal elem.toList < 2 ^ 31 := by
    intro i h3 h5 elem helem
    obtain ⟨elem', index, helem', -, hdec, hlt⟩ := hkeeps.normal i h3 h5
    obtain rfl : elem' = elem := Option.some.inj (helem'.symm.trans helem)
    exact hdec.2 ▸ hlt
  generalize split path '/' = elems at hreads hnormal
  cases hreads with
  | five hs1 hs2 hs3 hs4 hs5 =>
    intro elem helem
    rcases List.mem_pair.mp helem with rfl | rfl
    · exact hnormal 3 (by omega) (by omega) _ rfl
    · exact hnormal 4 (by omega) (by omega) _ rfl

theorem hardensMarkedOnly_of_keepsStructure (hpath : parsePath path = .ok indices)
    (hkeeps : KeepsStructure path indices) : HardensMarkedOnly lib masterKey path := by
  intro i index hi hhard
  have hparsed : indices[i]? = some index := by
    obtain ⟨rest, hrest⟩ := deriveChildKey_derives lib masterKey hpath
    rw [← hrest, List.getElem?_append_left (List.getElem?_eq_some_iff.mp hi).1, hi]
  have hlt : i < 5 := hkeeps.length ▸ (List.getElem?_eq_some_iff.mp hparsed).1
  by_cases h3 : i < 3
  · obtain ⟨elem, _, helem, -, digits, hdigits, -⟩ := hkeeps.hardened i h3
    exact ⟨elem, helem, digits, hdigits.symm⟩
  · obtain ⟨_, index', -, hindex, -, hsmall⟩ := hkeeps.normal i (by omega) hlt
    obtain rfl : index' = index := Option.some.inj (hindex.symm.trans hparsed)
    rw [UInt32.le_iff_toNat_le, hardenedKeyStart_toNat] at hhard
    omega

/-- The path keeps the structure it was written with when its last two decimals are below the
hardened range, which `parseNormal` does not check. -/
theorem keepsStructure_iff (lib : HDKeyChain Key PrivKey) (masterKey path : String)
    (indices : List UInt32) (hpath : parsePath path = .ok indices) :
    KeepsStructure path indices ∧ HardensMarkedOnly lib masterKey path ↔
      ∀ elem ∈ (split path '/').drop 3, decimal elem.toList < 2 ^ 31 := by
  constructor
  · rintro ⟨hkeeps, -⟩
    exact small_of_keepsStructure hpath hkeeps
  · intro hsmall
    have hkeeps := keepsStructure_of_small hpath hsmall
    exact ⟨hkeeps, hardensMarkedOnly_of_keepsStructure hpath hkeeps⟩

end

/-- The decimal of `n` after some extra zeros. -/
def padded (zeros n : ℕ) : List Char := List.replicate zeros '0' ++ Nat.toDigits 10 n

/-- The elements of a path without their redundant zeros. -/
def strippedElems (path : String) : List (List Char) :=
  (split path '/').map fun elem => stripZeros elem.toList

section
variable {s t : String} {i j : UInt32} {n z : ℕ}

theorem isNumeral_padded (z n : ℕ) : IsNumeral (padded z n) :=
  isNumeral_zeros z (isNumeral_toDigits n)

theorem decimal_padded (z n : ℕ) : decimal (padded z n) = n := by
  rw [padded, decimal_zeros, decimal_toDigits]

theorem hardenedAs_padded (z : ℕ) (hn : n < 2 ^ 31) :
    HardenedAs (String.ofList (padded z n ++ ['h'])) (UInt32.ofNat (2 ^ 31 + n)) := by
  refine ⟨padded z n, String.toList_ofList, isNumeral_padded z n, by rwa [decimal_padded], ?_⟩
  rw [decimal_padded, UInt32.toNat_ofNat_of_lt' (by simp only [UInt32.size]; omega)]

theorem decimalOf_padded (z : ℕ) (hn : n < 2 ^ 31) :
    DecimalOf (String.ofList (padded z n)) (UInt32.ofNat n) := by
  rw [DecimalOf, String.toList_ofList, decimal_padded]
  exact ⟨isNumeral_padded z n, UInt32.toNat_ofNat_of_lt' (by simp only [UInt32.size]; omega)⟩

theorem slash_not_mem_of_isNumeral {s : List Char} (hs : IsNumeral s) : '/' ∉ s := by
  intro h
  have := hs.2 '/' h
  revert this
  decide

theorem HardenedAs.eq_iff (hs : HardenedAs s i) (ht : HardenedAs t j) :
    i = j ↔ stripZeros s.toList = stripZeros t.toList := by
  obtain ⟨ds, hds, hnum, -, hi⟩ := hs
  obtain ⟨dt, hdt, hnum', -, hj⟩ := ht
  rw [hds, hdt, stripZeros_append_singleton hnum (by decide),
    stripZeros_append_singleton hnum' (by decide), List.append_left_inj,
    ← decimal_eq_iff hnum hnum', ← UInt32.toNat_inj, hi, hj, Nat.add_left_cancel_iff]

theorem DecimalOf.eq_iff (hs : DecimalOf s i) (ht : DecimalOf t j) :
    i = j ↔ stripZeros s.toList = stripZeros t.toList := by
  rw [← decimal_eq_iff hs.1 ht.1, ← UInt32.toNat_inj, hs.2, ht.2]

theorem ReadsPath.eq_iff {elems elems' : List String} {indices indices' : List UInt32}
    (h : ReadsPath elems indices) (h' : ReadsPath elems' indices') :
    indices = indices' ↔ elems.map (fun elem => stripZeros elem.toList) =
      elems'.map fun elem => stripZeros elem.toList := by
  cases h with
  | five hs1 hs2 hs3 hs4 hs5 =>
    cases h' with
    | five ht1 ht2 ht3 ht4 ht5 =>
      simp only [List.map_cons, List.map_nil, List.cons.injEq, and_true, hs1.eq_iff ht1,
        hs2.eq_iff ht2, hs3.eq_iff ht3, hs4.eq_iff ht4, hs5.eq_iff ht5]

/-- The elements of the well-formed path. -/
theorem split_padded (za zb zc zd ze a b c d e : ℕ) :
    split (String.ofList (padded za a) ++ "h/" ++ String.ofList (padded zb b) ++ "h/" ++
        String.ofList (padded zc c) ++ "h/" ++ String.ofList (padded zd d) ++ "/" ++
        String.ofList (padded ze e)) '/' =
      [padded za a ++ ['h'], padded zb b ++ ['h'], padded zc c ++ ['h'], padded zd d,
        padded ze e].map String.ofList := by
  have hnum := fun z n => slash_not_mem_of_isNumeral (isNumeral_padded z n)
  have hsep : ∀ elem ∈ [padded za a ++ ['h'], padded zb b ++ ['h'], padded zc c ++ ['h'],
      padded zd d, padded ze e], '/' ∉ elem := by simp [hnum]
  rw [← split_intercalate (by simp) hsep]
  congr 1
  rw [← String.toList_inj]
  simp [String.toList_append, List.intercalate]

/-- Every well-formed path is understood, and two paths read alike differ in redundant zeros. -/
theorem parsePath_distinct :
    (∀ a b c d e : ℕ, a < 2 ^ 31 → b < 2 ^ 31 → c < 2 ^ 31 → d < 2 ^ 31 → e < 2 ^ 31 →
      ∀ za zb zc zd ze : ℕ,
        parsePath (String.ofList (padded za a) ++ "h/" ++ String.ofList (padded zb b) ++ "h/" ++
          String.ofList (padded zc c) ++ "h/" ++ String.ofList (padded zd d) ++ "/" ++
          String.ofList (padded ze e)) =
        .ok [.ofNat (2 ^ 31 + a), .ofNat (2 ^ 31 + b), .ofNat (2 ^ 31 + c), .ofNat d, .ofNat e]) ∧
    ∀ (path path' : String) (indices indices' : List UInt32), parsePath path = .ok indices →
      parsePath path' = .ok indices' →
      (indices = indices' ↔ strippedElems path = strippedElems path') := by
  constructor
  · intro a b c d e ha hb hc hd he za zb zc zd ze
    rw [parsePath_eq_ok, split_padded]
    exact .five (hardenedAs_padded za ha) (hardenedAs_padded zb hb) (hardenedAs_padded zc hc)
      (decimalOf_padded zd hd) (decimalOf_padded ze he)
  · intro path path' indices indices' h h'
    exact (parsePath_eq_ok.mp h).eq_iff (parsePath_eq_ok.mp h')

end

namespace Sample

/-- A key is the path it was derived along. -/
def pathKeys : HDKeyChain (List UInt32) (List UInt32) where
  newKeyFromString _ := .ok []
  derive key elem := .ok (key ++ [elem])
  ecPrivKey key := .ok key
  serialize key := key.map UInt32.toUInt8
  serializePubKeyCompressed key := 2 :: key.map UInt32.toUInt8

theorem parsePath_unmarked : parsePath "84h/1h/0h/2147483648/0" =
    .ok [0x80000054, 0x80000001, 0x80000000, 0x80000000, 0] := by
  decide +kernel

/-- The fourth element has no suffix and derives a hardened child. -/
theorem unmarked_element_hardens :
    parsePath "84h/1h/0h/2147483648/0" =
      .ok [0x80000054, 0x80000001, 0x80000000, 0x80000000, 0] ∧
    ¬ KeepsStructure "84h/1h/0h/2147483648/0"
      [0x80000054, 0x80000001, 0x80000000, 0x80000000, 0] ∧
    ¬ HardensMarkedOnly pathKeys "tprv8" "84h/1h/0h/2147483648/0" := by
  refine ⟨parsePath_unmarked, fun hkeeps => ?_, fun hmarked => ?_⟩
  · have hsmall := small_of_keepsStructure parsePath_unmarked hkeeps "2147483648"
      (by decide +kernel)
    revert hsmall
    decide +kernel
  · obtain ⟨elem, helem, hsuffix⟩ := hmarked 3 0x80000000 (by decide +kernel) (by decide)
    have hfourth : (split "84h/1h/0h/2147483648/0" '/')[3]? = some "2147483648" := by
      decide +kernel
    obtain rfl : "2147483648" = elem := Option.some.inj (hfourth.symm.trans helem)
    revert hsuffix
    decide +kernel

theorem keepsStructure_first_account :
    KeepsStructure "84h/1h/0h/0/0" [0x80000054, 0x80000001, 0x80000000, 0, 0] ∧
      HardensMarkedOnly pathKeys "tprv8" "84h/1h/0h/0/0" :=
  (keepsStructure_iff pathKeys "tprv8" "84h/1h/0h/0/0" _ (by decide +kernel)).mpr
    (by decide +kernel)

theorem parsePath_distinct_accounts :
    parsePath (String.ofList (padded 1 84) ++ "h/" ++ String.ofList (padded 0 1) ++ "h/" ++
        String.ofList (padded 2 0) ++ "h/" ++ String.ofList (padded 0 7) ++ "/" ++
        String.ofList (padded 0 0)) =
      .ok [0x80000054, 0x80000001, 0x80000000, 7, 0] ∧
    strippedElems "84h/1h/0h/0/0" = strippedElems "084h/01h/0h/00/0" := by
  obtain ⟨hread, hdistinct⟩ := parsePath_distinct
  have hplain : parsePath "84h/1h/0h/0/0" = .ok [0x80000054, 0x80000001, 0x80000000, 0, 0] := by
    decide +kernel
  have hzeros : parsePath "084h/01h/0h/00/0" = .ok [0x80000054, 0x80000001, 0x80000000, 0, 0] := by
    decide +kernel
  exact ⟨hread 84 1 0 7 0 (by decide) (by decide) (by decide) (by decide) (by decide) 1 0 2 0 0,
    (hdistinct _ _ _ _ hplain hzeros).mp rfl⟩

end Sample

end CovenantEmulator
