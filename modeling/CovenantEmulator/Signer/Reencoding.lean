import CovenantEmulator.Sample.Remote

/-! Wire values that were accepted, encoded again. -/
namespace CovenantEmulator

open Golang

/-- What the library decodes encodes to bytes that decode to the same value; a parsed signature
is the bytes it was parsed from. -/
structure Reencodes (lib : BabylonLib) : Prop where
  tx : ∀ bs tx, lib.deserialize bs = .ok tx → tx.txIn ≠ [] → SurvivesTx lib tx
  txOut : ∀ bs out, lib.deserializeTxOut bs = .ok out → SurvivesTxOut lib out
  key : ∀ bs key, lib.newEncryptionKeyFromBytes bs = .ok key → SurvivesKey lib key
  sig : ∀ bs sig, lib.parseSignature bs = .ok sig → sig.serialize = bs

/-- Every transaction of the request has an input. -/
structure HasInputs (p : ParsedSigningRequest) : Prop where
  stakingTx : p.stakingTx.txIn ≠ []
  slashingTx : p.slashingTx.txIn ≠ []
  unbondingTx : p.unbondingTx.txIn ≠ []
  slashUnbondingTx : p.slashUnbondingTx.txIn ≠ []
  stakeExp : ∀ stk, p.stakeExp = some stk → stk.previousActiveStakeTx.txIn ≠ []

def lowerCase (s : String) : String := String.ofList (s.toList.map Char.toLower)

/-- The response with its hex letters in lower case. -/
def SignTransactionsResponse.lowerCase (s : SignTransactionsResponse) :
    SignTransactionsResponse where
  slashingTransactionsAdaptorSignatures :=
    s.slashingTransactionsAdaptorSignatures.map CovenantEmulator.lowerCase
  unbondingTransactionSignature := CovenantEmulator.lowerCase s.unbondingTransactionSignature
  slashUnbondingTransactionsAdaptorSignatures :=
    s.slashUnbondingTransactionsAdaptorSignatures.map CovenantEmulator.lowerCase
  stakeExpansionTransactionSignature :=
    CovenantEmulator.lowerCase s.stakeExpansionTransactionSignature

section
variable {lib : BabylonLib} {p : ParsedSigningRequest} {req : SignTransactionsRequest}

theorem newBTCTxFromHex_survives (h : Reencodes lib) {txHex : String} {tx : MsgTx}
    (htx : newBTCTxFromHex lib txHex = .ok tx) (hin : tx.txIn ≠ []) : SurvivesTx lib tx := by
  obtain ⟨bs, -, hbs⟩ := Outcome.bind_eq_ok.mp htx
  exact h.tx bs tx (Outcome.ofExcept_eq_ok.mp hbs) hin

theorem parseFpEncKey_survives (h : Reencodes lib) {keyHex : String} {key : EncryptionKey}
    (hkey : parseFpEncKey lib keyHex = .ok key) : SurvivesKey lib key := by
  obtain ⟨bs, -, hbs⟩ := Outcome.bind_eq_ok.mp (Outcome.wrap_eq_ok.mp hkey)
  exact h.key bs key (Outcome.ofExcept_eq_ok.mp hbs)

theorem parseStakeExpansion_survives (h : Reencodes lib) {r : StakeExpansionRequest}
    {stk : ParsedSigningRequestStkExp} (hstk : parseStakeExpansion lib r = .ok stk)
    (hin : stk.previousActiveStakeTx.txIn ≠ []) :
    SurvivesTx lib stk.previousActiveStakeTx ∧ SurvivesTxOut lib stk.otherFundingOutput := by
  obtain ⟨tx, htx, hstk⟩ := Outcome.bind_eq_ok.mp hstk
  obtain ⟨outBz, -, hstk⟩ := Outcome.bind_eq_ok.mp hstk
  obtain ⟨out, hout, hstk⟩ := Outcome.bind_eq_ok.mp hstk
  obtain ⟨script, -, hstk⟩ := Outcome.bind_eq_ok.mp hstk
  cases hstk
  exact ⟨newBTCTxFromHex_survives h (Outcome.wrap_eq_ok.mp htx) hin,
    h.txOut outBz out (Outcome.ofExcept_eq_ok.mp (Outcome.wrap_eq_ok.mp hout))⟩

/-- Everything in an accepted request survives its own encoding. -/
theorem ParsesTo.survives (h : Reencodes lib) (hp : ParsesTo lib req p) (hin : HasInputs p) :
    Survives lib p where
  stakingTx := newBTCTxFromHex_survives h hp.stakingTx hin.stakingTx
  slashingTx := newBTCTxFromHex_survives h hp.slashingTx hin.slashingTx
  unbondingTx := newBTCTxFromHex_survives h hp.unbondingTx hin.unbondingTx
  slashUnbondingTx := newBTCTxFromHex_survives h hp.slashUnbondingTx hin.slashUnbondingTx
  fpEncKeys := by
    intro key hkey
    obtain ⟨keyHex, -, hparse⟩ := Outcome.exists_of_mem_of_mapM hp.fpEncKeys hkey
    exact parseFpEncKey_survives h hparse
  stakeExp := by
    intro stk hstk
    have hexp := hp.stakeExp
    rw [hstk] at hexp
    cases hreq : req.stakeExpansion with
    | none =>
      rw [hreq] at hexp
      cases hexp
    | some r =>
      rw [hreq] at hexp
      obtain ⟨stk', hparse, heq⟩ := Outcome.bind_eq_ok.mp hexp
      cases heq
      exact parseStakeExpansion_survives h hparse (hin.stakeExp stk hstk)

theorem parseAdaptorSigs_lowerCase {name : String} {sigs : List String} {bss : List Bytes}
    (h : sigs.mapM (parseAdaptorSig name) = .ok bss) :
    bss.map Hex.encodeToString = sigs.map lowerCase := by
  have hall := Outcome.mapM_eq_ok.mp h
  clear h
  induction hall with
  | nil => rfl
  | cons hsig _ ih =>
    have hdec := Outcome.ofExcept_eq_ok.mp (Outcome.wrap_eq_ok.mp hsig)
    rw [List.map_cons, List.map_cons, ih, Hex.encodeToString_of_decodeString hdec]
    rfl

theorem serialize_lowerCase (h : Reencodes lib) {s : String} {bs : Bytes} {sig : Signature}
    (hdec : Hex.decodeString s = .ok bs) (hsig : lib.parseSignature bs = .ok sig) :
    Hex.encodeToString sig.serialize = lowerCase s := by
  rw [h.sig bs sig hsig, Hex.encodeToString_of_decodeString hdec]
  rfl

/-- The signature of an expansion, or its absence, is written back. -/
theorem parseStakeExpSig_lowerCase (h : Reencodes lib) {s : String} {resp : ParsedSigningResponse}
    (hsig : parseStakeExpSig lib s = .ok resp.stakeExpSig) :
    (toResponse resp).stakeExpansionTransactionSignature = lowerCase s := by
  unfold parseStakeExpSig at hsig
  split at hsig
  · obtain ⟨bs, hdec, hsig⟩ := Outcome.bind_eq_ok.mp hsig
    obtain ⟨sig, hparse, hsig⟩ := Outcome.bind_eq_ok.mp hsig
    have hsome : resp.stakeExpSig = some sig := (Outcome.ok.inj hsig).symm
    simp only [toResponse, hsome]
    exact serialize_lowerCase h (Outcome.ofExcept_eq_ok.mp (Outcome.wrap_eq_ok.mp hdec))
      (Outcome.ofExcept_eq_ok.mp (Outcome.wrap_eq_ok.mp hparse))
  · rename_i hlen
    have hnone : resp.stakeExpSig = none := (Outcome.ok.inj hsig).symm
    obtain rfl : s = "" := String.length_eq_zero_iff.mp (by omega)
    simp only [toResponse, hnone]
    decide

theorem toResponse_lowerCase (h : Reencodes lib) {s : SignTransactionsResponse}
    {resp : ParsedSigningResponse} (hresp : toParsedSigningResponse lib s = .ok resp) :
    toResponse resp = s.lowerCase := by
  unfold toParsedSigningResponse at hresp
  split at hresp
  · cases hresp
  split at hresp
  · cases hresp
  obtain ⟨slash, hslash, hresp⟩ := Outcome.bind_eq_ok.mp hresp
  obtain ⟨unbonding, hunbonding, hresp⟩ := Outcome.bind_eq_ok.mp hresp
  obtain ⟨slashUnbonding, hslashUnbonding, hresp⟩ := Outcome.bind_eq_ok.mp hresp
  obtain ⟨stakeExp, hstakeExp, hresp⟩ := Outcome.bind_eq_ok.mp hresp
  cases hresp
  obtain ⟨bs, hdec, hsig⟩ := Outcome.bind_eq_ok.mp (Outcome.wrap_eq_ok.mp hunbonding)
  refine SignTransactionsResponse.ext ?_ ?_ ?_ ?_
  · exact parseAdaptorSigs_lowerCase hslash
  · exact serialize_lowerCase h (Outcome.ofExcept_eq_ok.mp hdec) (Outcome.ofExcept_eq_ok.mp hsig)
  · exact parseAdaptorSigs_lowerCase hslashUnbonding
  · exact parseStakeExpSig_lowerCase h hstakeExp

/-- An accepted request encodes to one that is read the same way, and an accepted response to
itself in lower case. -/
theorem reencoded_same (h : Reencodes lib) :
    (∀ r p, parseSigningRequest lib r = .ok p → HasInputs p →
      ∃ r', toSignTransactionRequest lib p = .ok r' ∧
        parseSigningRequest lib r' = parseSigningRequest lib r) ∧
    ∀ s resp, toParsedSigningResponse lib s = .ok resp → toResponse resp = s.lowerCase := by
  refine ⟨fun r p hp hin => ?_, fun s resp hresp => toResponse_lowerCase h hresp⟩
  have hsurvives := (parsesTo_of_parseSigningRequest hp).survives h hin
  obtain ⟨hslash, hunbond, hunbondSlash⟩ := parseSigningRequest_scripts hp
  obtain ⟨r', hsent, hparsed⟩ :=
    parseSigningRequest_toSignTransactionRequest hsurvives hslash hunbond hunbondSlash
  exact ⟨r', hsent, hparsed.trans hp.symm⟩

end

namespace Sample

/-- The sample library behind a reader: bytes after a transaction are not read, and an output
is read from its canonical bytes only. -/
def readerLib : BabylonLib :=
  { lib with
    deserialize := fun bs =>
      match knownTxs.find? fun k => k.tx.wire.isPrefixOf bs with
      | some k => .ok k.tx
      | none => .error "unexpected EOF"
    deserializeTxOut := fun bs =>
      match lib.deserializeTxOut bs with
      | .ok out => if out.wire = bs then .ok out else .error "non-canonical varint"
      | .error e => .error e }

theorem readerLib_find : ∀ k ∈ knownTxs,
    (knownTxs.find? fun j => j.tx.wire.isPrefixOf k.tx.wire) = some k := by
  decide +kernel

theorem readerLib_reencodes : Reencodes readerLib where
  tx := by
    intro bs tx htx _
    simp only [readerLib] at htx
    split at htx
    · rename_i k hfind
      cases htx
      have hk : k ∈ knownTxs := List.mem_of_find?_eq_some hfind
      refine ⟨k.tx.wire, (serialize_eq_ok (t := table)).mpr ⟨⟨k, hk, rfl⟩, rfl⟩, ?_⟩
      simp only [readerLib, readerLib_find k hk]
    · cases htx
  txOut := by
    intro bs out hout
    have hread := hout
    simp only [readerLib] at hout
    split at hout
    · split at hout
      · rename_i heq
        cases hout
        exact ⟨_, rfl, heq ▸ hread⟩
      · cases hout
    · cases hout
  key := by
    intro bs key hkey
    simp only [readerLib, TxTable.lib] at hkey
    split at hkey
    · rename_i hlen
      cases hkey
      simp [SurvivesKey, readerLib, TxTable.lib, hlen]
    · cases hkey
  sig := by
    intro bs sig hsig
    simp only [readerLib, TxTable.lib, TxTable.parseSignature] at hsig
    split at hsig
    · cases hsig
      rfl
    · cases hsig

/-- A byte after the staking transaction, and a slashing script in upper case. -/
def upperWire : SignTransactionsRequest :=
  { plainWire with
    stakingTxHex := Hex.encodeToString (stakingTx.wire ++ [0])
    slashingScriptHex := "AC" }

def upperParsed : ParsedSigningRequest :=
  { covenantRequestToSignerRequest plainRequest with slashingScript := [0xac] }

theorem newBTCTxFromHex_readerLib {tx : MsgTx} (h : tx ∈ knownTxs.map KnownTx.tx) :
    newBTCTxFromHex readerLib (txHex tx) = .ok tx := by
  obtain ⟨k, hk, rfl⟩ := List.mem_map.mp h
  simp [newBTCTxFromHex, txHex, readerLib, readerLib_find k hk]

theorem newBTCTxFromHex_trailing :
    newBTCTxFromHex readerLib (Hex.encodeToString (stakingTx.wire ++ [0])) = .ok stakingTx := by
  have hread : readerLib.deserialize (stakingTx.wire ++ [0]) = .ok stakingTx := by decide +kernel
  simp [newBTCTxFromHex, hread]

theorem upperWire_parsesTo : ParsesTo readerLib upperWire upperParsed where
  stakingTx := newBTCTxFromHex_trailing
  slashingTx := newBTCTxFromHex_readerLib (by decide)
  unbondingTx := newBTCTxFromHex_readerLib (by decide)
  slashUnbondingTx := newBTCTxFromHex_readerLib (by decide)
  stakingOutputIdx := rfl
  slashingScript := by decide
  unbondingScript := parseScript_encode (by decide)
  unbondingSlashingScript := parseScript_encode (by decide)
  fpEncKeys := parseFpEncKeys_encode
    (show ∀ key ∈ upperParsed.fpEncKeys, SurvivesKey readerLib key by
      intro key hkey
      rcases List.mem_pair.mp hkey with rfl | rfl <;> rfl)
  stakeExp := rfl

/-- Adaptor signatures in upper case, and no signature of an expansion. -/
def upperResponse : SignTransactionsResponse where
  slashingTransactionsAdaptorSignatures := ["0A1b"]
  unbondingTransactionSignature := Hex.encodeToString (List.replicate 64 2)
  slashUnbondingTransactionsAdaptorSignatures := ["FF"]
  stakeExpansionTransactionSignature := ""

theorem toParsedSigningResponse_upper :
    toParsedSigningResponse readerLib upperResponse =
      .ok ⟨[[0x0a, 0x1b]], ⟨List.replicate 64 2⟩, [[0xff]], none⟩ := by
  have hslash : Hex.decodeString "0A1b" = .ok [0x0a, 0x1b] := by decide
  have hslashUnbonding : Hex.decodeString "FF" = .ok [0xff] := by decide
  simp [toParsedSigningResponse, upperResponse, parseAdaptorSig, parseStakeExpSig, readerLib,
    TxTable.lib, TxTable.parseSignature, hslash, hslashUnbonding, Outcome.wrap]

theorem upper_reencoded :
    (∃ r', toSignTransactionRequest readerLib upperParsed = .ok r' ∧
      parseSigningRequest readerLib r' = parseSigningRequest readerLib upperWire) ∧
    toResponse ⟨[[0x0a, 0x1b]], ⟨List.replicate 64 2⟩, [[0xff]], none⟩ =
      upperResponse.lowerCase := by
  obtain ⟨hrequest, hresponse⟩ := reencoded_same readerLib_reencodes
  have hin : HasInputs upperParsed :=
    ⟨by decide, by decide, by decide, by decide, fun stk hstk => by cases hstk⟩
  exact ⟨hrequest upperWire _ (parseSigningRequest_of_parsesTo upperWire_parsesTo) hin,
    hresponse upperResponse _ toParsedSigningResponse_upper⟩

end Sample

end CovenantEmulator
