import CovenantEmulator.Covenant.SigningChain
import CovenantEmulator.Covenant.Simulation
import CovenantEmulator.Config
import CovenantEmulator.Signer.Session

/-! The daemon as it is deployed, with the Babylon controller over an atomic chain and the signer
behind its server, refines a daemon over a ledger and a vault. -/
namespace CovenantEmulator

open Golang Ledger

section
variable {σ κ α : Type}

def onFst (m : Go σ α) : Go (σ × κ) α := Go.zoom Prod.fst (fun s s' => (s', s.2)) m

def onSnd (m : Go κ α) : Go (σ × κ) α := Go.zoom Prod.snd (fun s k => (s.1, k)) m

def ClientController.beside (κ : Type) (cc : ClientController σ) : ClientController (σ × κ) where
  submitCovenantSigs sigs := onFst (cc.submitCovenantSigs sigs)
  btcDelegations status req := onFst (cc.btcDelegations status req)
  queryBTCDelegation hash := onFst (cc.queryBTCDelegation hash)
  queryStakingParamsByVersion v := onFst (cc.queryStakingParamsByVersion v)

def Signer.beside (σ : Type) (signer : Signer κ) : Signer (σ × κ) where
  signTransactions req := onSnd (signer.signTransactions req)
  pubKey := onSnd signer.pubKey

end

/-- A daemon and what happens around it: requests of an operator to its signer, and what others do
to a chain with states in `τ`. -/
structure System (σ τ : Type) where
  lib : BabylonLib
  retry : ParamsRetry σ
  config : ValidConfig
  cc : ClientController σ
  signer : Signer σ
  request : VaultRequest → Go σ VaultReply
  others : (τ → τ) → σ → σ

inductive Operation (τ : Type) where
  | tick (fuel : ℕ)
  | request (req : VaultRequest)
  | others (f : τ → τ)

namespace System

variable {σ τ : Type} (S : System σ τ)

/-- The command `start`, once it has its configuration and its clients. -/
def start : Go σ (Emulator σ) := do
  let _ ← Go.wrap ("remote signer health check failed - ensure the signer is running and " ++
    "unlocked: " ++ ·) S.signer.pubKey
  Go.wrap ("failed to start the covenant emulator: " ++ ·)
    (newEmulator S.lib S.retry S.config S.cc S.signer)

/-- The emulator that `start` makes with this public key. -/
def emulator (pk : PublicKey) : Emulator σ :=
  configuredEmulator S.lib S.retry S.config S.cc S.signer pk

/-- What the daemon does at one step; an answer to the operator is a reply or a refusal. -/
def perform (ce : Emulator σ) : Operation τ → Go (World σ) (Option VaultReply)
  | .tick fuel => do
    ce.tick fuel
    pure none
  | .request req => do
    let reply ← Go.attempt (onEnv (S.request req))
    pure reply.toOption
  | .others f => do
    Go.modify fun w => { w with env := S.others f w.env }
    pure none

/-- The daemon starts with an empty cache, and runs until a tick brings it down. -/
def run (ops : List (Operation τ)) (s : σ) :
    Outcome (List (Option VaultReply)) × World σ :=
  (do
    let ce ← onEnv S.start
    ops.mapM (S.perform ce) : Go (World σ) (List (Option VaultReply)))
    ⟨s, fun _ => none, []⟩

/-- A start asks for the public key twice, and the emulator has the second answer. -/
theorem run_eq (ops : List (Operation τ)) (s : σ) :
    S.run ops s =
      (do
        let _ ← onEnv (Go.wrap ("remote signer health check failed - ensure the signer is " ++
          "running and unlocked: " ++ ·) S.signer.pubKey)
        let pk ← onEnv (Go.wrap ("failed to start the covenant emulator: " ++ ·)
          (Go.wrap ("failed to get signer pub key: " ++ ·) S.signer.pubKey))
        ops.mapM (S.perform (S.emulator pk)) : Go (World σ) (List (Option VaultReply)))
        ⟨s, fun _ => none, []⟩ := by
  unfold run start newEmulator onEnv
  simp only [Go.bind_apply, Go.zoom_apply, Go.wrap]
  rcases S.signer.pubKey s with ⟨_ | _ | _ | _, s'⟩
  · dsimp only [Outcome.wrap]
    rcases S.signer.pubKey s' with ⟨_ | _ | _ | _, s₂⟩ <;> rfl
  all_goals rfl

end System

section
variable (lib : BabylonLib) (keyring : String → Except String (Option PrivateKey))

/-- The vault as a service: a refusal is an error. -/
def vaultRequest (req : VaultRequest) : Go (Option PrivateKey) VaultReply := fun held =>
  match vaultReply lib keyring req held with
  | (some reply, held') => (.ok reply, held')
  | (none, held') => (.error "refused", held')

def vaultSigner : Signer (Option PrivateKey) where
  signTransactions req held :=
    match vaultReply lib keyring (.sign req) held with
    | (some (.signatures resp), held') => (.ok resp, held')
    | (_, held') => (.error "refused", held')
  pubKey held :=
    match vaultReply lib keyring .publicKey held with
    | (some (.publicKey pk), held') => (.ok pk, held')
    | (_, held') => (.error "refused", held')

end

section
variable {τ α : Type}

/-- A call of the controller that is not remembered. -/
def forgotten (m : Go (Net MsgAddCovenantSigs τ) α) : Go τ α := fun s =>
  ((m ⟨s, []⟩).1, (m ⟨s, []⟩).2.chain)

/-- The chain as a ledger: of a submission it takes every message that it takes on its own. -/
def ledgerController (bc : BabylonController τ) (c : AtomicChain MsgAddCovenantSigs τ) :
    ClientController τ where
  submitCovenantSigs sigs s :=
    (.ok ⟨"", []⟩, bestEffort c.exec (sigs.map bc.msgAddCovenantSigs) s)
  btcDelegations := bc.bbnClient.btcDelegations
  queryBTCDelegation hash := forgotten (bc.queryBTCDelegation hash)
  queryStakingParamsByVersion v := forgotten (bc.queryStakingParamsByVersion v)

end

/-- A configured daemon with the Babylon controller over an atomic chain, and the signer with its
keyring behind its server. -/
structure Deployment (τ : Type) where
  retry : ParamsRetry (Net MsgAddCovenantSigs τ × KeyringRetriever)
  config : ValidConfig
  bc : BabylonController τ
  chain : AtomicChain MsgAddCovenantSigs τ
  rs : RemoteSigner KeyringRetriever
  keyring : String → Except String (Option PrivateKey)
  sends : bc.bbnClient.reliablySendMsgs = chain.send
  retries : bc.maxRetiresBatchRemovingMsgs = config.maxRetiresBatchRemovingMsgs
  /-- There is a try for each message of a batch. -/
  tries : config.maxRetiresBatchRemovingMsgs = 0 ∨
    config.sigsBatchSize.toNat ≤ config.maxRetiresBatchRemovingMsgs.toNat
  small : config.sigsBatchSize.toNat < 2 ^ 63
  pkr : rs.srv.handler.s.pkr = keyringRetriever keyring
  undoes : rs.srv.handler.codec.Undoes
  survive : SignaturesSurvive rs.srv.handler.s.lib

namespace Deployment

variable {τ : Type} (D : Deployment τ)

def deployed : System (Net MsgAddCovenantSigs τ × KeyringRetriever) τ where
  lib := D.bc.lib
  retry := D.retry
  config := D.config
  cc := D.bc.toClientController.beside KeyringRetriever
  signer := Signer.beside _ ⟨D.rs.signTransactions, D.rs.pubKey⟩
  request req := onSnd (D.rs.request req)
  others f s := ({ s.1 with chain := f s.1.chain }, s.2)

def ideal : System (τ × Option PrivateKey) τ where
  lib := D.bc.lib
  retry := .loop
  config := D.config
  cc := (ledgerController D.bc D.chain).beside (Option PrivateKey)
  signer := (vaultSigner D.rs.srv.handler.s.lib D.keyring).beside τ
  request req := onSnd (vaultRequest D.rs.srv.handler.s.lib D.keyring req)
  others f s := (f s.1, s.2)

end Deployment

/-- Two pairs of states, related in both places. -/
structure Both {σ τ κ κ' : Type} (R : σ → τ → Prop) (S : κ → κ' → Prop) (s : σ × κ) (t : τ × κ') :
    Prop where
  fst : R s.1 t.1
  snd : S s.2 t.2

section
variable {σ τ κ κ' α β : Type} {R : σ → τ → Prop} {S : κ → κ' → Prop}

theorem onFst_coupled {m : Go σ α} {n : Go τ α} (h : Coupled R m n) :
    Coupled (Both R S) (onFst m) (onFst n) := by
  intro s t hst
  refine Relates.zoom (h s.1 t.1 hst.fst) ?_ ?_
  · exact fun a s' b t' hab => ⟨hab.1, hab.2, hst.snd⟩
  · exact fun s' t' hR => ⟨hR, hst.snd⟩

theorem onFst_ends {m : Go σ α} {n : Go τ β} {s : σ × κ} {t : τ × κ'} (hst : Both R S s t)
    (h : Ends R m n s.1 t.1) : Ends (Both R S) (onFst m) (onFst n) s t :=
  Ends.zoom h fun _ _ hR => ⟨hR, hst.snd⟩

theorem onSnd_echoes {m : Go κ α} {n : Go κ' α} {s : σ × κ} {t : τ × κ'} (hst : Both R S s t)
    (h : Echoes S m n s.2 t.2) : Echoes (Both R S) (onSnd m) (onSnd n) s t :=
  Echoes.zoom h fun _ _ hS => ⟨hst.fst, hS⟩

end

/-- The chain of the net is the ledger. -/
def OnLedger {τ : Type} (n : Net MsgAddCovenantSigs τ) (s : τ) : Prop := n.chain = s

/-- The key in use is the one in the vault. -/
def InVault (k : KeyringRetriever) (held : Option PrivateKey) : Prop := k.held = held

section
variable {τ α : Type}

theorem onChain_coupled (m : Go τ α) : Coupled OnLedger (onChain m) m := by
  change Coupled OnLedger (onChain m) (Go.zoom id (fun _ s => s) m)
  exact .zoom m id fun _ _ => rfl

/-- Calls that only use the chain of the net. -/
def Blind (m : Go (Net MsgAddCovenantSigs τ) α) : Prop :=
  Coupled (fun n n' => n.chain = n'.chain) m m

theorem onChain_blind (m : Go τ α) : Blind (onChain m) := .zoom m id fun _ _ => rfl

theorem Blind.forgotten {m : Go (Net MsgAddCovenantSigs τ) α} (h : Blind m) :
    Coupled OnLedger m (forgotten m) := by
  rintro n _ rfl
  have hm := h n ⟨n.chain, []⟩ rfl
  unfold Relates at hm ⊢
  unfold CovenantEmulator.forgotten
  generalize m n = r, m ⟨n.chain, []⟩ = r' at hm ⊢
  cases hm with
  | ok h => exact .ok h
  | error h => exact .error h
  | panic h => exact .panic h
  | diverged h => exact .diverged h

theorem queryBTCDelegation_blind (bc : BabylonController τ) (hash : String) :
    Blind (bc.queryBTCDelegation hash) :=
  (onChain_blind _).wrap.bind fun _ => .lift _

theorem queryStakingParamsByVersion_blind (bc : BabylonController τ) (v : UInt32) :
    Blind (bc.queryStakingParamsByVersion v) :=
  (onChain_blind _).wrap.bind fun _ => (onChain_blind _).wrap.bind fun _ => .lift _

/-- With a try for each message, a submission leaves the chain as the ledger. -/
theorem submitCovenantSigs_onLedger (bc : BabylonController τ)
    (c : AtomicChain MsgAddCovenantSigs τ) (hsend : bc.bbnClient.reliablySendMsgs = c.send)
    {sigs : List CovenantSigs} (hlen : sigs.length < 2 ^ 63)
    (htries : bc.maxRetiresBatchRemovingMsgs = 0 ∨
      sigs.length ≤ bc.maxRetiresBatchRemovingMsgs.toNat)
    {n : Net MsgAddCovenantSigs τ} {s : τ} (hns : OnLedger n s) :
    Ends OnLedger (bc.submitCovenantSigs sigs) ((ledgerController bc c).submitCovenantSigs sigs)
      n s := by
  have hall : batchRetries (sigs.map bc.msgAddCovenantSigs) bc.maxRetiresBatchRemovingMsgs =
      (sigs.map bc.msgAddCovenantSigs).length := by
    unfold batchRetries
    rw [List.length_map]
    rcases htries with hzero | hmany
    · rw [if_pos hzero]
    · split
      · rfl
      · split
        · rfl
        · omega
  have hshort : (sigs.map bc.msgAddCovenantSigs).length < 2 ^ 63 := by simpa using hlen
  have hsubmit :=
    resend_bestEffort bc.errDuplicatedCovenantSig c bc.maxRetiresBatchRemovingMsgs hshort n
  have hchain := hsubmit.chain
  rw [if_pos (.inl hall)] at hchain
  refine Ends.of_returns ?_ trivial ?_
  · rw [BabylonController.submitCovenantSigs_eq, hsend]
    exact hsubmit.ends
  · change OnLedger _ (bestEffort c.exec (sigs.map bc.msgAddCovenantSigs) s)
    rw [BabylonController.submitCovenantSigs_eq, hsend, ← hns]
    exact hchain

end

namespace Deployment

variable {τ : Type} (D : Deployment τ)

/-- Over the wire the signer answers as the vault, with errors of its own. -/
theorem request_answers {req : VaultRequest} (hreq : D.rs.GetsThrough req) (k : KeyringRetriever) :
    ∃ res k', D.rs.request req k = (.ofExcept res, k') ∧
      vaultReply D.rs.srv.handler.s.lib D.keyring req k.held = (res.toOption, k'.held) := by
  obtain ⟨res, k', hres, hreply⟩ := answersAs D.pkr D.undoes D.survive hreq k
  exact ⟨res, k', Go.eq_of_attempt hres, hreply.symm⟩

/-- A call that only unpacks the reply to a request. -/
theorem call_echoes {α : Type} {req : VaultRequest} (hreq : D.rs.GetsThrough req)
    {m : Go KeyringRetriever α} {n : Go (Option PrivateKey) α} {f : α → VaultReply}
    (hm : D.rs.request req = m >>= fun a => pure (f a))
    (hok : ∀ {held a held'}, vaultReply D.rs.srv.handler.s.lib D.keyring req held =
      (some (f a), held') → n held = (.ok a, held'))
    (herror : ∀ {held held'}, vaultReply D.rs.srv.handler.s.lib D.keyring req held =
      (none, held') → n held = (.error "refused", held'))
    {k : KeyringRetriever} {held : Option PrivateKey} (hk : InVault k held) :
    Echoes InVault m n k held := by
  subst hk
  obtain ⟨res, k', hres, hreply⟩ := D.request_answers hreq k
  rw [hm] at hres
  unfold Echoes
  rcases Go.map_eq_ofExcept hres with ⟨a, rfl, hcall⟩ | ⟨e, rfl, hcall⟩
  · rw [hcall, hok hreply]
    exact .ok rfl
  · rw [hcall, herror hreply]
    exact .error rfl

theorem request_echoes {req : VaultRequest} (hreq : D.rs.GetsThrough req) {k : KeyringRetriever}
    {held : Option PrivateKey} (hk : InVault k held) :
    Echoes InVault (D.rs.request req)
      (vaultRequest D.rs.srv.handler.s.lib D.keyring req) k held :=
  D.call_echoes hreq (bind_pure _).symm (fun h => by simp [vaultRequest, h])
    (fun h => by simp [vaultRequest, h]) hk

theorem signTransactions_echoes {req : SigningRequest} (hreq : D.rs.GetsThrough (.sign req))
    {k : KeyringRetriever} {held : Option PrivateKey} (hk : InVault k held) :
    Echoes InVault (D.rs.signTransactions req)
      ((vaultSigner D.rs.srv.handler.s.lib D.keyring).signTransactions req) k held :=
  D.call_echoes hreq rfl (fun h => by simp [vaultSigner, h]) (fun h => by simp [vaultSigner, h]) hk

theorem pubKey_echoes (hreq : D.rs.GetsThrough .publicKey) {k : KeyringRetriever}
    {held : Option PrivateKey} (hk : InVault k held) :
    Echoes InVault D.rs.pubKey (vaultSigner D.rs.srv.handler.s.lib D.keyring).pubKey k held :=
  D.call_echoes hreq rfl (fun h => by simp [vaultSigner, h]) (fun h => by simp [vaultSigner, h]) hk

/-- The environments of both daemons hold the same chain and the same key. -/
abbrev Behind : Net MsgAddCovenantSigs τ × KeyringRetriever → τ × Option PrivateKey → Prop :=
  Both OnLedger InVault

theorem shadows (pk : PublicKey) :
    Shadows Behind (fun req => D.rs.GetsThrough (.sign req)) (D.deployed.emulator pk) D.ideal.cc
      D.ideal.signer.signTransactions where
  pages status req := onFst_coupled (onChain_coupled _)
  delegation hash := onFst_coupled (queryBTCDelegation_blind D.bc hash).forgotten
  params v := onFst_coupled (queryStakingParamsByVersion_blind D.bc v).forgotten
  submits sigs hlen s t hst := by
    have hsmall := D.small
    have hbatch : sigs.length ≤ D.config.sigsBatchSize.toNat := hlen
    refine onFst_ends hst (submitCovenantSigs_onLedger D.bc D.chain D.sends ?_ ?_ hst.fst)
    · omega
    · rw [D.retries]
      exact D.tries.imp_right fun htries => hbatch.trans htries
  signs req hreq s t hst := onSnd_echoes hst (D.signTransactions_echoes hreq hst.snd)

section
variable {D} {pk : PublicKey} {w : World (Net MsgAddCovenantSigs τ × KeyringRetriever)}
  {v : World (τ × Option PrivateKey)}

/-- Nothing that happens takes a request back. -/
theorem stays_of_perform {A : SigningRequest → Prop} (op : Operation τ)
    (v : World (τ × Option PrivateKey))
    (hstays : Stays A (D.ideal.perform (D.ideal.emulator pk) op v).2) : Stays A v := by
  cases op with
  | tick fuel =>
    rw [System.perform, Go.map_state] at hstays
    exact stays_of_tick hstays
  | request req =>
    rw [System.perform, Go.map_state, Go.attempt_state] at hstays
    exact hstays
  | others f => exact hstays

theorem perform_refines {op : Operation τ} (hop : ∀ req, op = .request req → D.rs.GetsThrough req)
    (hwv : Aligned Behind w v)
    (hstays : Stays (fun req => D.rs.GetsThrough (.sign req))
      (D.ideal.perform (D.ideal.emulator pk) op v).2) :
    Relates (D.deployed.perform (D.deployed.emulator pk) op)
      (D.ideal.perform (D.ideal.emulator pk) op) w v
      (fun a w' b v' => a = b ∧ Aligned Behind w' v') (Aligned Behind) := by
  cases op with
  | tick fuel =>
    rw [System.perform, Go.map_state] at hstays
    refine Relates.bind ((D.shadows pk).tick fuel hwv hstays) ?_
    exact fun _ w₁ _ v₁ hwv₁ => .pure ⟨rfl, hwv₁⟩
  | request req =>
    have hreq : Echoes (Aligned Behind) (onEnv (D.deployed.request req))
        (onEnv (D.ideal.request req)) w v :=
      onEnv_echoes hwv (onSnd_echoes hwv.env (D.request_echoes (hop req rfl) hwv.env.snd))
    refine Relates.bind hreq.attempt ?_
    rintro res w₁ res' v₁ ⟨hres, hwv₁⟩
    exact .pure ⟨hres, hwv₁⟩
  | others f =>
    refine Relates.bind (Q := fun _ w' _ v' => Aligned Behind w' v') (.modify ?_) ?_
    · exact ⟨⟨congrArg f hwv.env.fst, hwv.env.snd⟩, hwv.cache, hwv.trace⟩
    · exact fun _ w₁ _ v₁ hwv₁ => .pure ⟨rfl, hwv₁⟩


end

/-- What the operator is told, what becomes of the chain and of the key, and what the emulator keeps
in its cache and signs, is the same in both systems. -/
theorem deployed_refines_ideal (hpub : D.rs.GetsThrough .publicKey) {ops : List (Operation τ)}
    (hops : ∀ req, Operation.request req ∈ ops → D.rs.GetsThrough req)
    (n : Net MsgAddCovenantSigs τ) (k : KeyringRetriever)
    (hsigns : ∀ d req, Event.signing d req ∈ (D.ideal.run ops (n.chain, k.held)).2.trace →
      D.rs.GetsThrough (.sign req)) :
    Echoed (Aligned (Both OnLedger InVault)) (D.deployed.run ops (n, k))
      (D.ideal.run ops (n.chain, k.held)) := by
  have hpubKey : ∀ {w v}, Aligned Behind w v → Echoes Behind D.deployed.signer.pubKey
      D.ideal.signer.pubKey w.env v.env :=
    fun hwv => onSnd_echoes hwv.env (D.pubKey_echoes hpub hwv.env.snd)
  have hstart : Aligned Behind (⟨(n, k), fun _ => none, []⟩ : World _)
      ⟨(n.chain, k.held), fun _ => none, []⟩ := ⟨⟨rfl, rfl⟩, rfl, rfl⟩
  change Stays (fun req => D.rs.GetsThrough (.sign req)) _ at hsigns
  rw [System.run_eq] at hsigns
  rw [System.run_eq, System.run_eq]
  -- the two emulators have different types: what both starts have in common is the public key
  refine Echoes.bind (onEnv_echoes hstart (hpubKey hstart).wrap) fun _ w₁ v₁ hwv₁ hcheck => ?_
  rw [Go.bind_apply, hcheck] at hsigns
  refine Echoes.bind (onEnv_echoes hwv₁ (hpubKey hwv₁).wrap.wrap) fun pk w₂ v₂ hwv₂ hnew => ?_
  dsimp only at hsigns
  rw [Go.bind_apply, hnew] at hsigns
  -- the bound is on the whole ideal run, and nothing takes a request back on the way
  refine Echoes.of_relates (Relates.mapM_inside (G := Stays fun req => D.rs.GetsThrough (.sign req))
    stays_of_perform ?_ hwv₂ hsigns)
  intro op hmem w v hwv hstays
  refine perform_refines ?_ hwv hstays
  rintro req rfl
  exact hops req hmem

end Deployment

namespace Sample

/-- The key of the member 3 of the committee. -/
def memberKey : PrivateKey := ⟨beBytes 32 3⟩

def signetConfig : ValidConfig :=
  { defaultConfig with bitcoinNetwork := "signet", btcNetParams := .signet }

/-- A chain with one delegation, which takes one message of each key for it. -/
def soloController : BabylonController (List MsgAddCovenantSigs) :=
  { babylon with
    bbnClient := { babylon.bbnClient with reliablySendMsgs := recordingChain.send } }

def deployment : Deployment (List MsgAddCovenantSigs) where
  retry := .loop
  config := signetConfig
  bc := soloController
  chain := recordingChain
  rs := vault
  keyring := vaultKeyring
  sends := rfl
  retries := rfl
  tries := .inl rfl
  small := by decide
  pkr := vault_pkr
  undoes := vaultCodec_undoes
  survive := table_signaturesSurvive table

abbrev idealMember : Emulator (List MsgAddCovenantSigs × Option PrivateKey) :=
  deployment.ideal.emulator (lib.pubKey memberKey)

abbrev idealStart : World (List MsgAddCovenantSigs × Option PrivateKey) :=
  ⟨([], some memberKey), fun _ => none, []⟩

def askedWorld : World (List MsgAddCovenantSigs × Option PrivateKey) :=
  { idealStart.cacheParams 0 (params 10000) with
    trace := [.paramsAnswer 0 (.ok (params 10000))] }

theorem accepts_member : idealMember.acceptDelegationToSign plainDelegation idealStart =
    (.ok true, askedWorld) := by
  rfl

theorem passes_member : Passes idealMember plainDelegation askedWorld askedWorld plainRequest
    (signerResponseToCovenantResponse (signatures none)) ([], some memberKey) where
  undelegation := ⟨_, rfl⟩
  request := ⟨params 10000, plainRequest, rfl, checkDelegation_of_checked checked_plain rfl,
    by rw [withStakeExp_plain rfl]; rfl⟩
  signer := rfl

theorem tick_member : idealMember.tick 1 idealStart =
    (.ok (), (askedWorld.signed plainDelegation plainRequest ([], some memberKey)).submitted
      idealMember.cc [idealMember.covenantSigsOf plainRequest
        (signerResponseToCovenantResponse (signatures none))]) := by
  have hconv : delegationRespToDelegation idealMember.lib (plainResponse []) =
      .ok plainDelegation := delegationRespToDelegation_plain
  have hpage : ∀ req, idealMember.cc.btcDelegations .pending req idealStart.env =
      (.ok ⟨[plainResponse []], some ⟨[]⟩⟩, idealStart.env) := fun _ => rfl
  have hlimit : 2 ≤ idealMember.delegationLimit.toNat := by decide
  have hquery := queryPendingDelegations_of_accepted (hpage _) hconv hlimit (by decide)
    accepts_member 0
  exact tick_of_pending hquery (by decide) passes_member trivial

/-- The member signs in a tick, another member sends a message, and the signer is locked. -/
def memberOps : List (Operation (List MsgAddCovenantSigs)) :=
  [.tick 1, .others (· ++ [{ babylon.msgAddCovenantSigs plainEntry with
    pk := serializePubKey (key 4) }]), .request .lock, .request .publicKey]

theorem run_member : ∃ w, deployment.ideal.run memberOps ([], some memberKey) =
      (.ok [none, none, some .done, none], w) ∧
    w.trace = askedWorld.trace ++ [.signing plainDelegation plainRequest] ++
      [.submitting [idealMember.covenantSigsOf plainRequest
        (signerResponseToCovenantResponse (signatures none))]] := by
  have hcheck : ∀ g, onEnv (Go.wrap g deployment.ideal.signer.pubKey) idealStart =
      (.ok (lib.pubKey memberKey), idealStart) := fun _ => rfl
  have hnew : ∀ g g', onEnv (Go.wrap g (Go.wrap g' deployment.ideal.signer.pubKey)) idealStart =
      (.ok (lib.pubKey memberKey), idealStart) := fun _ _ => rfl
  have htick : deployment.ideal.perform idealMember (.tick 1) idealStart = (.ok none, _) :=
    Go.bind_of_ok tick_member
  rw [System.run_eq, Go.bind_of_ok (hcheck _), Go.bind_of_ok (hnew _ _), memberOps,
    List.mapM_cons, Go.bind_of_ok htick]
  exact ⟨_, rfl, rfl⟩

def unlocked : KeyringRetriever := ⟨[memberKey], some 0, by simp⟩

/-- The request of the tick goes over the wire, and the operator gets the answers of the vault. -/
theorem member_refines : ∃ w v,
    deployment.deployed.run memberOps (⟨[], []⟩, unlocked) =
        (.ok [none, none, some .done, none], w) ∧
      deployment.ideal.run memberOps ([], some memberKey) =
        (.ok [none, none, some .done, none], v) ∧
      Aligned (Both OnLedger InVault) w v ∧
      Event.signing plainDelegation plainRequest ∈ w.trace := by
  obtain ⟨v, hrun, htrace⟩ := run_member
  have hheld : unlocked.held = some memberKey := rfl
  have hops : ∀ req, Operation.request req ∈ memberOps → vault.GetsThrough req := by
    simp [memberOps, getsThrough_lock, getsThrough_publicKey]
  have hrefines := deployment.deployed_refines_ideal getsThrough_publicKey hops ⟨[], []⟩ unlocked
  simp only [hheld, hrun, htrace] at hrefines
  specialize hrefines ?_
  · intro d req hmem
    obtain ⟨-, rfl⟩ : d = plainDelegation ∧ req = plainRequest := by
      simpa [askedWorld] using hmem
    exact .sign inRange_vault survives_plain
  generalize hdep : deployment.deployed.run memberOps (⟨[], []⟩, unlocked) = r at hrefines
  cases hrefines with
  | ok hwv => exact ⟨_, v, rfl, hrun, hwv, by rw [hwv.trace, htrace]; simp⟩

end Sample

end CovenantEmulator
