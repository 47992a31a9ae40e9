import LunaZTrust.Proxy.Provenance

/-!
# The key that signs

In local-key mode a request is validated against a hosted key when it comes in, and
signed when it has been approved.  In between keys are loaded and removed, and what
connects the two is a fingerprint.  `signing_key_validated` says that the connection
holds: the signer found in the end has the public key that the signed bytes name.

It rests on `Keystore.Keyed`, which every run keeps, and on SHA-256 having no
collision among the keys that are hosted in the run.
-/

namespace LunaZTrust.Proxy

open LunaZTrust.Go LunaZTrust.Ssh LunaZTrust.Auth LunaZTrust.Keystore LunaZTrust.Approval
open LunaZTrust.Api LunaZTrust.Mobile LunaZTrust.Transition

variable {Key Signer : Type} (crypto : Crypto) (ssh : Package Key Signer) (lib : Library)
  (cfg : Config) (now : Time)

/-! ## Signing steps -/

/-- The call of `issueForTransaction` an action makes: its transaction, the end of the
credential, and the random bytes drawn. -/
def System.issuing? (s : System Signer) : Action → Option (Transaction × Time × Bytes)
  | .issue c rand =>
      match AList.lookup c s.approval.approves with
      | some (.issuing _ tx validUntil _) => some (tx, validUntil, rand)
      | _ => none
  | .issueLeased c rand =>
      match AList.lookup c s.approval.signs with
      | some (.issuing input _ validUntil) => some (input.leased, validUntil, rand)
      | _ => none
  | _ => none

/-- The request that the call is made for: the one that opened the transaction, or the
one that has found the lease. -/
inductive RequestOf (s : System Signer) (log : List Event) :
    Action → HttpRequest → SignRequest → SignInput → Prop
  | approval {c c₀ : Nat} {rand : Bytes} {id : TxID} {tx : Transaction} {validUntil : Time}
      {approver : GoString} {r : HttpRequest} {req : SignRequest} {input : SignInput}
      (call : AList.lookup c s.approval.approves = some (.issuing id tx validUntil approver))
      (opened : Opened log id c₀ r req input) : RequestOf s log (.issue c rand) r req input
  | lease {c : Nat} {rand : Bytes} {lease : Lease.ActiveLease} {validUntil : Time}
      {r : HttpRequest} {req : SignRequest} {input : SignInput}
      (call : AList.lookup c s.approval.signs = some (.issuing input lease validUntil))
      (submitted : .submitted c r req input ∈ log) :
      RequestOf s log (.issueLeased c rand) r req input

/-! ## Validation -/

/-- The request was bound at some point of the run, and its sign data, decoded, had
passed validation against the key that was hosted then. -/
def Validated (as : List Action) (r : HttpRequest) (req : SignRequest) (input : SignInput)
    (data : Bytes) (hostedPub : Key) : Prop :=
  ∃ as₁ as₂ h s₁ log₁ hostKeyFP allowLease binding, as = as₁ ++ .bind h :: as₂ ∧
    (machine crypto ssh lib cfg now).exec as₁ = some (s₁, log₁) ∧
    bindRequest crypto ssh lib cfg.approval s₁.keystore r req hostKeyFP = .ok (input, allowLease) ∧
    s₁.keystore.publicKeyForFingerprint ssh hostKeyFP = .ok hostedPub ∧
    SignDataValid crypto ssh req hostedPub data binding

/-- The wire forms of the public keys that are hosted in the run, at any point. -/
def hostedKeys (as : List Action) : Set Bytes :=
  {b | ∃ as₁ as₂ s₁ log₁ signer, as = as₁ ++ as₂ ∧
    (machine crypto ssh lib cfg now).exec as₁ = some (s₁, log₁) ∧ s₁.keystore.Hosts signer ∧
    ssh.marshal (ssh.publicKey signer) = b}

variable {crypto ssh lib cfg now} {as bs : List Action} {a : Action} {s s' : System Signer}
  {log es : List Event}

theorem Validated.mono {r : HttpRequest} {req : SignRequest} {input : SignInput} {data : Bytes}
    {hostedPub : Key} (h : Validated crypto ssh lib cfg now as r req input data hostedPub) :
    Validated crypto ssh lib cfg now (as ++ bs) r req input data hostedPub := by
  obtain ⟨as₁, as₂, n, s₁, log₁, hostKeyFP, allowLease, binding, rfl, hbound⟩ := h
  exact ⟨as₁, as₂ ++ bs, n, s₁, log₁, hostKeyFP, allowLease, binding,
    by rw [List.append_assoc, List.cons_append], hbound⟩

/-- **Run.**  Every request that comes to the store has been validated. -/
theorem exec_validated (hmode : cfg.approval.signerMode = .localKey)
    (hrun : (machine crypto ssh lib cfg now).exec as = some (s, log)) {c : Nat} {r : HttpRequest}
    {req : SignRequest} {input : SignInput} (hmem : .submitted c r req input ∈ log) :
    ∃ data hostedPub, Validated crypto ssh lib cfg now as r req input data hostedPub := by
  refine (machine crypto ssh lib cfg now).exec_run_induction
    (P := fun as _ log ↦ .submitted c r req input ∈ log →
      ∃ data hostedPub, Validated crypto ssh lib cfg now as r req input data hostedPub)
    (nomatch ·) (fun as a s log s' es hrun h hs hmem ↦ ?_) hrun hmem
  have hcons : ∀ (e : Event) (es : List Approval.Event),
      .submitted c r req input ∈ e :: es.map Event.store → .submitted c r req input = e :=
    fun _ _ hmem ↦ (List.mem_cons.mp hmem).resolve_right (not_mem_map_store rfl _)
  rcases List.mem_append.mp hmem with hmem | hmem
  · obtain ⟨data, hostedPub, hv⟩ := h hmem
    exact ⟨data, hostedPub, hv.mono⟩
  · have hstep : Step crypto ssh lib cfg s a s' es := .of_step hs
    cases hstep with
    | bind hh hb hst =>
        cases hcons _ _ hmem
        obtain ⟨hostedPub, data, binding, hpub, hvalid, -⟩ := bindRequest_signDataValid hmode hb
        exact ⟨data, hostedPub, as, [], _, s, log, _, _, binding, rfl, hrun, hb, hpub, hvalid⟩
    | store | issue | issueLeased | updateDeny => exact absurd hmem (not_mem_map_store rfl _)
    | startWait => exact nomatch hcons _ _ hmem
    | verifyDevice => exact nomatch hcons _ _ hmem
    | updateApprove => exact nomatch hcons _ _ hmem
    | _ => exact nomatch hmem

/-- **Step.**  Loading and removing keys keep the invariant of the pool, and nothing
else changes it. -/
theorem keyed_step (h : s.keystore.Keyed crypto ssh) (hs : Step crypto ssh lib cfg s a s' es) :
    s'.keystore.Keyed crypto ssh := by
  cases hs with
  | loadPEM => exact h.loadPEMBytes _ _ _ _ _ _
  | removeSigner => exact h.removeSigner _
  | _ => exact h

/-- **Run.** -/
theorem exec_keyed (hrun : (machine crypto ssh lib cfg now).exec as = some (s, log)) :
    s.keystore.Keyed crypto ssh :=
  (machine crypto ssh lib cfg now).execFrom_invariant
    (P := fun s ↦ s.keystore.Keyed crypto ssh)
    (fun _ _ _ _ h hs ↦ keyed_step h (.of_step hs)) (Keystore.keyed_newWithMode _) hrun

/-! ## What is signed -/

section Signing

variable (hrun : (machine crypto ssh lib cfg now).exec as = some (s, log)) {tx : Transaction}
  {validUntil : Time} {rand : Bytes} {r : HttpRequest} {req : SignRequest} {input : SignInput}

include hrun

/-- A call of `issueForTransaction` is made for a request. -/
theorem exec_requestOf (hi : s.issuing? a = some (tx, validUntil, rand)) :
    ∃ r req input, RequestOf s log a r req input := by
  obtain ⟨as', happroval⟩ := exec_approval hrun
  unfold System.issuing? at hi
  split at hi
  · split at hi
    · next hc =>
        obtain ⟨tx', hcreated, -⟩ := exec_createdAs_of_issuing happroval hc
        obtain ⟨c₀, r, req, input, hopen⟩ := exec_opened hrun hcreated
        exact ⟨r, req, input, .approval hc hopen⟩
    · exact nomatch hi
  · split at hi
    · next hc =>
        obtain ⟨hasked, -⟩ := (exec_traced happroval).signs _ _ hc
        obtain ⟨r, req, hsub⟩ := exec_submitted hrun hasked
        exact ⟨r, req, _, .lease hc hsub⟩
    · exact nomatch hi
  · exact nomatch hi

/-- The sign data and the fingerprint that are used are those of the request. -/
theorem exec_signData_eq (hi : s.issuing? a = some (tx, validUntil, rand))
    (hreq : RequestOf s log a r req input) (hne : tx.agentSignData ≠ []) :
    (∃ c, .submitted c r req input ∈ log) ∧ tx.agentSignData = input.agentSignData ∧
      tx.hostKeyFingerprint = input.hostKeyFP := by
  obtain ⟨as', happroval⟩ := exec_approval hrun
  cases hreq with
  | approval hc hopen =>
      rw [System.issuing?, hc] at hi
      cases hi
      obtain ⟨tx', hcreated, htx⟩ := exec_createdAs_of_issuing happroval hc
      rw [htx] at hne ⊢
      refine ⟨⟨_, hopen.submitted⟩, ?_⟩
      rcases exec_transaction_eq hrun hopen hcreated with htx' | htx'
      · rw [htx']
        exact ⟨rfl, rfl⟩
      · -- a transaction created on a lease has no sign data
        rw [htx'] at hne
        exact absurd rfl hne
  | lease hc hsub =>
      rw [System.issuing?, hc] at hi
      cases hi
      exact ⟨⟨_, hsub⟩, rfl, rfl⟩

end Signing

/-- **The key that signs is the key that was validated.**  In local-key mode, in every
state a run leads to, every map key of the pool is the fingerprint of the signer under
it.  Whenever `issueForTransaction` returns a result, there is a request it does so for;
and then a signer from the pool has signed exactly the sign data of that request,
decoded, which has passed validation before, and the signer's public key is the one
the data names. -/
theorem signing_key_validated (hmode : cfg.approval.signerMode = .localKey)
    (hrun : (machine crypto ssh lib cfg now).exec as = some (s, log))
    (hsha : Set.InjOn crypto.sha256 (hostedKeys crypto ssh lib cfg now as)) :
    s.keystore.Keyed crypto ssh ∧
    ∀ a tx validUntil rand res, s.issuing? a = some (tx, validUntil, rand) →
      issueForTransaction cfg.approval (s.signers ssh cfg rand) tx validUntil = .ok res →
      (∃ r req input, RequestOf s log a r req input) ∧
      ∀ r req input, RequestOf s log a r req input →
        ∃ data hostedPub signer sig,
          Validated crypto ssh lib cfg now as r req input data hostedPub ∧
          s.keystore.signerForFingerprint tx.hostKeyFingerprint = .ok signer ∧
          ssh.sign signer rand data = some sig ∧ res.signature = Base64.stdEncode sig.blob ∧
          EmbedsKey ssh data (ssh.publicKey signer) := by
  have hkeyed := exec_keyed hrun
  refine ⟨hkeyed, fun a tx validUntil rand res hi hres ↦ ⟨exec_requestOf hrun hi, ?_⟩⟩
  intro r req input hreq
  -- what was signed, by which signer
  rw [issueForTransaction, System.signers, hmode] at hres
  obtain ⟨hne, signAgent, data, blob, hsigner, hdata, hblob, rfl⟩ := issueLocalKey_eq_ok hres
  cases hsigner
  obtain ⟨signer, sig, hfound, hsig, rfl⟩ := Signing.signAgent_eq_ok hblob
  -- what was validated, against which key
  obtain ⟨⟨c, hsub⟩, hsignData, hfp⟩ := exec_signData_eq hrun hi hreq hne
  obtain ⟨data', hostedPub, hvalidated⟩ := exec_validated hmode hrun hsub
  obtain ⟨as₁, as₂, n, s₁, log₁, hostKeyFP, allowLease, binding, has, hrun₁, hbind, hpub, hvalid⟩ :=
    hvalidated
  obtain ⟨dest, client, hinput⟩ := bindRequest_eq_signInput hbind
  obtain ⟨signer₁, hfound₁, rfl⟩ := Keystore.publicKeyForFingerprint_eq_ok hpub
  have hdata' : data = data' := by
    rw [hsignData, hinput] at hdata
    exact Option.some.inj (hdata.symm.trans hvalid.decoded)
  subst hdata'
  -- both signers are under the fingerprint the request has
  obtain ⟨hhosts, hname⟩ := hkeyed.signerForFingerprint_eq_ok hfound
  obtain ⟨hhosts₁, hname₁⟩ := (exec_keyed hrun₁).signerForFingerprint_eq_ok hfound₁
  have hkey : ssh.marshal (ssh.publicKey signer) = ssh.marshal (ssh.publicKey signer₁) := by
    refine marshal_eq_of_fingerprint_eq crypto ssh hsha
      ⟨as, [], s, log, signer, (List.append_nil as).symm, hrun, hhosts, rfl⟩
      ⟨as₁, .bind n :: as₂, s₁, log₁, signer₁, has, hrun₁, hhosts₁, rfl⟩ ?_
    rw [← hname, ← hname₁, hfp, hinput]
    rfl
  obtain ⟨parsed, hparsed, hembedded⟩ := hvalid.embedsKey
  exact ⟨data, ssh.publicKey signer₁, signer, sig,
    ⟨as₁, as₂, n, s₁, log₁, hostKeyFP, allowLease, binding, has, hrun₁, hbind, hpub, hvalid⟩,
    hfound, hsig, rfl, parsed, hparsed, hembedded.trans hkey.symm⟩

/-- The request has been validated and its approval is about to issue; meanwhile the key
has been removed, another one loaded, and the first one loaded again. -/
def reloadedRun : List Action :=
  approvedRun.take 14 ++
    [.removeSigner (fingerprint prefixingCrypto Package.plain [7]),
      .loadPEM [8] [] [] ⟨true, true, true⟩ 0, .loadPEM [7] [] [] ⟨true, true, true⟩ 0]

/-- The approval gets its signature, for the request. -/
theorem signing_key_validated_reloaded :
    ∃ s log tx validUntil rand res, hostedMachine.exec reloadedRun = some (s, log) ∧
      s.issuing? (.issue 2 []) = some (tx, validUntil, rand) ∧
      issueForTransaction hostedConfig.approval (s.signers .plain hostedConfig rand) tx validUntil =
        .ok res ∧
      ∃ r req input, RequestOf s log (.issue 2 []) r req input := by
  have hissued : ((hostedMachine.exec reloadedRun).bind fun p ↦
      (p.1.issuing? (.issue 2 [])).bind fun (tx, validUntil, rand) ↦
        (issueForTransaction hostedConfig.approval (p.1.signers .plain hostedConfig rand) tx
          validUntil).toOption).isSome = true := by decide +kernel
  obtain ⟨_, hissued⟩ := Option.isSome_iff_exists.mp hissued
  obtain ⟨⟨s, log⟩, hrun, hissued⟩ := Option.bind_eq_some_iff.mp hissued
  obtain ⟨⟨tx, validUntil, rand⟩, hi, hissued⟩ := Option.bind_eq_some_iff.mp hissued
  have hsha : Set.InjOn prefixingCrypto.sha256 (hostedKeys prefixingCrypto .plain
      twoRequestsLibrary hostedConfig (1000 * Time.second) reloadedRun) :=
    fun _ _ _ _ h ↦ (List.cons.inj h).2
  dsimp only at hissued
  cases hres : issueForTransaction hostedConfig.approval (s.signers .plain hostedConfig rand) tx
      validUntil with
  | error e =>
      rw [hres] at hissued
      exact nomatch hissued
  | ok res =>
      exact ⟨s, log, tx, validUntil, rand, res, hrun, hi, hres,
        ((signing_key_validated rfl hrun hsha).2 _ tx validUntil rand res hi hres).1⟩

end LunaZTrust.Proxy
