import LunaZTrust.Approval.Results
import LunaZTrust.Proxy.KeyIntegrity

/-!
# What a credential says

Between a sign request and the answer to the wait for it lie an approval or a lease, and any
number of other requests.  What the client gets in the end is nevertheless about its own
request, in both modes: a certificate for the public key of the request, for the one user it
names and the one address it came from (`certificate_for_request`), or a signature of the data
of the request by the key it asked for (`exec_signature`).
-/

namespace LunaZTrust.Proxy

open LunaZTrust.Go LunaZTrust.Ssh LunaZTrust.Auth LunaZTrust.Keystore LunaZTrust.Approval
open LunaZTrust.Api LunaZTrust.Mobile LunaZTrust.Transition

variable {Key Signer : Type} {crypto : Crypto} {ssh : Package Key Signer} {lib : Library}
  {cfg : Config} {now : Time} {as : List Action} {a : Action} {s s' : System Signer}
  {log es : List Event}

/-! ## Results along a run -/

/-- What a step of the proxy does in the approval system: signers are those of the proxy, and a sign
call is made for a request that has been bound. -/
theorem Step.approval_action (hs : Step crypto ssh lib cfg s a s' es) :
    (s'.approval = s.approval ∧ storeLog es = []) ∨
      ∃ b, Approval.step cfg.approval s.approval b = some (s'.approval, storeLog es) ∧
        (∀ c signers, b = .issue c signers ∨ b = .issueLeased c signers →
          ∃ rand, signers = s.signers ssh cfg rand) ∧
        ∀ input allowLease, b = .sign input allowLease → ∃ r req hostKeyFP,
          bindRequest crypto ssh lib cfg.approval s.keystore r req hostKeyFP =
            .ok (input, allowLease) := by
  have hpre : ∀ (e : Event) (es : List Approval.Event), e.store? = none →
      storeLog (e :: es.map .store) = es := by
    intro e es he
    rw [storeLog, List.filterMap_cons_none he]
    exact storeLog_map_store es
  cases hs with
  | store ha hst =>
      rw [storeLog_map_store]
      refine .inr ⟨_, hst, ?_, ?_⟩
      · rintro c signers (rfl | rfl) <;> cases ha
      · rintro input allowLease rfl
        cases ha
  | issue hst =>
      rw [storeLog_map_store]
      refine .inr ⟨_, hst, ?_, fun _ _ h ↦ by cases h⟩
      rintro c signers (h | h) <;> cases h
      exact ⟨_, rfl⟩
  | issueLeased hst =>
      rw [storeLog_map_store]
      refine .inr ⟨_, hst, ?_, fun _ _ h ↦ by cases h⟩
      rintro c signers (h | h) <;> cases h
      exact ⟨_, rfl⟩
  | bind hh hb hst =>
      rw [hpre _ _ rfl]
      refine .inr ⟨_, hst, ?_, ?_⟩
      · rintro c signers (h | h) <;> cases h
      · rintro input allowLease ⟨⟩
        exact ⟨_, _, _, hb⟩
  | startWait hh hst | verifyDevice hh ha hst | updateApprove hu hst =>
      rw [hpre _ _ rfl]
      refine .inr ⟨_, hst, ?_, fun _ _ h ↦ by cases h⟩
      rintro c signers (h | h) <;> cases h
  | updateDeny hu hst =>
      rw [storeLog_map_store]
      refine .inr ⟨_, hst, ?_, fun _ _ h ↦ by cases h⟩
      rintro c signers (h | h) <;> cases h
  | _ => exact .inl ⟨rfl, rfl⟩

/-- **Run.**  What is so whenever a result is issued, and stays so, is so of all results. -/
theorem exec_attested {Q : List Action → Transaction → Result → Prop} (hQ : ∀ as, Stable (Q as))
    (hmono : ∀ as a tx res, Q as tx res → Q (as ++ [a]) tx res)
    (hissue : ∀ as s log rand tx validUntil res,
      (machine crypto ssh lib cfg now).exec as = some (s, log) →
      issueForTransaction cfg.approval (s.signers ssh cfg rand) tx validUntil = .ok res →
        Q as tx res)
    (hrun : (machine crypto ssh lib cfg now).exec as = some (s, log)) :
    Attested (Q as) s.approval (storeLog log) := by
  refine (machine crypto ssh lib cfg now).exec_run_induction
    (P := fun as s log ↦ Attested (Q as) s.approval (storeLog log)) (attested_start now true)
    (fun as a s log s' es hrun h hs ↦ ?_) hrun
  rw [storeLog_append]
  refine Attested.imp ?_ (hmono as a)
  rcases (Step.of_step hs).approval_action with ⟨heq, hes⟩ | ⟨b, hst, hb, -⟩
  · rw [heq, hes, List.append_nil]
    exact h
  · obtain ⟨as', happroval⟩ := exec_approval hrun
    refine h.step (hQ as) happroval (.of_step hst) fun c signers hissues tx validUntil res hres ↦ ?_
    obtain ⟨rand, rfl⟩ := hb c signers hissues
    exact hissue as s log rand tx validUntil res hrun hres

/-- A result that a wait returns is one for the request that opened the transaction. -/
theorem exec_returned (hrun : (machine crypto ssh lib cfg now).exec as = some (s, log))
    {Q : Transaction → Result → Prop} (hQ : Attested Q s.approval (storeLog log)) {c c₀ : Nat}
    {id : TxID} {res : Result} {r : HttpRequest} {req : SignRequest} {input : SignInput}
    (hret : .store (.returned c id res) ∈ log) (herr : res.err = none)
    (hopen : Opened log id c₀ r req input) :
    Q input.leased res ∨ ∃ t, Q (input.pending id t) res ∨ Q (input.instant id t) res := by
  obtain ⟨as', happroval⟩ := exec_approval hrun
  have htraced := exec_traced happroval
  obtain ⟨-, hdecided⟩ := htraced.events _ (mem_storeLog_iff.mpr hret)
  rcases hdecided with ⟨state, owner, hfin⟩ | ⟨c₁, input₁, lease, tx, hinst, hid⟩
  · obtain ⟨rfl, c', approver, rfl, -⟩ := htraced.events _ hfin herr
    obtain ⟨tx, hcreated, hres⟩ := hQ.finished id res c' hfin
    refine .inr ⟨tx.createdAt, ?_⟩
    rcases exec_transaction_eq hrun hopen hcreated with htx | htx <;> rw [htx] at hres
    · exact .inl hres
    · exact .inr hres
  · obtain ⟨tx₀, hid₀, hcreated | ⟨lease₀, res₀, hcreated⟩⟩ := hopen.created
    · cases exec_created_unique happroval hinst (mem_storeLog_iff.mpr hcreated) rfl rfl
        (hid.trans hid₀.symm)
    · cases exec_created_unique happroval hinst (mem_storeLog_iff.mpr hcreated) rfl rfl
        (hid.trans hid₀.symm)
      exact .inl (hQ.instant _ _ _ _ _ hinst)

/-! ## Requests along a run -/

/-- The request that a handler has read. -/
def SignHandler.signRequest : SignHandler → SignRequest
  | .validating _ _ req _ _ => req
  | .checking _ req => req
  | .resolving _ req => req
  | .binding _ req _ => req

variable (lib) in
/-- The HTTP request came in during the run and was read as the sign request. -/
def ReadAs (as : List Action) (r : HttpRequest) (req : SignRequest) : Prop :=
  .sign r ∈ as ∧ ∃ rawBody conn, readSignRequest lib r = .ok (rawBody, req, conn)

theorem ReadAs.mono {r : HttpRequest} {req : SignRequest} (h : ReadAs lib as r req) :
    ReadAs lib (as ++ [a]) r req :=
  ⟨List.mem_append_left _ h.1, h.2⟩

variable (crypto ssh cfg) in
/-- The request stands for the fingerprint, with some keys loaded. -/
def ResolvesTo (req : SignRequest) (hostKeyFP : GoString) : Prop :=
  ∃ ks : Keystore Signer, resolveHostKey crypto ssh cfg.approval ks req = some hostKeyFP

variable (crypto ssh lib cfg) in
/-- The handlers have read their requests and resolved the keys. -/
structure ReadBy (as : List Action) (s : System Signer) (log : List Event) : Prop where
  signs : ∀ h handler, AList.lookup h s.signs = some handler →
    ReadAs lib as handler.request handler.signRequest ∧
      ∀ r req fp, handler = .binding r req fp → ResolvesTo crypto ssh cfg req fp
  submitted : ∀ c r req input, .submitted c r req input ∈ log →
    ReadAs lib as r req ∧ ResolvesTo crypto ssh cfg req input.hostKeyFP

theorem ReadBy.step_signs (h : ReadBy crypto ssh lib cfg as s log)
    (hs : Step crypto ssh lib cfg s a s' es) :
    ∀ n handler, AList.lookup n s'.signs = some handler →
      ReadAs lib (as ++ [a]) handler.request handler.signRequest ∧
        ∀ r req fp, handler = .binding r req fp → ResolvesTo crypto ssh cfg req fp := by
  have hold : ∀ n handler, AList.lookup n s.signs = some handler →
      ReadAs lib (as ++ [a]) handler.request handler.signRequest ∧
        ∀ r req fp, handler = .binding r req fp → ResolvesTo crypto ssh cfg req fp :=
    fun n handler hh ↦ ⟨(h.signs n handler hh).1.mono, (h.signs n handler hh).2⟩
  cases hs with
  | sign _ hr =>
      have hmem : ∀ a : Action, a ∈ as ++ [a] := fun a ↦
        List.mem_append_right _ List.mem_cons_self
      exact Map.forall_insert hold ⟨⟨hmem _, _, _, hr⟩, nofun⟩
  | validateRefused | checkSealedRefused | resolveRefused | bindRefused | bind =>
      exact Map.forall_erase hold
  | validate hh _ =>
      have hread := (hold _ _ hh).1
      exact Map.forall_insert hold ⟨hread, nofun⟩
  | checkSealed hh _ =>
      have hread := (hold _ _ hh).1
      exact Map.forall_insert hold ⟨hread, nofun⟩
  | resolve hh hr =>
      have hread := (hold _ _ hh).1
      refine Map.forall_insert hold ⟨hread, ?_⟩
      rintro r req fp ⟨⟩
      exact ⟨_, hr⟩
  | _ => exact hold

theorem ReadBy.step_submitted (h : ReadBy crypto ssh lib cfg as s log)
    (hs : Step crypto ssh lib cfg s a s' es) :
    ∀ c r req input, .submitted c r req input ∈ es →
      ReadAs lib as r req ∧ ResolvesTo crypto ssh cfg req input.hostKeyFP := by
  intro c r req input hmem
  have hcons : ∀ (e : Event) (es : List Approval.Event),
      .submitted c r req input ∈ e :: es.map Event.store → .submitted c r req input = e :=
    fun _ _ hmem ↦ (List.mem_cons.mp hmem).resolve_right (not_mem_map_store rfl _)
  cases hs with
  | bind hh hb _ =>
      cases hcons _ _ hmem
      obtain ⟨hread, hresolved⟩ := h.signs _ _ hh
      obtain ⟨dest, client, rfl⟩ := bindRequest_eq_signInput hb
      exact ⟨hread, hresolved _ _ _ rfl⟩
  | store | issue | issueLeased | updateDeny => exact absurd hmem (not_mem_map_store rfl _)
  | startWait | verifyDevice | updateApprove => cases hcons _ _ hmem
  | _ => cases hmem

/-- **Run.** -/
theorem exec_readBy (hrun : (machine crypto ssh lib cfg now).exec as = some (s, log)) :
    ReadBy crypto ssh lib cfg as s log := by
  refine (machine crypto ssh lib cfg now).exec_run_induction
    (P := fun as s log ↦ ReadBy crypto ssh lib cfg as s log)
    ⟨fun n _ h ↦ (nomatch (AList.lookup_empty n).symm.trans h), fun _ _ _ _ h ↦ nomatch h⟩
    (fun as a s log s' es _ h hs ↦ ?_) hrun
  refine ⟨h.step_signs (.of_step hs), fun c r req input hmem ↦ ?_⟩
  obtain ⟨hread, hresolved⟩ : ReadAs lib as r req ∧
      ResolvesTo crypto ssh cfg req input.hostKeyFP := by
    rcases List.mem_append.mp hmem with hmem | hmem
    · exact h.submitted c r req input hmem
    · exact h.step_submitted (.of_step hs) c r req input hmem
  exact ⟨hread.mono, hresolved⟩

/-- What a request that opens a transaction goes to the store with. -/
theorem exec_opened_input (hrun : (machine crypto ssh lib cfg now).exec as = some (s, log))
    {id : TxID} {c : Nat} {r : HttpRequest} {req : SignRequest} {input : SignInput}
    (hopen : Opened log id c r req input) :
    ReadAs lib as r req ∧ ResolvesTo crypto ssh cfg req input.hostKeyFP ∧
      ∃ dest client, input = signInput crypto lib r req input.hostKeyFP dest client := by
  obtain ⟨hread, hresolved⟩ := (exec_readBy hrun).submitted _ _ _ _ hopen.submitted
  obtain ⟨-, hostKeyFP, dest, client, rfl⟩ := (exec_checked hrun).events _ hopen.submitted
  exact ⟨hread, hresolved, dest, client, rfl⟩

/-! ## Certificates -/

variable (crypto ssh lib cfg now) in
/-- The CA key was loaded at some point of the run. -/
def WasCA (as : List Action) (signer : Signer) : Prop :=
  ∃ as₁ as₂ s₁ log₁, as = as₁ ++ as₂ ∧
    (machine crypto ssh lib cfg now).exec as₁ = some (s₁, log₁) ∧
    s₁.keystore.sshSigner = .ok signer

/-- The certificate is for the key of the transaction, for its user and for where it came from. -/
structure CertifiesTx (ssh : Package Key Signer) (tx : Transaction) (cert : Certificate Key) :
    Prop where
  key : ssh.parseAuthorizedKey tx.publicKey = some cert.key
  keyId : cert.keyId = tx.targetUser
  principals : cert.validPrincipals = [tx.targetUser]
  sourceAddress : cert.sourceAddress = if tx.sourceIP ≠ [] then some tx.sourceIP else none

variable (crypto ssh lib cfg now) in
/-- The result holds a certificate for the transaction by a CA key of the run. -/
def Certified (as : List Action) (tx : Transaction) (res : Result) : Prop :=
  ∃ signer rand cert, WasCA crypto ssh lib cfg now as signer ∧
    ssh.signCert signer rand cert = some res.cert ∧ CertifiesTx ssh tx cert ∧
    cert.validBefore = Signing.toUint64 (Time.unix res.expiresAt)

theorem certified_of_issue (hmode : cfg.approval.signerMode = .localCA)
    (hrun : (machine crypto ssh lib cfg now).exec as = some (s, log)) {rand : Bytes}
    {tx : Transaction} {validUntil : Time} {res : Result}
    (h : issueForTransaction cfg.approval (s.signers ssh cfg rand) tx validUntil = .ok res) :
    Certified crypto ssh lib cfg now as tx res := by
  rw [issueForTransaction, System.signers, hmode] at h
  dsimp only [issueLocalCA] at h
  split at h
  · cases h
  · next issued hissued =>
      cases h
      rw [Signing.issueCert] at hissued
      split at hissued
      · cases hissued
      · next signer hsigner =>
          split at hissued
          · cases hissued
          · next pub hpub =>
              dsimp only at hissued
              split at hissued
              · cases hissued
              · split at hissued
                · cases hissued
                · next text hsign =>
                    cases hissued
                    exact ⟨signer, rand, _, ⟨as, [], s, log, (List.append_nil as).symm, hrun,
                      hsigner⟩, hsign, ⟨hpub, rfl, rfl, rfl⟩, rfl⟩

theorem stable_certified (as : List Action) : Stable (Certified crypto ssh lib cfg now as) where
  state _ _ _ h := by
    obtain ⟨signer, rand, cert, hca, hsign, hcert, hbefore⟩ := h
    exact ⟨signer, rand, cert, hca, hsign,
      ⟨hcert.key, hcert.keyId, hcert.principals, hcert.sourceAddress⟩, hbefore⟩
  leaseExpiresAt _ _ _ h := h

theorem Certified.mono {tx : Transaction} {res : Result}
    (h : Certified crypto ssh lib cfg now as tx res) (a : Action) :
    Certified crypto ssh lib cfg now (as ++ [a]) tx res := by
  obtain ⟨signer, rand, cert, ⟨as₁, as₂, s₁, log₁, rfl, hca⟩, h⟩ := h
  exact ⟨signer, rand, cert, ⟨as₁, as₂ ++ [a], s₁, log₁, by rw [List.append_assoc], hca⟩, h⟩

/-- **What a certificate says.**  In every run of the proxy as a CA, the certificate with which a
wait is answered is signed by a key that was loaded as the CA key, and is for the public key of
the request that opened the transaction, for the user it names and no other, and for the
address it came from; it ends when the result does. -/
theorem certificate_for_request (hmode : cfg.approval.signerMode = .localCA)
    (hrun : (machine crypto ssh lib cfg now).exec as = some (s, log)) {c c₀ : Nat} {id : TxID}
    {res : Result} {t : Time} {resp : WaitResponse} {r : HttpRequest} {req : SignRequest}
    {input : SignInput} (hret : .store (.returned c id res) ∈ log)
    (hresp : waitReply t res = .ok resp) (hopen : Opened log id c₀ r req input) :
    ReadAs lib as r req ∧ ∃ signer rand cert, WasCA crypto ssh lib cfg now as signer ∧
      ssh.signCert signer rand cert = some resp.sshCertificate ∧
      ssh.parseAuthorizedKey req.publicKey = some cert.key ∧
      cert.validPrincipals = [req.targetUser] ∧
      cert.sourceAddress =
        (if clientIPFromRemoteAddr lib r.remoteAddr ≠ [] then
          some (clientIPFromRemoteAddr lib r.remoteAddr)
        else none) ∧
      cert.validBefore = Signing.toUint64 (Time.unix res.expiresAt) := by
  obtain ⟨hread, -, dest, client, hinput⟩ := exec_opened_input hrun hopen
  obtain ⟨herr, hcert, -⟩ := waitReply_eq_ok hresp
  have hattested := exec_attested stable_certified (fun as a tx res h ↦ Certified.mono h a)
    (fun as s log rand tx validUntil res hrun h ↦ certified_of_issue hmode hrun h) hrun
  -- the three transactions differ in nothing that a certificate says
  obtain ⟨signer, rand, cert, hca, hsign, hkey, hprincipals, haddr, hbefore⟩ :
      ∃ signer rand cert, WasCA crypto ssh lib cfg now as signer ∧
        ssh.signCert signer rand cert = some res.cert ∧
        ssh.parseAuthorizedKey input.publicKey = some cert.key ∧
        cert.validPrincipals = [input.targetUser] ∧
        cert.sourceAddress = (if input.sourceIP ≠ [] then some input.sourceIP else none) ∧
        cert.validBefore = Signing.toUint64 (Time.unix res.expiresAt) := by
    rcases exec_returned hrun hattested hret herr hopen with h | ⟨_, h | h⟩ <;>
    · obtain ⟨signer, rand, cert, hca, hsign, hcertifies, hbefore⟩ := h
      exact ⟨signer, rand, cert, hca, hsign, hcertifies.key, hcertifies.principals,
        hcertifies.sourceAddress, hbefore⟩
  rw [hinput] at hkey hprincipals haddr
  exact ⟨hread, signer, rand, cert, hca, hcert ▸ hsign, hkey, hprincipals, haddr, hbefore⟩

/-- A proxy that issues certificates, with a chat in which the user `1` decides. -/
def caConfig : Config := { hostedConfig with approval := plainConfig }

/-- What its client gets: the certificate of the plain package is the key. -/
def caResult : Result :=
  { cert := [7], expiresAt := 1300 * Time.second, leaseExpiresAt := 1300 * Time.second }

theorem certificate_for_request_approved :
    ∃ s log, (machine prefixingCrypto Package.plain twoRequestsLibrary caConfig
        (1000 * Time.second)).exec approvedRun = some (s, log) ∧
      .store (.returned 1 deployTx caResult) ∈ log ∧
      ∃ r req rand cert signer, ReadAs twoRequestsLibrary approvedRun r req ∧
        Package.plain.signCert signer rand cert = some [7] ∧
        cert.validPrincipals = [req.targetUser] := by
  have hreturned : ((machine prefixingCrypto Package.plain twoRequestsLibrary caConfig
      (1000 * Time.second)).exec approvedRun).map
        (fun p ↦ decide (.returned 1 deployTx caResult ∈ storeLog p.2)) = some true := by
    decide +kernel
  obtain ⟨⟨s, log⟩, hrun, hmem⟩ := Option.map_eq_some_iff.mp hreturned
  have hret := of_decide_eq_true hmem
  obtain ⟨as', happroval⟩ := exec_approval hrun
  obtain ⟨⟨slot, hreg⟩, -⟩ := (exec_traced happroval).events _ hret
  obtain ⟨-, tx, -, hcreated, -⟩ := (exec_checked hrun).events _ (mem_storeLog_iff.mp hreg)
  obtain ⟨c, r, req, input, hopen⟩ := exec_opened hrun hcreated
  obtain ⟨hread, signer, rand, cert, -, hsign, -, hprincipals, -⟩ :=
    certificate_for_request rfl hrun (mem_storeLog_iff.mp hret) (t := 0) rfl hopen
  exact ⟨s, log, hrun, mem_storeLog_iff.mp hret, r, req, rand, cert, signer, hread, hsign,
    hprincipals⟩

/-! ## Signatures -/

variable (crypto ssh lib cfg now) in
/-- The result holds a signature of the transaction's data by a hosted key of the run that has
the transaction's fingerprint. -/
def SignedFor (as : List Action) (tx : Transaction) (res : Result) : Prop :=
  tx.agentSignData ≠ [] ∧ ∃ signer rand data sig,
    ssh.marshal (ssh.publicKey signer) ∈ hostedKeys crypto ssh lib cfg now as ∧
    normalizeFingerprintInput tx.hostKeyFingerprint =
      fingerprint crypto ssh (ssh.publicKey signer) ∧
    Base64.stdDecode tx.agentSignData = some data ∧ ssh.sign signer rand data = some sig ∧
    res.signature = Base64.stdEncode sig.blob

theorem signedFor_of_issue (hmode : cfg.approval.signerMode = .localKey)
    (hrun : (machine crypto ssh lib cfg now).exec as = some (s, log)) {rand : Bytes}
    {tx : Transaction} {validUntil : Time} {res : Result}
    (h : issueForTransaction cfg.approval (s.signers ssh cfg rand) tx validUntil = .ok res) :
    SignedFor crypto ssh lib cfg now as tx res := by
  rw [issueForTransaction, System.signers, hmode] at h
  obtain ⟨hne, signAgent, data, blob, hsigner, hdata, hblob, rfl⟩ := issueLocalKey_eq_ok h
  cases hsigner
  obtain ⟨signer, sig, hfound, hsig, rfl⟩ := Signing.signAgent_eq_ok hblob
  obtain ⟨hhosts, hname⟩ := (exec_keyed hrun).signerForFingerprint_eq_ok hfound
  exact ⟨hne, signer, rand, data, sig,
    ⟨as, [], s, log, signer, (List.append_nil as).symm, hrun, hhosts, rfl⟩, hname, hdata, hsig, rfl⟩

theorem stable_signedFor (as : List Action) : Stable (SignedFor crypto ssh lib cfg now as) where
  state _ _ _ h := h
  leaseExpiresAt _ _ _ h := h

theorem SignedFor.mono {tx : Transaction} {res : Result}
    (h : SignedFor crypto ssh lib cfg now as tx res) (a : Action) :
    SignedFor crypto ssh lib cfg now (as ++ [a]) tx res := by
  obtain ⟨hne, signer, rand, data, sig, ⟨as₁, as₂, s₁, log₁, signer', rfl, hhosted⟩, h⟩ := h
  exact ⟨hne, signer, rand, data, sig,
    ⟨as₁, as₂ ++ [a], s₁, log₁, signer', by rw [List.append_assoc], hhosted⟩, h⟩

/-- In local-key mode a wait is answered with a signature of the request's data by a key of the
fingerprint that the request stands for. -/
theorem exec_signature (hmode : cfg.approval.signerMode = .localKey)
    (hrun : (machine crypto ssh lib cfg now).exec as = some (s, log)) {c c₀ : Nat} {id : TxID}
    {res : Result} {r : HttpRequest} {req : SignRequest} {input : SignInput}
    (hret : .store (.returned c id res) ∈ log) (herr : res.err = none)
    (hopen : Opened log id c₀ r req input) :
    ∃ signer rand data sig,
      ssh.marshal (ssh.publicKey signer) ∈ hostedKeys crypto ssh lib cfg now as ∧
      normalizeFingerprintInput input.hostKeyFP = fingerprint crypto ssh (ssh.publicKey signer) ∧
      Base64.stdDecode req.agentSignData = some data ∧ ssh.sign signer rand data = some sig ∧
      res.signature = Base64.stdEncode sig.blob := by
  obtain ⟨-, -, dest, client, hinput⟩ := exec_opened_input hrun hopen
  have hdata : input.agentSignData = req.agentSignData := by
    rw [hinput]
    rfl
  have hattested := exec_attested stable_signedFor (fun as a tx res h ↦ SignedFor.mono h a)
    (fun as s log rand tx validUntil res hrun h ↦ signedFor_of_issue hmode hrun h) hrun
  rw [← hdata]
  rcases exec_returned hrun hattested hret herr hopen with ⟨-, h⟩ | ⟨_, ⟨-, h⟩ | ⟨hne, -⟩⟩
  · exact h
  · exact h
  -- a transaction created on a lease has no sign data
  · exact absurd rfl hne

end LunaZTrust.Proxy
