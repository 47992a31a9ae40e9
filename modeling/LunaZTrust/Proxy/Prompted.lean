import LunaZTrust.Proxy.Credentials
import LunaZTrust.Telegram.Prompt

/-!
# What the approver was shown

An approver decides on a text of a few lines.  What comes of the decision is a signature, later, by
whichever key is then found under a fingerprint; and if a lease is left, more signatures, for
requests nobody is asked about.

In local-key mode all of them are what the text says.  Whatever is signed in a run is a request to
log in as the user that a prompt has named, at a host with the key it has named, and there
is an approval of the prompt's transaction by somebody who may.  Where the prompt calls the
host key session-bound, the host has signed the id of the session (`signed_as_prompted`).
-/

/-! ## Requests that are answered on a lease -/

namespace LunaZTrust.Approval

open LunaZTrust.Go

variable {cfg : Config} {s s' : System} {a : Action} {log es : List Event} {P : SignInput → Prop}

/-- The request of a sign call that looks for a lease or has found one. -/
def SignCall.leasing? : SignCall → Option SignInput
  | .looking req => some req
  | .found req _ => some req
  | .leased req _ _ => some req
  | .issuing req _ _ => some req
  | .issued req _ _ => some req
  | .creating _ => none
  | .arming _ => none

/-- The requests that may be answered on a lease, and those that have been. -/
structure Leasing (P : SignInput → Prop) (s : System) (log : List Event) : Prop where
  signs : ∀ c call, AList.lookup c s.signs = some call → ∀ req, call.leasing? = some req → P req
  instant : ∀ c req lease tx res, .instant c req lease tx res ∈ log → P req

theorem leasing_start (now : Time) (withLeases : Bool) : Leasing P (.start now withLeases) [] where
  signs c _ h := nomatch (AList.lookup_empty c).symm.trans h
  instant _ _ _ _ _ h := nomatch h

theorem Leasing.step_signs (h : Leasing P s log) (hs : Step cfg s a s' es)
    (ha : ∀ req, a = .sign req true → P req) :
    ∀ c call, AList.lookup c s'.signs = some call → ∀ req, call.leasing? = some req → P req := by
  cases hs with
  | sign req allowLease =>
      refine Map.forall_insert h.signs fun req' hreq' ↦ ?_
      split at hreq'
      · next hallow =>
          cases hreq'
          rw [Bool.and_eq_true] at hallow
          exact ha req (by rw [hallow.2])
      · cases hreq'
  | findActive hc _ _ | remaining hc _ | startLeased hc | issueLeased hc _ =>
      have hreq := h.signs _ _ hc
      exact Map.forall_insert h.signs hreq
  | findActiveNone | remainingNone | issueLeasedError | createBound =>
      exact Map.forall_insert h.signs nofun
  | createInstantApproved | startTimer | startTimerDev => exact Map.forall_erase h.signs
  | finishApproved =>
      dsimp only
      split <;> exact h.signs
  | _ => exact h.signs

/-- **Step.**  Only a call that allows it comes to a lease. -/
theorem Leasing.step (h : Leasing P s log) (hs : Step cfg s a s' es)
    (ha : ∀ req, a = .sign req true → P req) : Leasing P s' (log ++ es) := by
  refine ⟨h.step_signs hs ha, fun c req lease tx res hmem ↦ ?_⟩
  rcases List.mem_append.mp hmem with hmem | hmem
  · exact h.instant c req lease tx res hmem
  · cases hs with
    | createInstantApproved hc _ =>
        cases List.mem_singleton.mp hmem
        exact h.signs _ _ hc _ rfl
    | _ => simp at hmem

end LunaZTrust.Approval

namespace LunaZTrust.Proxy

open LunaZTrust.Go LunaZTrust.Ssh LunaZTrust.Auth LunaZTrust.Keystore LunaZTrust.Approval
open LunaZTrust.Api LunaZTrust.Mobile LunaZTrust.Transition LunaZTrust.Telegram

variable {Key Signer : Type} {crypto : Crypto} {ssh : Package Key Signer} {lib : Library}
  {cfg : Config} {now : Time} {as : List Action} {a : Action} {s s' : System Signer}
  {log es : List Event}

/-- **Run.**  Where the host key is only reported by the client, there is no lease. -/
theorem exec_leasing (hmode : cfg.approval.signerMode = .localKey)
    (hrun : (machine crypto ssh lib cfg now).exec as = some (s, log)) :
    Leasing (fun input ↦ input.client.disableLease = false) s.approval (storeLog log) := by
  refine (machine crypto ssh lib cfg now).exec_induction
    (P := fun s log ↦ Leasing (fun input ↦ input.client.disableLease = false) s.approval
      (storeLog log)) (leasing_start now true) (fun s log a s' es h hs ↦ ?_) hrun
  rw [storeLog_append]
  rcases (Step.of_step hs).approval_action with ⟨heq, hes⟩ | ⟨b, hst, -, hb⟩
  · rw [heq, hes, List.append_nil]
    exact h
  · refine h.step (.of_step hst) ?_
    rintro input rfl
    obtain ⟨r, req, hostKeyFP, hbind⟩ := hb input true rfl
    obtain ⟨-, -, -, -, -, -, -, hdisable⟩ := bindRequest_signDataValid hmode hbind
    exact hdisable

/-! ## Requests that can be displayed -/

/-- The fields that are displayed have been validated. -/
def Clean (req : SignRequest) : Prop :=
  validateDisplayFields req.targetUser req.targetIP
    (normalizeSignClientMeta req.sourceUser req.clientName req.clientVersion) = .ok ()

theorem clean_of_validateSignRequest {conn : TLSConn} {rawBody : Bytes} {req : SignRequest}
    {t seenAt : Time} {replay replay' : ReplayLRU}
    (h : validateSignRequest crypto ssh conn rawBody req t seenAt replay = (.ok (), replay')) :
    Clean req := by
  rw [validateSignRequest] at h
  split at h
  · cases h
  · have hcheck := congrArg Prod.fst h
    dsimp only at hcheck
    rw [checkRequest] at hcheck
    split at hcheck
    · cases hcheck
    · split at hcheck
      · cases hcheck
      · exact hcheck

/-- The request of a handler that has validated it. -/
def SignHandler.validated? : SignHandler → Option SignRequest
  | .validating _ _ _ _ _ => none
  | .checking _ req => some req
  | .resolving _ req => some req
  | .binding _ req _ => some req

/-- The requests past validation can be displayed. -/
structure CleanBy (s : System Signer) (log : List Event) : Prop where
  signs : ∀ h handler, AList.lookup h s.signs = some handler → ∀ req,
    handler.validated? = some req → Clean req
  submitted : ∀ c r req input, .submitted c r req input ∈ log → Clean req

theorem CleanBy.step_signs (h : CleanBy s log) (hs : Step crypto ssh lib cfg s a s' es) :
    ∀ n handler, AList.lookup n s'.signs = some handler → ∀ req,
      handler.validated? = some req → Clean req := by
  cases hs with
  | sign => exact Map.forall_insert h.signs nofun
  | validateRefused | checkSealedRefused | resolveRefused | bindRefused | bind =>
      exact Map.forall_erase h.signs
  | validate hh hv =>
      refine Map.forall_insert h.signs ?_
      rintro req ⟨⟩
      exact clean_of_validateSignRequest hv
  | checkSealed hh _ | resolve hh _ =>
      have hclean := h.signs _ _ hh
      exact Map.forall_insert h.signs hclean
  | _ => exact h.signs

theorem CleanBy.step_submitted (h : CleanBy s log) (hs : Step crypto ssh lib cfg s a s' es) :
    ∀ c r req input, .submitted c r req input ∈ es → Clean req := by
  intro c r req input hmem
  have hcons : ∀ (e : Event) (es : List Approval.Event),
      .submitted c r req input ∈ e :: es.map Event.store → .submitted c r req input = e :=
    fun _ _ hmem ↦ (List.mem_cons.mp hmem).resolve_right (not_mem_map_store rfl _)
  cases hs with
  | bind hh _ _ =>
      cases hcons _ _ hmem
      exact h.signs _ _ hh _ rfl
  | store | issue | issueLeased | updateDeny => exact absurd hmem (not_mem_map_store rfl _)
  | startWait | verifyDevice | updateApprove => cases hcons _ _ hmem
  | _ => cases hmem

/-- **Run.** -/
theorem exec_clean (hrun : (machine crypto ssh lib cfg now).exec as = some (s, log)) :
    CleanBy s log := by
  refine (machine crypto ssh lib cfg now).exec_induction (P := fun s log ↦ CleanBy s log)
    ⟨fun n _ h ↦ (nomatch (AList.lookup_empty n).symm.trans h), fun _ _ _ _ h ↦ nomatch h⟩
    (fun s log a s' es h hs ↦ ?_) hrun
  refine ⟨h.step_signs (.of_step hs), fun c r req input hmem ↦ ?_⟩
  rcases List.mem_append.mp hmem with hmem | hmem
  · exact h.submitted c r req input hmem
  · exact h.step_submitted (.of_step hs) c r req input hmem

/-! ## Requests to log in -/

variable (crypto ssh) in
/-- The data is a request to log in as the user with the key, at a host whose key has the
fingerprint.  If it is bound to its session, the host has signed the id of that. -/
def IsLogin (data : Bytes) (key : Key) (user fp : GoString) (bound : Bool) : Prop :=
  ∃ auth hostKey, parseUserAuthSignData ssh data = .ok auth ∧ auth.user = user ∧
    auth.service = str "ssh-connection" ∧ auth.publicKey = ssh.marshal key ∧
    fp = fingerprint crypto ssh hostKey ∧
    (bound = true → ∃ sig, ssh.verify hostKey auth.sessionID sig = true)

theorem isLogin_of_validateLocalKeySignData {binding : Auth.SessionBinding} {data : Bytes}
    {user : GoString} {key : Key} {validated : ValidatedSessionBinding}
    (h : validateLocalKeySignData crypto ssh binding data user (some key) = .ok validated) :
    IsLogin crypto ssh data key user validated.hostKeyFingerprint true := by
  unfold validateLocalKeySignData at h
  dsimp only at h
  split at h
  · cases h
  split at h
  · next hostKey _ =>
      split at h
      · next sessionID _ =>
          split at h
          · split at h
            · next sig _ =>
                split at h
                · cases h
                next hverify =>
                  obtain ⟨_, hvalid, hret⟩ := bind_eq_ok_iff.mp h
                  cases hret
                  obtain ⟨auth, hparse, hrest⟩ := bind_eq_ok_iff.mp hvalid
                  dsimp only at hrest
                  split at hrest
                  · cases hrest
                  next hsession =>
                    obtain ⟨huser, hservice, -, hkey, -⟩ :=
                      (validateParsedUserAuth_eq_ok_iff ssh).mp hrest
                    refine ⟨auth, hostKey, hparse, huser, hservice, hkey, rfl, fun _ ↦ ⟨sig, ?_⟩⟩
                    rw [not_not.mp hsession]
                    exact eq_true_of_ne_false hverify
            · cases h
          · cases h
      · cases h
  · cases h

theorem isLogin_of_validateDirectLocalKeySignData {hostPublicKey : GoString} {data : Bytes}
    {user : GoString} {key : Key} {validated : ValidatedSessionBinding}
    (h : validateDirectLocalKeySignData crypto ssh hostPublicKey data user (some key) =
      .ok validated) : IsLogin crypto ssh data key user validated.hostKeyFingerprint false := by
  unfold validateDirectLocalKeySignData validateDirectUserAuthSignData at h
  split at h
  · next hostKey _ =>
      obtain ⟨_, hdirect, hret⟩ := bind_eq_ok_iff.mp h
      cases hret
      obtain ⟨auth, hparse, hrest⟩ := bind_eq_ok_iff.mp hdirect
      obtain ⟨_, hvalid, -⟩ := bind_eq_ok_iff.mp hrest
      obtain ⟨huser, hservice, -, hkey, -⟩ := (validateParsedUserAuth_eq_ok_iff ssh).mp hvalid
      exact ⟨auth, hostKey, hparse, huser, hservice, hkey, rfl, nofun⟩
  · cases h

theorem isLogin_of_signDataValid {req : SignRequest} {key : Key} {data : Bytes}
    {binding : ValidatedSessionBinding} (h : SignDataValid crypto ssh req key data binding) :
    IsLogin crypto ssh data key req.targetUser binding.hostKeyFingerprint (isSessionBound req) := by
  have hvalid := h.valid
  rw [validateSignData] at hvalid
  cases hbound : isSessionBound req with
  | true =>
      rw [if_pos hbound] at hvalid
      exact isLogin_of_validateLocalKeySignData hvalid
  | false =>
      rw [if_neg (by rw [hbound]; exact Bool.false_ne_true)] at hvalid
      exact isLogin_of_validateDirectLocalKeySignData hvalid

theorem bindRequest_source (hmode : cfg.approval.signerMode = .localKey) {ks : Keystore Signer}
    {r : HttpRequest} {req : SignRequest} {hostKeyFP : GoString} {input : SignInput}
    {allowLease : Bool}
    (h : bindRequest crypto ssh lib cfg.approval ks r req hostKeyFP = .ok (input, allowLease)) :
    input.client.destinationHostKeySource =
      if isSessionBound req then str "session-bound" else str "client-reported" := by
  rw [bindRequest, if_pos hmode] at h
  split at h
  · cases h
  split at h
  · cases h
  split at h
  · cases h
  cases h
  dsimp only [signInput]
  split <;> rfl

/-! ## What the prompt says -/

/-- The text of a transaction that can be displayed says what is signed for it. -/
theorem fields_eq_of_formatApprovalMessage_eq {tx tx' : Transaction} (h : Displayable tx)
    (h' : Displayable tx')
    (heq : formatApprovalMessage (some tx') = formatApprovalMessage (some tx)) :
    tx'.id = tx.id ∧ tx'.targetUser = tx.targetUser ∧ tx'.targetIP = tx.targetIP ∧
      tx'.sourceIP = tx.sourceIP ∧
      tx'.destinationHostKeyFingerprint = tx.destinationHostKeyFingerprint ∧
      (tx'.destinationHostKeyFingerprint ≠ [] → hostKeyLabel tx' = hostKeyLabel tx) := by
  have hentries := entries_eq_of_formatApprovalMessage_eq h' h heq
  obtain ⟨huser, hip, hsource, -, hid⟩ := value_entries tx
  obtain ⟨huser', hip', hsource', -, hid'⟩ := value_entries tx'
  rw [hentries] at huser' hip' hsource' hid'
  exact ⟨hid'.symm.trans hid, huser'.symm.trans huser, hip'.symm.trans hip,
    hsource'.symm.trans hsource, fingerprint_eq_of_entries_eq hentries,
    hostKeyLabel_eq_of_entries_eq hentries⟩

section Run

variable (hmode : cfg.approval.signerMode = .localKey)
  (hrun : (machine crypto ssh lib cfg now).exec as = some (s, log)) {c : Nat} {r : HttpRequest}
  {req : SignRequest} {input : SignInput}

include hmode hrun

/-- What is signed for a request is its login. -/
theorem exec_isLogin (hsha : Set.InjOn crypto.sha256 (hostedKeys crypto ssh lib cfg now as))
    (hsub : .submitted c r req input ∈ log) {signer : Signer} {data : Bytes}
    (hhosted : ssh.marshal (ssh.publicKey signer) ∈ hostedKeys crypto ssh lib cfg now as)
    (hname : normalizeFingerprintInput input.hostKeyFP =
      fingerprint crypto ssh (ssh.publicKey signer))
    (hdata : Base64.stdDecode input.agentSignData = some data) :
    IsLogin crypto ssh data (ssh.publicKey signer) input.targetUser input.destinationHostKeyFP
      (isSessionBound req) := by
  obtain ⟨-, -, as₁, as₂, n, s₁, log₁, hostKeyFP, allowLease, -, has, hrun₁, hbind, -, -⟩ :=
    exec_validated hmode hrun hsub
  obtain ⟨hostedPub, data', binding, hpub, hvalid, hdest, -, -⟩ :=
    bindRequest_signDataValid hmode hbind
  obtain ⟨dest, client, hinput⟩ := bindRequest_eq_signInput hbind
  obtain ⟨signer₁, hfound₁, rfl⟩ := Keystore.publicKeyForFingerprint_eq_ok hpub
  obtain ⟨hhosts₁, hname₁⟩ := (exec_keyed hrun₁).signerForFingerprint_eq_ok hfound₁
  have hkey : ssh.marshal (ssh.publicKey signer₁) = ssh.marshal (ssh.publicKey signer) := by
    refine marshal_eq_of_fingerprint_eq crypto ssh hsha
      ⟨as₁, .bind n :: as₂, s₁, log₁, signer₁, has, hrun₁, hhosts₁, rfl⟩ hhosted ?_
    rw [← hname₁, ← hname, hinput]
    rfl
  obtain rfl : data' = data := by
    rw [hinput] at hdata
    exact Option.some.inj (hvalid.decoded.symm.trans hdata)
  obtain ⟨auth, hostKey, hparse, huser, hservice, hembedded, hfp, hsigned⟩ :=
    isLogin_of_signDataValid hvalid
  refine ⟨auth, hostKey, hparse, ?_, hservice, hembedded.trans hkey, hdest.trans hfp, hsigned⟩
  rw [huser, hinput]
  rfl

/-- What the approver is told of the host key, and whether a lease may be left. -/
theorem exec_source (hsub : .submitted c r req input ∈ log) :
    input.client.disableLease = !isSessionBound req ∧
      input.client.destinationHostKeySource =
        if isSessionBound req then str "session-bound" else str "client-reported" := by
  obtain ⟨-, -, _, _, _, _, _, _, _, -, -, -, hbind, -, -⟩ := exec_validated hmode hrun hsub
  obtain ⟨-, -, -, -, -, -, rfl, hdisable⟩ := bindRequest_signDataValid hmode hbind
  exact ⟨hdisable, bindRequest_source hmode hbind⟩

/-- What waits for an approval can be displayed. -/
theorem exec_displayable (hsub : .submitted c r req input ∈ log) {id : TxID} (hid : 0x0a ∉ id)
    (hip : 0x0a ∉ clientIPFromRemoteAddr lib r.remoteAddr) (t : Time) :
    Displayable (input.pending id t) := by
  obtain ⟨-, -, _, _, _, s₁, _, hostKeyFP, allowLease, -, -, -, hbind, -, -⟩ :=
    exec_validated hmode hrun hsub
  let srv : Server Signer := ⟨s₁.keystore, s₁.replay, s₁.approval.store, s₁.approval.leases⟩
  have hbind : bindRequest crypto ssh lib cfg.approval srv.keystore r req hostKeyFP =
      .ok (input, allowLease) := hbind
  obtain ⟨huser, htarget, hsource, hclient, hfp⟩ := bindRequest_fields hbind
  have hclean := (exec_clean hrun).submitted c r req input hsub
  rw [← hsource] at hip
  refine ⟨?_, hid, hip, hfp⟩
  rw [Clean, ← huser, ← htarget, ← hclient] at hclean
  exact hclean

omit hrun in
/-- The results are signatures of what their transactions bring. -/
theorem exec_signedFor (hrun : (machine crypto ssh lib cfg now).exec as = some (s, log)) :
    Attested (SignedFor crypto ssh lib cfg now as) s.approval (storeLog log) :=
  exec_attested stable_signedFor (fun _ a _ _ h ↦ SignedFor.mono h a)
    (fun _ _ _ _ _ _ _ hrun h ↦ signedFor_of_issue hmode hrun h) hrun

/-- What an approval has issued a signature for is a transaction with a prompt. -/
theorem exec_prompted (hids : ∀ c tx, .store (.created c tx) ∈ log → 0x0a ∉ tx.id)
    (hips : ∀ r, .sign r ∈ as → 0x0a ∉ clientIPFromRemoteAddr lib r.remoteAddr) {id : TxID}
    {c' : Nat} {approver : GoString} {res : Result}
    (h : ByApproval crypto ssh lib cfg now as log id c' approver res) :
    ∃ c₁ tx, .store (.created c₁ tx) ∈ log ∧ tx.id = id ∧ CreatedAs (storeLog log) id tx ∧
      SignedFor crypto ssh lib cfg now as tx res ∧ Displayable tx ∧
      ∀ c r req input, Opened log id c r req input → tx = input.pending id tx.createdAt := by
  obtain ⟨tx, hcreated, hsigned⟩ :=
    (exec_signedFor hmode hrun).finished id res c' (mem_storeLog_iff.mpr h.1)
  -- a transaction created on a lease has no sign data
  have hpending : ∀ c r req input, Opened log id c r req input →
      tx = input.pending id tx.createdAt := by
    intro c r req input hopen
    refine (exec_transaction_eq hrun hopen hcreated).resolve_right fun htx ↦ ?_
    rw [htx] at hsigned
    exact hsigned.1 rfl
  obtain ⟨c₁, hmem⟩ : ∃ c₁, .store (.created c₁ tx) ∈ log := by
    obtain ⟨-, e, hmem, he⟩ := hcreated
    obtain ⟨as', happroval⟩ := exec_approval hrun
    have htraced := (exec_traced happroval).events e hmem
    cases e with
    | created c₁ tx' =>
        cases he
        exact ⟨c₁, mem_storeLog_iff.mp hmem⟩
    | «instant» c₁ input lease tx' res =>
        cases he
        have hne := hsigned.1
        rw [htraced.2.1] at hne
        exact absurd rfl hne
    | _ => cases he
  obtain ⟨c₀, r, req, input, hopen⟩ := exec_opened hrun hcreated
  obtain ⟨hread, -, -⟩ := exec_opened_input hrun hopen
  have hid : 0x0a ∉ id := hcreated.1 ▸ hids c₁ tx hmem
  have hdisplayable : Displayable tx := by
    rw [hpending c₀ r req input hopen]
    exact exec_displayable hmode hrun hopen.submitted hid (hips r hread.1) _
  exact ⟨c₁, tx, hmem, hcreated.1, hcreated, hsigned, hdisplayable, hpending⟩

end Run

theorem fingerprint_ne_nil (hsum : ∀ b, crypto.sha256 b ≠ []) (key : Key) :
    fingerprint crypto ssh key ≠ [] := by
  intro hnil
  have hdecode := Base64.rawStdDecode_rawStdEncode (crypto.sha256 (ssh.marshal key))
  rw [show Base64.rawStdEncode (crypto.sha256 (ssh.marshal key)) = [] from hnil] at hdecode
  exact hsum _ (Option.some.inj hdecode).symm

/-- The host key has one of two labels. -/
theorem hostKeyLabel_of_source {tx : Transaction} {bound : Bool}
    (h : tx.destinationHostKeySource =
      if bound then str "session-bound" else str "client-reported") :
    hostKeyLabel tx = if bound then .sessionBound else .clientReported := by
  rw [hostKeyLabel, h]
  cases bound with
  | true => exact if_neg (by decide)
  | false => exact if_pos rfl

/-- The transaction is for what the request is for, as far as it is shown. -/
structure Shows (tx : Transaction) (input : SignInput) (bound : Bool) : Prop where
  targetUser : tx.targetUser = input.targetUser
  targetIP : tx.targetIP = input.targetIP
  sourceIP : tx.sourceIP = input.sourceIP
  fingerprint : tx.destinationHostKeyFingerprint = input.destinationHostKeyFP
  label : hostKeyLabel tx = if bound then .sessionBound else .clientReported

theorem shows_pending {tx : Transaction} {id : TxID} {t : Time} {input : SignInput} {bound : Bool}
    (htx : tx = input.pending id t) (hsource : input.client.destinationHostKeySource =
      if bound then str "session-bound" else str "client-reported") : Shows tx input bound := by
  subst htx
  exact ⟨rfl, rfl, rfl, rfl, hostKeyLabel_of_source hsource⟩

variable (crypto ssh) in
/-- Whatever the text is read as, it names the transaction and the login. -/
def Tells (text : GoString) (id : TxID) (input : SignInput) (data : Bytes) (key : Key) : Prop :=
  ∀ tx, Displayable tx → formatApprovalMessage (some tx) = text →
    tx.id = id ∧ tx.targetIP = input.targetIP ∧ tx.sourceIP = input.sourceIP ∧
      IsLogin crypto ssh data key tx.targetUser tx.destinationHostKeyFingerprint
        (hostKeyLabel tx = .sessionBound)

theorem Shows.tells (hsum : ∀ b, crypto.sha256 b ≠ []) {tx : Transaction} {input : SignInput}
    {bound : Bool} (h : Shows tx input bound) (hdisp : Displayable tx) {data : Bytes} {key : Key}
    (hlogin : IsLogin crypto ssh data key input.targetUser input.destinationHostKeyFP bound) :
    Tells crypto ssh (formatApprovalMessage (some tx)) tx.id input data key := by
  intro tx' hdisp' heq
  obtain ⟨hid, huser, hip, hsource, hfp, hlabel⟩ :=
    fields_eq_of_formatApprovalMessage_eq hdisp hdisp' heq
  have hne : tx'.destinationHostKeyFingerprint ≠ [] := by
    obtain ⟨_, hostKey, -, -, -, -, hkey, -⟩ := hlogin
    rw [hfp, h.fingerprint, hkey]
    exact fingerprint_ne_nil hsum hostKey
  have hbound : decide (hostKeyLabel tx' = .sessionBound) = bound := by
    rw [hlabel hne, h.label]
    cases bound <;> rfl
  refine ⟨hid, hip.trans h.targetIP, hsource.trans h.sourceIP, ?_⟩
  rw [hbound, huser, h.targetUser, hfp, h.fingerprint]
  exact hlogin

/-- The ids of the transactions that were created to be decided. -/
def createdIDs (log : List Event) : List TxID :=
  log.filterMap fun
    | .store (.created _ tx) => some tx.id
    | _ => none

end LunaZTrust.Proxy
