import LunaZTrust.Api.Request
import LunaZTrust.Approval.Store

/-!
# The sign handler

`handleSign` of `proxy/internal/api/sign_handler.go`, and what `handleWait` of the same
file answers.  The checks a request has to
pass are functions of their own, one for each visit to shared state: they are
what concurrent handlers go through one by one.  `handleSign` is the handler as
one function, run with nothing in between.

It returns the answer, the state it leaves, and what it has started on the way:
calls of a signer, and notifications.
-/

namespace LunaZTrust.Api

open LunaZTrust.Go LunaZTrust.Ssh LunaZTrust.Auth LunaZTrust.Keystore LunaZTrust.Approval

variable {Key Signer : Type} (crypto : Crypto) (ssh : Package Key Signer) (lib : Library)

/-- `maxSignRequestBody`. -/
def maxSignRequestBody : Nat := 64 * 1024

/-- `maxAgentSignDataB64`. -/
def maxAgentSignDataB64 : Nat := 12 * 1024

/-! ## The checks -/

/-- Read the body, decode it and take the TLS connection. -/
def readSignRequest (r : HttpRequest) : Except HttpError (Bytes × SignRequest × TLSConn) :=
  match r.readAll maxSignRequestBody with
  | .error .tooLarge => .error (.mk "request body too large" Http.statusRequestEntityTooLarge)
  | .error .failed => .error (.mk "read body" Http.statusBadRequest)
  | .ok rawBody =>
      match lib.unmarshalSignRequest rawBody with
      | none => .error (.mk "invalid json" Http.statusBadRequest)
      | some req =>
          match r.conn with
          | none => .error (.mk "tls connection required" Http.statusUnauthorized)
          | some conn => .ok (rawBody, { req with bodyMAC := r.bodyMAC }, conn)

/-- `writeAuthError`. -/
def writeAuthError (e : AuthError) : HttpError :=
  match e with
  | .replay => .mk AuthError.replay.message Http.statusConflict
  | .invalidHMAC => .mk "unauthorized" Http.statusUnauthorized
  | .invalidPoP => .mk "unauthorized" Http.statusUnauthorized
  | .timestampOutsideWindow => .mk "unauthorized" Http.statusUnauthorized
  | _ => .mk "bad request" Http.statusBadRequest

/-- The keystore must not be sealed, and the sign data must be there if it is needed
and must not be too long. -/
def checkSealed (cfg : Config) (ks : Keystore Signer) (req : SignRequest) : Except HttpError Unit :=
  if !ks.available then .error (.mk "sealed" Http.statusServiceUnavailable)
  else if cfg.signerMode = .localKey ∧ req.agentSignData = [] then
    .error (.mk "agent_sign_data required" Http.statusBadRequest)
  else if maxAgentSignDataB64 < req.agentSignData.length then
    .error (.mk "agent_sign_data too large" Http.statusRequestEntityTooLarge)
  else .ok ()

/-- `server.resolveHostKeyFingerprint`; nothing where it returns an error. -/
def resolveHostKey (cfg : Config) (ks : Keystore Signer) (req : SignRequest) : Option GoString :=
  if cfg.signerMode ≠ .localKey then some []
  else
    match resolveHostKeyFingerprint crypto ssh req.hostPublicKey req.hostKeyFingerprint with
    | .ok fp => some fp
    | .error .ambiguousSigner => (ks.soleFingerprint crypto ssh).toOption
    | .error _ => none

/-- `signClientMeta`. -/
def signClientMeta (req : SignRequest) : ClientMeta :=
  let m := normalizeSignClientMeta req.sourceUser req.clientName req.clientVersion
  { sourceUser := m.sourceUser
    clientName := m.clientName
    clientVersion := m.clientVersion
    destinationHostKeySource := []
    disableLease := false }

/-- Whether the request brings a session binding. -/
def isSessionBound (req : SignRequest) : Bool := req.sessionBinding.hostPublicKey != []

/-- The validation of the sign data against a hosted key: session-bound or direct. -/
def validateSignData (req : SignRequest) (signData : Bytes) (hostedPub : Key) :
    Except BindingError ValidatedSessionBinding :=
  if isSessionBound req then
    validateLocalKeySignData crypto ssh req.sessionBinding signData req.targetUser (some hostedPub)
  else
    validateDirectLocalKeySignData crypto ssh req.destinationHostPublicKey signData req.targetUser
      (some hostedPub)

/-- The arguments for the store, with the outcome of the validation. -/
def signInput (r : HttpRequest) (req : SignRequest) (hostKeyFP destinationHostKeyFP : GoString)
    (client : ClientMeta) : SignInput where
  targetUser := req.targetUser
  targetIP := req.targetIP
  publicKey := req.publicKey
  sourceIP := clientIPFromRemoteAddr lib r.remoteAddr
  clientCertFP := clientCertFPFromRequest crypto r
  agentSignData := req.agentSignData
  hostKeyFP := hostKeyFP
  destinationHostKeyFP := destinationHostKeyFP
  client := client

/-- The local-key branch, and the arguments with which the handler goes on to the
store.  A lease is allowed unless the host key is only reported by the client. -/
def bindRequest (cfg : Config) (ks : Keystore Signer) (r : HttpRequest) (req : SignRequest)
    (hostKeyFP : GoString) : Except HttpError (SignInput × Bool) :=
  if cfg.signerMode = .localKey then
    match ks.publicKeyForFingerprint ssh hostKeyFP with
    | .error _ => .error (.mk "hosted signer unavailable" Http.statusServiceUnavailable)
    | .ok hostedPub =>
        match Base64.stdDecode req.agentSignData with
        | none => .error (.mk "invalid agent_sign_data" Http.statusBadRequest)
        | some signData =>
            match validateSignData crypto ssh req signData hostedPub with
            | .error _ => .error (.mk "invalid session binding" Http.statusUnauthorized)
            | .ok binding =>
                let client :=
                  if isSessionBound req then
                    { signClientMeta req with destinationHostKeySource := str "session-bound" }
                  else
                    { signClientMeta req with
                      destinationHostKeySource := str "client-reported"
                      disableLease := true }
                .ok (signInput crypto lib r req hostKeyFP binding.hostKeyFingerprint client,
                  isSessionBound req)
  else .ok (signInput crypto lib r req hostKeyFP [] (signClientMeta req), true)

/-! ### What the checks ensure -/

section Checks

variable {crypto ssh lib} {cfg : Config} {ks : Keystore Signer} {r : HttpRequest}
  {req : SignRequest} {hostKeyFP : GoString} {input : SignInput} {allowLease : Bool}

/-- The sign data of the request has passed validation against a hosted key. -/
structure SignDataValid (crypto : Crypto) (ssh : Package Key Signer) (req : SignRequest)
    (hostedPub : Key) (signData : Bytes) (binding : ValidatedSessionBinding) : Prop where
  decoded : Base64.stdDecode req.agentSignData = some signData
  valid : validateSignData crypto ssh req signData hostedPub = .ok binding

/-- Valid sign data holds the hosted key. -/
theorem SignDataValid.embedsKey {hostedPub : Key} {signData : Bytes}
    {binding : ValidatedSessionBinding}
    (h : SignDataValid crypto ssh req hostedPub signData binding) :
    EmbedsKey ssh signData hostedPub := by
  have hvalid := h.valid
  rw [validateSignData] at hvalid
  split at hvalid
  · exact embedsKey_of_validateLocalKeySignData hvalid
  · exact embedsKey_of_validateDirectLocalKeySignData hvalid

/-- The arguments the handler goes on with are those of the request, under the host
key fingerprint it was bound with. -/
theorem bindRequest_eq_signInput
    (h : bindRequest crypto ssh lib cfg ks r req hostKeyFP = .ok (input, allowLease)) :
    ∃ destinationHostKeyFP client,
      input = signInput crypto lib r req hostKeyFP destinationHostKeyFP client := by
  rw [bindRequest] at h
  split at h
  · split at h
    · exact nomatch h
    · split at h
      · exact nomatch h
      · split at h
        · exact nomatch h
        · cases h
          exact ⟨_, _, rfl⟩
  · cases h
    exact ⟨_, _, rfl⟩

/-- In local-key mode, the sign data has passed validation against the key the
fingerprint selects, and a lease is allowed only for a session-bound request. -/
theorem bindRequest_signDataValid (hmode : cfg.signerMode = .localKey)
    (h : bindRequest crypto ssh lib cfg ks r req hostKeyFP = .ok (input, allowLease)) :
    ∃ hostedPub signData binding, ks.publicKeyForFingerprint ssh hostKeyFP = .ok hostedPub ∧
      SignDataValid crypto ssh req hostedPub signData binding ∧
      input.destinationHostKeyFP = binding.hostKeyFingerprint ∧
      allowLease = isSessionBound req ∧ input.client.disableLease = !allowLease := by
  rw [bindRequest, if_pos hmode] at h
  split at h
  · exact nomatch h
  · next hostedPub hpub =>
      split at h
      · exact nomatch h
      · next signData hdata =>
          split at h
          · exact nomatch h
          · next binding hbinding =>
              cases h
              refine ⟨hostedPub, signData, binding, hpub, ⟨hdata, hbinding⟩, rfl, rfl, ?_⟩
              cases hbound : isSessionBound req with
              | true => rfl
              | false => rfl

/-- A request that is not refused has found the keystore open. -/
theorem checkSealed_eq_ok (h : checkSealed cfg ks req = .ok ()) : ks.available = true := by
  rw [checkSealed] at h
  split at h
  · exact nomatch h
  · next hopen => rwa [Bool.not_eq_true', Bool.not_eq_false] at hopen

end Checks

/-! ## The handler -/

/-- What the handler shares with the rest of the proxy. -/
structure Server (Signer : Type) where
  keystore : Keystore Signer
  replay : ReplayLRU
  store : Approval.Store
  leases : Option Lease.Store

/-- What the handler starts. -/
inductive Effect
  /-- A call of `issueForTransaction`, and so possibly of a signer. -/
  | issue (tx : Transaction) (validUntil : Time)
  /-- The approval `CreateBound` starts in the dev environment. -/
  | approve (id : TxID) (ttl : Duration) (approver : GoString)
  /-- `telegram.Notify`. -/
  | telegram (tx : Transaction)
  /-- `push.NotifyPending`. -/
  | push (tx : Transaction)
deriving DecidableEq, Repr

/-- The answer of the handler. -/
inductive SignReply
  | error (e : HttpError)
  | accepted (id : TxID)
deriving DecidableEq, Repr

/-- The status of the answer. -/
def SignReply.status : SignReply → Nat
  | .error e => e.status
  | .accepted _ => Http.statusAccepted

theorem SignReply.status_error (e : HttpError) : (error e).status ≠ Http.statusAccepted := by
  have h := e.isError
  rw [status, Http.statusAccepted]
  omega

/-- The instants at which the handler reads the clock. -/
structure Readings where
  validatedAt : Time
  seenAt : Time
  foundAt : Time
  remainingAt : Time
  issuedAt : Time
  createdAt : Time
  armedAt : Time
deriving DecidableEq, Repr

/-- `IssueFromLease`, and what it starts. -/
def issueFromLease (cfg : Config) (leases : Option Lease.Store) (signers : Signers)
    (t : Readings) (input : SignInput) : Option Result × List Effect :=
  match leases.bind fun leases ↦ leases.findActive t.foundAt input.lookup with
  | none => (none, [])
  | some active =>
      let remaining := active.remaining t.remainingAt
      if remaining ≤ 0 then (none, [])
      else
        let validUntil := t.issuedAt + remaining
        match issueForTransaction cfg signers input.leased validUntil with
        | .error _ => (none, [.issue input.leased validUntil])
        | .ok res =>
            (some { res with leaseExpiresAt := active.expiresAt },
              [.issue input.leased validUntil])

/-- The lease behind a result, and until when the signer was asked to sign. -/
theorem issueFromLease_eq {cfg : Config} {leases : Option Lease.Store} {signers : Signers}
    {t : Readings} {input : SignInput} {res : Result} {started : List Effect}
    (h : issueFromLease cfg leases signers t input = (some res, started)) :
    ∃ leases' active res', leases = some leases' ∧
      leases'.findActive t.foundAt input.lookup = some active ∧
      0 < active.remaining t.remainingAt ∧
      issueForTransaction cfg signers input.leased
        (t.issuedAt + active.remaining t.remainingAt) = .ok res' ∧
      res = { res' with leaseExpiresAt := active.expiresAt } ∧
      started = [.issue input.leased (t.issuedAt + active.remaining t.remainingAt)] := by
  rw [issueFromLease] at h
  split at h
  · exact nomatch h
  · next active hactive =>
      obtain ⟨leases', hl, hfind⟩ := Option.bind_eq_some_iff.mp hactive
      dsimp only at h
      split at h
      · exact nomatch h
      · next hremaining =>
          split at h
          · exact nomatch h
          · next res' hissue =>
              cases h
              exact ⟨leases', active, res', hl, hfind, Int.not_le.mp hremaining, hissue, rfl, rfl⟩

/-- `CreateBound`, and what it starts. -/
def createBound (cfg : Config) (store : Approval.Store) (t : Readings) (id : TxID)
    (input : SignInput) : Approval.Store × List Effect :=
  ((store.createBound (input.pending id t.createdAt)).startTimer id (t.armedAt + cfg.timeout),
    if cfg.isDev then [.approve id defaultDevCertTTL []] else [])

/-- The notifications of a pending transaction. -/
def notifyPending (cfg : Config) (telegramConfigured : Bool) (tx : Transaction) : List Effect :=
  if cfg.isDev then []
  else (if telegramConfigured then [.telegram tx] else []) ++ [.push tx]

/-- The handler from `IssueFromLease` on. -/
def answerSign (cfg : Config) (telegramConfigured : Bool) (signers : Signers) (t : Readings)
    (id : TxID) (srv : Server Signer) (input : SignInput) (allowLease : Bool) :
    SignReply × Server Signer × List Effect :=
  let (leased, started) :=
    if !cfg.isDev && allowLease then issueFromLease cfg srv.leases signers t input else (none, [])
  match leased with
  | some res =>
      (.accepted id,
        { srv with store := srv.store.createInstantApproved (input.instant id t.createdAt) res },
        started)
  | none =>
      let (store, approval) := createBound cfg srv.store t id input
      (.accepted id, { srv with store := store },
        started ++ approval ++ notifyPending cfg telegramConfigured (input.pending id t.createdAt))

/-- `handleSign`, with the id `newTxID` draws and what the signers answer. -/
def handleSign (cfg : Config) (telegramConfigured : Bool) (signers : Signers) (t : Readings)
    (id : TxID) (srv : Server Signer) (r : HttpRequest) :
    SignReply × Server Signer × List Effect :=
  match readSignRequest lib r with
  | .error e => (.error e, srv, [])
  | .ok (rawBody, req, conn) =>
      match validateSignRequest crypto ssh conn rawBody req t.validatedAt t.seenAt srv.replay with
      | (.error e, replay) => (.error (writeAuthError e), { srv with replay := replay }, [])
      | (.ok (), replay) =>
          let srv := { srv with replay := replay }
          match checkSealed cfg srv.keystore req with
          | .error e => (.error e, srv, [])
          | .ok () =>
              match resolveHostKey crypto ssh cfg srv.keystore req with
              | none => (.error (.mk "invalid host key" Http.statusBadRequest), srv, [])
              | some hostKeyFP =>
                  match bindRequest crypto ssh lib cfg srv.keystore r req hostKeyFP with
                  | .error e => (.error e, srv, [])
                  | .ok (input, allowLease) =>
                      answerSign cfg telegramConfigured signers t id srv input allowLease

/-! ## The wait handler -/

/-- `waitResponse`, with its instants not yet formatted. -/
structure WaitResponse where
  sshCertificate : GoString
  sshSignature : GoString
  expiresAt : Time
  leaseExpiresAt : Option Time
deriving DecidableEq, Repr

/-- `writeWaitError`. -/
def writeWaitError (e : ApprovalError) : HttpError :=
  match e with
  | .waitClientMismatch => .mk ApprovalError.waitClientMismatch.message Http.statusForbidden
  | .denied => .mk ApprovalError.denied.message Http.statusForbidden
  | .timeout => .mk ApprovalError.timeout.message Http.statusRequestTimeout
  | .notFound => .mk ApprovalError.notFound.message Http.statusNotFound
  | _ => .mk "internal server error" Http.statusInternalServerError

/-- The answer of `handleWait` when `Wait` has returned a result, at the instant it
reads for an expiry that is not set. -/
def waitReply (now : Time) (res : Result) : Except HttpError WaitResponse :=
  match res.err with
  | some e => .error (writeWaitError e)
  | none =>
      .ok
        { sshCertificate := res.cert
          sshSignature := res.signature
          expiresAt := if Time.isZero res.expiresAt then now + 5 * Time.minute else res.expiresAt
          leaseExpiresAt :=
            if Time.isZero res.leaseExpiresAt then none else some res.leaseExpiresAt }

/-- A response carries the credential of a result without an error. -/
theorem waitReply_eq_ok {now : Time} {res : Result} {resp : WaitResponse}
    (h : waitReply now res = .ok resp) :
    res.err = none ∧ resp.sshCertificate = res.cert ∧ resp.sshSignature = res.signature := by
  rw [waitReply] at h
  split at h
  · exact nomatch h
  · next herr =>
      cases h
      exact ⟨herr, rfl, rfl⟩

end LunaZTrust.Api
