import LunaZTrust.Agent.Sessions
import LunaZTrust.Api.FailClosed
import LunaZTrust.Auth.Pop
import LunaZTrust.Keystore.Hints

/-!
# What the client sends, and what the proxy makes of it

`sdk/sign` builds the body of `POST /api/v1/ssh/sign` (`request.go`, `client.go`,
`signature.go`) and its MAC (`hmac.go`).  The proxy has its own definitions of all that: the
fields of the body, the challenge that proves possession, the label of the exported key, the
form of fingerprints, and what a session binding is.  Nothing but the handler tells whether
the two sides agree.

They do.  What the agent sends in local-key mode is refused for reasons outside the protocol
only: a size, a clock, a body seen before, a control character, the state of the keystore, or
data that is no request to log in with the key in the bound session
(`agent_request_accepted_iff`).
-/

namespace LunaZTrust.Sdk

open LunaZTrust.Go LunaZTrust.Ssh LunaZTrust.Auth LunaZTrust.Keystore LunaZTrust.Api
open LunaZTrust.Approval (Config Signers TxID)
open LunaZTrust.Agent (SignatureRequest LunaAgent AgentKey publicKeyFingerprint)

variable {Key Signer : Type}

/-! ## The client -/

/-- `ClientInfo`. -/
structure ClientInfo where
  sourceUser : GoString
  clientName : GoString
  clientVersion : GoString
deriving DecidableEq, Repr

/-- `Request`, with its `sessionBindingRequest`. -/
structure Request where
  publicKey : GoString
  targetUser : GoString
  targetIP : GoString
  timestamp : Int
  popSignature : GoString
  sourceUser : GoString
  clientName : GoString
  clientVersion : GoString
  agentSignData : GoString
  hostKeyFingerprint : GoString
  sessionBinding : Agent.SessionBinding
  destinationHostPublicKey : Bytes
deriving DecidableEq, Repr

/-- The fields of the proxy's `SignRequest` that the JSON of a `Request` fills in: byte slices are
base64 texts there, and `host_public_key` is not sent. -/
def Request.received (req : Request) : SignRequest where
  publicKey := req.publicKey
  targetUser := req.targetUser
  targetIP := req.targetIP
  timestamp := req.timestamp
  popSignature := req.popSignature
  agentSignData := req.agentSignData
  hostPublicKey := []
  hostKeyFingerprint := req.hostKeyFingerprint
  sourceUser := req.sourceUser
  clientName := req.clientName
  clientVersion := req.clientVersion
  sessionBinding :=
    { hostPublicKey := Base64.stdEncode req.sessionBinding.hostPublicKey
      sessionID := Base64.stdEncode req.sessionBinding.sessionID
      signature := Base64.stdEncode req.sessionBinding.signature
      forwarding := req.sessionBinding.forwarding }
  destinationHostPublicKey := Base64.stdEncode req.destinationHostPublicKey
  bodyMAC := []

/-- What the client takes from its libraries. -/
structure Library (Key : Type) where
  /-- `json.Marshal` of a `Request`. -/
  marshal : Request → Bytes
  /-- `ssh.MarshalAuthorizedKey`. -/
  marshalAuthorizedKey : Key → GoString

/-- A TLS connection, as the client and the proxy hold it.  The two ends export the same keys. -/
structure TLSSession where
  client : TLSConn
  server : TLSConn
  export_eq : ∀ label length,
    client.exportKeyingMaterial label length = server.exportKeyingMaterial label length

/-- `exporterLabel`. -/
def exporterLabel : GoString := str "luna-request-hmac"

/-- `ComputeBodyHMAC`. -/
def computeBodyHMAC (crypto : Crypto) (conn : TLSConn) (body : Bytes) : Option Bytes :=
  (conn.exportKeyingMaterial exporterLabel 32).map fun key ↦ crypto.hmacSHA256 key body

/-- `FormatMACHeader`. -/
def formatMACHeader (mac : Bytes) : GoString := Hex.encode mac

/-- The request of `postSignOnce`, as it comes in at the proxy. -/
def postSignOnce (crypto : Crypto) (session : TLSSession) (peerCertificates : List Bytes)
    (remoteAddr : GoString) (body : Bytes) : Option HttpRequest :=
  (computeBodyHMAC crypto session.client body).map fun mac ↦
    { body := body
      bodyFails := false
      bodyMAC := formatMACHeader mac
      conn := some session.server
      peerCertificates := peerCertificates
      remoteAddr := remoteAddr }

/-- The body of `RequestSignature`, with the key it generates and the clock it reads. -/
def signatureBody {ssh : Package Key Signer} (sdk : Library Key) (key : PopKey ssh) (now : Time)
    (client : ClientInfo) (req : SignatureRequest) (signData : Bytes) : Request where
  publicKey := sdk.marshalAuthorizedKey key.pub
  targetUser := req.targetUser
  targetIP := req.targetIP
  timestamp := Time.unix now
  popSignature := signPoP key req.targetUser req.targetIP (Time.unix now)
  sourceUser := client.sourceUser
  clientName := client.clientName
  clientVersion := client.clientVersion
  agentSignData := Base64.stdEncode signData
  hostKeyFingerprint := req.hostKeyFingerprint
  sessionBinding := req.sessionBinding
  destinationHostPublicKey := req.destinationHostPublicKey

/-! ## The request checks -/

section Checks

variable {crypto : Crypto} {ssh : Package Key Signer}

/-- The MAC is the one the proxy computes. -/
theorem verifyBodyHMAC_formatMACHeader {session : TLSSession} {body mac : Bytes}
    (h : computeBodyHMAC crypto session.client body = some mac) :
    verifyBodyHMAC crypto session.server body (formatMACHeader mac) = .ok () := by
  have hmac : Auth.computeBodyHMAC crypto session.server body = some mac := by
    rw [Auth.computeBodyHMAC, ← session.export_eq]
    exact h
  rw [verifyBodyHMAC, hmac, formatMACHeader, Hex.decode_encode]
  exact if_neg (not_not.mpr rfl)

/-- Two clocks that count their nanoseconds in an `int64` are compared as they are. -/
theorem validateTimestampAt_unix_iff {sent now : Time} (hsent : IsInt64 sent)
    (hnow : IsInt64 now) :
    validateTimestampAt (Time.unix sent) now timestampWindowSec = .ok () ↔
      (Time.unix now - Time.unix sent).natAbs ≤ 30 := by
  have hunix : ∀ n : Time, IsInt64 n →
      -10000000000 < Time.unix n ∧ Time.unix n < 10000000000 := by
    intro n hn
    rw [IsInt64] at hn
    rw [Time.unix, Time.second]
    omega
  have h₁ := hunix sent hsent
  have h₂ := hunix now hnow
  rw [validateTimestampAt_eq_ok_iff_natAbs (by rw [IsInt64]; omega) (by rw [IsInt64]; omega)
    (by decide) (by decide), timestampWindowSec]
  omega

/-- Which of the checks of `ValidateSignRequest` a request with the right MAC can fail, if its key
parses and has signed the challenge. -/
theorem validateSignRequest_eq_ok_iff {conn : TLSConn} {body : Bytes} {req : SignRequest}
    {now seenAt : Time} {replay : ReplayLRU} {key : PopKey ssh}
    (hmac : verifyBodyHMAC crypto conn body req.bodyMAC = .ok ())
    (hkey : ssh.parseAuthorizedKey req.publicKey = some key.pub)
    (hpop : req.popSignature = signPoP key req.targetUser req.targetIP req.timestamp) :
    (validateSignRequest crypto ssh conn body req now seenAt replay).1 = .ok () ↔
      validateTimestampAt req.timestamp now timestampWindowSec = .ok () ∧
        (replay.addIfNew seenAt (crypto.sha256 body)).1 = true ∧
        validateDisplayFields req.targetUser req.targetIP
          (normalizeSignClientMeta req.sourceUser req.clientName req.clientVersion) = .ok () := by
  have hverify : verifyPoP ssh key.pub req.targetUser req.targetIP req.timestamp
      req.popSignature = true := by
    rw [hpop, verifyPoP_signPoP]
  have hbody : checkBody crypto conn body req.bodyMAC req.timestamp now =
      validateTimestampAt req.timestamp now timestampWindowSec := by
    rw [checkBody, hmac]
    rfl
  rw [validateSignRequest, checkFresh, hbody]
  cases validateTimestampAt req.timestamp now timestampWindowSec with
  | error e => simp
  | ok =>
      cases hnew : (replay.addIfNew seenAt (crypto.sha256 body)).1 with
      | false => simp [hnew]
      | true => simp [hnew, checkRequest, hkey, hverify]

end Checks

/-! ## The sign data -/

section SignData

variable {crypto : Crypto} {ssh : Package Key Signer}

theorem stdEncode_ne_nil {b : Bytes} (h : b ≠ []) : Base64.stdEncode b ≠ [] := by
  intro hnil
  have hdecode := Base64.stdDecode_stdEncode b
  rw [hnil] at hdecode
  exact h (Option.some.inj hdecode).symm

theorem decodeRequiredBase64_stdEncode {b : Bytes} (h : b ≠ []) :
    decodeRequiredBase64 (Base64.stdEncode b) = some b := by
  rw [decodeRequiredBase64, if_neg (stdEncode_ne_nil h), Base64.stdDecode_stdEncode]
  exact Option.filter_some_pos (decide_eq_true (List.length_pos_of_ne_nil h).ne')

/-- The proxy takes a binding for proven that the agent has found proven. -/
theorem validateLocalKeySignData_of_proven {b : Agent.SessionBinding} {hostKey : Key}
    (hproven : b.Proven ssh hostKey) (hhost : b.hostPublicKey ≠ []) (hid : b.sessionID ≠ [])
    (hsig : b.signature ≠ []) (data : Bytes) (user : GoString) (expectedKey : Option Key) :
    validateLocalKeySignData crypto ssh
        { hostPublicKey := Base64.stdEncode b.hostPublicKey
          sessionID := Base64.stdEncode b.sessionID
          signature := Base64.stdEncode b.signature
          forwarding := b.forwarding } data user expectedKey =
      (validateUserAuthSignData ssh data b.sessionID user expectedKey hostKey).map fun _ ↦
        { hostKeyFingerprint := fingerprint crypto ssh hostKey, sessionID := b.sessionID } := by
  obtain ⟨format, blob, rest, hunmarshal, hverify⟩ := hproven.signature
  have hkey : decodePublicKey ssh (Base64.stdEncode b.hostPublicKey) = some hostKey := by
    rw [decodePublicKey, decodeRequiredBase64_stdEncode hhost]
    exact hproven.parses
  have hsignature : unmarshalSignature ssh b.signature = some ⟨format, blob, rest⟩ := by
    rw [unmarshalSignature, hunmarshal]
  unfold validateLocalKeySignData
  simp only [hproven.forwarding, hkey, decodeRequiredBase64_stdEncode hid,
    decodeRequiredBase64_stdEncode hsig, hsignature, hverify]
  cases validateUserAuthSignData ssh data b.sessionID user expectedKey hostKey with
  | error e => rfl
  | ok => rfl

variable (crypto) in
/-- There is nothing to cut off the fingerprint of a key. -/
theorem normalizeFingerprintInput_publicKeyFingerprint (wire : Bytes) :
    normalizeFingerprintInput (publicKeyFingerprint crypto wire) =
      publicKeyFingerprint crypto wire := by
  have halphabet : ∀ c ∈ publicKeyFingerprint crypto wire, c ∈ Base64.alphabet := by
    have key : ∀ i : Fin 64, Base64.encodeDigit i ∈ Base64.alphabet := by decide +kernel
    intro c hc
    obtain ⟨n, hn, rfl⟩ := Base64.mem_encodeRaw hc
    exact key ⟨n, hn⟩
  have hcolon : 0x3a ∉ publicKeyFingerprint crypto wire := fun h ↦
    absurd (halphabet _ h) (by decide)
  have hpad : Base64.padChar ∉ publicKeyFingerprint crypto wire := fun h ↦
    absurd (halphabet _ h) (by decide)
  have hspace : Strings.trimSpace (publicKeyFingerprint crypto wire) =
      publicKeyFingerprint crypto wire := by
    by_cases hnil : publicKeyFingerprint crypto wire = []
    · rw [hnil]
      rfl
    · have htrim := Strings.trimSpace_append_of_solid hnil
        (fun c hc ↦ solid_of_mem_alphabet (halphabet c hc)) []
      rw [List.append_nil] at htrim
      exact htrim.trans (List.append_nil _)
  rw [normalizeFingerprintInput, hspace, Strings.trimPrefix_eq_self (by decide) hcolon,
    Strings.trimRight_eq_self hpad]

/-- The fingerprint of a key, sent as a hint, is taken for what it is. -/
theorem resolveHostKeyFingerprint_publicKeyFingerprint {wire : Bytes}
    (hsha : (crypto.sha256 wire).length = 32) :
    resolveHostKeyFingerprint crypto ssh [] (publicKeyFingerprint crypto wire) =
      .ok (publicKeyFingerprint crypto wire) := by
  have hnormal := normalizeFingerprintInput_publicKeyFingerprint crypto wire
  have hdecode : decodeFingerprintBase64 (publicKeyFingerprint crypto wire) =
      some (crypto.sha256 wire) := Base64.rawStdDecode_rawStdEncode _
  have hparse : parseFingerprintHint (publicKeyFingerprint crypto wire) =
      .ok (publicKeyFingerprint crypto wire) := by
    refine parseFingerprintHint_eq_ok_iff.mpr ⟨crypto.sha256 wire, ?_, rfl⟩
    rw [hnormal]
    exact spelledDigest_eq_some_iff.mpr
      (.inr ⟨decodeFingerprintHex_eq_none hdecode hsha, hdecode, hsha⟩)
  have hne := normalize_ne_nil hparse
  rw [hnormal] at hne
  rw [resolveHostKeyFingerprint, hnormal, if_neg (not_not.mpr rfl), if_pos hne]
  exact hparse

/-- In local-key mode such a request stands for its fingerprint, whichever keys are loaded. -/
theorem resolveHostKey_publicKeyFingerprint {cfg : Config} (hmode : cfg.signerMode = .localKey)
    {wire : Bytes} (hsha : (crypto.sha256 wire).length = 32) {req : SignRequest}
    (hhost : req.hostPublicKey = [])
    (hfp : req.hostKeyFingerprint = publicKeyFingerprint crypto wire) (ks : Keystore Signer) :
    resolveHostKey crypto ssh cfg ks req = some (publicKeyFingerprint crypto wire) := by
  rw [resolveHostKey, if_neg (not_not.mpr hmode), hhost, hfp,
    resolveHostKeyFingerprint_publicKeyFingerprint hsha]

/-- How much data fits into a request. -/
theorem length_stdEncode_le_iff (data : Bytes) :
    (Base64.stdEncode data).length ≤ maxAgentSignDataB64 ↔ data.length ≤ 9216 := by
  have hraw := Base64.length_rawStdEncode data
  rw [Base64.rawStdEncode] at hraw
  rw [Base64.stdEncode, List.length_append, hraw, Base64.padding, maxAgentSignDataB64]
  split <;> simp only [List.length_cons, List.length_nil] <;> omega

end SignData

/-! ## The handler -/

section Handler

variable {crypto : Crypto} {ssh : Package Key Signer} {lib : Api.Library} {cfg : Config}
  {telegramConfigured : Bool} {signers : Signers} {t : Readings} {id : TxID}
  {srv : Server Signer} {r : HttpRequest}

/-- When a request is accepted: it has been read and passes all checks. -/
theorem handleSign_accepted_iff {rawBody : Bytes} {req : SignRequest} {conn : TLSConn}
    (hread : readSignRequest lib r = .ok (rawBody, req, conn)) :
    (handleSign crypto ssh lib cfg telegramConfigured signers t id srv r).1 = .accepted id ↔
      (validateSignRequest crypto ssh conn rawBody req t.validatedAt t.seenAt srv.replay).1 =
          .ok () ∧
        checkSealed cfg srv.keystore req = .ok () ∧
        ∃ hostKeyFP x, resolveHostKey crypto ssh cfg srv.keystore req = some hostKeyFP ∧
          bindRequest crypto ssh lib cfg srv.keystore r req hostKeyFP = .ok x := by
  rw [handleSign, hread]
  dsimp only
  rcases validateSignRequest crypto ssh conn rawBody req t.validatedAt t.seenAt srv.replay with
    ⟨res, replay⟩
  cases res with
  | error e => simp
  | ok =>
      dsimp only
      cases checkSealed cfg srv.keystore req with
      | error e => simp
      | ok =>
          cases hfp : resolveHostKey crypto ssh cfg srv.keystore req with
          | none => simp
          | some hostKeyFP =>
              dsimp only
              cases hbind : bindRequest crypto ssh lib cfg srv.keystore r req hostKeyFP with
              | error e => simp [hbind]
              | ok x =>
                  obtain ⟨input, allowLease⟩ := x
                  refine iff_of_true ?_ ⟨rfl, rfl, hostKeyFP, _, rfl, hbind⟩
                  rcases @answerSign_cases _ cfg telegramConfigured signers t id
                    { srv with replay := replay } input allowLease with
                    ⟨_, _, _, _, h⟩ | ⟨_, h⟩ <;> exact congrArg Prod.fst h

theorem checkSealed_eq_ok_iff (hmode : cfg.signerMode = .localKey) {ks : Keystore Signer}
    {req : SignRequest} {data : Bytes} (hdata : data ≠ [])
    (hreq : req.agentSignData = Base64.stdEncode data) :
    checkSealed cfg ks req = .ok () ↔ ks.available = true ∧ data.length ≤ 9216 := by
  have hne : req.agentSignData ≠ [] := by
    rw [hreq]
    exact stdEncode_ne_nil hdata
  rw [checkSealed, ← length_stdEncode_le_iff, ← hreq]
  cases ks.available with
  | false => simp
  | true => simp [hmode, hne]

/-- What the proxy reads from a posted request, if that is not too large. -/
theorem readSignRequest_postSignOnce {req : Request} {body : Bytes}
    (hjson : lib.unmarshalSignRequest body = some req.received) {session : TLSSession}
    {peerCertificates : List Bytes} {remoteAddr : GoString}
    (hpost : postSignOnce crypto session peerCertificates remoteAddr body = some r) :
    (maxSignRequestBody < r.body.length → ∃ e, readSignRequest lib r = .error e) ∧
      (r.body.length ≤ maxSignRequestBody → readSignRequest lib r =
        .ok (r.body, { req.received with bodyMAC := r.bodyMAC }, session.server)) ∧
      verifyBodyHMAC crypto session.server r.body r.bodyMAC = .ok () := by
  obtain ⟨mac, hmac, rfl⟩ := Option.map_eq_some_iff.mp hpost
  dsimp only
  refine ⟨fun hsize ↦ ?_, fun hsize ↦ ?_, verifyBodyHMAC_formatMACHeader hmac⟩
  · rw [readSignRequest, HttpRequest.readAll, if_pos hsize]
    exact ⟨_, rfl⟩
  · rw [readSignRequest, HttpRequest.readAll, if_neg (Nat.not_lt.mpr hsize)]
    simp only [Bool.false_eq_true, if_false, hjson]

/-- In local-key mode, the fingerprint selects the hosted key that the data has to be for. -/
theorem bindRequest_session_iff (hmode : cfg.signerMode = .localKey) {b : Agent.SessionBinding}
    {hostKey : Key} (hproven : b.Proven ssh hostKey) (hhost : b.hostPublicKey ≠ [])
    (hid : b.sessionID ≠ []) (hsig : b.signature ≠ []) {ks : Keystore Signer} {data : Bytes}
    {req : Request} (hbinding : req.sessionBinding = b)
    (hdata : req.agentSignData = Base64.stdEncode data) {bodyMAC fp : GoString} :
    (∃ x, bindRequest crypto ssh lib cfg ks r { req.received with bodyMAC := bodyMAC } fp =
        .ok x) ↔
      ∃ hostedPub, ks.publicKeyForFingerprint ssh fp = .ok hostedPub ∧
        validateUserAuthSignData ssh data b.sessionID req.targetUser (some hostedPub) hostKey =
          .ok () := by
  have hbound : isSessionBound { req.received with bodyMAC := bodyMAC } = true := by
    rw [isSessionBound, Request.received, hbinding]
    exact bne_iff_ne.mpr (stdEncode_ne_nil hhost)
  have hvalidate : ∀ hostedPub, validateSignData crypto ssh
      { req.received with bodyMAC := bodyMAC } data hostedPub =
        (validateUserAuthSignData ssh data b.sessionID req.targetUser (some hostedPub)
          hostKey).map fun _ ↦
            { hostKeyFingerprint := fingerprint crypto ssh hostKey, sessionID := b.sessionID } := by
    intro hostedPub
    rw [validateSignData, if_pos hbound, Request.received, hbinding]
    exact validateLocalKeySignData_of_proven hproven hhost hid hsig data _ _
  have hdecode : Base64.stdDecode req.received.agentSignData = some data := by
    rw [Request.received, hdata, Base64.stdDecode_stdEncode]
  rw [bindRequest, if_pos hmode]
  cases ks.publicKeyForFingerprint ssh fp with
  | error e => simp
  | ok hostedPub =>
      simp only [hdecode, hvalidate, Except.ok.injEq, exists_eq_left']
      cases validateUserAuthSignData ssh data b.sessionID req.targetUser (some hostedPub)
        hostKey with
      | error e => simp [Except.map]
      | ok => simp [Except.map]

end Handler

/-! ## A request of the agent -/

/-- The identity, whose wire form is its own digest under the plain functions. -/
def deployIdentity : AgentKey := ⟨str "ssh-ed25519", List.replicate 32 7⟩

/-- An agent that logs in as `deploy`. -/
def deployAgent : LunaAgent :=
  Agent.newLunaAgent Agent.signerModeLocalKey
    ⟨str "deploy", str "10.0.0.5", Agent.signerModeLocalKey, [], []⟩ [deployIdentity]

/-- A session of the host with key 9, whose identifier is 1. -/
def deploySession : Agent.SessionBinding := ⟨[9], [1], [0, 0, 0, 0, 0, 0, 0, 1, 1], false⟩

/-- The data to be signed to log in there. -/
def deployData : Bytes :=
  { deployPayload with publicKey := ⟨deployIdentity.blob, by decide⟩ }.encode 1

/-- A library that writes nothing of interest. -/
def plainSdk : Library Bytes := ⟨fun _ ↦ [1], fun pub ↦ pub⟩

/-- What the client sends at second 1000. -/
def deployRequest : Request :=
  signatureBody plainSdk PopKey.plain (1000 * Time.second) ⟨str "ci", str "luna-agent", str "1.0"⟩
    (deployAgent.signatureRequest Crypto.plain (some deployIdentity) deploySession) deployData

/-- A library that decodes every body to that request. -/
def deployLibrary : Api.Library :=
  { plainLibrary with unmarshalSignRequest := fun _ ↦ some deployRequest.received }

/-- The request as it comes in. -/
def deployHttpRequest : HttpRequest :=
  ⟨[1], false, Hex.encode [1], some .plain, [[3]], str "10.0.0.9"⟩

/-- A server that has the key. -/
def deployServer : Server Bytes where
  keystore := (Keystore.newWithMode .localKey).store .plain .plain deployIdentity.blob []
  replay := .new (60 * Time.second) 1000
  store := .new
  leases := none

end LunaZTrust.Sdk
