import LunaZTrust.Keystore.Fingerprint

/-!
# Session-bound sign data

`proxy/internal/auth/session_binding.go`: before a hosted key signs the bytes an
agent sent, they are read as an SSH public-key user-authentication request and
compared with what the request claims to be for.

Two struct layouts are tried on the bytes.  `goUserAuthSignData` has the message
number as a field of its own.  `userAuthSignData` has it as an `sshtype` tag on
its *second* field, where `ssh.Unmarshal` does not look; that layout therefore
reads a request with no message number in it.
-/

namespace LunaZTrust.Auth

open LunaZTrust.Go LunaZTrust.Ssh LunaZTrust.Keystore

variable {Key Signer : Type} (crypto : Crypto) (ssh : Package Key Signer)

/-- `SessionBinding`: what a client sends to prove the destination host key and
the exchange hash. -/
structure SessionBinding where
  hostPublicKey : GoString
  sessionID : GoString
  signature : GoString
  forwarding : Bool
deriving DecidableEq, Repr

/-- `ValidatedSessionBinding`. -/
structure ValidatedSessionBinding where
  hostKeyFingerprint : GoString
  sessionID : Bytes
deriving DecidableEq, Repr

/-- The ways the sign data can be refused.  Each wraps `ErrInvalidSessionBinding`. -/
inductive BindingError
  | forwarding
  | hostPublicKey
  | sessionID
  | signature
  | destinationHostPublicKey
  | missingSignData
  | userAuthRequest
  | missingSessionID
  | mismatch
  | trailing
  | hostBoundMismatch
  | unsupportedMethod
deriving DecidableEq, Repr

/-- The text of such an error. -/
def BindingError.message (e : BindingError) : String :=
  "invalid SSH session binding: " ++
    match e with
    | .forwarding => "forwarding is not allowed"
    | .hostPublicKey => "host public key"
    | .sessionID => "session id"
    | .signature => "signature"
    | .destinationHostPublicKey => "destination host public key"
    | .missingSignData => "missing sign data"
    | .userAuthRequest => "user-auth request"
    | .missingSessionID => "missing session id"
    | .mismatch => "user-auth request mismatch"
    | .trailing => "trailing user-auth data"
    | .hostBoundMismatch => "host-bound key mismatch"
    | .unsupportedMethod => "unsupported user-auth method"

/-! ## The two layouts -/

/-- `msgUserAuthRequest`. -/
def msgUserAuthRequest : UInt8 := 50

/-- `userAuthSignData`. -/
structure UserAuthSignData where
  sessionID : Bytes
  user : GoString
  service : GoString
  method : GoString
  hasSig : Bool
  algorithm : GoString
  publicKey : Bytes
  rest : Bytes
deriving DecidableEq, Repr

/-- The fields of `userAuthSignData`, with the tag on `User`. -/
def userAuthSignDataFields : List Field :=
  [{ kind := .string }, { kind := .string, sshtype := some 50 }, { kind := .string },
    { kind := .string }, { kind := .bool }, { kind := .string }, { kind := .string },
    { kind := .rest }]

/-- `ssh.Unmarshal` into a `userAuthSignData`. -/
def unmarshalUserAuthSignData (data : Bytes) : Option UserAuthSignData :=
  match ssh.unmarshal userAuthSignDataFields data with
  | some [.bytes sessionID, .bytes user, .bytes service, .bytes method, .bool hasSig,
      .bytes algorithm, .bytes publicKey, .bytes rest] =>
      some { sessionID, user, service, method, hasSig, algorithm, publicKey, rest }
  | _ => none

/-- `goUserAuthSignData`. -/
structure GoUserAuthSignData where
  session : Bytes
  type : UInt8
  user : GoString
  service : GoString
  method : GoString
  sign : Bool
  algo : GoString
  pubKey : Bytes
  rest : Bytes
deriving DecidableEq, Repr

/-- The fields of `goUserAuthSignData`. -/
def goUserAuthSignDataFields : List Field :=
  [{ kind := .string }, { kind := .byte }, { kind := .string }, { kind := .string },
    { kind := .string }, { kind := .bool }, { kind := .string }, { kind := .string },
    { kind := .rest }]

/-- `ssh.Unmarshal` into a `goUserAuthSignData`. -/
def unmarshalGoUserAuthSignData (data : Bytes) : Option GoUserAuthSignData :=
  match ssh.unmarshal goUserAuthSignDataFields data with
  | some [.bytes session, .byte type, .bytes user, .bytes service, .bytes method, .bool sign,
      .bytes algo, .bytes pubKey, .bytes rest] =>
      some { session, type, user, service, method, sign, algo, pubKey, rest }
  | _ => none

/-- Whether the `goUserAuthSignData` layout is taken: it reads the data, finds
the message number and a session id. -/
def readsAsGo (data : Bytes) : Option GoUserAuthSignData :=
  (unmarshalGoUserAuthSignData ssh data).filter fun goReq =>
    goReq.type = msgUserAuthRequest ∧ 0 < goReq.session.length

/-- `parseUserAuthSignData`. -/
def parseUserAuthSignData (data : Bytes) : Except BindingError UserAuthSignData :=
  if data.length = 0 then .error .missingSignData
  else
    match readsAsGo ssh data with
    | some goReq =>
        .ok { sessionID := goReq.session
              user := goReq.user
              service := goReq.service
              method := goReq.method
              hasSig := goReq.sign
              algorithm := goReq.algo
              publicKey := goReq.pubKey
              rest := goReq.rest }
    | none =>
        match unmarshalUserAuthSignData ssh data with
        | none => .error .userAuthRequest
        | some req => if req.sessionID.length = 0 then .error .missingSessionID else .ok req

/-! ## Validation -/

/-- `ssh.Unmarshal` of the host key that follows a host-bound request. -/
def unmarshalHostKey (rest : Bytes) : Option Bytes :=
  match ssh.unmarshal [{ kind := .string }] rest with
  | some [.bytes hostKey] => some hostKey
  | _ => none

/-- `validateParsedUserAuth`.  A `nil` expected key is `none`. -/
def validateParsedUserAuth (req : UserAuthSignData) (targetUser : GoString)
    (expectedKey : Option Key) (boundHostKey : Key) : Except BindingError Unit :=
  match expectedKey with
  | none => .error .mismatch
  | some expectedKey =>
      if req.user ≠ targetUser ∨ req.service ≠ str "ssh-connection" ∨ req.hasSig = false ∨
          req.publicKey ≠ ssh.marshal expectedKey then
        .error .mismatch
      else if req.method = str "publickey" then
        if req.rest.length ≠ 0 then .error .trailing else .ok ()
      else if req.method = str "publickey-hostbound-v00@openssh.com" then
        match unmarshalHostKey ssh req.rest with
        | some hostKey =>
            if hostKey = ssh.marshal boundHostKey then .ok () else .error .hostBoundMismatch
        | none => .error .hostBoundMismatch
      else .error .unsupportedMethod

/-- `validateUserAuthSignData`. -/
def validateUserAuthSignData (data expectedSessionID : Bytes) (targetUser : GoString)
    (expectedKey : Option Key) (boundHostKey : Key) : Except BindingError Unit := do
  let req ← parseUserAuthSignData ssh data
  if req.sessionID ≠ expectedSessionID then throw .mismatch
  validateParsedUserAuth ssh req targetUser expectedKey boundHostKey

/-- `validateDirectUserAuthSignData`. -/
def validateDirectUserAuthSignData (data : Bytes) (targetUser : GoString)
    (expectedKey : Option Key) (hostKey : Key) : Except BindingError Bytes := do
  let req ← parseUserAuthSignData ssh data
  validateParsedUserAuth ssh req targetUser expectedKey hostKey
  return req.sessionID

/-- `decodeRequiredBase64`. -/
def decodeRequiredBase64 (s : GoString) : Option Bytes :=
  if s = [] then none else (Base64.stdDecode s).filter (·.length ≠ 0)

/-- `decodeRequiredBase64`, then `ssh.ParsePublicKey`. -/
def decodePublicKey (s : GoString) : Option Key :=
  (decodeRequiredBase64 s).bind ssh.parsePublicKey

/-- `ssh.Unmarshal` into an `ssh.Signature`. -/
def unmarshalSignature (sigWire : Bytes) : Option Signature :=
  match ssh.unmarshal [{ kind := .string }, { kind := .string }, { kind := .rest }] sigWire with
  | some [.bytes format, .bytes blob, .bytes rest] => some { format, blob, rest }
  | _ => none

/-- `ValidateLocalKeySignData`. -/
def validateLocalKeySignData (binding : SessionBinding) (signData : Bytes) (targetUser : GoString)
    (expectedKey : Option Key) : Except BindingError ValidatedSessionBinding := do
  if binding.forwarding then throw .forwarding
  let some hostKey := decodePublicKey ssh binding.hostPublicKey | throw .hostPublicKey
  let some sessionID := decodeRequiredBase64 binding.sessionID | throw .sessionID
  let some sigWire := decodeRequiredBase64 binding.signature | throw .signature
  let some sig := unmarshalSignature ssh sigWire | throw .signature
  if ssh.verify hostKey sessionID sig = false then throw .signature
  validateUserAuthSignData ssh signData sessionID targetUser expectedKey hostKey
  return { hostKeyFingerprint := fingerprint crypto ssh hostKey, sessionID }

/-- `ValidateDirectLocalKeySignData`. -/
def validateDirectLocalKeySignData (hostPublicKey : GoString) (signData : Bytes)
    (targetUser : GoString) (expectedKey : Option Key) :
    Except BindingError ValidatedSessionBinding := do
  let some hostKey := decodePublicKey ssh hostPublicKey | throw .destinationHostPublicKey
  let sessionID ← validateDirectUserAuthSignData ssh signData targetUser expectedKey hostKey
  return { hostKeyFingerprint := fingerprint crypto ssh hostKey, sessionID }

/-! ### The key in the data -/

/-- The sign data is a user-auth request for the key. -/
def EmbedsKey (data : Bytes) (key : Key) : Prop :=
  ∃ req, parseUserAuthSignData ssh data = .ok req ∧ req.publicKey = ssh.marshal key

section EmbedsKey

variable {crypto ssh} {data : Bytes} {user : GoString} {key hostKey : Key}

theorem publicKey_of_validateParsedUserAuth {req : UserAuthSignData}
    (h : validateParsedUserAuth ssh req user (some key) hostKey = .ok ()) :
    req.publicKey = ssh.marshal key := by
  simp only [validateParsedUserAuth] at h
  split at h
  · cases h
  · next hc =>
      simp only [not_or, not_not] at hc
      exact hc.2.2.2

theorem embedsKey_of_validateUserAuthSignData {sessionID : Bytes}
    (h : validateUserAuthSignData ssh data sessionID user (some key) hostKey = .ok ()) :
    EmbedsKey ssh data key := by
  obtain ⟨req, hparse, h⟩ := bind_eq_ok_iff.mp h
  dsimp only at h
  split at h
  · exact nomatch h
  · exact ⟨req, hparse, publicKey_of_validateParsedUserAuth h⟩

theorem embedsKey_of_validateLocalKeySignData {binding : SessionBinding}
    {validated : ValidatedSessionBinding}
    (h : validateLocalKeySignData crypto ssh binding data user (some key) = .ok validated) :
    EmbedsKey ssh data key := by
  unfold validateLocalKeySignData at h
  dsimp only at h
  split at h
  · exact nomatch h
  · split at h
    · split at h
      · split at h
        · split at h
          · split at h
            · exact nomatch h
            · obtain ⟨_, hvalid, -⟩ := bind_eq_ok_iff.mp h
              exact embedsKey_of_validateUserAuthSignData hvalid
          · exact nomatch h
        · exact nomatch h
      · exact nomatch h
    · exact nomatch h

theorem embedsKey_of_validateDirectLocalKeySignData {hostPublicKey : GoString}
    {validated : ValidatedSessionBinding}
    (h : validateDirectLocalKeySignData crypto ssh hostPublicKey data user (some key) =
      .ok validated) : EmbedsKey ssh data key := by
  unfold validateDirectLocalKeySignData validateDirectUserAuthSignData at h
  split at h
  · obtain ⟨_, hdirect, -⟩ := bind_eq_ok_iff.mp h
    obtain ⟨req, hparse, hrest⟩ := bind_eq_ok_iff.mp hdirect
    obtain ⟨_, hvalid, -⟩ := bind_eq_ok_iff.mp hrest
    exact ⟨req, hparse, publicKey_of_validateParsedUserAuth hvalid⟩
  · exact nomatch h

end EmbedsKey

/-! ### The host key -/

section HostKey

variable {crypto ssh} {data : Bytes} {user : GoString} {expectedKey : Option Key}
  {validated : ValidatedSessionBinding}

/-- The fingerprint of a validated binding is that of a key. -/
theorem fingerprint_of_validateLocalKeySignData {binding : SessionBinding}
    (h : validateLocalKeySignData crypto ssh binding data user expectedKey = .ok validated) :
    ∃ hostKey, validated.hostKeyFingerprint = fingerprint crypto ssh hostKey := by
  unfold validateLocalKeySignData at h
  dsimp only at h
  split at h
  · cases h
  · split at h
    · next hostKey _ =>
        split at h
        · split at h
          · split at h
            · split at h
              · cases h
              · obtain ⟨_, -, hret⟩ := bind_eq_ok_iff.mp h
                cases hret
                exact ⟨hostKey, rfl⟩
            · cases h
          · cases h
        · cases h
    · cases h

theorem fingerprint_of_validateDirectLocalKeySignData {hostPublicKey : GoString}
    (h : validateDirectLocalKeySignData crypto ssh hostPublicKey data user expectedKey =
      .ok validated) :
    ∃ hostKey, validated.hostKeyFingerprint = fingerprint crypto ssh hostKey := by
  unfold validateDirectLocalKeySignData at h
  split at h
  · next hostKey _ =>
      obtain ⟨_, -, hret⟩ := bind_eq_ok_iff.mp h
      cases hret
      exact ⟨hostKey, rfl⟩
  · cases h

end HostKey

end LunaZTrust.Auth
