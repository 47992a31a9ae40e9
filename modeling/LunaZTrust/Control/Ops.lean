import LunaZTrust.Cli.Csr
import LunaZTrust.Cli.RateLimit
import LunaZTrust.Keystore.Pending
import LunaZTrust.Mobile.Store

/-!
# The operations of the control socket

`proxy/internal/control/ops.go`: what an operator can ask a running proxy on its Unix
socket.  Each connection carries one request, and each has a goroutine of its own.

`handleKeyConfirm` goes through two stores in three steps, and other requests may come
between them; the steps are functions of their own here (`confirmGet`,
`confirmLoad`, `confirmDelete`).
-/

namespace LunaZTrust.Control

open LunaZTrust.Go LunaZTrust.Ssh LunaZTrust.Keystore LunaZTrust.Cli LunaZTrust.Config

/-! ## Requests and responses -/

/-- `Request`. -/
structure Request where
  op : GoString
  id : GoString
  data : Bytes
deriving DecidableEq, Repr

/-- `Response`. -/
structure Response where
  ok : Bool
  id : GoString
  data : Bytes := []
  error : GoString := []
  code : GoString := []
deriving DecidableEq, Repr

/-- `ok`. -/
def ok (id : GoString) (data : Bytes) : Response where
  ok := true
  id := id
  data := data

/-- `fail`. -/
def fail (id : GoString) (msg code : String) : Response where
  ok := false
  id := id
  error := str msg
  code := str code

/-- The operations. -/
inductive Op
  | status
  | keyLoad
  | keyList
  | keyRemove
  | keyConfirm
  | keyReject
  | keyPendingList
  | mobileEnroll
  | mobileList
  | mobileDelete
  | cliEnroll
  | cliList
  | cliDelete
deriving DecidableEq, Repr

/-- The names of the operations. -/
def Op.name : Op → String
  | .status => "status"
  | .keyLoad => "key.load"
  | .keyList => "key.list"
  | .keyRemove => "key.remove"
  | .keyConfirm => "key.confirm"
  | .keyReject => "key.reject"
  | .keyPendingList => "key.pending.list"
  | .mobileEnroll => "mobile.enroll"
  | .mobileList => "mobile.list"
  | .mobileDelete => "mobile.delete"
  | .cliEnroll => "cli.enroll"
  | .cliList => "cli.list"
  | .cliDelete => "cli.delete"

/-- All operations. -/
def Op.all : List Op :=
  [.status, .keyLoad, .keyList, .keyRemove, .keyConfirm, .keyReject, .keyPendingList,
    .mobileEnroll, .mobileList, .mobileDelete, .cliEnroll, .cliList, .cliDelete]

/-- The operation a request names, if there is one of that name. -/
def Request.op? (req : Request) : Option Op := Op.all.find? fun op ↦ str op.name == req.op

/-! ## Data in JSON -/

/-- `keyLoadData`. -/
structure KeyLoadData where
  path : GoString
  passphrase : GoString
  comment : GoString

/-- `keyConfirmData`. -/
structure KeyConfirmData where
  pendingID : GoString
  passphrase : GoString

/-- `mobileEnrollData`. -/
structure MobileEnrollData where
  label : GoString
  devicePubKey : GoString
  certFingerprint : GoString

/-- `cliEnrollData`. -/
structure CliEnrollData where
  label : GoString
  csrPEM : GoString

/-- `SignerInfo`. -/
structure SignerInfo where
  fingerprint : GoString
  publicKey : GoString
  comment : GoString
deriving DecidableEq, Repr

/-- An item of `pendingListData`. -/
structure PendingItem where
  id : GoString
  deviceID : GoString
  label : GoString
  comment : GoString
  expiresAt : GoString
deriving DecidableEq, Repr

/-- An item of `cliListData`. -/
structure DeviceJSON where
  deviceID : GoString
  label : GoString
  certFingerprint : GoString
  enrolledAt : GoString
deriving DecidableEq, Repr

/-- What the operations marshal as the data of a response. -/
inductive Payload
  | status (isSealed : Bool) (signerMode : GoString) (loaded : List SignerInfo) (pending : Nat)
  | fingerprint (fp : GoString)
  | signers (signers : List SignerInfo)
  | pending (items : List PendingItem)
  | deviceID (id : GoString)
  | devices (devices : List Mobile.Device)
  | enrolled (deviceID certificatePEM : GoString)
  | cliDevices (devices : List DeviceJSON)
deriving DecidableEq, Repr

/-- The functions of Go's libraries the operations call, apart from those the stores call. -/
structure Library (Key : Type) where
  /-- `json.Unmarshal` into a `keyLoadData`. -/
  unmarshalKeyLoad : Bytes → Option KeyLoadData
  /-- `json.Unmarshal` into a `keyRemoveData`: the fingerprint. -/
  unmarshalKeyRemove : Bytes → Option GoString
  /-- `json.Unmarshal` into a `keyConfirmData`. -/
  unmarshalKeyConfirm : Bytes → Option KeyConfirmData
  /-- `json.Unmarshal` into a `keyRejectData`: the pending id. -/
  unmarshalKeyReject : Bytes → Option GoString
  /-- `json.Unmarshal` into a `mobileEnrollData`. -/
  unmarshalMobileEnroll : Bytes → Option MobileEnrollData
  /-- `json.Unmarshal` into a `mobileDeleteData`: the device id. -/
  unmarshalMobileDelete : Bytes → Option GoString
  /-- `json.Unmarshal` into a `cliEnrollData`. -/
  unmarshalCliEnroll : Bytes → Option CliEnrollData
  /-- `json.Unmarshal` into a `cliDeleteData`: the device id. -/
  unmarshalCliDelete : Bytes → Option GoString
  /-- `json.Marshal` of the data of a response. -/
  marshal : Payload → Bytes
  /-- `ssh.MarshalAuthorizedKey`. -/
  marshalAuthorizedKey : Key → GoString
  /-- An instant in UTC, to the second, as RFC 3339 writes it. -/
  formatTime : Time → GoString

/-! ## The server -/

/-- `SignerModeLocalKey`. -/
def signerModeLocalKey : GoString := str "local-key"

/-- `ServerDeps`: the configuration and the stores the operations share with the rest of
the proxy. -/
structure ServerDeps (Signer PrivateKey : Type) where
  config : Config
  keystore : Keystore Signer
  mobile : Mobile.Store
  pending : PendingStore
  cli : Cli.Store
  csrSigner : Option (CSRSigner PrivateKey)
  loadLimiter : Option LoadRateLimiter

/-- What an operation reads from outside the stores: the clock, for the registry or queue it
goes to, for the lock of the keystore, and when a failed unsealing is recorded; whether
memory could be locked; the contents of the file it names, if it can be read; and what
it draws. -/
structure Env where
  now : Time
  loadAt : Time
  failedAt : Time
  mlock : Keystore.Mlock
  file : Option Bytes
  id : GoString
  draw : Draw

/-- The libraries below the server. -/
structure Platform (Key Signer PublicKey PrivateKey : Type) where
  crypto : Crypto
  ssh : Package Key Signer
  x509 : X509 PublicKey PrivateKey
  lib : Library Key

variable {Key Signer PublicKey PrivateKey : Type} (pf : Platform Key Signer PublicKey PrivateKey)

/-- `ListSigners`. -/
def listSigners (k : Keystore Signer) : List SignerInfo :=
  match k.mode with
  | .localKey =>
      (k.pool.map fun pool ↦ pool.entries.map fun e ↦
        (⟨e.1, pf.lib.marshalAuthorizedKey (pf.ssh.publicKey e.2.signer), e.2.comment⟩ :
          SignerInfo)).getD []
  | .localCA =>
      (k.caSigner.map fun signer ↦
        (⟨fingerprint pf.crypto pf.ssh (pf.ssh.publicKey signer),
          pf.lib.marshalAuthorizedKey (pf.ssh.publicKey signer), str "ca"⟩ : SignerInfo)).toList

namespace ServerDeps

variable (s : ServerDeps Signer PrivateKey)

/-- `statusData`. -/
def statusData (now : Time) : Payload × ServerDeps Signer PrivateKey :=
  let (count, pending) := s.pending.count now
  (.status (!s.keystore.available) s.config.signerMode (listSigners pf s.keystore) count,
    { s with pending := pending })

/-- `handleKeyLoad`, with `LoadPEMFile`. -/
def handleKeyLoad (req : Request) (env : Env) : Response × ServerDeps Signer PrivateKey :=
  match pf.lib.unmarshalKeyLoad req.data with
  | none => (fail req.id "invalid json" "BAD_REQUEST", s)
  | some inp =>
      if inp.path = [] ∨ inp.passphrase = [] then
        (fail req.id "path and passphrase required" "BAD_REQUEST", s)
      else
        match env.file with
        | none => (fail req.id "load failed" "FORBIDDEN", s)
        | some pem =>
            match s.keystore.loadPEMBytes pf.crypto pf.ssh pem inp.passphrase inp.comment env.mlock
                env.loadAt env.failedAt with
            | (.error .unsealLocked, keystore, _) =>
                (fail req.id KeystoreError.unsealLocked.message "LOCKED",
                  { s with keystore := keystore })
            | (.error _, keystore, _) =>
                (fail req.id "load failed" "FORBIDDEN", { s with keystore := keystore })
            | (.ok fp, keystore, _) =>
                (ok req.id (pf.lib.marshal (.fingerprint fp)), { s with keystore := keystore })

/-- `handleKeyRemove`. -/
def handleKeyRemove (req : Request) : Response × ServerDeps Signer PrivateKey :=
  match pf.lib.unmarshalKeyRemove req.data with
  | none => (fail req.id "invalid json" "BAD_REQUEST", s)
  | some fp =>
      match s.keystore.removeSigner pf.crypto pf.ssh fp with
      | (.error e, keystore) =>
          (fail req.id e.message "NOT_FOUND", { s with keystore := keystore })
      | (.ok (), keystore) => (ok req.id [], { s with keystore := keystore })

/-! ### Confirming and rejecting -/

/-- What a confirmation holds once it has its entry: the id of the request, the id and the
label of the entry, and the passphrase. -/
structure Confirmation where
  reqID : GoString
  pendingID : GoString
  label : GoString
  passphrase : GoString
deriving DecidableEq, Repr

/-- `handleKeyConfirm` up to `Pending.Get`. -/
def confirmGet (req : Request) (now : Time) :
    Except Response Confirmation × ServerDeps Signer PrivateKey :=
  if s.config.signerMode ≠ signerModeLocalKey then
    (.error (fail req.id "local-key mode required" "BAD_REQUEST"), s)
  else
    match pf.lib.unmarshalKeyConfirm req.data with
    | none => (.error (fail req.id "invalid json" "BAD_REQUEST"), s)
    | some inp =>
        match s.pending.get inp.pendingID now with
        | (.error e, pending) =>
            (.error (fail req.id e.message "NOT_FOUND"), { s with pending := pending })
        | (.ok p, pending) =>
            (.ok ⟨req.id, inp.pendingID, p.label, inp.passphrase⟩, { s with pending := pending })

/-- Its `Keystore.LoadPEMBytes`, on the blob of the entry. -/
def confirmLoad (c : Confirmation) (mlock : Keystore.Mlock) (now failedAt : Time) :
    Except Response GoString × ServerDeps Signer PrivateKey :=
  match s.keystore.loadPEMBytes pf.crypto pf.ssh (s.pending.blob c.pendingID) c.passphrase c.label
      mlock now failedAt with
  | (res, keystore, blob) =>
      let s := { s with keystore := keystore, pending := s.pending.setBlob c.pendingID blob }
      match res with
      | .error .unsealLocked =>
          (.error (fail c.reqID KeystoreError.unsealLocked.message "LOCKED"), s)
      | .error _ => (.error (fail c.reqID "confirm failed" "FORBIDDEN"), s)
      | .ok fp => (.ok fp, s)

/-- Its `Pending.Delete`, whose error is ignored, and the answer. -/
def confirmDelete (c : Confirmation) (fp : GoString) : Response × ServerDeps Signer PrivateKey :=
  (ok c.reqID (pf.lib.marshal (.fingerprint fp)),
    { s with pending := (s.pending.delete c.pendingID).2 })

/-- `handleKeyConfirm`, with nothing in between its steps. -/
def handleKeyConfirm (req : Request) (env : Env) : Response × ServerDeps Signer PrivateKey :=
  match s.confirmGet pf req env.now with
  | (.error resp, s) => (resp, s)
  | (.ok c, s) =>
      match s.confirmLoad pf c env.mlock env.loadAt env.failedAt with
      | (.error resp, s) => (resp, s)
      | (.ok fp, s) => s.confirmDelete pf c fp

/-- `handleKeyReject`. -/
def handleKeyReject (req : Request) : Response × ServerDeps Signer PrivateKey :=
  match pf.lib.unmarshalKeyReject req.data with
  | none => (fail req.id "invalid json" "BAD_REQUEST", s)
  | some pendingID =>
      match s.pending.delete pendingID with
      | (.error e, pending) => (fail req.id e.message "NOT_FOUND", { s with pending := pending })
      | (.ok (), pending) => (ok req.id [], { s with pending := pending })

/-- `pendingListData`. -/
def pendingListData (now : Time) : Payload × ServerDeps Signer PrivateKey :=
  let (list, pending) := s.pending.list now
  (.pending (list.map fun p ↦
    ⟨p.id, p.deviceID, p.label, p.comment, pf.lib.formatTime p.expiresAt⟩),
    { s with pending := pending })

/-! ### Devices -/

/-- `handleMobileEnroll`. -/
def handleMobileEnroll (req : Request) (env : Env) : Response × ServerDeps Signer PrivateKey :=
  match pf.lib.unmarshalMobileEnroll req.data with
  | none => (fail req.id "invalid json" "BAD_REQUEST", s)
  | some inp =>
      if inp.certFingerprint = [] then (fail req.id "cert_fingerprint required" "BAD_REQUEST", s)
      else
        match s.mobile.enrollBound inp.label inp.devicePubKey inp.certFingerprint env.id
            env.now with
        | (.error e, mobile) => (fail req.id e.message "BAD_REQUEST", { s with mobile := mobile })
        | (.ok dev, mobile) =>
            (ok req.id (pf.lib.marshal (.deviceID dev.id)), { s with mobile := mobile })

/-- `handleMobileDelete`. -/
def handleMobileDelete (req : Request) : Response × ServerDeps Signer PrivateKey :=
  match pf.lib.unmarshalMobileDelete req.data with
  | none => (fail req.id "invalid json" "BAD_REQUEST", s)
  | some deviceID =>
      match s.mobile.delete deviceID with
      | (.error e, mobile) => (fail req.id e.message "NOT_FOUND", { s with mobile := mobile })
      | (.ok (), mobile) => (ok req.id [], { s with mobile := mobile })

/-- How a refused label is answered. -/
def labelError (id : GoString) (e : CliError) : Option Response :=
  if e = .emptyLabel ∨ e = .labelTooLong then some (fail id e.message "BAD_REQUEST") else none

/-- `handleCLIEnroll`. -/
def handleCLIEnroll (req : Request) (env : Env) : Response × ServerDeps Signer PrivateKey :=
  match s.csrSigner with
  | none => (fail req.id "CLI CSR signing not configured" "UNAVAILABLE", s)
  | some csrSigner =>
      match pf.lib.unmarshalCliEnroll req.data with
      | none => (fail req.id "invalid json" "BAD_REQUEST", s)
      | some inp =>
          if inp.label = [] ∨ inp.csrPEM = [] then
            (fail req.id "label and csr_pem required" "BAD_REQUEST", s)
          else
            match validateLabel inp.label with
            | .error e =>
                ((labelError req.id e).getD (fail req.id "invalid label" "BAD_REQUEST"), s)
            | .ok () =>
                match csrSigner.sign pf.x509 pf.crypto inp.csrPEM env.draw with
                | .error .csrInvalid =>
                    (fail req.id CliError.csrInvalid.message "BAD_REQUEST", s)
                | .error _ => (fail req.id "sign failed" "FORBIDDEN", s)
                | .ok (_, certPEM, fp) =>
                    match s.cli.enroll inp.label fp env.id env.now with
                    | (.error .duplicateFingerprint, cli) =>
                        (fail req.id CliError.duplicateFingerprint.message "CONFLICT",
                          { s with cli := cli })
                    | (.error e, cli) =>
                        ((labelError req.id e).getD (fail req.id "enroll failed" "FORBIDDEN"),
                          { s with cli := cli })
                    | (.ok dev, cli) =>
                        (ok req.id (pf.lib.marshal (.enrolled dev.id certPEM)),
                          { s with cli := cli })

/-- `cliListData`. -/
def cliListData : Payload :=
  .cliDevices (s.cli.list.map fun d ↦
    ⟨d.id, d.label, d.certFingerprint, pf.lib.formatTime d.enrolledAt⟩)

/-- `handleCLIDelete`. -/
def handleCLIDelete (req : Request) : Response × ServerDeps Signer PrivateKey :=
  match pf.lib.unmarshalCliDelete req.data with
  | none => (fail req.id "invalid json" "BAD_REQUEST", s)
  | some deviceID =>
      match s.cli.delete deviceID with
      | (.error e, cli) => (fail req.id e.message "NOT_FOUND", { s with cli := cli })
      | (.ok (), cli) =>
          (ok req.id [],
            { s with cli := cli, loadLimiter := s.loadLimiter.map (·.forget deviceID) })

/-- `handle`. -/
def handle (req : Request) (env : Env) : Response × ServerDeps Signer PrivateKey :=
  match req.op? with
  | some .status =>
      let (data, s) := s.statusData pf env.now
      (ok req.id (pf.lib.marshal data), s)
  | some .keyLoad => s.handleKeyLoad pf req env
  | some .keyList => (ok req.id (pf.lib.marshal (.signers (listSigners pf s.keystore))), s)
  | some .keyRemove => s.handleKeyRemove pf req
  | some .keyConfirm => s.handleKeyConfirm pf req env
  | some .keyReject => s.handleKeyReject pf req
  | some .keyPendingList =>
      let (data, s) := s.pendingListData pf env.now
      (ok req.id (pf.lib.marshal data), s)
  | some .mobileEnroll => s.handleMobileEnroll pf req env
  | some .mobileList =>
      (ok req.id (pf.lib.marshal (.devices (s.mobile.entries.map Sigma.snd))), s)
  | some .mobileDelete => s.handleMobileDelete pf req
  | some .cliEnroll => s.handleCLIEnroll pf req env
  | some .cliList => (ok req.id (pf.lib.marshal (s.cliListData pf)), s)
  | some .cliDelete => s.handleCLIDelete pf req
  | none => (fail req.id "unknown op" "UNKNOWN", s)

end ServerDeps

end LunaZTrust.Control
