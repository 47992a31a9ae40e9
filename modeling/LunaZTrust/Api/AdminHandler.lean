import LunaZTrust.Api.CliHandler
import LunaZTrust.Api.MobileHandler
import LunaZTrust.Control.Ops

/-!
# Administration over the network

The routes of `NewServer` in `proxy/internal/api/server.go`, each with the check in front of its
handler, and the handlers by which devices and workstations are enrolled, listed and
deleted and machines get their first certificate: those of `admin_handler.go` and
`mtls_bootstrap_handler.go`, and the administrative ones of `mobile_handler.go` and
`cli_handler.go`.
-/

namespace LunaZTrust.Api

open LunaZTrust.Go LunaZTrust.Cli LunaZTrust.Config

namespace Http

/-- `http.StatusOK`. -/
def statusOK : Nat := 200

/-- `http.StatusCreated`. -/
def statusCreated : Nat := 201

/-- `http.StatusNoContent`. -/
def statusNoContent : Nat := 204

/-- `http.StatusGone`. -/
def statusGone : Nat := 410

end Http

/-! ## Routes -/

/-- The check in front of a handler. -/
inductive Gate
  | anyone
  /-- `withMTLS`. -/
  | certificate
  /-- `withAdminMTLS`. -/
  | administrator
deriving DecidableEq, Repr

/-- The routes, under the names of their handlers. -/
inductive Route
  | healthz
  | mtlsCA
  | mtlsEnroll
  | adminUnseal
  | adminSealStatus
  | capabilities
  | sign
  | wait
  | mobileEnroll
  | mobileDeleteDevice
  | mobileApprove
  | mobileKeysPending
  | cliEnroll
  | cliListDevices
  | cliDeleteDevice
  | cliKeysLoad
deriving DecidableEq, Repr

/-- The patterns of the routes. -/
def Route.pattern : Route → String
  | .healthz => "GET /healthz"
  | .mtlsCA => "GET /api/v1/mtls/ca"
  | .mtlsEnroll => "POST /api/v1/mtls/enroll"
  | .adminUnseal => "POST /api/v1/admin/unseal"
  | .adminSealStatus => "GET /api/v1/admin/seal-status"
  | .capabilities => "GET /api/v1/capabilities"
  | .sign => "POST /api/v1/ssh/sign"
  | .wait => "GET /api/v1/ssh/sign/\x7btx_id\x7d/wait"
  | .mobileEnroll => "POST /api/v1/mobile/enroll"
  | .mobileDeleteDevice => "DELETE /api/v1/mobile/devices/\x7bdevice_id\x7d"
  | .mobileApprove => "POST /api/v1/mobile/approve"
  | .mobileKeysPending => "POST /api/v1/mobile/keys/pending"
  | .cliEnroll => "POST /api/v1/cli/enroll"
  | .cliListDevices => "GET /api/v1/cli/devices"
  | .cliDeleteDevice => "DELETE /api/v1/cli/devices/\x7bdevice_id\x7d"
  | .cliKeysLoad => "POST /api/v1/cli/keys/load"

/-- The checks in front of the handlers. -/
def Route.gate : Route → Gate
  | .healthz | .mtlsCA | .mtlsEnroll => .anyone
  | .capabilities | .sign | .wait | .mobileApprove | .mobileKeysPending | .cliKeysLoad =>
      .certificate
  | .adminUnseal | .adminSealStatus | .mobileEnroll | .mobileDeleteDevice | .cliEnroll
  | .cliListDevices | .cliDeleteDevice => .administrator

/-- A request, with what only the handlers here read: the header `X-Luna-Enroll-Token` and the
`device_id` of the path. -/
structure AdminRequest extends HttpRequest where
  enrollToken : GoString
  deviceID : GoString

section

variable {PublicKey PrivateKey : Type} (x509 : X509 PublicKey PrivateKey)

/-- The check of `withAdminMTLS`. -/
def withAdminMTLS (cfg : Config) (r : HttpRequest) : Except HttpError Unit :=
  match r.peerCertificates with
  | [] => .error (.mk "client certificate required" Http.statusUnauthorized)
  | raw :: _ =>
      if !adminClientAllowed cfg.adminClientOU (peerCertificate x509 raw) then
        .error (.mk "admin client certificate required" Http.statusForbidden)
      else .ok ()

/-- What a gate says to a request. -/
def Gate.check (cfg : Config) (r : HttpRequest) : Gate → Except HttpError Unit
  | .anyone => .ok ()
  | .certificate => withMTLS r
  | .administrator => withAdminMTLS x509 cfg r

end

/-! ## Requests and answers -/

/-- `mobileEnrollRequest`. -/
structure MobileEnrollRequest where
  label : GoString
  devicePubKey : GoString
  certFingerprint : GoString

/-- `cliEnrollRequest`. -/
structure CliEnrollRequest where
  label : GoString
  csrPEM : GoString

/-- The functions of Go's standard library the handlers call. -/
structure AdminLibrary extends Library where
  /-- `json.Unmarshal` into a `mobileEnrollRequest`. -/
  unmarshalMobileEnroll : Bytes → Option MobileEnrollRequest
  /-- `json.Unmarshal` into a `cliEnrollRequest`. -/
  unmarshalCLIEnroll : Bytes → Option CliEnrollRequest
  /-- `json.Unmarshal` into an `mtlsEnrollRequest`: the request in PEM. -/
  unmarshalMTLSEnroll : Bytes → Option GoString

/-- The answers. -/
inductive Reply
  | error (e : HttpError)
  | healthy
  /-- The certificate authority's certificate, as a PEM file. -/
  | ca (pem : Bytes)
  /-- `mtlsEnrollResponse`. -/
  | certificate (certificatePEM : Bytes)
  /-- `mobileEnrollResponse`. -/
  | mobileEnrolled (deviceID : GoString)
  /-- `cliEnrollResponse`. -/
  | cliEnrolled (deviceID : GoString) (certificatePEM : Bytes)
  /-- `cliListDevicesResponse`. -/
  | cliDevices (devices : List Control.DeviceJSON)
  | noContent
deriving DecidableEq, Repr

/-- The status of an answer. -/
def Reply.status : Reply → Nat
  | .error e => e.status
  | .certificate _ | .cliEnrolled _ _ => Http.statusCreated
  | .noContent => Http.statusNoContent
  | _ => Http.statusOK

/-! ## Devices -/

/-- `handleMobileEnroll`, with the id it draws and the instant it reads. -/
def handleMobileEnroll (lib : AdminLibrary) (mobile : Mobile.Store) (r : AdminRequest)
    (id : GoString) (now : Time) : Reply × Mobile.Store :=
  match r.readAll maxMobileBody with
  | .error _ => (.error (.mk "read body" Http.statusBadRequest), mobile)
  | .ok raw =>
      match lib.unmarshalMobileEnroll raw with
      | none => (.error (.mk "invalid json" Http.statusBadRequest), mobile)
      | some req =>
          if req.certFingerprint = [] then
            (.error (.mk "cert_fingerprint required" Http.statusBadRequest), mobile)
          else
            match mobile.enrollBound req.label req.devicePubKey req.certFingerprint id now with
            | (.error .emptyLabel, mobile) =>
                (.error (.mk Mobile.MobileError.emptyLabel.message Http.statusBadRequest), mobile)
            | (.error .invalidKey, mobile) =>
                (.error (.mk Mobile.MobileError.invalidKey.message Http.statusBadRequest), mobile)
            | (.error _, mobile) =>
                (.error (.mk "enroll failed" Http.statusInternalServerError), mobile)
            | (.ok dev, mobile) => (.mobileEnrolled dev.id, mobile)

/-- `handleMobileDeleteDevice`. -/
def handleMobileDeleteDevice (mobile : Mobile.Store) (r : AdminRequest) : Reply × Mobile.Store :=
  if r.deviceID = [] then (.error (.mk "device_id required" Http.statusBadRequest), mobile)
  else
    match mobile.delete r.deviceID with
    | (.error .notFound, mobile) => (.error (.mk "not found" Http.statusNotFound), mobile)
    | (.error _, mobile) =>
        (.error (.mk "delete failed" Http.statusInternalServerError), mobile)
    | (.ok (), mobile) => (.noContent, mobile)

/-! ## Workstations -/

section

variable {Key Signer PublicKey PrivateKey : Type}
  (pf : Control.Platform Key Signer PublicKey PrivateKey) (lib : AdminLibrary)

/-- `maxCLIEnrollBody`. -/
def maxCLIEnrollBody : Nat := 64 * 1024

/-- How an error of a label is answered; `otherwise` is for the other errors. -/
def labelRefusal (otherwise : HttpError) : CliError → HttpError
  | .emptyLabel => .mk CliError.emptyLabel.message Http.statusBadRequest
  | .labelTooLong => .mk CliError.labelTooLong.message Http.statusBadRequest
  | _ => otherwise

/-- How an error of the signer is answered. -/
def signRefusal (notConfigured : String) : CliError → HttpError
  | .csrInvalid => .mk CliError.csrInvalid.message Http.statusBadRequest
  | .caNotConfigured => .mk notConfigured Http.statusServiceUnavailable
  | _ => .mk "sign failed" Http.statusInternalServerError

/-- `handleCLIEnroll` up to `Enroll`: the label, the certificate, parsed and in PEM, and its
fingerprint. -/
def issueCLI (csrSigner : Option (CSRSigner PrivateKey)) (r : AdminRequest) (draw : Draw) :
    Except HttpError (GoString × Certificate × Bytes × GoString) :=
  match csrSigner with
  | none => .error (.mk "CLI CSR signing not configured" Http.statusServiceUnavailable)
  | some csrSigner =>
      match r.readAll maxCLIEnrollBody with
      | .error _ => .error (.mk "read body" Http.statusBadRequest)
      | .ok raw =>
          match lib.unmarshalCLIEnroll raw with
          | none => .error (.mk "invalid json" Http.statusBadRequest)
          | some req =>
              if req.csrPEM = [] then .error (.mk "csr_pem required" Http.statusBadRequest)
              else
                match validateLabel req.label with
                | .error e =>
                    .error (labelRefusal (.mk "invalid label" Http.statusBadRequest) e)
                | .ok () =>
                    match csrSigner.sign pf.x509 pf.crypto req.csrPEM draw with
                    | .error e => .error (signRefusal "CLI CSR signing not configured" e)
                    | .ok (cert, certPEM, fp) => .ok (req.label, cert, certPEM, fp)

/-- `handleCLIEnroll`, with the id it draws and the instant it reads. -/
def handleCLIEnroll (csrSigner : Option (CSRSigner PrivateKey)) (cli : Cli.Store)
    (r : AdminRequest) (draw : Draw) (id : GoString) (now : Time) : Reply × Cli.Store :=
  match issueCLI pf lib csrSigner r draw with
  | .error e => (.error e, cli)
  | .ok (label, _, certPEM, fp) =>
      match cli.enroll label fp id now with
      | (.error .duplicateFingerprint, cli) =>
          (.error (.mk CliError.duplicateFingerprint.message Http.statusConflict), cli)
      | (.error e, cli) =>
          (.error (labelRefusal (.mk "enroll failed" Http.statusInternalServerError) e), cli)
      | (.ok dev, cli) => (.cliEnrolled dev.id certPEM, cli)

/-- `handleCLIListDevices`. -/
def handleCLIListDevices (cli : Cli.Store) : Reply :=
  .cliDevices (cli.list.map fun d ↦
    ⟨d.id, d.label, d.certFingerprint, pf.lib.formatTime d.enrolledAt⟩)

/-- `handleCLIDeleteDevice` up to `Forget`, which is called if the device has been deleted. -/
def handleCLIDeleteDevice (cli : Cli.Store) (r : AdminRequest) : Reply × Cli.Store :=
  if r.deviceID = [] then (.error (.mk "device_id required" Http.statusBadRequest), cli)
  else
    match cli.delete r.deviceID with
    | (.error .notFound, cli) => (.error (.mk "not found" Http.statusNotFound), cli)
    | (.error _, cli) => (.error (.mk "delete failed" Http.statusInternalServerError), cli)
    | (.ok (), cli) => (.noContent, cli)

/-! ## First certificates -/

/-- `maxMTLSEnrollBody`. -/
def maxMTLSEnrollBody : Nat := 64 * 1024

/-- `handleMTLSCA`, with `os.ReadFile`. -/
def handleMTLSCA (readFile : GoString → Option Bytes) (cfg : Config) : Reply :=
  let path := orDefault (Strings.trimSpace cfg.mtlsClientCA) (Strings.trimSpace cfg.mtlsCACertPath)
  if path = [] then .error (.mk "mTLS CA not configured" Http.statusServiceUnavailable)
  else
    match readFile path with
    | none => .error (.mk "mTLS CA unavailable" Http.statusServiceUnavailable)
    | some pem => .ca pem

/-- `handleMTLSEnroll` from the limiter to the token it expects, with the signer. -/
def expectedToken (csrSigner : Option (CSRSigner PrivateKey)) (cfg : Config) :
    Except HttpError (CSRSigner PrivateKey × GoString) :=
  match csrSigner with
  | none => .error (.mk "mTLS enrollment not configured" Http.statusServiceUnavailable)
  | some csrSigner =>
      let expected := Strings.trimSpace cfg.mtlsEnrollToken
      if expected = [] then
        .error (.mk "mTLS enrollment disabled (set mtls_enroll_token)" Http.statusForbidden)
      else .ok (csrSigner, expected)

/-- `handleMTLSEnroll` from the right token on: the certificate, parsed and in PEM. -/
def issueAutomation (csrSigner : CSRSigner PrivateKey) (r : AdminRequest) (draw : Draw) :
    Except HttpError (Certificate × Bytes) :=
  match r.readAll maxMTLSEnrollBody with
  | .error _ => .error (.mk "invalid body" Http.statusBadRequest)
  | .ok body =>
      match lib.unmarshalMTLSEnroll body with
      | none => .error (.mk "invalid json" Http.statusBadRequest)
      | some csrPEM =>
          if Strings.trimSpace csrPEM = [] then
            .error (.mk "csr_pem required" Http.statusBadRequest)
          else
            match csrSigner.signAutomation pf.x509 pf.crypto csrPEM draw with
            | .error e => .error (signRefusal "mTLS enrollment not configured" e)
            | .ok (cert, certPEM, _) => .ok (cert, certPEM)

end

/-! ## What has moved -/

/-- `handleUnseal`. -/
def handleUnseal : Reply :=
  .error ⟨"admin unseal moved to luna-proxy key load via control socket", Http.statusGone,
    by decide⟩

/-- `handleSealStatus`. -/
def handleSealStatus : Reply :=
  .error ⟨"admin seal-status moved to luna-proxy status via control socket", Http.statusGone,
    by decide⟩

end LunaZTrust.Api
