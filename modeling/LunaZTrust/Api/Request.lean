import LunaZTrust.Auth.Pipeline

/-!
# Requests

What the handlers of `proxy/internal/api` read of a request, and what they answer
when they refuse it.  Decoding JSON and splitting a remote address are left to Go's
standard library, whose functions are parameters (`Library`).
-/

namespace LunaZTrust.Api

open LunaZTrust.Go LunaZTrust.Auth

/-! ## Answers -/

namespace Http

/-- `http.StatusAccepted`. -/
def statusAccepted : Nat := 202

/-- `http.StatusBadRequest`. -/
def statusBadRequest : Nat := 400

/-- `http.StatusUnauthorized`. -/
def statusUnauthorized : Nat := 401

/-- `http.StatusForbidden`. -/
def statusForbidden : Nat := 403

/-- `http.StatusNotFound`. -/
def statusNotFound : Nat := 404

/-- `http.StatusRequestTimeout`. -/
def statusRequestTimeout : Nat := 408

/-- `http.StatusConflict`. -/
def statusConflict : Nat := 409

/-- `http.StatusRequestEntityTooLarge`. -/
def statusRequestEntityTooLarge : Nat := 413

/-- `http.StatusTooManyRequests`. -/
def statusTooManyRequests : Nat := 429

/-- `http.StatusInternalServerError`. -/
def statusInternalServerError : Nat := 500

/-- `http.StatusServiceUnavailable`. -/
def statusServiceUnavailable : Nat := 503

/-! All but the first are those of errors. -/

theorem isError_badRequest : 400 ≤ statusBadRequest := by decide

theorem isError_unauthorized : 400 ≤ statusUnauthorized := by decide

theorem isError_forbidden : 400 ≤ statusForbidden := by decide

theorem isError_notFound : 400 ≤ statusNotFound := by decide

theorem isError_requestTimeout : 400 ≤ statusRequestTimeout := by decide

theorem isError_conflict : 400 ≤ statusConflict := by decide

theorem isError_requestEntityTooLarge : 400 ≤ statusRequestEntityTooLarge := by decide

theorem isError_tooManyRequests : 400 ≤ statusTooManyRequests := by decide

theorem isError_internalServerError : 400 ≤ statusInternalServerError := by decide

theorem isError_serviceUnavailable : 400 ≤ statusServiceUnavailable := by decide

end Http

/-- The arguments of `http.Error`.  The status is always one of an error. -/
structure HttpError where
  message : String
  status : Nat
  isError : 400 ≤ status := by
    first
      | exact Http.isError_badRequest
      | exact Http.isError_unauthorized
      | exact Http.isError_forbidden
      | exact Http.isError_notFound
      | exact Http.isError_requestTimeout
      | exact Http.isError_conflict
      | exact Http.isError_requestEntityTooLarge
      | exact Http.isError_tooManyRequests
      | exact Http.isError_internalServerError
      | exact Http.isError_serviceUnavailable
deriving DecidableEq, Repr

/-! ## Requests -/

/-- A request: what its body gives before it ends or, if `bodyFails`, before
reading it fails; the header `X-Luna-Body-Mac`; the TLS connection the context
holds; the raw forms of the peer's certificates; and the remote address. -/
structure HttpRequest where
  body : Bytes
  bodyFails : Bool
  bodyMAC : GoString
  conn : Option TLSConn
  peerCertificates : List Bytes
  remoteAddr : GoString

/-- How `io.ReadAll` of a `MaxBytesReader` can fail. -/
inductive ReadError
  | tooLarge
  | failed
deriving DecidableEq, Repr

/-- `io.ReadAll` of a `MaxBytesReader`. -/
def HttpRequest.readAll (r : HttpRequest) (max : Nat) : Except ReadError Bytes :=
  if max < r.body.length then .error .tooLarge
  else if r.bodyFails then .error .failed
  else .ok r.body

/-- `clientCertFingerprint`. -/
def clientCertFingerprint (crypto : Crypto) (raw : Bytes) : GoString :=
  Hex.encode (crypto.sha256 raw)

/-- `clientCertFPFromRequest`. -/
def clientCertFPFromRequest (crypto : Crypto) (r : HttpRequest) : GoString :=
  match r.peerCertificates with
  | [] => []
  | raw :: _ => clientCertFingerprint crypto raw

/-- The check of `withMTLS`. -/
def withMTLS (r : HttpRequest) : Except HttpError Unit :=
  if r.peerCertificates = [] then
    .error (.mk "client certificate required" Http.statusUnauthorized)
  else .ok ()

/-! ## The standard library -/

/-- `mobileApproveSignPayload`. -/
structure MobileApproveSignPayload where
  txID : GoString
  action : GoString
  ttlSeconds : Int
  deviceID : GoString
  timestamp : Int
deriving DecidableEq, Repr

/-- `mobileApproveRequest`. -/
structure MobileApproveRequest extends MobileApproveSignPayload where
  signature : GoString
deriving DecidableEq, Repr

/-- The functions of Go's standard library the handlers call. -/
structure Library where
  /-- `json.Unmarshal` into an `auth.SignRequest`, whose MAC is not part of the
  body. -/
  unmarshalSignRequest : Bytes → Option SignRequest
  /-- `json.Unmarshal` into a `mobileApproveRequest`. -/
  unmarshalMobileApproveRequest : Bytes → Option MobileApproveRequest
  /-- `json.Marshal` of a `mobileApproveSignPayload`. -/
  marshalMobileApproveSignPayload : MobileApproveSignPayload → Bytes
  /-- `net.SplitHostPort`: the host and the port. -/
  splitHostPort : GoString → Option (GoString × GoString)

/-- `clientIPFromRemoteAddr`. -/
def clientIPFromRemoteAddr (lib : Library) (addr : GoString) : GoString :=
  match lib.splitHostPort addr with
  | none => []
  | some (host, _) => host

end LunaZTrust.Api
