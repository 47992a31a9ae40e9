import LunaZTrust.Api.Request
import LunaZTrust.Api.Roles

/-!
# Keys loaded over the network

`proxy/internal/api/cli_handler.go` and `cli_keys_load_parse.go`: an enrolled workstation sends
an encrypted key with its passphrase.  This module has the checks `handleCLIKeysLoad` makes
before it asks the limiter; how the limiter and the keystore are then used is in
`LunaZTrust.Api.LoadQuota`.
-/

namespace LunaZTrust.Api

open LunaZTrust.Go LunaZTrust.Auth LunaZTrust.Cli LunaZTrust.Config

/-- The arguments of `writeCLIKeysLoadError`. -/
structure KeysLoadError where
  status : Nat
  code : String
  message : String
deriving DecidableEq, Repr

/-- `cliKeysLoadWire`; the passphrase is still in JSON. -/
structure CliKeysLoadWire where
  encryptedPEM : GoString
  passphrase : Bytes
  label : GoString
  comment : GoString
  timestamp : Int

/-- `parsedCLIKeysLoad`. -/
structure ParsedCLIKeysLoad where
  encryptedPEM : GoString
  passphrase : Bytes
  label : GoString
  comment : GoString
  timestamp : Int
deriving DecidableEq, Repr

/-- The functions of `encoding/json` the handler calls. -/
structure KeysLoadLibrary where
  /-- `json.Unmarshal` into a `cliKeysLoadWire`. -/
  unmarshalWire : Bytes → Option CliKeysLoadWire
  /-- `json.Unmarshal` into a `string`. -/
  unmarshalString : Bytes → Option GoString

variable {PublicKey PrivateKey : Type} (crypto : Crypto) (x509 : X509 PublicKey PrivateKey)
  (lib : KeysLoadLibrary)

/-- `decodeJSONStringField`. -/
def decodeJSONStringField (raw : Bytes) : Option Bytes :=
  if raw.length = 0 then none else lib.unmarshalString raw

/-- `parseCLIKeysLoadBody`. -/
def parseCLIKeysLoadBody (raw : Bytes) : Option ParsedCLIKeysLoad := do
  let wire ← lib.unmarshalWire raw
  let pass ← decodeJSONStringField lib wire.passphrase
  return ⟨wire.encryptedPEM, pass, wire.label, wire.comment, wire.timestamp⟩

/-- `maxCLIKeyLoadBody`. -/
def maxCLIKeyLoadBody : Nat := 64 * 1024

/-- A certificate the TLS layer has parsed. -/
def peerCertificate (raw : Bytes) : Certificate :=
  (x509.parseCertificate raw).getD ⟨raw, ⟨[], []⟩⟩

/-- `cliDeviceFromPeer`. -/
def cliDeviceFromPeer (cli : Cli.Store) (cert : Certificate) : Option Cli.Device :=
  cli.getByFingerprint (certFingerprint crypto cert)

/-- `handleCLIKeysLoad` up to `parseCLIKeysLoadBody`: the device, the body as it came and parsed,
and the connection. -/
def readCLIKeysLoad (cfg : Config) (cli : Cli.Store) (r : HttpRequest) :
    Except KeysLoadError (Cli.Device × Bytes × ParsedCLIKeysLoad × TLSConn) :=
  match r.peerCertificates with
  | [] => .error ⟨Http.statusUnauthorized, "CLIENT_CERT_REQUIRED", "client certificate required"⟩
  | raw :: _ =>
      let peer := peerCertificate x509 raw
      if adminClientAllowed cfg.adminClientOU peer then
        .error ⟨Http.statusForbidden, "FORBIDDEN_ADMIN", "automation/admin cert cannot upload keys"⟩
      else if !cliClientAllowed cfg.cliClientOU peer then
        .error ⟨Http.statusForbidden, "FORBIDDEN_CLI_CERT", "cli client certificate required"⟩
      else
        match cliDeviceFromPeer crypto cli peer with
        | none => .error ⟨Http.statusForbidden, "UNKNOWN_DEVICE", "unknown cli device"⟩
        | some dev =>
            if cfg.signerMode ≠ str "local-key" then
              .error ⟨Http.statusBadRequest, "SIGNER_MODE", "local-key mode required"⟩
            else
              match r.readAll maxCLIKeyLoadBody with
              | .error _ => .error ⟨Http.statusBadRequest, "READ_BODY", "read body"⟩
              | .ok body =>
                  match r.conn with
                  | none =>
                      .error ⟨Http.statusUnauthorized, "TLS_REQUIRED", "tls connection required"⟩
                  | some conn =>
                      match parseCLIKeysLoadBody lib body with
                      | none => .error ⟨Http.statusBadRequest, "INVALID_JSON", "invalid json"⟩
                      | some parsed => .ok (dev, body, parsed, conn)

/-- `writeCLIKeysLoadAuthError`. -/
def keysLoadAuthError (e : AuthError) : KeysLoadError :=
  match e with
  | .replay => ⟨Http.statusConflict, "REPLAY", e.message⟩
  | .invalidHMAC => ⟨Http.statusUnauthorized, "INVALID_HMAC", e.message⟩
  | .timestampOutsideWindow => ⟨Http.statusUnauthorized, "TIMESTAMP", e.message⟩
  | _ => ⟨Http.statusBadRequest, "AUTH", e.message⟩

/-- The checks of the fields of a request that has been authenticated. -/
def checkCLIKeysLoadFields (parsed : ParsedCLIKeysLoad) : Except KeysLoadError Unit :=
  if parsed.encryptedPEM = [] ∨ parsed.passphrase.length = 0 ∨ parsed.label = [] then
    .error ⟨Http.statusBadRequest, "MISSING_FIELDS",
      "encrypted_pem, passphrase, and label required"⟩
  else
    match validateLabel parsed.label with
    | .error e => .error ⟨Http.statusBadRequest, "INVALID_LABEL", e.message⟩
    | .ok () => .ok ()

/-- `handleCLIKeysLoad` from `ValidateCLIKeysLoad` to `ValidateLabel`. -/
def checkCLIKeysLoad (r : HttpRequest) (body : Bytes) (parsed : ParsedCLIKeysLoad) (conn : TLSConn)
    (now seenAt : Time) (replay : ReplayLRU) : Except KeysLoadError Unit × ReplayLRU :=
  match validateCLIKeysLoad crypto conn body r.bodyMAC parsed.timestamp now seenAt replay with
  | (.error e, replay) => (.error (keysLoadAuthError e), replay)
  | (.ok (), replay) => (checkCLIKeysLoadFields parsed, replay)

end LunaZTrust.Api
