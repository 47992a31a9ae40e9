import LunaZTrust.Cli.Store
import LunaZTrust.Config.Load
import LunaZTrust.Go.Crypto
import LunaZTrust.Go.Encoding

/-!
# Client certificates

`proxy/internal/cli/csr.go` and `fingerprint.go`: the client certificates the proxy
issues.  A certificate request for a command-line client has to name the role's
organizational unit and no other; one for automation must not name any.  The
subject of what is issued is the signer's own.

Go's `crypto/x509` and `encoding/pem` are parameters (`X509`).  All that is assumed of
them is that a certificate keeps the organizational units of its template.
-/

namespace LunaZTrust.Cli

open LunaZTrust.Go LunaZTrust.Config

/-- The fields of a `pkix.Name` the proxy sets or reads. -/
structure Name where
  commonName : GoString
  organizationalUnit : List GoString
deriving DecidableEq, Repr

/-- What the type switch of `validateCSRPublicKey` tells apart. -/
inductive KeyKind
  | rsa (bitLen : Nat)
  | ecdsa
  | other
deriving DecidableEq, Repr

/-- The fields of an `x509.CertificateRequest` the proxy reads. -/
structure CertificateRequest (PublicKey : Type) where
  subject : Name
  publicKey : PublicKey

/-- The fields of an `x509.Certificate` that vary in a template; its key usage is
`DigitalSignature` and its extended key usage `ClientAuth`. -/
structure Template where
  serialNumber : Nat
  subject : Name
  notBefore : Time
  notAfter : Time

/-- The fields of a parsed `x509.Certificate` the proxy reads. -/
structure Certificate where
  raw : Bytes
  subject : Name
deriving DecidableEq, Repr

/-- The functions of `crypto/x509` and `encoding/pem`. -/
structure X509 (PublicKey PrivateKey : Type) where
  /-- `pem.Decode`: the type and the bytes of the first block. -/
  pemDecode : Bytes → Option (GoString × Bytes)
  /-- `pem.EncodeToMemory`. -/
  pemEncode : GoString → Bytes → Bytes
  /-- `ParseCertificateRequest`. -/
  parseCertificateRequest : Bytes → Option (CertificateRequest PublicKey)
  /-- `CertificateRequest.CheckSignature`. -/
  checkSignature : CertificateRequest PublicKey → Bool
  /-- The dynamic type of a public key. -/
  keyKind : PublicKey → KeyKind
  /-- `CreateCertificate`, with the random bytes it draws. -/
  createCertificate : Bytes → Template → Certificate → PublicKey → PrivateKey → Option Bytes
  /-- `ParseCertificate`. -/
  parseCertificate : Bytes → Option Certificate
  /-- A certificate has the organizational units of its template. -/
  parse_create : ∀ {rand template parent pub priv der cert},
    createCertificate rand template parent pub priv = some der →
      parseCertificate der = some cert →
        cert.subject.organizationalUnit = template.subject.organizationalUnit
  /-- `ParsePKCS1PrivateKey`. -/
  parsePKCS1PrivateKey : Bytes → Option PrivateKey
  /-- `ParsePKCS8PrivateKey`. -/
  parsePKCS8PrivateKey : Bytes → Option PrivateKey
  /-- `ParseECPrivateKey`. -/
  parseECPrivateKey : Bytes → Option PrivateKey

/-- A toy `crypto/x509`: a PEM file is a text that says which type it has, a request is the
one unit it names, and a certificate the list of its units, of which it has at most one. -/
def X509.plain : X509 Unit Unit where
  pemDecode
    | 0 :: b => some (str "CERTIFICATE", b)
    | 1 :: b => some (str "PRIVATE KEY", b)
    | b => some (str "CERTIFICATE REQUEST", b)
  pemEncode _ b := b
  parseCertificateRequest b := some ⟨⟨[], [b]⟩, ()⟩
  checkSignature _ := true
  keyKind _ := .ecdsa
  createCertificate _ template _ _ _ :=
    match template.subject.organizationalUnit with
    | [] => some []
    | [ou] => some (0 :: ou)
    | _ => none
  parseCertificate der :=
    match der with
    | [] => some ⟨der, ⟨[], []⟩⟩
    | _ :: ou => some ⟨der, ⟨[], [ou]⟩⟩
  parse_create := by
    intro rand template parent pub priv der cert hder hcert
    split at hder
    · next h =>
        obtain rfl := Option.some.inj hder
        obtain rfl := Option.some.inj hcert
        exact h.symm
    · next h =>
        obtain rfl := Option.some.inj hder
        obtain rfl := Option.some.inj hcert
        exact h.symm
    · exact nomatch hder
  parsePKCS1PrivateKey _ := none
  parsePKCS8PrivateKey _ := some ()
  parseECPrivateKey _ := none

/-- `CertFingerprint`. -/
def certFingerprint (crypto : Crypto) (cert : Certificate) : GoString :=
  Hex.encode (crypto.sha256 cert.raw)

/-- `defaultAutomationClientCertTTL`. -/
def defaultAutomationClientCertTTL : Duration := 3650 * (24 * (60 * Time.minute))

/-- `defaultCLIClientCertTTL`. -/
def defaultCLIClientCertTTL : Duration := 365 * (24 * (60 * Time.minute))

/-- `CSRSigner`, with its certificate and key. -/
structure CSRSigner (PrivateKey : Type) where
  caCert : Certificate
  caKey : PrivateKey
  requiredOU : GoString
  ttl : Duration

variable {PublicKey PrivateKey : Type} (x509 : X509 PublicKey PrivateKey)

/-! ## The certificate authority -/

/-- The private key in a PEM block. -/
def parseCAKey (blockType : GoString) (bytes : Bytes) : Option PrivateKey :=
  if blockType = str "RSA PRIVATE KEY" then x509.parsePKCS1PrivateKey bytes
  else if blockType = str "PRIVATE KEY" then x509.parsePKCS8PrivateKey bytes
  else if blockType = str "EC PRIVATE KEY" then x509.parseECPrivateKey bytes
  else none

/-- `loadCAFromFiles`, with `os.ReadFile`. -/
def loadCAFromFiles (readFile : GoString → Option Bytes) (certPath keyPath : GoString) :
    Except CliError (Certificate × PrivateKey) := do
  let certPEM ← (readFile certPath).elim (throw .readCACert) pure
  let (certType, certBytes) ← (x509.pemDecode certPEM).elim (throw .parseCACert) pure
  if certType ≠ str "CERTIFICATE" then throw .parseCACert
  let caCert ← (x509.parseCertificate certBytes).elim (throw .parseCACert) pure
  let keyPEM ← (readFile keyPath).elim (throw .readCAKey) pure
  let (keyType, keyBytes) ← (x509.pemDecode keyPEM).elim (throw .parseCAKey) pure
  let caKey ← (parseCAKey x509 keyType keyBytes).elim (throw .parseCAKey) pure
  return (caCert, caKey)

/-- The organizational unit the signer of a configuration requires. -/
def requiredOU (cfg : Config) : GoString :=
  orDefault (Strings.trimSpace cfg.cliClientOU) (str "luna-cli")

/-- `NewCSRSignerFromConfig`. -/
def newCSRSignerFromConfig (readFile : GoString → Option Bytes) (cfg : Config) :
    Except CliError (Option (CSRSigner PrivateKey)) :=
  let certPath := Strings.trimSpace cfg.mtlsCACertPath
  let keyPath := Strings.trimSpace cfg.mtlsCAKeyPath
  if certPath = [] ∧ keyPath = [] then .ok none
  else if certPath = [] ∨ keyPath = [] then .error .caNotConfigured
  else do
    let (caCert, caKey) ← loadCAFromFiles x509 readFile certPath keyPath
    return some ⟨caCert, caKey, requiredOU cfg, defaultCLIClientCertTTL⟩

/-! ## Requests -/

/-- `parseCSR`. -/
def parseCSR (csrPEM : Bytes) : Except CliError (CertificateRequest PublicKey) :=
  match x509.pemDecode csrPEM with
  | none => .error .csrInvalid
  | some (blockType, bytes) =>
      if blockType ≠ str "CERTIFICATE REQUEST" then .error .csrInvalid
      else
        match x509.parseCertificateRequest bytes with
        | none => .error .csrInvalid
        | some csr => .ok csr

/-- `validateCSRPublicKey`. -/
def validateCSRPublicKey (pub : PublicKey) : Except CliError Unit :=
  match x509.keyKind pub with
  | .rsa bitLen => if bitLen < 2048 then .error .csrInvalid else .ok ()
  | .ecdsa => .ok ()
  | .other => .error .csrInvalid

/-- `validateCSR`. -/
def validateCSR (csr : CertificateRequest PublicKey) (requiredOU : GoString) :
    Except CliError Unit :=
  if !x509.checkSignature csr then .error .csrInvalid
  else if requiredOU = [] ∧ csr.subject.organizationalUnit.length ≠ 0 then .error .csrInvalid
  else if requiredOU ≠ [] ∧ csr.subject.organizationalUnit ≠ [requiredOU] then .error .csrInvalid
  else validateCSRPublicKey x509 csr.publicKey

/-! ## Issuing -/

/-- What issuing draws and reads: the serial number, the random bytes of the signature and
the clock. -/
structure Draw where
  serial : Nat
  rand : Bytes
  now : Time

variable (crypto : Crypto)

/-- `signCSRWithTTL`: the certificate, parsed and in PEM, and its fingerprint. -/
def CSRSigner.signCSRWithTTL (s : CSRSigner PrivateKey) (csr : CertificateRequest PublicKey)
    (ttl : Duration) (subject : Name) (draw : Draw) :
    Except CliError (Certificate × Bytes × GoString) :=
  let template : Template :=
    ⟨draw.serial, subject, draw.now - Time.minute, draw.now + ttl⟩
  match x509.createCertificate draw.rand template s.caCert csr.publicKey s.caKey with
  | none => .error .signCertificate
  | some der =>
      match x509.parseCertificate der with
      | none => .error .parseCertificate
      | some cert => .ok (cert, x509.pemEncode (str "CERTIFICATE") der, certFingerprint crypto cert)

/-- `Sign`. -/
def CSRSigner.sign (s : CSRSigner PrivateKey) (csrPEM : Bytes) (draw : Draw) :
    Except CliError (Certificate × Bytes × GoString) := do
  let csr ← parseCSR x509 csrPEM
  validateCSR x509 csr s.requiredOU
  s.signCSRWithTTL x509 crypto csr s.ttl ⟨str "Luna CLI Client", [s.requiredOU]⟩ draw

/-- `SignAutomation`. -/
def CSRSigner.signAutomation (s : CSRSigner PrivateKey) (csrPEM : Bytes) (draw : Draw) :
    Except CliError (Certificate × Bytes × GoString) := do
  let csr ← parseCSR x509 csrPEM
  validateCSR x509 csr []
  s.signCSRWithTTL x509 crypto csr defaultAutomationClientCertTTL
    ⟨str "Luna Automation Client", []⟩ draw

end LunaZTrust.Cli
