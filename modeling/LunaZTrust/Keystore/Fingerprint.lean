import LunaZTrust.Go.Crypto
import LunaZTrust.Go.Encoding
import LunaZTrust.Go.Strings
import LunaZTrust.Ssh.Package

/-!
# Fingerprints of hosted keys

`proxy/internal/keystore/fingerprint.go` and `resolve.go`: a hosted key is named
by the unpadded base64 of the SHA-256 of its wire form, and a request may name
one by such a fingerprint, by a spelling of it, or by the key itself.
-/

namespace LunaZTrust.Keystore

open LunaZTrust.Go LunaZTrust.Ssh

variable {Key Signer : Type} (crypto : Crypto) (ssh : Package Key Signer)

/-- `Fingerprint`. -/
def fingerprint (pub : Key) : GoString := Base64.rawStdEncode (crypto.sha256 (ssh.marshal pub))

/-- `NormalizeFingerprintInput`. -/
def normalizeFingerprintInput (s : GoString) : GoString :=
  Strings.trimRight (Strings.trimPrefix (Strings.trimSpace s) (str "SHA256:")) Base64.padChar

/-- The errors of naming a hosted key. -/
inductive FingerprintError
  | emptyFingerprint
  | invalidFingerprint
  | decodeHostPublicKey
  | parseHostPublicKey
  | fingerprintMismatch
  | ambiguousSigner
deriving DecidableEq, Repr

/-- The text of such an error. -/
def FingerprintError.message : FingerprintError → String
  | .emptyFingerprint => "empty fingerprint"
  | .invalidFingerprint => "invalid fingerprint"
  | .decodeHostPublicKey => "decode host_public_key: invalid base64"
  | .parseHostPublicKey => "parse host_public_key: invalid format"
  | .fingerprintMismatch => "host_key_fingerprint does not match host_public_key"
  | .ambiguousSigner => "host key fingerprint required"

/-- `fingerprintDigest`. -/
def fingerprintDigest (raw : Bytes) : GoString := Base64.rawStdEncode raw

/-- `decodeFingerprintBase64`. -/
def decodeFingerprintBase64 (s : GoString) : Option Bytes := Base64.rawStdDecode s

/-- The digest that 64 hexadecimal digits stand for. -/
def decodeFingerprintHex (s : GoString) : Option Bytes :=
  if s.length = 64 then (Hex.decode s).filter (·.length = 32) else none

/-- `ParseFingerprintHint`. -/
def parseFingerprintHint (s : GoString) : Except FingerprintError GoString :=
  let s := normalizeFingerprintInput s
  if s = [] then .error .emptyFingerprint
  else
    match decodeFingerprintHex s with
    | some raw => .ok (fingerprintDigest raw)
    | none =>
        match decodeFingerprintBase64 s with
        | some raw =>
            if raw.length = 32 then .ok (fingerprintDigest raw) else .error .invalidFingerprint
        | none => .error .invalidFingerprint

/-- `ResolveHostKeyFingerprint`. -/
def resolveHostKeyFingerprint (hostPubB64 fpHint : GoString) : Except FingerprintError GoString :=
  let fpHint := normalizeFingerprintInput fpHint
  if hostPubB64 ≠ [] then
    match Base64.stdDecode hostPubB64 with
    | none => .error .decodeHostPublicKey
    | some raw =>
        match ssh.parsePublicKey raw with
        | none => .error .parseHostPublicKey
        | some pub =>
            let fp := fingerprint crypto ssh pub
            if fpHint ≠ [] ∧ fpHint ≠ fp then .error .fingerprintMismatch else .ok fp
  else if fpHint ≠ [] then parseFingerprintHint fpHint
  else .error .ambiguousSigner

/-- Keys with one fingerprint have one wire form, as far as SHA-256 does not
collide on them. -/
theorem marshal_eq_of_fingerprint_eq {S : Set Bytes} (hS : Set.InjOn crypto.sha256 S) {k k' : Key}
    (hk : ssh.marshal k ∈ S) (hk' : ssh.marshal k' ∈ S)
    (h : fingerprint crypto ssh k = fingerprint crypto ssh k') : ssh.marshal k = ssh.marshal k' :=
  hS hk hk' (Base64.rawStdEncode_injective h)

end LunaZTrust.Keystore
