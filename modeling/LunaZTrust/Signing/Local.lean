import LunaZTrust.Keystore.Keystore

/-!
# Signing

`proxy/internal/signing`: a certificate from the CA key, or a signature of an
agent's data from a hosted key.  Both look the key up in the keystore at the
moment they sign.
-/

namespace LunaZTrust.Signing

open LunaZTrust.Go LunaZTrust.Ssh LunaZTrust.Keystore

variable {Key Signer : Type} (ssh : Package Key Signer)

/-- `IssueRequest`. -/
structure IssueRequest where
  clientPubKey : GoString
  targetUser : GoString
  targetIP : GoString
  sourceIP : GoString
  validUntil : Time
deriving DecidableEq, Repr

/-- `IssueResult`. -/
structure IssueResult where
  certificate : GoString
  expiresAt : Time
deriving DecidableEq, Repr

/-- The errors of signing. -/
inductive SigningError
  | keystore (e : KeystoreError)
  | parseClientPublicKey
  | invalidWindow
  | signCertificate
  | emptySignData
  | hostKeyFingerprintRequired
  | signAgentData
deriving DecidableEq, Repr

/-- The texts of the errors; for those that wrap an error of a library, the text
in front of that. -/
def SigningError.message : SigningError → String
  | .keystore e => e.message
  | .parseClientPublicKey => "parse client public key: "
  | .invalidWindow => "invalid cert validity window"
  | .signCertificate => "sign certificate: "
  | .emptySignData => "empty sign data"
  | .hostKeyFingerprintRequired => "host key fingerprint required"
  | .signAgentData => "sign agent data: "

/-- A `uint64` made from an `int64`. -/
def toUint64 (n : Int) : Nat := (n % 2 ^ 64).toNat

theorem toUint64_of_lt {n : Int} (h : 0 ≤ n) (hlt : n < 2 ^ 64) : (toUint64 n : Int) = n := by
  rw [toUint64, Int.emod_eq_of_lt h hlt, Int.toNat_of_nonneg h]

/-- `LocalCA.IssueCert`, at the instant it reads and with the random bytes it
draws. -/
def issueCert (ks : Keystore Signer) (now : Time) (rand : Bytes) (req : IssueRequest) :
    Except SigningError IssueResult :=
  match ks.sshSigner with
  | .error e => .error (.keystore e)
  | .ok caSigner =>
      match ssh.parseAuthorizedKey req.clientPubKey with
      | none => .error .parseClientPublicKey
      | some pub =>
          let validAfter := toUint64 (Time.unix (now - 30 * Time.second))
          let validBefore := toUint64 (Time.unix req.validUntil)
          if validBefore ≤ validAfter then .error .invalidWindow
          else
            let cert : Certificate Key :=
              { key := pub
                serial := toUint64 (wrap64 now)
                keyId := req.targetUser
                validPrincipals := [req.targetUser]
                validAfter := validAfter
                validBefore := validBefore
                sourceAddress := if req.sourceIP ≠ [] then some req.sourceIP else none }
            match ssh.signCert caSigner rand cert with
            | none => .error .signCertificate
            | some text => .ok ⟨text, req.validUntil⟩

/-- What is signed, and until when it is valid. -/
theorem issueCert_eq_ok {ssh : Package Key Signer} {ks : Keystore Signer} {now : Time}
    {rand : Bytes} {req : IssueRequest} {res : IssueResult}
    (h : issueCert ssh ks now rand req = .ok res) :
    res.expiresAt = req.validUntil ∧ ∃ caSigner cert, ks.sshSigner = .ok caSigner ∧
      ssh.signCert caSigner rand cert = some res.certificate ∧
      cert.validBefore = toUint64 (Time.unix req.validUntil) := by
  rw [issueCert] at h
  split at h
  · exact nomatch h
  · next caSigner hca =>
      split at h
      · exact nomatch h
      · dsimp only at h
        split at h
        · exact nomatch h
        · split at h
          · exact nomatch h
          · next text htext =>
              cases h
              exact ⟨rfl, caSigner, _, hca, htext, rfl⟩

/-- `LocalKey.SignAgent`, with the random bytes it draws. -/
def signAgent (ks : Keystore Signer) (rand : Bytes) (hostFP : GoString) (data : Bytes) :
    Except SigningError Bytes :=
  if data = [] then .error .emptySignData
  else if hostFP = [] then .error .hostKeyFingerprintRequired
  else
    match ks.signerForFingerprint hostFP with
    | .error e => .error (.keystore e)
    | .ok signer =>
        match ssh.sign signer rand data with
        | none => .error .signAgentData
        | some sig => .ok sig.blob

/-- A signature is one of the signer the keystore has under the fingerprint. -/
theorem signAgent_eq_ok {ssh : Package Key Signer} {ks : Keystore Signer} {rand data blob : Bytes}
    {hostFP : GoString} (h : signAgent ssh ks rand hostFP data = .ok blob) :
    ∃ signer sig, ks.signerForFingerprint hostFP = .ok signer ∧
      ssh.sign signer rand data = some sig ∧ sig.blob = blob := by
  rw [signAgent] at h
  split at h
  · exact nomatch h
  · split at h
    · exact nomatch h
    · split at h
      · exact nomatch h
      · next signer hsigner =>
          split at h
          · exact nomatch h
          · next sig hsig =>
              cases h
              exact ⟨signer, sig, hsigner, hsig, rfl⟩

end LunaZTrust.Signing
