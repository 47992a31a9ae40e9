import LunaZTrust.Api.SignHandler

/-!
# How long a leased credential lasts

`IssueFromLease` turns the expiry of the lease into a duration, against one reading of the
clock, and the duration back into an instant, against a later one.  The credential
outlives the lease by the time between the two (`issueFromLease_expiresAt_iff`).  In
local-ca mode the certificate is cut to whole seconds, which makes up for the delay unless the
second changes in between.
-/

namespace LunaZTrust.Api

open LunaZTrust.Go LunaZTrust.Ssh LunaZTrust.Keystore LunaZTrust.Approval LunaZTrust.Signing

variable {Key Signer : Type} {ssh : Package Key Signer} {ks : Keystore Signer} {certAt : Time}
  {rand : Bytes} {cfg : Approval.Config} {signers : Signers} {leases : Option Lease.Store}
  {t : Readings} {input : SignInput} {res : Result} {started : List Effect}

/-- A credential is good until the instant the signer is asked for, and so is the certificate,
up to its second. -/
theorem issueForTransaction_expiresAt {tx : Transaction} {validUntil : Time}
    (hissuer : signers.issuer = some (issueCert ssh ks certAt rand))
    (h : issueForTransaction cfg signers tx validUntil = .ok res) :
    res.expiresAt = validUntil ∧ (cfg.signerMode = .localCA →
      ∃ caSigner cert, ks.sshSigner = .ok caSigner ∧
        ssh.signCert caSigner rand cert = some res.cert ∧
        cert.validBefore = toUint64 (Time.unix validUntil)) := by
  rw [issueForTransaction] at h
  split at h
  · next hmode =>
      obtain ⟨-, _, _, _, -, -, -, rfl⟩ := issueLocalKey_eq_ok h
      exact ⟨rfl, fun hca ↦ nomatch hmode.symm.trans hca⟩
  · rw [issueLocalCA, hissuer] at h
    dsimp only at h
    split at h
    · exact nomatch h
    · next issued hissued =>
        cases h
        obtain ⟨hexp, hcert⟩ := issueCert_eq_ok hissued
        exact ⟨hexp, fun _ ↦ hcert⟩

/-! ## Two requests -/

/-- A package whose certificates show the second until which they are valid. -/
def showingPackage : Package Bytes Bytes :=
  { Package.plain with signCert := fun _ _ cert ↦ some (Strconv.formatInt cert.validBefore) }

/-- A keystore with a certificate authority. -/
def caKeystore : Keystore Bytes :=
  (Keystore.newWithMode .localCA).store Crypto.plain showingPackage [8] []

/-- The expiry of the lease, one nanosecond before a full second. -/
def leaseEnd : Time := 1300 * Time.second - 1

/-- A request for access to one host. -/
def leasedInput : SignInput where
  targetUser := str "deploy"
  targetIP := str "10.0.0.5"
  publicKey := [7]
  sourceIP := []
  clientCertFP := str "aa"
  agentSignData := []
  hostKeyFP := []
  destinationHostKeyFP := []
  client := ⟨[], [], [], [], false⟩

/-- Its lease. -/
def leasedStore : Lease.Store :=
  Lease.Store.new.put (Lease.newFullKey leasedInput.lookup (str "telegram:1")) leaseEnd

/-- The clock is read at second 1000, and last some nanoseconds later. -/
def readingsWithDelay (delay : Nat) : Readings where
  validatedAt := 1000 * Time.second
  seenAt := 1000 * Time.second
  foundAt := 1000 * Time.second
  remainingAt := 1000 * Time.second
  issuedAt := 1000 * Time.second + delay
  createdAt := 1000 * Time.second + delay
  armedAt := 1000 * Time.second + delay

/-- The request served from the lease in local-ca mode. -/
def issueWithDelay (delay : Nat) : Option Result × List Effect :=
  issueFromLease ⟨str "prod", .localCA, 60 * Time.second⟩ (some leasedStore)
    ⟨some (issueCert showingPackage caKeystore (1000 * Time.second + delay) []), none⟩
    (readingsWithDelay delay) leasedInput

end LunaZTrust.Api
