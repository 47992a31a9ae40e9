import LunaZTrust.Go.Map
import LunaZTrust.Go.Time
import LunaZTrust.Keystore.Fingerprint

/-!
# The keystore

`proxy/internal/keystore/pool.go` and `keystore.go`: decrypted signing keys in
memory.  In local-ca mode there is one CA key; in local-key mode there is a pool
of hosted keys, each under its fingerprint.  Loading decrypts a PEM file with a
passphrase and is locked for a while after too many failures.

`Keyed` is the invariant of the pool: whatever is stored under a name is a
signer whose public key has that fingerprint.
-/

-- package `keystore` has a type `Keystore`
set_option linter.dupNamespace false

namespace LunaZTrust.Keystore

open LunaZTrust.Go LunaZTrust.Ssh

variable {Key Signer : Type} (crypto : Crypto) (ssh : Package Key Signer)

/-- The errors of the keystore. -/
inductive KeystoreError
  | noSuchSigner
  | poolEmpty
  | sealed
  | sshSignerMode
  | signerForFingerprintMode
  | unsealLocked
  | ambiguousSigner
  | mlock
  | decrypt
  | unsupportedKeyType
  | loadSigner
deriving DecidableEq, Repr

/-- The texts of the errors; for those that wrap an error of a library, the text
in front of that. -/
def KeystoreError.message : KeystoreError → String
  | .noSuchSigner => "no such signer in pool"
  | .poolEmpty => "signer pool empty"
  | .sealed => "keystore sealed"
  | .sshSignerMode => "SSHSigner: keystore sealed (use SignerForFingerprint)"
  | .signerForFingerprintMode => "SignerForFingerprint: keystore sealed"
  | .unsealLocked => "unseal temporarily locked"
  | .ambiguousSigner => "host key fingerprint required"
  | .mlock => ""
  | .decrypt => "decrypt private key: "
  | .unsupportedKeyType => "unsupported private key type (ed25519 only)"
  | .loadSigner => "load signer: "

/-! ## The pool -/

/-- `loadedSigner`. -/
structure LoadedSigner (Signer : Type) where
  signer : Signer
  comment : GoString
deriving DecidableEq

/-- `LocalKeyPool`. -/
abbrev LocalKeyPool (Signer : Type) := Map GoString (LoadedSigner Signer)

namespace LocalKeyPool

/-- `Add`, for a signer that is not nil. -/
def add (p : LocalKeyPool Signer) (signer : Signer) (comment : GoString) :
    GoString × LocalKeyPool Signer :=
  let fp := fingerprint crypto ssh (ssh.publicKey signer)
  (fp, p.insert fp ⟨signer, comment⟩)

/-- `Remove`. -/
def remove (p : LocalKeyPool Signer) (fp : GoString) :
    Except KeystoreError Unit × LocalKeyPool Signer :=
  let fp := normalizeFingerprintInput fp
  match AList.lookup fp p with
  | none => (.error .noSuchSigner, p)
  | some _ => (.ok (), p.erase fp)

/-- `Get`. -/
def get (p : LocalKeyPool Signer) (fp : GoString) : Except KeystoreError Signer :=
  let fp := normalizeFingerprintInput fp
  match AList.lookup fp p with
  | none => if p.entries.length = 0 then .error .poolEmpty else .error .noSuchSigner
  | some entry => .ok entry.signer

/-- `Available`. -/
def available (p : LocalKeyPool Signer) : Bool := decide (p.entries.length > 0)

end LocalKeyPool

/-! ## The keystore -/

/-- `Mode`. -/
inductive Mode
  | localCA
  | localKey
deriving DecidableEq, Repr

/-- `Keystore`. -/
structure Keystore (Signer : Type) where
  mode : Mode
  caSigner : Option Signer
  pool : Option (LocalKeyPool Signer)
  unsealFails : Nat
  unsealLockedUntil : Time

/-- `maxUnsealAttempts`. -/
def maxUnsealAttempts : Nat := 5

/-- `unsealCooldown`. -/
def unsealCooldown : Duration := 15 * Time.minute

namespace Keystore

/-- `NewWithMode`. -/
def newWithMode (mode : Mode) : Keystore Signer where
  mode := mode
  caSigner := none
  pool := if mode = .localKey then some ∅ else none
  unsealFails := 0
  unsealLockedUntil := Time.zero

/-- `Available`. -/
def available (k : Keystore Signer) : Bool :=
  match k.mode with
  | .localKey => k.pool.any LocalKeyPool.available
  | .localCA => k.caSigner.isSome

/-- `SSHSigner`. -/
def sshSigner (k : Keystore Signer) : Except KeystoreError Signer :=
  if k.mode = .localKey then .error .sshSignerMode
  else
    match k.caSigner with
    | none => .error .sealed
    | some signer => .ok signer

/-- `SignerForFingerprint`. -/
def signerForFingerprint (k : Keystore Signer) (fp : GoString) : Except KeystoreError Signer :=
  if k.mode ≠ .localKey then .error .signerForFingerprintMode
  else
    match k.pool with
    | none => .error .signerForFingerprintMode
    | some pool =>
        match pool.get fp with
        | .error .poolEmpty => .error .sealed
        | .error .noSuchSigner => .error .sealed
        | .error e => .error e
        | .ok signer => .ok signer

/-- `PublicKeyForFingerprint`. -/
def publicKeyForFingerprint (k : Keystore Signer) (fp : GoString) : Except KeystoreError Key :=
  (k.signerForFingerprint fp).map ssh.publicKey

/-- The fingerprints in `ListSigners`. -/
def listFingerprints (k : Keystore Signer) : List GoString :=
  match k.mode with
  | .localKey => (k.pool.map AList.keys).getD []
  | .localCA => (k.caSigner.map fun s ↦ fingerprint crypto ssh (ssh.publicKey s)).toList

/-- `SoleFingerprint`. -/
def soleFingerprint (k : Keystore Signer) : Except KeystoreError GoString :=
  match k.listFingerprints crypto ssh with
  | [fp] => .ok fp
  | _ => .error .ambiguousSigner

/-! ### Loading and removing keys -/

/-- Whether the memory of the PEM bytes, of the passphrase and of the decrypted
key could be locked. -/
structure Mlock where
  pem : Bool
  pass : Bool
  key : Bool
deriving DecidableEq, Repr

/-- `checkUnsealLock`. -/
def checkUnsealLock (k : Keystore Signer) (now : Time) :
    Except KeystoreError Unit × Keystore Signer :=
  if !Time.isZero k.unsealLockedUntil then
    if now < k.unsealLockedUntil then (.error .unsealLocked, k)
    else (.ok (), { k with unsealLockedUntil := Time.zero, unsealFails := 0 })
  else (.ok (), k)

/-- `recordUnsealFailure`. -/
def recordUnsealFailure (k : Keystore Signer) (now : Time) : Keystore Signer :=
  if k.unsealFails + 1 ≥ maxUnsealAttempts then
    { k with unsealLockedUntil := now + unsealCooldown, unsealFails := 0 }
  else { k with unsealFails := k.unsealFails + 1 }

/-- `parseEncryptedPEM`. -/
def parseEncryptedPEM (pemBytes pass : Bytes) (mlockKey : Bool) : Except KeystoreError Signer :=
  match ssh.parseRawPrivateKeyWithPassphrase pemBytes pass with
  | none => .error .decrypt
  | some .unsupported => .error .unsupportedKeyType
  | some (.ed25519 signer) =>
      if !mlockKey then .error .mlock
      else
        match signer with
        | none => .error .loadSigner
        | some signer => .ok signer

/-- The signer put where the mode wants it. -/
def store (k : Keystore Signer) (signer : Signer) (comment : GoString) : Keystore Signer :=
  match k.mode with
  | .localKey => { k with pool := some ((k.pool.getD ∅).add crypto ssh signer comment).2 }
  | .localCA => { k with caSigner := some signer }

/-- `LoadPEMBytes`.  The clock is read for the lock and again when a failure is
recorded.  The caller's bytes are zeroed once the lock has been passed; they are
the last component of the result. -/
def loadPEMBytes (k : Keystore Signer) (pemBytes passphrase : Bytes) (comment : GoString)
    (mlock : Mlock) (now failedAt : Time) :
    Except KeystoreError GoString × Keystore Signer × Bytes :=
  match k.checkUnsealLock now with
  | (.error e, k) => (.error e, k, pemBytes)
  | (.ok (), k) =>
      let zeroed := pemBytes.map fun _ ↦ 0
      if !mlock.pem then (.error .mlock, k, zeroed)
      else if !mlock.pass then (.error .mlock, k, zeroed)
      else
        match parseEncryptedPEM ssh pemBytes passphrase mlock.key with
        | .error e => (.error e, k.recordUnsealFailure failedAt, zeroed)
        | .ok signer =>
            (.ok (fingerprint crypto ssh (ssh.publicKey signer)),
              { k.store crypto ssh signer comment with unsealFails := 0 }, zeroed)

/-- `RemoveSigner`. -/
def removeSigner (k : Keystore Signer) (fp : GoString) :
    Except KeystoreError Unit × Keystore Signer :=
  let fp := normalizeFingerprintInput fp
  match k.mode with
  | .localKey =>
      match k.pool with
      | none => (.error .noSuchSigner, k)
      | some pool => ((pool.remove fp).1, { k with pool := some (pool.remove fp).2 })
  | .localCA =>
      match k.caSigner with
      | none => (.error .noSuchSigner, k)
      | some signer =>
          if fp ≠ [] ∧ fingerprint crypto ssh (ssh.publicKey signer) ≠ fp then
            (.error .noSuchSigner, k)
          else (.ok (), { k with caSigner := none })

/-- Only one thing can be wrong with a removal. -/
theorem removeSigner_error {k k' : Keystore Signer} {fp : GoString} {e : KeystoreError}
    (h : k.removeSigner crypto ssh fp = (.error e, k')) : e = .noSuchSigner := by
  rw [removeSigner] at h
  split at h
  · split at h
    · exact (Except.error.inj (Prod.mk.inj h).1).symm
    · have hremove := (Prod.mk.inj h).1
      rw [LocalKeyPool.remove] at hremove
      split at hremove
      · exact (Except.error.inj hremove).symm
      · exact nomatch hremove
  · split at h
    · exact (Except.error.inj (Prod.mk.inj h).1).symm
    · split at h
      · exact (Except.error.inj (Prod.mk.inj h).1).symm
      · exact nomatch (Prod.mk.inj h).1

/-! ### How loading ends -/

section Load

variable {crypto ssh} {k : Keystore Signer}

theorem checkUnsealLock_pool (now : Time) : (k.checkUnsealLock now).2.pool = k.pool := by
  rw [checkUnsealLock]
  split
  · split <;> rfl
  · rfl

theorem recordUnsealFailure_pool (now : Time) : (k.recordUnsealFailure now).pool = k.pool := by
  rw [recordUnsealFailure]
  split <;> rfl

theorem checkUnsealLock_cases (k : Keystore Signer) (now : Time) :
    k.checkUnsealLock now = (.error .unsealLocked, k) ∨
      ∃ k', k.checkUnsealLock now = (.ok (), k') := by
  rw [checkUnsealLock]
  split
  · split
    · exact .inl rfl
    · exact .inr ⟨_, rfl⟩
  · exact .inr ⟨_, rfl⟩

theorem parseEncryptedPEM_ne_unsealLocked {pemBytes pass : Bytes} {mlockKey : Bool} :
    parseEncryptedPEM ssh pemBytes pass mlockKey ≠ .error .unsealLocked := by
  rw [parseEncryptedPEM]
  split
  · exact nofun
  · exact nofun
  · split
    · exact nofun
    · split <;> exact nofun

variable (crypto ssh) in
/-- The ways a call of `LoadPEMBytes` can end.  A locked keystore refuses and leaves everything
as it is.  Past the lock the caller's bytes are zeroed, and the key is loaded exactly if
memory could be locked and the bytes hold a key. -/
inductive LoadEnds (k : Keystore Signer) (pemBytes passphrase : Bytes) (comment : GoString)
    (mlock : Mlock) (now : Time) : Except KeystoreError GoString × Keystore Signer × Bytes → Prop
  | locked (hlock : k.checkUnsealLock now = (.error .unsealLocked, k)) :
      LoadEnds k pemBytes passphrase comment mlock now (.error .unsealLocked, k, pemBytes)
  | failed {k₁ k₂ : Keystore Signer} {e : KeystoreError}
      (hlock : k.checkUnsealLock now = (.ok (), k₁)) (he : e ≠ .unsealLocked)
      (hpool : k₂.pool = k.pool)
      (hfail : ¬(mlock.pem = true ∧ mlock.pass = true ∧
        ∃ signer, parseEncryptedPEM ssh pemBytes passphrase mlock.key = .ok signer)) :
      LoadEnds k pemBytes passphrase comment mlock now (.error e, k₂, pemBytes.map fun _ ↦ 0)
  | loaded {k₁ : Keystore Signer} {signer : Signer}
      (hlock : k.checkUnsealLock now = (.ok (), k₁))
      (hmlock : mlock.pem = true ∧ mlock.pass = true)
      (hparse : parseEncryptedPEM ssh pemBytes passphrase mlock.key = .ok signer) :
      LoadEnds k pemBytes passphrase comment mlock now
        (.ok (fingerprint crypto ssh (ssh.publicKey signer)),
          { k₁.store crypto ssh signer comment with unsealFails := 0 }, pemBytes.map fun _ ↦ 0)

theorem loadPEMBytes_ends (k : Keystore Signer) (pemBytes passphrase : Bytes) (comment : GoString)
    (mlock : Mlock) (now failedAt : Time) :
    LoadEnds crypto ssh k pemBytes passphrase comment mlock now
      (k.loadPEMBytes crypto ssh pemBytes passphrase comment mlock now failedAt) := by
  rcases k.checkUnsealLock_cases now with hlock | ⟨k₁, hlock⟩
  · rw [loadPEMBytes, hlock]
    exact .locked hlock
  · have hpool : k₁.pool = k.pool := by
      have h := checkUnsealLock_pool (k := k) now
      rwa [hlock] at h
    rw [loadPEMBytes, hlock]
    dsimp only
    cases hpem : mlock.pem with
    | false => exact .failed hlock nofun hpool fun h ↦ nomatch hpem.symm.trans h.1
    | true =>
        cases hpass : mlock.pass with
        | false => exact .failed hlock nofun hpool fun h ↦ nomatch hpass.symm.trans h.2.1
        | true =>
            cases hparse : parseEncryptedPEM ssh pemBytes passphrase mlock.key with
            | error e =>
                refine .failed hlock ?_ ((recordUnsealFailure_pool failedAt).trans hpool) ?_
                · rintro rfl
                  exact parseEncryptedPEM_ne_unsealLocked hparse
                · rintro ⟨-, -, signer, hs⟩
                  exact nomatch hparse.symm.trans hs
            | ok signer => exact .loaded hlock ⟨hpem, hpass⟩ hparse

end Load

/-! ### What a pool holds -/

/-- Every map key is the fingerprint of the signer stored under it. -/
def Keyed (k : Keystore Signer) : Prop :=
  ∀ pool ∈ k.pool, ∀ fp entry, AList.lookup fp pool = some entry →
    fp = fingerprint crypto ssh (ssh.publicKey entry.signer)

/-- The signer is in the pool. -/
def Hosts (k : Keystore Signer) (signer : Signer) : Prop :=
  ∃ pool ∈ k.pool, ∃ fp entry, AList.lookup fp pool = some entry ∧ entry.signer = signer

variable {crypto ssh} {k : Keystore Signer}

theorem keyed_newWithMode (mode : Mode) :
    (newWithMode mode : Keystore Signer).Keyed crypto ssh := by
  cases mode with
  | localCA => exact nofun
  | localKey =>
      intro pool hpool fp entry h
      cases hpool
      exact nomatch (AList.lookup_empty fp).symm.trans h

theorem Keyed.store (h : k.Keyed crypto ssh) (signer : Signer) (comment : GoString) :
    (k.store crypto ssh signer comment).Keyed crypto ssh := by
  rw [Keystore.store]
  split
  · intro pool hpool
    cases hpool
    refine Map.forall_insert (fun fp entry hfp ↦ ?_) rfl
    cases hk : k.pool with
    | none =>
        rw [hk] at hfp
        exact nomatch (AList.lookup_empty fp).symm.trans hfp
    | some pool =>
        rw [hk] at hfp
        exact h pool hk fp entry hfp
  · exact h

/-- However loading ends, it keeps the invariant. -/
theorem Keyed.loadPEMBytes (h : k.Keyed crypto ssh) (pemBytes passphrase : Bytes)
    (comment : GoString) (mlock : Mlock) (now failedAt : Time) :
    (k.loadPEMBytes crypto ssh pemBytes passphrase comment mlock now failedAt).2.1.Keyed
      crypto ssh := by
  have hends : LoadEnds crypto ssh k pemBytes passphrase comment mlock now
      (k.loadPEMBytes crypto ssh pemBytes passphrase comment mlock now failedAt) :=
    loadPEMBytes_ends k pemBytes passphrase comment mlock now failedAt
  generalize k.loadPEMBytes crypto ssh pemBytes passphrase comment mlock now failedAt = r at hends ⊢
  cases hends with
  | locked => exact h
  | failed _ _ hpool =>
      show Keyed crypto ssh _
      rwa [Keyed, hpool]
  | loaded hlock =>
      have hk : (k.checkUnsealLock now).2.Keyed crypto ssh := by rwa [Keyed, checkUnsealLock_pool]
      rw [hlock] at hk
      exact hk.store _ comment

theorem Keyed.removeSigner (h : k.Keyed crypto ssh) (fp : GoString) :
    (k.removeSigner crypto ssh fp).2.Keyed crypto ssh := by
  rw [Keystore.removeSigner]
  split
  · split
    · exact h
    · next pool hpool =>
        rintro _ ⟨rfl⟩
        rw [LocalKeyPool.remove]
        split
        · exact h pool hpool
        · exact Map.forall_erase (h pool hpool)
  · split
    · exact h
    · split <;> exact h

/-- A signer is found under the fingerprint of its own public key, and nowhere else. -/
theorem Keyed.signerForFingerprint_eq_ok (h : k.Keyed crypto ssh) {fp : GoString} {signer : Signer}
    (hs : k.signerForFingerprint fp = .ok signer) :
    k.Hosts signer ∧
      normalizeFingerprintInput fp = fingerprint crypto ssh (ssh.publicKey signer) := by
  rw [signerForFingerprint] at hs
  split at hs
  · exact nomatch hs
  · split at hs
    · exact nomatch hs
    · next pool hpool =>
        split at hs
        · exact nomatch hs
        · exact nomatch hs
        · exact nomatch hs
        · next hget =>
            cases hs
            rw [LocalKeyPool.get] at hget
            split at hget
            · split at hget <;> exact nomatch hget
            · next entry hentry =>
                cases hget
                exact ⟨⟨pool, hpool, _, entry, hentry, rfl⟩, h pool hpool _ entry hentry⟩

theorem publicKeyForFingerprint_eq_ok {fp : GoString} {pub : Key}
    (h : k.publicKeyForFingerprint ssh fp = .ok pub) :
    ∃ signer, k.signerForFingerprint fp = .ok signer ∧ ssh.publicKey signer = pub := by
  rw [publicKeyForFingerprint] at h
  cases hs : k.signerForFingerprint fp with
  | error e => rw [hs] at h; exact nomatch h
  | ok signer =>
      rw [hs] at h
      cases h
      exact ⟨signer, rfl, rfl⟩

end Keystore

end LunaZTrust.Keystore
