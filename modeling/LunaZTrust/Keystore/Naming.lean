import LunaZTrust.Keystore.Hints
import LunaZTrust.Keystore.Keystore

/-!
# The ways to name a hosted key

A hosted key can be named by a hint, by its public key, or by both.  `ParseFingerprintHint` reads a
hint as 64 hexadecimal digits or as base64, and gives the fingerprint it stands for.  The
other functions do not read it: they cut off white space, `SHA256:` and padding, and compare
what is left with the fingerprint.

So a hint that `ParseFingerprintHint` takes for a key names it everywhere only if it is the
fingerprint itself up to what is cut off (`hint_names_key_iff`).  Hexadecimal digits are not
(`hex_hint_disagrees`), nor is base64 with line breaks in it.
-/

namespace LunaZTrust.Keystore

open LunaZTrust.Go LunaZTrust.Ssh

/-! ## Hints and keys -/

section Hints

variable {Key Signer : Type} {crypto : Crypto} {ssh : Package Key Signer} {pub : Key}
  {hint fp : GoString}

/-- A hint alone is read, however often it was normalized before. -/
theorem resolve_hint (h : parseFingerprintHint hint = .ok fp) :
    resolveHostKeyFingerprint crypto ssh [] hint = .ok fp := by
  obtain ⟨raw, hraw, hfp⟩ := parseFingerprintHint_eq_ok_iff.mp h
  rw [resolveHostKeyFingerprint, if_neg fun h ↦ h rfl, if_pos (normalize_ne_nil h)]
  exact parseFingerprintHint_eq_ok_iff.mpr ⟨raw, spelledDigest_normalize hraw, hfp⟩

/-- With the public key, the hint is compared as it is. -/
theorem resolve_hostPublicKey (hparse : ssh.parsePublicKey (ssh.marshal pub) = some pub)
    (hne : ssh.marshal pub ≠ []) (hint : GoString) :
    resolveHostKeyFingerprint crypto ssh (Base64.stdEncode (ssh.marshal pub)) hint =
      if normalizeFingerprintInput hint ≠ [] ∧
          normalizeFingerprintInput hint ≠ fingerprint crypto ssh pub then
        .error .fingerprintMismatch
      else .ok (fingerprint crypto ssh pub) := by
  have hb64 : Base64.stdEncode (ssh.marshal pub) ≠ [] := by
    intro hnil
    have hdecode := Base64.stdDecode_stdEncode (ssh.marshal pub)
    rw [hnil] at hdecode
    exact hne (Option.some.inj hdecode).symm
  rw [resolveHostKeyFingerprint, if_pos hb64, Base64.stdDecode_stdEncode]
  dsimp only
  rw [hparse]

/-- The pool looks the hint up as it is. -/
theorem get_eq_ok_iff {pool : LocalKeyPool Signer} {signer : Signer} :
    pool.get hint = .ok signer ↔ ∃ entry,
      AList.lookup (normalizeFingerprintInput hint) pool = some entry ∧ entry.signer = signer := by
  rw [LocalKeyPool.get]
  cases AList.lookup (normalizeFingerprintInput hint) pool with
  | none =>
      refine iff_of_false (fun h ↦ ?_) ?_
      · dsimp only at h
        split at h <;> cases h
      · rintro ⟨_, h, -⟩
        cases h
  | some entry =>
      refine ⟨fun h ↦ ⟨entry, rfl, Except.ok.inj h⟩, ?_⟩
      rintro ⟨_, ⟨⟩, rfl⟩
      rfl

/-- Removing normalizes the hint twice. -/
theorem removeSigner_eq_ok_iff {k : Keystore Signer} {pool : LocalKeyPool Signer}
    {entry : LoadedSigner Signer} (hmode : k.mode = .localKey) (hpool : k.pool = some pool)
    (hentry : AList.lookup fp pool = some entry) :
    k.removeSigner crypto ssh hint = (.ok (), { k with pool := some (pool.erase fp) }) ↔
      normalizeFingerprintInput (normalizeFingerprintInput hint) = fp := by
  rw [Keystore.removeSigner, hmode]
  dsimp only
  rw [hpool]
  dsimp only
  rw [LocalKeyPool.remove]
  generalize normalizeFingerprintInput (normalizeFingerprintInput hint) = name
  constructor
  · intro h
    obtain ⟨hok, hkeystore⟩ := Prod.mk.inj h
    cases hname : AList.lookup name pool with
    | none =>
        rw [hname] at hok
        cases hok
    | some _ =>
        rw [hname] at hkeystore
        have herase : AList.erase name pool = AList.erase fp pool :=
          Option.some.inj (congrArg Keystore.pool hkeystore)
        have hgone : AList.lookup fp (AList.erase name pool) = none := by
          rw [herase, AList.lookup_erase]
        by_contra hne
        rw [AList.lookup_erase_ne fun h ↦ hne h.symm, hentry] at hgone
        cases hgone
  · rintro rfl
    rw [hentry]

/-- **What names a hosted key.**  Let a hint be one that `ParseFingerprintHint` takes for the key.
The hint alone, and the key alone, are resolved to the fingerprint.  The two together are just if
the hint is the fingerprint up to white space around it, `SHA256:` and padding, and that is also
when the pool finds the key.  To remove it, white space may also stand behind `SHA256:` and before the
padding. -/
theorem hint_names_key_iff (hparse : ssh.parsePublicKey (ssh.marshal pub) = some pub)
    (hne : ssh.marshal pub ≠ [])
    (hhint : parseFingerprintHint hint = .ok (fingerprint crypto ssh pub)) :
    resolveHostKeyFingerprint crypto ssh [] hint = .ok (fingerprint crypto ssh pub) ∧
    resolveHostKeyFingerprint crypto ssh (Base64.stdEncode (ssh.marshal pub)) [] =
      .ok (fingerprint crypto ssh pub) ∧
    (resolveHostKeyFingerprint crypto ssh (Base64.stdEncode (ssh.marshal pub)) hint =
        .ok (fingerprint crypto ssh pub) ↔
      normalizeFingerprintInput hint = fingerprint crypto ssh pub) ∧
    ∀ (k : Keystore Signer) pool entry, k.mode = .localKey → k.Keyed crypto ssh →
      k.pool = some pool → AList.lookup (fingerprint crypto ssh pub) pool = some entry →
        (pool.get hint = .ok entry.signer ↔
          normalizeFingerprintInput hint = fingerprint crypto ssh pub) ∧
        (k.removeSigner crypto ssh hint =
            (.ok (), { k with pool := some (pool.erase (fingerprint crypto ssh pub)) }) ↔
          normalizeFingerprintInput (normalizeFingerprintInput hint) =
            fingerprint crypto ssh pub) := by
  refine ⟨resolve_hint hhint, ?_, ?_, fun k pool entry hmode hkeyed hpool hentry ↦ ⟨?_, ?_⟩⟩
  · rw [resolve_hostPublicKey hparse hne]
    exact if_neg fun h ↦ h.1 rfl
  · rw [resolve_hostPublicKey hparse hne]
    by_cases heq : normalizeFingerprintInput hint = fingerprint crypto ssh pub
    · exact iff_of_true (if_neg fun h ↦ h.2 heq) heq
    · rw [if_pos ⟨normalize_ne_nil hhint, heq⟩]
      exact iff_of_false (fun h ↦ by cases h) heq
  · rw [get_eq_ok_iff]
    constructor
    · rintro ⟨entry', hentry', hsigner⟩
      rw [hkeyed pool hpool _ _ hentry', hsigner, ← hkeyed pool hpool _ _ hentry]
    · intro heq
      exact ⟨entry, by rw [heq, hentry], rfl⟩
  · exact removeSigner_eq_ok_iff hmode hpool hentry

end Hints

/-- A key whose digest has the right length. -/
def digestKey : Bytes := (List.range 32).map UInt8.ofNat

/-- Its fingerprint. -/
def digestFingerprint : GoString := fingerprint Crypto.plain Package.plain digestKey

/-- The keystore that hosts it. -/
def digestKeystore : Keystore Bytes :=
  (Keystore.newWithMode .localKey).store Crypto.plain Package.plain digestKey []

/-- The fingerprint as OpenSSH prints it, padded and with white space around it. -/
def paddedHint : GoString := str " SHA256:" ++ digestFingerprint ++ str "=\n"

theorem hint_names_key_padded :
    parseFingerprintHint paddedHint = .ok digestFingerprint ∧
    resolveHostKeyFingerprint Crypto.plain Package.plain (Base64.stdEncode digestKey) paddedHint =
      .ok digestFingerprint := by
  have hhint : parseFingerprintHint paddedHint =
      .ok (fingerprint Crypto.plain Package.plain digestKey) := by decide +kernel
  have hnames := (hint_names_key_iff rfl (by decide) hhint).2.2.1
  exact ⟨hhint, hnames.mpr (by decide +kernel)⟩

/-- **Hexadecimal digits do not name a key everywhere.**  `ParseFingerprintHint` takes them for the
key, and so the hint alone is resolved.  With the public key they are said not to match it, and
neither does the pool find the key it hosts nor can the key be removed. -/
theorem hex_hint_disagrees :
    parseFingerprintHint (Hex.encode digestKey) = .ok digestFingerprint ∧
    resolveHostKeyFingerprint Crypto.plain Package.plain [] (Hex.encode digestKey) =
      .ok digestFingerprint ∧
    resolveHostKeyFingerprint Crypto.plain Package.plain (Base64.stdEncode digestKey)
      (Hex.encode digestKey) = .error .fingerprintMismatch ∧
    digestKeystore.pool.map (fun pool ↦ pool.get digestFingerprint) = some (.ok digestKey) ∧
    digestKeystore.pool.map (fun pool ↦ pool.get (Hex.encode digestKey)) =
      some (.error .noSuchSigner) ∧
    (digestKeystore.removeSigner Crypto.plain Package.plain (Hex.encode digestKey)).1 =
      .error .noSuchSigner := by
  decide +kernel

end LunaZTrust.Keystore
