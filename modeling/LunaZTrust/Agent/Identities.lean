import LunaZTrust.Keystore.Fingerprint

/-!
# The identities of the agent

`agent/identities.go` and `agent/fingerprint.go`: the keys that luna-agent offers to OpenSSH,
chosen once, when it starts.  In local-key mode they are the hosted keys the proxy has
loaded, as its capabilities list them.  In the other mode there is one, which the agent
generates and throws away the private key of.

A loaded signer that comes without its public key is given the configured one.  Where a filter is
set, the two are compared; where none is set and there is a single signer they are not, and the
agent may offer a key the proxy does not have (`identities_signable_iff`,
`fallback_not_signable`).
-/

namespace LunaZTrust.Agent

open LunaZTrust.Go LunaZTrust.Ssh LunaZTrust.Keystore

variable {Key Signer : Type} (crypto : Crypto) (ssh : Package Key Signer)

/-- `SignerModeLocalCA`. -/
def signerModeLocalCA : GoString := str "local-ca"

/-- `SignerModeLocalKey`. -/
def signerModeLocalKey : GoString := str "local-key"

/-- `Config`, as far as identities and signing depend on it. -/
structure Config where
  targetUser : GoString
  targetHost : GoString
  signerMode : GoString
  hostKeyFingerprint : GoString
  hostedPublicKey : GoString
deriving DecidableEq, Repr

/-- `LoadedSigner`. -/
structure LoadedSigner where
  fingerprint : GoString
  publicKey : GoString
deriving DecidableEq, Repr

/-- `Capabilities`, as far as identities depend on them. -/
structure Capabilities where
  signerMode : GoString
  isSealed : Bool
  loadedSigners : List LoadedSigner
deriving DecidableEq, Repr

/-- `agent.Key`: a public key in its wire form. -/
structure AgentKey where
  format : GoString
  blob : Bytes
deriving DecidableEq, Repr

/-- `Key.Verify`. -/
def AgentKey.verify (key : AgentKey) (data : Bytes) (sig : Signature) : Bool :=
  match ssh.parsePublicKey key.blob with
  | none => false
  | some pub => ssh.verify pub data sig

/-- `agentKeyFromPublic`. -/
def agentKeyFromPublic (pub : Key) : AgentKey := ⟨ssh.keyType pub, ssh.marshal pub⟩

/-- `PublicKeyFingerprint`, of a key with the given wire form. -/
def publicKeyFingerprint (wire : Bytes) : GoString := Base64.rawStdEncode (crypto.sha256 wire)

/-- `normalizeFingerprintHint`. -/
def normalizeFingerprintHint (s : GoString) : GoString :=
  Strings.trimRight (Strings.trimPrefix (Strings.trimSpace s) (str "SHA256:")) Base64.padChar

/-- The errors of `ResolveIdentities`. -/
inductive IdentityError
  | fetchCapabilities
  | generateKey
  | isSealed
  | noSigners
  | readHostedPublicKey
  | parsePublicKey
  | noPublicKey (missing : Nat)
  | noMatch
deriving DecidableEq, Repr

/-- The texts of the errors; for those that wrap another error, the text in front of that. -/
def IdentityError.message : IdentityError → String
  | .fetchCapabilities => "fetch capabilities: "
  | .generateKey => "generate ephemeral key: "
  | .isSealed =>
      "proxy keystore is sealed; on the proxy host load a signing key: " ++
        "luna-proxy key load <encrypted-key>"
  | .noSigners => "no host signing keys loaded on proxy (use: luna-proxy key load)"
  | .readHostedPublicKey => "read hosted_public_key: "
  | .parsePublicKey => "parse loaded signer public key: "
  | .noPublicKey missing =>
      "proxy has " ++ toString missing ++ " loaded key(s) but capabilities returned no " ++
        "public_key; rebuild luna-proxy (make build) or set hosted_public_key in agent config"
  | .noMatch =>
      "no matching host signing keys (check host_key_fingerprint or hosted_public_key)"

/-- `loadHostedPublicKeyLine`, with the files it can read. -/
def loadHostedPublicKeyLine (readFile : GoString → Option Bytes) (pathOrLine : GoString) :
    Except IdentityError GoString :=
  let pathOrLine := Strings.trimSpace pathOrLine
  if pathOrLine = [] then .ok []
  else if Strings.hasPrefix pathOrLine (str "ssh-") then .ok pathOrLine
  else
    match readFile pathOrLine with
    | none => .error .readHostedPublicKey
    | some raw => .ok (Strings.trimSpace raw)

/-- `parsePublicKeyLine`. -/
def parsePublicKeyLine (line : GoString) : Option Key :=
  if line = [] then none else (ssh.parseAuthorizedKey line).or (ssh.parsePublicKey line)

/-- The line a loaded signer's key is read from: its own, or the configured one if that can only
be this signer's. -/
def signerLine (caps : Capabilities) (filter fallbackLine : GoString) (s : LoadedSigner) :
    GoString :=
  let pubLine := Strings.trimSpace s.publicKey
  match parsePublicKeyLine ssh fallbackLine with
  | none => pubLine
  | some fallbackPub =>
      if pubLine = [] ∧ (filter ≠ [] ∨ caps.loadedSigners.length = 1) ∧
          (filter = [] ∨ normalizeFingerprintHint s.fingerprint =
            publicKeyFingerprint crypto (ssh.marshal fallbackPub)) then
        fallbackLine
      else pubLine

/-- The loop over the loaded signers, with the keys it has and the number of those without a
line. -/
def resolveSigners (filter : GoString) (line : LoadedSigner → GoString) :
    List LoadedSigner → List AgentKey → Nat → Except IdentityError (List AgentKey × Nat)
  | [], keys, missing => .ok (keys, missing)
  | s :: rest, keys, missing =>
      if filter ≠ [] ∧ normalizeFingerprintHint s.fingerprint ≠ filter then
        resolveSigners filter line rest keys missing
      else if line s = [] then resolveSigners filter line rest keys (missing + 1)
      else
        match parsePublicKeyLine ssh (line s) with
        | none => .error .parsePublicKey
        | some pub =>
            resolveSigners filter line rest (keys ++ [agentKeyFromPublic ssh pub]) missing

/-- `resolveLocalKeyIdentities`. -/
def resolveLocalKeyIdentities (readFile : GoString → Option Bytes) (caps : Capabilities)
    (cfg : Config) : Except IdentityError (List AgentKey) :=
  if caps.isSealed then .error .isSealed
  else if caps.loadedSigners = [] then .error .noSigners
  else
    match loadHostedPublicKeyLine readFile cfg.hostedPublicKey with
    | .error e => .error e
    | .ok fallbackLine =>
        let filter := normalizeFingerprintHint cfg.hostKeyFingerprint
        match resolveSigners ssh filter (signerLine crypto ssh caps filter fallbackLine)
            caps.loadedSigners [] 0 with
        | .error e => .error e
        | .ok (keys, missing) =>
            if keys = [] ∧ missing > 0 then .error (.noPublicKey missing)
            else if keys = [] then .error .noMatch
            else .ok keys

/-- `resolveLocalCAIdentities`, with the key it generates. -/
def resolveLocalCAIdentities (priv : Option Signer) : Except IdentityError (List AgentKey) :=
  match priv with
  | none => .error .generateKey
  | some priv => .ok [agentKeyFromPublic ssh (ssh.publicKey priv)]

/-- `ResolveIdentities`, with the capabilities it fetches, the mode of the client, the files it can
read and the key it generates. -/
def resolveIdentities (caps : Option Capabilities) (clientMode : GoString) (cfg : Config)
    (readFile : GoString → Option Bytes) (priv : Option Signer) :
    Except IdentityError (List AgentKey) :=
  match caps with
  | none => .error .fetchCapabilities
  | some caps =>
      let mode := if caps.signerMode = [] then clientMode else caps.signerMode
      let mode := if mode = [] then cfg.signerMode else mode
      if mode = signerModeLocalKey then resolveLocalKeyIdentities crypto ssh readFile caps cfg
      else resolveLocalCAIdentities ssh priv

/-! ## Identities are keys -/

variable {crypto ssh}

/-- Where the keys of the loop come from. -/
theorem resolveSigners_source {filter : GoString} {line : LoadedSigner → GoString}
    {signers : List LoadedSigner} {keys keys' : List AgentKey} {missing missing' : Nat}
    (h : resolveSigners ssh filter line signers keys missing = .ok (keys', missing')) :
    ∀ key ∈ keys', key ∈ keys ∨ ∃ s ∈ signers, ∃ pub,
      (filter ≠ [] → normalizeFingerprintHint s.fingerprint = filter) ∧
        parsePublicKeyLine ssh (line s) = some pub ∧ key = agentKeyFromPublic ssh pub := by
  induction signers generalizing keys missing with
  | nil =>
      cases h
      exact fun key hkey ↦ .inl hkey
  | cons s rest ih =>
      -- what comes from the rest comes from the whole
      have hrest : ∀ {keys₁ missing₁},
          resolveSigners ssh filter line rest keys₁ missing₁ = .ok (keys', missing') →
          ∀ key ∈ keys', key ∈ keys₁ ∨ ∃ s' ∈ s :: rest, ∃ pub,
            (filter ≠ [] → normalizeFingerprintHint s'.fingerprint = filter) ∧
              parsePublicKeyLine ssh (line s') = some pub ∧ key = agentKeyFromPublic ssh pub := by
        intro keys₁ missing₁ h₁ key hkey
        refine (ih h₁ key hkey).imp_right ?_
        rintro ⟨s', hs', hsource⟩
        exact ⟨s', List.mem_cons_of_mem _ hs', hsource⟩
      rw [resolveSigners] at h
      split at h
      · exact hrest h
      · next hfilter =>
          split at h
          · exact hrest h
          · split at h
            · cases h
            · next pub hpub =>
                intro key hkey
                rcases hrest h key hkey with hkey | hkey
                · rcases List.mem_append.mp hkey with hkey | hkey
                  · exact .inl hkey
                  · refine .inr ⟨s, List.mem_cons_self, pub, fun hne ↦ ?_, hpub,
                      List.mem_singleton.mp hkey⟩
                    by_contra hfp
                    exact hfilter ⟨hne, hfp⟩
                · exact .inr hkey

/-- How the identities of local-key mode are found. -/
theorem resolveLocalKeyIdentities_eq_ok {caps : Capabilities} {cfg : Config}
    {readFile : GoString → Option Bytes} {keys : List AgentKey}
    (h : resolveLocalKeyIdentities crypto ssh readFile caps cfg = .ok keys) :
    ∃ fallbackLine missing,
      loadHostedPublicKeyLine readFile cfg.hostedPublicKey = .ok fallbackLine ∧
      resolveSigners ssh (normalizeFingerprintHint cfg.hostKeyFingerprint)
        (signerLine crypto ssh caps (normalizeFingerprintHint cfg.hostKeyFingerprint) fallbackLine)
        caps.loadedSigners [] 0 = .ok (keys, missing) := by
  rw [resolveLocalKeyIdentities] at h
  split at h
  · cases h
  split at h
  · cases h
  split at h
  · cases h
  next fallbackLine hline =>
    dsimp only at h
    split at h
    · cases h
    next hsigners =>
      split at h
      · cases h
      split at h
      · cases h
      cases h
      exact ⟨fallbackLine, _, hline, hsigners⟩

theorem resolveLocalKeyIdentities_mem {caps : Capabilities} {cfg : Config}
    {readFile : GoString → Option Bytes} {keys : List AgentKey}
    (h : resolveLocalKeyIdentities crypto ssh readFile caps cfg = .ok keys)
    {key : AgentKey} (hkey : key ∈ keys) : ∃ pub, key = agentKeyFromPublic ssh pub := by
  obtain ⟨_, _, -, hsigners⟩ := resolveLocalKeyIdentities_eq_ok h
  obtain ⟨_, -, pub, -, -, hpub⟩ :=
    (resolveSigners_source hsigners key hkey).resolve_left List.not_mem_nil
  exact ⟨pub, hpub⟩

/-- Whatever the mode, each identity is the wire form of a key. -/
theorem resolveIdentities_mem {caps : Option Capabilities} {clientMode : GoString} {cfg : Config}
    {readFile : GoString → Option Bytes} {priv : Option Signer} {keys : List AgentKey}
    (h : resolveIdentities crypto ssh caps clientMode cfg readFile priv = .ok keys)
    {key : AgentKey} (hkey : key ∈ keys) : ∃ pub, key = agentKeyFromPublic ssh pub := by
  cases caps with
  | none => exact nomatch h
  | some caps =>
      rcases ite_eq_iff.mp h with ⟨-, h⟩ | ⟨-, h⟩
      · exact resolveLocalKeyIdentities_mem h hkey
      · cases priv with
        | none => exact nomatch h
        | some priv =>
            cases h
            exact ⟨_, List.mem_singleton.mp hkey⟩

/-! ## Identities the proxy can sign for -/

section Signable

variable {caps : Capabilities} {cfg : Config} {readFile : GoString → Option Bytes}
  {keys : List AgentKey}

/-- The public keys that come with the signers have the signers' fingerprints. -/
def Capabilities.Matching (crypto : Crypto) (ssh : Package Key Signer) (caps : Capabilities) :
    Prop :=
  ∀ s ∈ caps.loadedSigners, ∀ pub,
    parsePublicKeyLine ssh (Strings.trimSpace s.publicKey) = some pub →
      publicKeyFingerprint crypto (ssh.marshal pub) = normalizeFingerprintHint s.fingerprint

/-- The key has the fingerprint of a loaded signer, and the one that is filtered for. -/
def Signable (crypto : Crypto) (caps : Capabilities) (cfg : Config) (key : AgentKey) : Prop :=
  (∃ s ∈ caps.loadedSigners,
    publicKeyFingerprint crypto key.blob = normalizeFingerprintHint s.fingerprint) ∧
  (normalizeFingerprintHint cfg.hostKeyFingerprint ≠ [] →
    publicKeyFingerprint crypto key.blob = normalizeFingerprintHint cfg.hostKeyFingerprint)

/-- Where no filter is set and a single signer comes without a public key, the configured key has
the fingerprint of the signer. -/
def FallbackMatches (crypto : Crypto) (ssh : Package Key Signer)
    (readFile : GoString → Option Bytes) (caps : Capabilities) (cfg : Config) : Prop :=
  normalizeFingerprintHint cfg.hostKeyFingerprint = [] → ∀ s, caps.loadedSigners = [s] →
    Strings.trimSpace s.publicKey = [] → ∀ line pub,
      loadHostedPublicKeyLine readFile cfg.hostedPublicKey = .ok line →
      parsePublicKeyLine ssh line = some pub →
        publicKeyFingerprint crypto (ssh.marshal pub) = normalizeFingerprintHint s.fingerprint

theorem parsePublicKeyLine_nil : parsePublicKeyLine ssh [] = none := if_pos rfl

/-- The key of a signer is its own or, where it has none, the configured one. -/
theorem signerLine_cases (caps : Capabilities) (filter fallbackLine : GoString) (s : LoadedSigner)
    {pub : Key}
    (h : parsePublicKeyLine ssh (signerLine crypto ssh caps filter fallbackLine s) = some pub) :
    parsePublicKeyLine ssh (Strings.trimSpace s.publicKey) = some pub ∨
      Strings.trimSpace s.publicKey = [] ∧ parsePublicKeyLine ssh fallbackLine = some pub ∧
        (filter ≠ [] ∨ caps.loadedSigners.length = 1) ∧
        (filter = [] ∨ normalizeFingerprintHint s.fingerprint =
          publicKeyFingerprint crypto (ssh.marshal pub)) := by
  rw [signerLine] at h
  split at h
  · exact .inl h
  · next fallbackPub hfallback =>
      split at h
      · next hcond =>
          cases hfallback.symm.trans h
          exact .inr ⟨hcond.1, h, hcond.2⟩
      · exact .inl h

/-- **Identities the proxy can sign for.**  Let the public keys the proxy reports have the
fingerprints it reports them with.  Then every key the agent offers in local-key mode has the
fingerprint of a loaded signer, and the one that is filtered for, just if the configured key, where
it stands in for that of a single signer without a filter, is the key of that signer. -/
theorem identities_signable_iff (hcaps : caps.Matching crypto ssh)
    (h : resolveLocalKeyIdentities crypto ssh readFile caps cfg = .ok keys) :
    (∀ key ∈ keys, Signable crypto caps cfg key) ↔
      FallbackMatches crypto ssh readFile caps cfg := by
  obtain ⟨fallbackLine, missing, hline, hsigners⟩ := resolveLocalKeyIdentities_eq_ok h
  constructor
  · intro hkeys hfilter s hs hempty line pub hline' hpub
    cases hline.symm.trans hline'
    -- the only identity is the configured key
    have hsigner : signerLine crypto ssh caps [] fallbackLine s = fallbackLine := by
      rw [signerLine, hpub]
      exact if_pos ⟨hempty, .inr (by rw [hs]; rfl), .inl rfl⟩
    have hne : fallbackLine ≠ [] := by
      rintro rfl
      cases parsePublicKeyLine_nil.symm.trans hpub
    rw [hs, hfilter, resolveSigners, if_neg fun hc ↦ hc.1 rfl, hsigner, if_neg hne, hpub]
      at hsigners
    cases hsigners
    obtain ⟨s', hs', hfp⟩ := (hkeys _ List.mem_cons_self).1
    rw [hs, List.mem_singleton] at hs'
    rwa [hs'] at hfp
  · intro hfallback key hkey
    obtain ⟨s, hs, pub, hfilter, hpub, rfl⟩ :=
      (resolveSigners_source hsigners key hkey).resolve_left List.not_mem_nil
    have hfp : publicKeyFingerprint crypto (ssh.marshal pub) =
        normalizeFingerprintHint s.fingerprint := by
      rcases signerLine_cases caps _ fallbackLine s hpub with
        hown | ⟨hempty, hpub, hone, hmatch⟩
      · exact hcaps s hs pub hown
      · rcases hmatch with hnil | hmatch
        · have hsingle := hone.resolve_left fun hne ↦ hne hnil
          obtain ⟨s', hs'⟩ := List.length_eq_one_iff.mp hsingle
          obtain rfl : s = s' := List.mem_singleton.mp (hs' ▸ hs)
          exact hfallback hnil s hs' hempty fallbackLine pub hline hpub
        · exact hmatch.symm
    exact ⟨⟨s, hs, hfp⟩, fun hne ↦ hfp.trans (hfilter hne)⟩

end Signable

/-- The proxy has one key loaded and does not report its public key. -/
def fingerprintOnly : Capabilities where
  signerMode := signerModeLocalKey
  isSealed := false
  loadedSigners := [⟨publicKeyFingerprint Crypto.plain (str "ssh-hosted"), []⟩]

theorem fingerprintOnly_matching : fingerprintOnly.Matching Crypto.plain Package.plain := by
  intro s hs pub hpub
  cases List.mem_singleton.mp hs
  cases hpub

/-- A configuration without a filter, with a public key. -/
def fallbackConfig (line : String) : Config where
  targetUser := str "deploy"
  targetHost := str "10.0.0.9"
  signerMode := signerModeLocalKey
  hostKeyFingerprint := []
  hostedPublicKey := str line

/-- With the key of the signer, the agent offers it. -/
theorem identities_signable_hosted :
    resolveLocalKeyIdentities Crypto.plain Package.plain (fun _ ↦ none) fingerprintOnly
        (fallbackConfig "ssh-hosted") = .ok [⟨str "plain", str "ssh-hosted"⟩] ∧
      Signable Crypto.plain fingerprintOnly (fallbackConfig "ssh-hosted")
        ⟨str "plain", str "ssh-hosted"⟩ := by
  have hkeys : resolveLocalKeyIdentities Crypto.plain Package.plain (fun _ ↦ none) fingerprintOnly
      (fallbackConfig "ssh-hosted") = .ok [⟨str "plain", str "ssh-hosted"⟩] := by decide +kernel
  have hfallback : FallbackMatches Crypto.plain Package.plain (fun _ ↦ none) fingerprintOnly
      (fallbackConfig "ssh-hosted") := by
    intro _ s hs _ line pub hline hpub
    have hline' : loadHostedPublicKeyLine (fun _ ↦ none) (str "ssh-hosted") =
        .ok (str "ssh-hosted") := by decide +kernel
    have hpub' : parsePublicKeyLine Package.plain (str "ssh-hosted") = some (str "ssh-hosted") := by
      decide +kernel
    cases hline'.symm.trans hline
    cases hpub'.symm.trans hpub
    cases hs
    decide +kernel
  exact ⟨hkeys, (identities_signable_iff fingerprintOnly_matching hkeys).mpr hfallback _
    List.mem_cons_self⟩

/-- **A key the proxy does not have.**  With another key, the agent offers that. -/
theorem fallback_not_signable :
    resolveLocalKeyIdentities Crypto.plain Package.plain (fun _ ↦ none) fingerprintOnly
        (fallbackConfig "ssh-other") = .ok [⟨str "plain", str "ssh-other"⟩] ∧
      fingerprintOnly.Matching Crypto.plain Package.plain ∧
      ¬Signable Crypto.plain fingerprintOnly (fallbackConfig "ssh-other")
        ⟨str "plain", str "ssh-other"⟩ := by
  refine ⟨by decide +kernel, fingerprintOnly_matching, ?_⟩
  rintro ⟨⟨s, hs, hfp⟩, -⟩
  cases List.mem_singleton.mp hs
  revert hfp
  decide +kernel

end LunaZTrust.Agent
