import LunaZTrust.Control.Confirm
import LunaZTrust.Keystore.Naming
import LunaZTrust.Proxy.KeyIntegrity
import LunaZTrust.Sdk.SignRequest

/-!
# The keys the proxy lists, and those the agent offers

`GET /api/v1/capabilities` (`api/capabilities_handler.go`) tells a client the mode of the
proxy and the keys that are loaded.  `sdk/sign/capabilities.go` fetches that, once more if the
connection broke, and the agent makes its identities of it.  The handler asks the keystore twice,
whether it is sealed and for its signers, and the keystore may change in between.

For a proxy that starts in local-key mode and takes any number of steps, the identities are the keys
in the pool when it was listed, without those filtered out, each once; and the proxy finds each of
them by its fingerprint.  The configured public key, which stands in for keys that are not reported,
is never used (`identities_hosted`).
-/

set_option linter.dupNamespace false

/-! ## A keystore in local-key mode -/

namespace LunaZTrust.Keystore.Keystore

open LunaZTrust.Go LunaZTrust.Ssh

variable {Key Signer : Type} {crypto : Crypto} {ssh : Package Key Signer} {k : Keystore Signer}

/-- The keystore is in local-key mode, with a pool. -/
structure Pooled (k : Keystore Signer) : Prop where
  mode : k.mode = .localKey
  pool : k.pool.isSome

theorem pooled_newWithMode : (newWithMode .localKey : Keystore Signer).Pooled := ⟨rfl, rfl⟩

theorem checkUnsealLock_mode (now : Time) : (k.checkUnsealLock now).2.mode = k.mode := by
  rw [checkUnsealLock]
  split
  · split <;> rfl
  · rfl

theorem Pooled.store (h : k.Pooled) (signer : Signer) (comment : GoString) :
    (k.store crypto ssh signer comment).Pooled := by
  rw [Keystore.store, h.mode]
  exact ⟨rfl, rfl⟩

theorem Pooled.recordUnsealFailure (h : k.Pooled) (now : Time) :
    (k.recordUnsealFailure now).Pooled := by
  rw [Keystore.recordUnsealFailure]
  split <;> exact ⟨h.mode, h.pool⟩

theorem Pooled.loadPEMBytes (h : k.Pooled) (pemBytes passphrase : Bytes) (comment : GoString)
    (mlock : Mlock) (now failedAt : Time) :
    (k.loadPEMBytes crypto ssh pemBytes passphrase comment mlock now failedAt).2.1.Pooled := by
  have hlock : (k.checkUnsealLock now).2.Pooled :=
    ⟨(checkUnsealLock_mode now).trans h.mode, by rw [checkUnsealLock_pool]; exact h.pool⟩
  rw [Keystore.loadPEMBytes]
  split
  · next heq => rwa [heq] at hlock
  · next heq =>
      rw [heq] at hlock
      dsimp only
      split
      · exact hlock
      split
      · exact hlock
      split
      · exact hlock.recordUnsealFailure failedAt
      · next signer _ =>
          have hstore : (Keystore.store crypto ssh _ signer comment).Pooled :=
            hlock.store signer comment
          exact ⟨hstore.mode, hstore.pool⟩

theorem Pooled.removeSigner (h : k.Pooled) (fp : GoString) :
    (k.removeSigner crypto ssh fp).2.Pooled := by
  obtain ⟨pool, hpool⟩ := Option.isSome_iff_exists.mp h.pool
  rw [Keystore.removeSigner, h.mode]
  dsimp only
  rw [hpool]
  exact ⟨rfl, rfl⟩

/-- It is available if there is a key. -/
theorem Pooled.available_iff (h : k.Pooled) : k.available = true ↔ ∃ signer, k.Hosts signer := by
  obtain ⟨pool, hpool⟩ := Option.isSome_iff_exists.mp h.pool
  rw [available, h.mode]
  dsimp only
  rw [hpool, Option.any_some, LocalKeyPool.available, decide_eq_true_iff, gt_iff_lt,
    List.length_pos_iff_exists_mem]
  constructor
  · rintro ⟨⟨fp, entry⟩, hentry⟩
    exact ⟨entry.signer, pool, hpool, fp, entry, AList.mem_lookup_iff.mpr hentry, rfl⟩
  · rintro ⟨_, pool', hpool', fp, entry, hentry, -⟩
    cases hpool.symm.trans hpool'
    exact ⟨⟨fp, entry⟩, AList.mem_lookup_iff.mp hentry⟩

/-- A key in the pool is found by its fingerprint. -/
theorem Keyed.publicKeyForFingerprint_of_hosts (hkeyed : k.Keyed crypto ssh)
    (hmode : k.mode = .localKey) {signer : Signer} (h : k.Hosts signer) :
    k.publicKeyForFingerprint ssh (fingerprint crypto ssh (ssh.publicKey signer)) =
      .ok (ssh.publicKey signer) := by
  obtain ⟨pool, hpool, fp, entry, hentry, rfl⟩ := h
  cases hkeyed pool hpool fp entry hentry
  have hget : pool.get (fingerprint crypto ssh (ssh.publicKey entry.signer)) =
      .ok entry.signer := by
    refine get_eq_ok_iff.mpr ⟨entry, ?_, rfl⟩
    have hnormal := Sdk.normalizeFingerprintInput_publicKeyFingerprint crypto
      (ssh.marshal (ssh.publicKey entry.signer))
    exact (congrArg (AList.lookup · pool) hnormal).trans hentry
  rw [publicKeyForFingerprint, signerForFingerprint, if_neg (not_not.mpr hmode), hpool]
  dsimp only
  rw [hget]
  rfl

end LunaZTrust.Keystore.Keystore

namespace LunaZTrust.Proxy

open LunaZTrust.Go LunaZTrust.Ssh LunaZTrust.Api

variable {Key Signer : Type} {crypto : Crypto} {ssh : Package Key Signer} {lib : Library}
  {cfg : Config} {now : Time} {as : List Action} {a : Action} {s s' : System Signer}
  {log es : List Event}

/-- **Step.** -/
theorem pooled_step (h : s.keystore.Pooled) (hs : Step crypto ssh lib cfg s a s' es) :
    s'.keystore.Pooled := by
  cases hs with
  | loadPEM => exact h.loadPEMBytes _ _ _ _ _ _
  | removeSigner => exact h.removeSigner _
  | _ => exact h

/-- **Run.**  A proxy that starts in local-key mode stays in it. -/
theorem exec_pooled (hmode : cfg.approval.signerMode = .localKey)
    (hrun : (machine crypto ssh lib cfg now).exec as = some (s, log)) : s.keystore.Pooled := by
  refine (machine crypto ssh lib cfg now).execFrom_invariant (P := fun s ↦ s.keystore.Pooled)
    (fun _ _ _ _ h hs ↦ pooled_step h (.of_step hs)) ?_ hrun
  show (Keystore.Keystore.newWithMode (keystoreMode cfg.approval.signerMode)).Pooled
  rw [hmode]
  exact Keystore.Keystore.pooled_newWithMode

end LunaZTrust.Proxy

namespace LunaZTrust.Sdk

open LunaZTrust.Go LunaZTrust.Ssh LunaZTrust.Keystore
open LunaZTrust.Control (SignerInfo Platform listSigners)
open LunaZTrust.Agent (AgentKey IdentityError LoadedSigner resolveIdentities resolveSigners
  resolveLocalKeyIdentities signerLine parsePublicKeyLine loadHostedPublicKeyLine
  normalizeFingerprintHint publicKeyFingerprint agentKeyFromPublic)

variable {Key Signer PublicKey PrivateKey : Type}

/-! ## The handler -/

/-- `capabilitiesResponse`, with its `loadedSignerEntry`s. -/
structure CapabilitiesResponse where
  signerMode : GoString
  leaseSupported : Bool
  allowedTTLSeconds : List Int
  isSealed : Bool
  loadedSigners : List SignerInfo
deriving DecidableEq, Repr

/-- `handleCapabilities`, with what `Available` and then `ListSigners` return. -/
def handleCapabilities (cfg : Config.Config) (available : Bool) (signers : List SignerInfo) :
    CapabilitiesResponse where
  signerMode := cfg.signerMode
  leaseSupported := true
  allowedTTLSeconds := cfg.allowedTTLSeconds
  isSealed := !available
  loadedSigners := if available then signers else []

/-- What the agent reads in it. -/
def CapabilitiesResponse.received (r : CapabilitiesResponse) : Agent.Capabilities where
  signerMode := r.signerMode
  isSealed := r.isSealed
  loadedSigners := r.loadedSigners.map fun info ↦ ⟨info.fingerprint, info.publicKey⟩

/-! ## The client -/

/-- What the two sides take from their libraries. -/
structure CapabilitiesLibrary where
  /-- `json.NewEncoder(w).Encode` of a `capabilitiesResponse`. -/
  encode : CapabilitiesResponse → Bytes
  /-- `json.NewDecoder(r).Decode` into a `Capabilities`. -/
  decode : Bytes → Option Agent.Capabilities
  /-- `strings.ToLower`. -/
  toLower : GoString → GoString

/-- What comes of an attempt to fetch them. -/
inductive Fetch
  /-- There is no response. -/
  | failed (err : GoString)
  /-- There is one, with a body. -/
  | answered (status : Nat) (body : Bytes)
deriving DecidableEq, Repr

/-- The errors of `FetchCapabilities`. -/
inductive FetchError
  | get (err : GoString)
  | status (code : Nat)
  | invalidJSON
  | emptySignerMode
deriving DecidableEq, Repr

/-- Their texts, with that of `readHTTPError`. -/
def FetchError.message : FetchError → GoString
  | .get err => str "GET capabilities: " ++ err
  | .status code => str "GET capabilities: HTTP " ++ Strconv.formatInt code
  | .invalidJSON => str "decode capabilities: invalid json"
  | .emptySignerMode => str "capabilities: empty signer_mode"

/-- How much of a response is read. -/
def maxCapabilitiesBody : Nat := 2 ^ 20

variable (json : CapabilitiesLibrary)

/-- `fetchCapabilitiesOnce`. -/
def fetchCapabilitiesOnce : Fetch → Except FetchError Agent.Capabilities
  | .failed err => .error (.get err)
  | .answered status body =>
      if status ≠ 200 then .error (.status status)
      else
        match json.decode (body.take maxCapabilitiesBody) with
        | none => .error .invalidJSON
        | some caps => if caps.signerMode = [] then .error .emptySignerMode else .ok caps

/-- `isRetryableConnErr`. -/
def isRetryableConnErr (err : GoString) : Bool :=
  let msg := json.toLower err
  Strings.contains msg (str "eof") || Strings.contains msg (str "connection reset") ||
    Strings.contains msg (str "broken pipe") ||
    Strings.contains msg (str "use of closed network connection") ||
    Strings.contains msg (str "tls: ")

/-- `FetchCapabilities`, with what comes of its two attempts. -/
def fetchCapabilities (first second : Fetch) : Except FetchError Agent.Capabilities :=
  match fetchCapabilitiesOnce json first with
  | .ok caps => .ok caps
  | .error e =>
      if isRetryableConnErr json e.message then fetchCapabilitiesOnce json second else .error e

/-- The attempt that counts. -/
def lastTry (first second : Fetch) : Fetch :=
  match fetchCapabilitiesOnce json first with
  | .ok _ => first
  | .error e => if isRetryableConnErr json e.message then second else first

variable {json}

theorem fetchCapabilities_eq (first second : Fetch) :
    fetchCapabilities json first second =
      fetchCapabilitiesOnce json (lastTry json first second) := by
  rw [fetchCapabilities, lastTry]
  cases hfirst : fetchCapabilitiesOnce json first with
  | ok caps => exact hfirst.symm
  | error e =>
      dsimp only
      split
      · rfl
      · exact hfirst.symm

/-- An answer that is not too long is read. -/
theorem fetchCapabilitiesOnce_encode {r : CapabilitiesResponse} (hmode : r.signerMode ≠ [])
    (hsize : (json.encode r).length ≤ maxCapabilitiesBody)
    (hjson : json.decode (json.encode r) = some r.received) :
    fetchCapabilitiesOnce json (.answered 200 (json.encode r)) = .ok r.received := by
  rw [fetchCapabilitiesOnce, if_neg (not_not.mpr rfl), List.take_of_length_le hsize, hjson]
  exact if_neg hmode

/-! ## The identities -/

section Identities

variable {crypto : Crypto} {ssh : Package Key Signer}

/-- Whether the filter lets a signer through. -/
def passes (filter : GoString) (s : LoadedSigner) : Bool :=
  decide (filter = [] ∨ normalizeFingerprintHint s.fingerprint = filter)

theorem passes_iff {filter : GoString} {s : LoadedSigner} :
    passes filter s = true ↔ filter = [] ∨ normalizeFingerprintHint s.fingerprint = filter :=
  decide_eq_true_iff

/-- Where every signer has a line with a key, the loop takes them in turn. -/
theorem resolveSigners_eq {filter : GoString} {line : LoadedSigner → GoString}
    {signers : List LoadedSigner}
    (hline : ∀ s ∈ signers, ∃ pub, parsePublicKeyLine ssh (line s) = some pub)
    (keys : List AgentKey) (missing : Nat) :
    resolveSigners ssh filter line signers keys missing =
      .ok (keys ++ (signers.filter (passes filter)).filterMap fun s ↦
        (parsePublicKeyLine ssh (line s)).map (agentKeyFromPublic ssh), missing) := by
  induction signers generalizing keys with
  | nil => rw [resolveSigners, List.filter_nil, List.filterMap_nil, List.append_nil]
  | cons s rest ih =>
      have hrest := ih fun s' hs' ↦ hline s' (List.mem_cons_of_mem _ hs')
      obtain ⟨pub, hpub⟩ := hline s List.mem_cons_self
      have hne : line s ≠ [] := by
        intro hnil
        rw [hnil] at hpub
        cases Agent.parsePublicKeyLine_nil.symm.trans hpub
      rw [resolveSigners, if_neg hne, hpub]
      dsimp only
      rw [hrest, hrest, List.filter_cons]
      by_cases hpass : filter = [] ∨ normalizeFingerprintHint s.fingerprint = filter
      · rw [if_neg fun h ↦ hpass.elim h.1 h.2, if_pos (passes_iff.mpr hpass),
          List.filterMap_cons, hpub, List.append_assoc]
        rfl
      · rw [if_pos (not_or.mp hpass), if_neg fun h ↦ hpass (passes_iff.mp h)]

end Identities

section Hosted

variable {pf : Platform Key Signer PublicKey PrivateKey} {k k' : Keystore Signer}

/-- A signer as the proxy lists it: an entry of the pool with its public key. -/
def Reports (pf : Platform Key Signer PublicKey PrivateKey) (k : Keystore Signer)
    (s : LoadedSigner) : Prop :=
  ∃ pool ∈ k.pool, ∃ entry, AList.lookup s.fingerprint pool = some entry ∧
    s.publicKey = pf.lib.marshalAuthorizedKey (pf.ssh.publicKey entry.signer)

/-- In whichever order the pool is listed, the agent is told of its entries. -/
theorem mem_received_iff (hk' : k'.Pooled) {signers : List SignerInfo}
    (horder : signers.Perm (listSigners pf k')) (cfg : Config.Config) {s : LoadedSigner} :
    s ∈ (handleCapabilities cfg true signers).received.loadedSigners ↔ Reports pf k' s := by
  obtain ⟨pool, hpool⟩ := Option.isSome_iff_exists.mp hk'.pool
  have hlist : listSigners pf k' = pool.entries.map fun e ↦
      ⟨e.1, pf.lib.marshalAuthorizedKey (pf.ssh.publicKey e.2.signer), e.2.comment⟩ := by
    rw [listSigners, hk'.mode, hpool]
    rfl
  constructor
  · intro hs
    obtain ⟨info, hinfo, rfl⟩ := List.mem_map.mp hs
    have hmem : info ∈ listSigners pf k' := horder.mem_iff.mp hinfo
    rw [hlist] at hmem
    obtain ⟨⟨fp, entry⟩, hentry, rfl⟩ := List.mem_map.mp hmem
    exact ⟨pool, hpool, entry, AList.mem_lookup_iff.mpr hentry, rfl⟩
  · rintro ⟨pool', hpool', entry, hentry, hpub⟩
    cases hpool.symm.trans hpool'
    refine List.mem_map.mpr ⟨⟨s.fingerprint, s.publicKey, entry.comment⟩,
      horder.mem_iff.mpr ?_, rfl⟩
    rw [hlist, hpub]
    exact List.mem_map.mpr ⟨⟨s.fingerprint, entry⟩, AList.mem_lookup_iff.mp hentry, rfl⟩

/-- No fingerprint is listed twice. -/
theorem nodup_received (hk' : k'.Pooled) {signers : List SignerInfo}
    (horder : signers.Perm (listSigners pf k')) (cfg : Config.Config) :
    ((handleCapabilities cfg true signers).received.loadedSigners.map
      LoadedSigner.fingerprint).Nodup := by
  obtain ⟨pool, hpool⟩ := Option.isSome_iff_exists.mp hk'.pool
  have hlist : (listSigners pf k').map SignerInfo.fingerprint = pool.keys := by
    rw [listSigners, hk'.mode, hpool]
    exact List.map_map
  show ((signers.map _).map _).Nodup
  rw [List.map_map]
  exact (horder.map SignerInfo.fingerprint).nodup_iff.mpr (hlist ▸ pool.keys_nodup)

/-- The fingerprint of an entry, which the agent finds nothing to cut off. -/
theorem normalizeFingerprintHint_of_lookup (hkeyed : k'.Keyed pf.crypto pf.ssh)
    {pool : LocalKeyPool Signer} (hpool : k'.pool = some pool) {fp : GoString}
    {entry : Keystore.LoadedSigner Signer} (hentry : AList.lookup fp pool = some entry) :
    normalizeFingerprintHint fp =
      publicKeyFingerprint pf.crypto (pf.ssh.marshal (pf.ssh.publicKey entry.signer)) := by
  rw [hkeyed pool hpool fp entry hentry]
  exact normalizeFingerprintInput_publicKeyFingerprint pf.crypto _

/-- A key of the pool that the filter lets through. -/
def Offered (pf : Platform Key Signer PublicKey PrivateKey) (k : Keystore Signer)
    (filter : GoString) (key : AgentKey) : Prop :=
  ∃ signer, k.Hosts signer ∧ key = agentKeyFromPublic pf.ssh (pf.ssh.publicKey signer) ∧
    (filter = [] ∨ publicKeyFingerprint pf.crypto key.blob = filter)

/-- What `ResolveIdentities` ends with, for a keystore as it is when the handler asks whether it is
sealed, and as it is when the signers are listed. -/
inductive Resolved (pf : Platform Key Signer PublicKey PrivateKey) (asked listed : Keystore Signer)
    (cfg : Agent.Config) (readFile : GoString → Option Bytes) :
    Except IdentityError (List AgentKey) → Prop
  | isSealed (hasked : ∀ signer, ¬asked.Hosts signer) :
      Resolved pf asked listed cfg readFile (.error .isSealed)
  | noSigners {signer : Signer} (hasked : asked.Hosts signer)
      (hlisted : ∀ signer, ¬listed.Hosts signer) :
      Resolved pf asked listed cfg readFile (.error .noSigners)
  | unreadable {signer signer' : Signer} {e : IdentityError} (hasked : asked.Hosts signer)
      (hlisted : listed.Hosts signer')
      (hread : loadHostedPublicKeyLine readFile cfg.hostedPublicKey = .error e) :
      Resolved pf asked listed cfg readFile (.error e)
  | noMatch {signer signer' : Signer} {line : GoString} (hasked : asked.Hosts signer)
      (hlisted : listed.Hosts signer')
      (hread : loadHostedPublicKeyLine readFile cfg.hostedPublicKey = .ok line)
      (hkeys : ∀ key, ¬Offered pf listed (normalizeFingerprintHint cfg.hostKeyFingerprint) key) :
      Resolved pf asked listed cfg readFile (.error .noMatch)
  /-- The keys of the pool are offered, each once, and found by their fingerprints. -/
  | offered {signer : Signer} {line : GoString} {keys : List AgentKey} (hasked : asked.Hosts signer)
      (hread : loadHostedPublicKeyLine readFile cfg.hostedPublicKey = .ok line)
      (hne : keys ≠ []) (hnodup : keys.Nodup)
      (hkeys : ∀ key, key ∈ keys ↔
        Offered pf listed (normalizeFingerprintHint cfg.hostKeyFingerprint) key)
      (hfound : ∀ key ∈ keys, ∃ pub, key = agentKeyFromPublic pf.ssh pub ∧
        listed.publicKeyForFingerprint pf.ssh (publicKeyFingerprint pf.crypto key.blob) =
          .ok pub) :
      Resolved pf asked listed cfg readFile (.ok keys)

/-- The lines the proxy lists are read as the keys they were made of. -/
def ReadBack (pf : Platform Key Signer PublicKey PrivateKey) (k : Keystore Signer) : Prop :=
  ∀ signer, k.Hosts signer → parsePublicKeyLine pf.ssh
    (Strings.trimSpace (pf.lib.marshalAuthorizedKey (pf.ssh.publicKey signer))) =
      some (pf.ssh.publicKey signer)

/-- A signer that comes with a key is read from its own line. -/
theorem signerLine_of_parse {crypto : Crypto} {ssh : Package Key Signer} {caps : Agent.Capabilities}
    {filter fallbackLine : GoString} {s : LoadedSigner} {pub : Key}
    (h : parsePublicKeyLine ssh (Strings.trimSpace s.publicKey) = some pub) :
    parsePublicKeyLine ssh (signerLine crypto ssh caps filter fallbackLine s) = some pub := by
  have hne : Strings.trimSpace s.publicKey ≠ [] := by
    intro hnil
    rw [hnil] at h
    cases Agent.parsePublicKeyLine_nil.symm.trans h
  rw [signerLine]
  split
  · exact h
  · rwa [if_neg fun hc ↦ hne hc.1]

/-- The loop over what the proxy lists comes to the keys of the pool. -/
theorem resolveSigners_received (hk' : k'.Pooled) (hkeyed : k'.Keyed pf.crypto pf.ssh)
    (hback : ReadBack pf k') {signers : List SignerInfo}
    (horder : signers.Perm (listSigners pf k')) (cfg : Config.Config)
    (filter fallbackLine : GoString) :
    ∃ keys, resolveSigners pf.ssh filter
        (signerLine pf.crypto pf.ssh (handleCapabilities cfg true signers).received filter
          fallbackLine) (handleCapabilities cfg true signers).received.loadedSigners [] 0 =
          .ok (keys, 0) ∧
      keys.Nodup ∧ ∀ key, key ∈ keys ↔ Offered pf k' filter key := by
  generalize hcaps : (handleCapabilities cfg true signers).received = caps
  have hmem : ∀ s, s ∈ caps.loadedSigners ↔ Reports pf k' s := fun s ↦
    hcaps ▸ mem_received_iff hk' horder cfg
  have hnodup : (caps.loadedSigners.map LoadedSigner.fingerprint).Nodup :=
    hcaps ▸ nodup_received hk' horder cfg
  -- each signer has its own line, with a key that has its fingerprint
  have hline : ∀ s ∈ caps.loadedSigners, ∃ signer, k'.Hosts signer ∧
      parsePublicKeyLine pf.ssh (signerLine pf.crypto pf.ssh caps filter fallbackLine s) =
        some (pf.ssh.publicKey signer) ∧
      normalizeFingerprintHint s.fingerprint =
        publicKeyFingerprint pf.crypto (pf.ssh.marshal (pf.ssh.publicKey signer)) ∧
      s.fingerprint = fingerprint pf.crypto pf.ssh (pf.ssh.publicKey signer) := by
    intro s hs
    obtain ⟨pool, hpool, entry, hentry, hpub⟩ := (hmem s).mp hs
    have hhosts : k'.Hosts entry.signer := ⟨pool, hpool, _, entry, hentry, rfl⟩
    refine ⟨entry.signer, hhosts, signerLine_of_parse ?_,
      normalizeFingerprintHint_of_lookup hkeyed hpool hentry, hkeyed pool hpool _ entry hentry⟩
    rw [hpub]
    exact hback entry.signer hhosts
  refine ⟨_, resolveSigners_eq (fun s hs ↦ ?_) [] 0, ?_, fun key ↦ ?_⟩
  · obtain ⟨signer, -, hpub, -⟩ := hline s hs
    exact ⟨_, hpub⟩
  · rw [List.nil_append]
    refine List.pairwise_filterMap.mpr (List.Pairwise.filter _ ?_)
    refine (List.pairwise_map.mp hnodup).imp_of_mem fun hs hs' hne key hkey key' hkey' heq ↦ ?_
    obtain ⟨signer, -, hpub, -, hfp⟩ := hline _ hs
    obtain ⟨signer', -, hpub', -, hfp'⟩ := hline _ hs'
    rw [hpub] at hkey
    rw [hpub'] at hkey'
    cases hkey
    cases hkey'
    refine hne ?_
    rw [hfp, hfp']
    exact congrArg (fun key : AgentKey ↦ publicKeyFingerprint pf.crypto key.blob) heq
  · rw [List.nil_append, List.mem_filterMap]
    constructor
    · rintro ⟨s, hs, hkey⟩
      obtain ⟨hs, hpass⟩ := List.mem_filter.mp hs
      obtain ⟨signer, hhosts, hpub, hfp, -⟩ := hline s hs
      rw [hpub] at hkey
      cases hkey
      refine ⟨signer, hhosts, rfl, (passes_iff.mp hpass).imp_right fun h ↦ ?_⟩
      exact hfp.symm.trans h
    · rintro ⟨signer, ⟨pool, hpool, fp, entry, hentry, rfl⟩, rfl, hpass⟩
      have hs := (hmem ⟨fp, pf.lib.marshalAuthorizedKey (pf.ssh.publicKey entry.signer)⟩).mpr
        ⟨pool, hpool, entry, hentry, rfl⟩
      refine ⟨_, List.mem_filter.mpr ⟨hs, passes_iff.mpr (hpass.imp_right fun h ↦ ?_)⟩,
        congrArg (Option.map (agentKeyFromPublic pf.ssh)) (signerLine_of_parse ?_)⟩
      · exact (normalizeFingerprintHint_of_lookup hkeyed hpool hentry).trans h
      · exact hback entry.signer ⟨pool, hpool, fp, entry, hentry, rfl⟩

/-- What the agent makes of an answer. -/
theorem resolved_received (hk : k.Pooled) (hk' : k'.Pooled) (hkeyed : k'.Keyed pf.crypto pf.ssh)
    (hback : ReadBack pf k') {signers : List SignerInfo}
    (horder : signers.Perm (listSigners pf k')) (cfg : Config.Config) (acfg : Agent.Config)
    (readFile : GoString → Option Bytes) :
    Resolved pf k k' acfg readFile (resolveLocalKeyIdentities pf.crypto pf.ssh readFile
      (handleCapabilities cfg k.available signers).received acfg) := by
  cases hasked : k.available with
  | false =>
      refine .isSealed fun signer hsigner ↦ ?_
      rw [hk.available_iff.mpr ⟨signer, hsigner⟩] at hasked
      cases hasked
  | true =>
      obtain ⟨signer, hsigner⟩ := hk.available_iff.mp hasked
      have hmem : ∀ s, s ∈ (handleCapabilities cfg true signers).received.loadedSigners ↔
          Reports pf k' s := fun s ↦ mem_received_iff hk' horder cfg
      have hopen : ¬(handleCapabilities cfg true signers).received.isSealed = true :=
        Bool.false_ne_true
      rw [resolveLocalKeyIdentities, if_neg hopen]
      by_cases hlisted : ∃ signer', k'.Hosts signer'
      · obtain ⟨signer', hsigner'⟩ := hlisted
        obtain ⟨s, hs⟩ : ∃ s, Reports pf k' s := by
          obtain ⟨pool, hpool, fp, entry, hentry, -⟩ := hsigner'
          exact ⟨⟨fp, _⟩, pool, hpool, entry, hentry, rfl⟩
        rw [if_neg (List.ne_nil_of_mem ((hmem s).mpr hs))]
        cases hread : loadHostedPublicKeyLine readFile acfg.hostedPublicKey with
        | error e => exact .unreadable hsigner hsigner' hread
        | ok line =>
            obtain ⟨keys, hkeys, hnodup, hoffered⟩ := resolveSigners_received hk' hkeyed hback
              horder cfg (normalizeFingerprintHint acfg.hostKeyFingerprint) line
            dsimp only
            rw [hkeys]
            dsimp only
            rw [if_neg fun h ↦ Nat.lt_irrefl 0 h.2]
            split
            · next hnil =>
                exact .noMatch hsigner hsigner' hread fun key hkey ↦
                  List.not_mem_nil (hnil ▸ (hoffered key).mpr hkey)
            · next hne =>
                refine .offered hsigner hread hne hnodup hoffered fun key hkey ↦ ?_
                obtain ⟨hosted, hhosts, rfl, -⟩ := (hoffered key).mp hkey
                exact ⟨_, rfl, hkeyed.publicKeyForFingerprint_of_hosts hk'.mode hhosts⟩
      · have hnil : (handleCapabilities cfg true signers).received.loadedSigners = [] := by
          refine List.eq_nil_iff_forall_not_mem.mpr fun s hs ↦ hlisted ?_
          obtain ⟨pool, hpool, entry, hentry, -⟩ := (hmem s).mp hs
          exact ⟨entry.signer, pool, hpool, _, entry, hentry, rfl⟩
        rw [if_pos hnil]
        exact .noSigners hsigner fun signer h ↦ hlisted ⟨signer, h⟩

end Hosted

/-- **The agent offers the hosted keys.**  Let the proxy be in local-key mode, and let the client
get its answer, not longer than what it reads.  In whatever states of a run the keystore is asked
and listed, and in whichever order the pool is listed, the identities are the keys in the pool
that the filter lets through, each once, and each is found by its fingerprint.  If there are none,
the error says which of the reasons it is; and a configured public key that cannot be read is one,
though it would not have been used. -/
theorem identities_hosted {pf : Platform Key Signer PublicKey PrivateKey} {lib : Api.Library}
    {cfg : Proxy.Config} {now : Time} {as bs : List Proxy.Action} {s s' : Proxy.System Signer}
    {log log' : List Proxy.Event} {conf : Config.Config} {signers : List SignerInfo}
    {first second : Fetch} (hmode : cfg.approval.signerMode = .localKey)
    (hconf : conf.signerMode = Control.signerModeLocalKey)
    (hrun : (Proxy.machine pf.crypto pf.ssh lib cfg now).exec as = some (s, log))
    (hlist : (Proxy.machine pf.crypto pf.ssh lib cfg now).exec (as ++ bs) = some (s', log'))
    (horder : signers.Perm (listSigners pf s'.keystore)) (hback : ReadBack pf s'.keystore)
    (hlast : lastTry json first second =
      .answered 200 (json.encode (handleCapabilities conf s.keystore.available signers)))
    (hsize : (json.encode (handleCapabilities conf s.keystore.available signers)).length ≤
      maxCapabilitiesBody)
    (hjson : json.decode (json.encode (handleCapabilities conf s.keystore.available signers)) =
      some (handleCapabilities conf s.keystore.available signers).received)
    (clientMode : GoString) (acfg : Agent.Config) (readFile : GoString → Option Bytes)
    (priv : Option Signer) :
    Resolved pf s.keystore s'.keystore acfg readFile
      (resolveIdentities pf.crypto pf.ssh (fetchCapabilities json first second).toOption clientMode
        acfg readFile priv) := by
  have hmode' : (handleCapabilities conf s.keystore.available signers).signerMode =
      Agent.signerModeLocalKey := hconf
  have hfetch := fetchCapabilitiesOnce_encode (by rw [hmode']; decide) hsize hjson
  rw [fetchCapabilities_eq, hlast, hfetch]
  have hresolve : resolveIdentities pf.crypto pf.ssh
      (some (handleCapabilities conf s.keystore.available signers).received) clientMode acfg
      readFile priv = resolveLocalKeyIdentities pf.crypto pf.ssh readFile
        (handleCapabilities conf s.keystore.available signers).received acfg := by
    have hreceived : (handleCapabilities conf s.keystore.available signers).received.signerMode =
        Agent.signerModeLocalKey := hconf
    rw [resolveIdentities, hreceived]
    rfl
  exact hresolve ▸ resolved_received (Proxy.exec_pooled hmode hrun) (Proxy.exec_pooled hmode hlist)
    (Proxy.exec_keyed hlist) hback horder conf acfg readFile

/-- A proxy that hosts keys. -/
def listedMachine : Transition.Machine (Proxy.System Bytes) Proxy.Action Proxy.Event :=
  Proxy.machine Control.plainPlatform.crypto Control.plainPlatform.ssh Api.plainLibrary
    Proxy.hostedConfig 0

/-- Two keys are loaded. -/
def loadedRun : List Proxy.Action :=
  [.loadPEM [7] [7] [] ⟨true, true, true⟩ 0, .loadPEM [8] [8] [] ⟨true, true, true⟩ 0]

/-- One of them is removed. -/
def removal : List Proxy.Action :=
  [.removeSigner (publicKeyFingerprint Control.plainPlatform.crypto [8])]

/-- The key that is left, as it is listed. -/
def listedSigner : SignerInfo :=
  ⟨publicKeyFingerprint Control.plainPlatform.crypto [7], [7], []⟩

/-- The answer. -/
def listedResponse : CapabilitiesResponse :=
  handleCapabilities Control.localKeyServer.config true [listedSigner]

/-- A library that can read the answer. -/
def plainCapabilities : CapabilitiesLibrary := ⟨fun _ ↦ [], fun _ ↦ listedResponse.received, id⟩

/-- The connection breaks at first.  While the handler answers, a key is removed; the agent offers
the other one. -/
theorem identities_hosted_removal :
    ∃ s s' log log', listedMachine.exec loadedRun = some (s, log) ∧
      listedMachine.exec (loadedRun ++ removal) = some (s', log') ∧
      Resolved Control.plainPlatform s.keystore s'.keystore (Agent.plainConfig []) (fun _ ↦ none)
        (.ok [⟨str "plain", [7]⟩]) := by
  have hrun : (listedMachine.exec loadedRun).map (fun p ↦ p.1.keystore.available) = some true := by
    decide +kernel
  have hlist : (listedMachine.exec (loadedRun ++ removal)).map
      (fun p ↦ listSigners Control.plainPlatform p.1.keystore) = some [listedSigner] := by
    decide +kernel
  obtain ⟨⟨s, log⟩, hrun, havailable⟩ := Option.map_eq_some_iff.mp hrun
  obtain ⟨⟨s', log'⟩, hlist, hlisted⟩ := Option.map_eq_some_iff.mp hlist
  dsimp only at havailable hlisted
  have horder : [listedSigner].Perm (listSigners Control.plainPlatform s'.keystore) :=
    hlisted ▸ .refl _
  have hback : ReadBack Control.plainPlatform s'.keystore := by
    rintro signer ⟨pool, hpool, fp, entry, hentry, rfl⟩
    have hs : ⟨fp, entry.signer⟩ ∈ listedResponse.received.loadedSigners :=
      (mem_received_iff (Proxy.exec_pooled rfl hlist) horder Control.localKeyServer.config).mpr
        ⟨pool, hpool, entry, hentry, rfl⟩
    have hsigner : entry.signer = [7] :=
      congrArg LoadedSigner.publicKey (List.mem_singleton.mp hs)
    rw [hsigner]
    decide +kernel
  have hlast : lastTry plainCapabilities (.failed (str "eof")) (.answered 200 []) =
      .answered 200 (plainCapabilities.encode (handleCapabilities Control.localKeyServer.config
        s.keystore.available [listedSigner])) := by
    show _ = Fetch.answered 200 []
    decide +kernel
  have hjson : plainCapabilities.decode (plainCapabilities.encode
      (handleCapabilities Control.localKeyServer.config s.keystore.available [listedSigner])) =
        some (handleCapabilities Control.localKeyServer.config s.keystore.available
          [listedSigner]).received := by
    rw [havailable]
    rfl
  have hidentities : resolveIdentities Control.plainPlatform.crypto Control.plainPlatform.ssh
      (fetchCapabilities plainCapabilities (.failed (str "eof")) (.answered 200 [])).toOption []
      (Agent.plainConfig []) (fun _ ↦ none) none = .ok [⟨str "plain", [7]⟩] := by decide +kernel
  have hresolved := identities_hosted rfl rfl hrun hlist horder hback hlast (Nat.zero_le _) hjson []
    (Agent.plainConfig []) (fun _ ↦ none) none
  rw [hidentities] at hresolved
  exact ⟨s, s', log, log', hrun, hlist, hresolved⟩

end LunaZTrust.Sdk
