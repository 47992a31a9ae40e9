import LunaZTrust.Api.SignHandler
import LunaZTrust.Auth.UserAuthGrammar

/-!
# Fail-closed signing

A request to sign is answered with an error and leaves nothing behind, or it is
accepted and leaves one transaction.  The handler has about a dozen ways out; the
lemmas here sort them into two (`handleSign_cases`), and the second into the lease
fast path and a new approval (`answerSign_cases`).

On the fast path the transaction is registered without the hosted key's
fingerprint: the key that the sign data was validated against is the one the lease
was looked up for and the signer was called with, but not one that the transaction
records.
-/

namespace LunaZTrust.Api

open LunaZTrust.Go LunaZTrust.Ssh LunaZTrust.Auth LunaZTrust.Keystore LunaZTrust.Approval

variable {Key Signer : Type} {crypto : Crypto} {ssh : Package Key Signer} {lib : Library}
  {cfg : Config} {telegramConfigured : Bool} {signers : Signers} {t : Readings} {id : TxID}
  {srv : Server Signer} {r : HttpRequest}

/-! ## The ways out -/

/-- The checks that an accepted request has passed, up to the arguments for the
store. -/
structure Passed (crypto : Crypto) (ssh : Package Key Signer) (lib : Library) (cfg : Config)
    (t : Readings) (srv : Server Signer) (r : HttpRequest) (req : SignRequest)
    (hostKeyFP : GoString) (input : SignInput) (allowLease : Bool) : Prop where
  valid : ∃ rawBody conn, readSignRequest lib r = .ok (rawBody, req, conn) ∧
    (validateSignRequest crypto ssh conn rawBody req t.validatedAt t.seenAt srv.replay).1 = .ok ()
  available : srv.keystore.available = true
  resolved : resolveHostKey crypto ssh cfg srv.keystore req = some hostKeyFP
  bound : bindRequest crypto ssh lib cfg srv.keystore r req hostKeyFP = .ok (input, allowLease)

/-- The handler refuses the request, having touched nothing but the replay cache, or
the request has passed all checks and goes on to the store. -/
theorem handleSign_cases :
    (∃ e replay, handleSign crypto ssh lib cfg telegramConfigured signers t id srv r =
      (.error e, { srv with replay := replay }, [])) ∨
    ∃ req hostKeyFP input allowLease replay,
      Passed crypto ssh lib cfg t srv r req hostKeyFP input allowLease ∧
      handleSign crypto ssh lib cfg telegramConfigured signers t id srv r =
        answerSign cfg telegramConfigured signers t id { srv with replay := replay } input
          allowLease := by
  rw [handleSign]
  split
  · next e _ => exact Or.inl ⟨e, srv.replay, rfl⟩
  · next rawBody req conn hread =>
      split
      · next e replay _ => exact Or.inl ⟨_, replay, rfl⟩
      · next replay hvalid =>
          dsimp only
          split
          · next e _ => exact Or.inl ⟨e, replay, rfl⟩
          · next hsealed =>
              split
              · exact Or.inl ⟨_, replay, rfl⟩
              · next hostKeyFP hresolve =>
                  split
                  · next e _ => exact Or.inl ⟨e, replay, rfl⟩
                  · next input allowLease hbind =>
                      refine Or.inr ⟨req, hostKeyFP, input, allowLease, replay, ?_, rfl⟩
                      exact ⟨⟨rawBody, conn, hread, congrArg Prod.fst hvalid⟩,
                        checkSealed_eq_ok hsealed, hresolve, hbind⟩

/-- The lease fast path: the lease is found under the request's own key, and the
signer is called once, for the request. -/
structure LeaseHit (cfg : Config) (signers : Signers) (t : Readings)
    (leases : Option Lease.Store) (input : SignInput) (res : Result) (started : List Effect) :
    Prop where
  notDev : cfg.isDev = false
  issued : ∃ leases' active validUntil res', leases = some leases' ∧
    leases'.findActive t.foundAt input.lookup = some active ∧
    0 < active.remaining t.remainingAt ∧
    issueForTransaction cfg signers input.leased validUntil = .ok res' ∧
    res = { res' with leaseExpiresAt := active.expiresAt } ∧
    started = [.issue input.leased validUntil]

theorem issueFromLease_eq_some {res : Result} {started : List Effect} {leases : Option Lease.Store}
    {input : SignInput} (hdev : cfg.isDev = false)
    (h : issueFromLease cfg leases signers t input = (some res, started)) :
    LeaseHit cfg signers t leases input res started := by
  obtain ⟨leases', active, res', hl, hfind, hremaining, hissue, hres, hstarted⟩ :=
    issueFromLease_eq h
  exact ⟨hdev, leases', active, _, res', hl, hfind, hremaining, hissue, hres, hstarted⟩

/-- The handler registers an approved transaction for a lease, or a pending one. -/
theorem answerSign_cases {input : SignInput} {allowLease : Bool} :
    (∃ res started, LeaseHit cfg signers t srv.leases input res started ∧ allowLease = true ∧
      answerSign cfg telegramConfigured signers t id srv input allowLease =
        (.accepted id,
          { srv with
            store := srv.store.createInstantApproved (input.instant id t.createdAt) res },
          started)) ∨
    ∃ effects, answerSign cfg telegramConfigured signers t id srv input allowLease =
      (.accepted id,
        { srv with
          store := (srv.store.createBound (input.pending id t.createdAt)).startTimer id
            (t.armedAt + cfg.timeout) },
        effects) := by
  rw [answerSign]
  by_cases hlease : (!cfg.isDev && allowLease) = true
  · rw [if_pos hlease]
    rw [Bool.and_eq_true, Bool.not_eq_true'] at hlease
    rcases hissue : issueFromLease cfg srv.leases signers t input with ⟨leased, started⟩
    cases leased with
    | none => exact Or.inr ⟨_, rfl⟩
    | some res =>
        exact Or.inl ⟨res, started, issueFromLease_eq_some hlease.1 hissue, hlease.2, rfl⟩
  · rw [if_neg hlease]
    exact Or.inr ⟨_, rfl⟩

/-! ## All or nothing -/

/-- The transaction has the fields of the request. -/
structure OfRequest (crypto : Crypto) (lib : Library) (r : HttpRequest) (req : SignRequest)
    (tx : Transaction) : Prop where
  targetUser : tx.targetUser = req.targetUser
  targetIP : tx.targetIP = req.targetIP
  publicKey : tx.publicKey = req.publicKey
  sourceIP : tx.sourceIP = clientIPFromRemoteAddr lib r.remoteAddr
  clientCertFP : tx.clientCertFP = clientCertFPFromRequest crypto r

/-- The store has got one entry more, under an id it did not have. -/
structure Added (store store' : Approval.Store) (entry : TxEntry) : Prop where
  fresh : AList.lookup entry.tx.id store.txs = none
  lookup_eq : ∀ id, AList.lookup id store'.txs =
    if id = entry.tx.id then some entry else AList.lookup id store.txs

/-- Where the fingerprint of the hosted key goes: into the transaction that waits for
an approval, or into the lookup of the lease and the call of the signer. -/
inductive KeyUsed (srv : Server Signer) (t : Readings) (req : SignRequest) (hostKeyFP : GoString)
    (effects : List Effect) (entry : TxEntry) : Prop
  | recorded (hres : entry.result = none) (hstate : entry.tx.state = .pending)
      (hdata : entry.tx.agentSignData = req.agentSignData)
      (hfp : entry.tx.hostKeyFingerprint = hostKeyFP)
  | leased {leases : Lease.Store} {lookup : Lease.LookupKey} {active : Lease.ActiveLease}
      {tx : Transaction} {validUntil : Time} (hstate : entry.tx.state = .approved)
      (hleases : srv.leases = some leases)
      (hfound : leases.findActive t.foundAt lookup = some active)
      (hlookup : lookup.hostKeyFingerprint = hostKeyFP)
      (hsigned : effects = [.issue tx validUntil]) (hdata : tx.agentSignData = req.agentSignData)
      (hfp : tx.hostKeyFingerprint = hostKeyFP)

/-- **Fail-closed signing.**  A request that is not accepted leaves the two stores as
they were and starts nothing.  One that is accepted leaves the leases as they were
and one transaction more, with the request's own fields; it has passed
`ValidateSignRequest` with the keystore open, and in local-key mode its sign data is
valid for the hosted key of the fingerprint the request resolves to, which the
transaction records if it is pending, and the lease and the signer are asked for if
it is approved on the spot. -/
theorem handleSign_fail_closed {reply : SignReply} {srv' : Server Signer} {effects : List Effect}
    (hid : AList.lookup id srv.store.txs = none)
    (h : handleSign crypto ssh lib cfg telegramConfigured signers t id srv r =
      (reply, srv', effects)) :
    (reply.status ≠ Http.statusAccepted →
      srv'.store = srv.store ∧ srv'.leases = srv.leases ∧ effects = []) ∧
    (reply.status = Http.statusAccepted →
      srv'.leases = srv.leases ∧ ∃ req hostKeyFP input allowLease entry,
        Passed crypto ssh lib cfg t srv r req hostKeyFP input allowLease ∧
        reply = .accepted entry.tx.id ∧ Added srv.store srv'.store entry ∧
        OfRequest crypto lib r req entry.tx ∧
        (cfg.signerMode = .localKey → ∃ hostedPub signData binding,
          srv.keystore.publicKeyForFingerprint ssh hostKeyFP = .ok hostedPub ∧
          SignDataValid crypto ssh req hostedPub signData binding ∧
          KeyUsed srv t req hostKeyFP effects entry)) := by
  rcases @handleSign_cases _ _ crypto ssh lib cfg telegramConfigured signers t id srv r with
    ⟨e, replay, heq⟩ | ⟨req, hostKeyFP, input, allowLease, replay, hpassed, heq⟩
  · cases heq.symm.trans h
    exact ⟨fun _ ↦ ⟨rfl, rfl, rfl⟩, fun hs ↦ absurd hs (SignReply.status_error e)⟩
  · obtain ⟨dest, client, rfl⟩ := bindRequest_eq_signInput hpassed.bound
    rcases @answerSign_cases _ cfg telegramConfigured signers t id { srv with replay := replay }
        (signInput crypto lib r req hostKeyFP dest client) allowLease with
      ⟨res, started, hhit, hallow, hanswer⟩ | ⟨started, hanswer⟩
    · cases (heq.trans hanswer).symm.trans h
      refine ⟨fun hs ↦ absurd rfl hs, fun _ ↦ ⟨rfl, req, hostKeyFP, _, allowLease,
        ⟨(signInput crypto lib r req hostKeyFP dest client).instant id t.createdAt, some res, 0⟩,
        hpassed, rfl, ⟨hid, fun id' ↦ Map.lookup_insert_eq _ _ _ _⟩, ⟨rfl, rfl, rfl, rfl, rfl⟩,
        fun hmode ↦ ?_⟩⟩
      obtain ⟨hostedPub, signData, binding, hpub, hvalid, -⟩ :=
        bindRequest_signDataValid hmode hpassed.bound
      obtain ⟨leases, active, validUntil, res', hleases, hfound, -, -, -, rfl⟩ := hhit.issued
      exact ⟨hostedPub, signData, binding, hpub, hvalid,
        .leased rfl hleases hfound rfl rfl rfl rfl⟩
    · cases (heq.trans hanswer).symm.trans h
      refine ⟨fun hs ↦ absurd rfl hs, fun _ ↦ ⟨rfl, req, hostKeyFP, _, allowLease,
        ⟨(signInput crypto lib r req hostKeyFP dest client).pending id t.createdAt, none, 0⟩,
        hpassed, rfl, ⟨hid, fun id' ↦ Map.lookup_insert_eq _ _ _ _⟩, ⟨rfl, rfl, rfl, rfl, rfl⟩,
        fun hmode ↦ ?_⟩⟩
      obtain ⟨hostedPub, signData, binding, hpub, hvalid, -⟩ :=
        bindRequest_signDataValid hmode hpassed.bound
      exact ⟨hostedPub, signData, binding, hpub, hvalid, .recorded rfl rfl rfl rfl⟩

/-! ## A request in local-key mode -/

/-- A session-bound request to log in as `deploy` with the hosted key `[7]`. -/
def boundRequest : SignRequest where
  publicKey := [7]
  targetUser := str "deploy"
  targetIP := str "10.0.0.5"
  timestamp := 1000
  popSignature := Hex.encode (popChallenge (str "deploy") (str "10.0.0.5") 1000)
  agentSignData := Base64.stdEncode (deployPayload.encode 1)
  hostPublicKey := []
  hostKeyFingerprint := []
  sourceUser := []
  clientName := []
  clientVersion := []
  sessionBinding :=
    { hostPublicKey := Base64.stdEncode [9]
      sessionID := Base64.stdEncode [1]
      signature :=
        Base64.stdEncode (putString ⟨str "plain", by decide⟩ ++ putString deployPayload.session)
      forwarding := false }
  destinationHostPublicKey := []
  bodyMAC := []

/-- A library that decodes every body to that request. -/
def plainLibrary : Library where
  unmarshalSignRequest _ := some boundRequest
  unmarshalMobileApproveRequest _ := none
  marshalMobileApproveSignPayload _ := []
  splitHostPort addr := some (addr, [])

/-- The request as it comes in. -/
def boundHttpRequest : HttpRequest where
  body := [1]
  bodyFails := false
  bodyMAC := Hex.encode [1]
  conn := some .plain
  peerCertificates := [[3]]
  remoteAddr := str "10.0.0.9"

/-- All clock readings at second 1000. -/
def readingsAt1000 : Readings where
  validatedAt := 1000 * Time.second
  seenAt := 1000 * Time.second
  foundAt := 1000 * Time.second
  remainingAt := 1000 * Time.second
  issuedAt := 1000 * Time.second
  createdAt := 1000 * Time.second
  armedAt := 1000 * Time.second

/-- A keystore with the hosted key `[7]`. -/
def hostedKeystore : Keystore Bytes :=
  (Keystore.newWithMode .localKey).store .plain .plain [7] []

/-- A server with that keystore and a lease store. -/
def hostedServer (leases : Lease.Store) : Server Bytes where
  keystore := hostedKeystore
  replay := .new (60 * Time.second) 1000
  store := .new
  leases := some leases

/-- The lease of an earlier approval of the same access. -/
def deployLease : Lease.Store :=
  Lease.Store.new.put
    { clientCertFP := clientCertFingerprint .plain [3]
      targetUser := str "deploy"
      targetIP := str "10.0.0.5"
      sourceIP := str "10.0.0.9"
      hostKeyFingerprint := fingerprint .plain Package.plain [7]
      destinationHostKeyFingerprint := fingerprint .plain Package.plain [9]
      approver := str "telegram:1" } (1300 * Time.second)

/-- The request handled in local-key mode. -/
def handleBound (leases : Lease.Store) : SignReply × Server Bytes × List Effect :=
  handleSign .plain .plain plainLibrary ⟨str "prod", .localKey, 60 * Time.second⟩ true
    ⟨none, some (Signing.signAgent .plain hostedKeystore [])⟩ readingsAt1000 (str "tx_1")
    (hostedServer leases) boundHttpRequest

/-- With a lease, the transaction records no fingerprint, and no hosted key goes by
the one it records. -/
theorem lease_hit_records_no_key :
    (handleBound deployLease).1 = .accepted (str "tx_1") ∧
      (AList.lookup (str "tx_1") (handleBound deployLease).2.1.store.txs).map
        (·.tx.hostKeyFingerprint) = some [] ∧
      (hostedServer deployLease).keystore.publicKeyForFingerprint .plain [] = .error .sealed := by
  decide +kernel

/-- Without a lease, a pending transaction is added that records the fingerprint. -/
theorem handleSign_fail_closed_deploy :
    (handleBound .new).1 = .accepted (str "tx_1") ∧
      ∃ entry, Added (hostedServer .new).store (handleBound .new).2.1.store entry ∧
        entry.tx.hostKeyFingerprint = fingerprint .plain Package.plain [7] := by
  obtain ⟨hstatus, hlookup⟩ : (handleBound .new).1 = .accepted (str "tx_1") ∧
      (AList.lookup (str "tx_1") (handleBound .new).2.1.store.txs).map
        (·.tx.hostKeyFingerprint) = some (fingerprint .plain Package.plain [7]) := by
    decide +kernel
  rcases hrun : handleBound .new with ⟨reply, srv', effects⟩
  rw [hrun] at hstatus hlookup
  obtain ⟨-, req, hostKeyFP, input, allowLease, entry, -, hreply, hadded, -⟩ :=
    (handleSign_fail_closed rfl hrun).2 (congrArg SignReply.status hstatus)
  refine ⟨hstatus, entry, hadded, ?_⟩
  have hid : str "tx_1" = entry.tx.id := SignReply.accepted.inj (hstatus.symm.trans hreply)
  rw [hadded.lookup_eq, if_pos hid] at hlookup
  exact Option.some.inj hlookup

end LunaZTrust.Api
