import LunaZTrust.Lease.Store
import LunaZTrust.Signing.Local

/-!
# The approval store

`proxy/internal/approval/store.go`: the transactions a sign request opens and an
approver decides.  This module has the data and the functions of the store as
they are under its lock; how concurrent calls go through them is in
`LunaZTrust.Approval.System`.

An entry's channel and timer outlive the entry: a waiter holds on to the channel
and the runtime to the timer after the entry has been deleted from the map.
They are therefore kept beside the map, under the transaction id, which is
never used twice.
-/

namespace LunaZTrust.Approval

open LunaZTrust.Go LunaZTrust.Lease LunaZTrust.Signing

/-- The id of a transaction. -/
abbrev TxID := GoString

/-- `State`. -/
inductive State
  | pending
  | approving
  | approved
  | denied
  | expired
deriving DecidableEq, Repr

/-- `SignerMode`. -/
inductive SignerMode
  | localCA
  | localKey
deriving DecidableEq, Repr

/-- The parts of the configuration the store reads. -/
structure Config where
  env : GoString
  signerMode : SignerMode
  timeout : Duration
deriving DecidableEq, Repr

/-- `cfg.Env == "dev"`. -/
def Config.isDev (cfg : Config) : Bool := cfg.env == str "dev"

/-- `DefaultDevCertTTL`. -/
def defaultDevCertTTL : Duration := 5 * Time.minute

/-- `Transaction`. -/
structure Transaction where
  id : TxID
  targetUser : GoString
  targetIP : GoString
  publicKey : GoString
  sourceIP : GoString
  sourceUser : GoString
  clientName : GoString
  clientVersion : GoString
  clientCertFP : GoString
  agentSignData : GoString
  hostKeyFingerprint : GoString
  destinationHostKeyFingerprint : GoString
  destinationHostKeySource : GoString
  disableLease : Bool
  state : State
  createdAt : Time
deriving DecidableEq, Repr

/-- `ClientMeta`. -/
structure ClientMeta where
  sourceUser : GoString
  clientName : GoString
  clientVersion : GoString
  destinationHostKeySource : GoString
  disableLease : Bool
deriving DecidableEq, Repr

/-- The errors of the store, and those it passes on. -/
inductive ApprovalError
  | notFound
  | denied
  | timeout
  | signerNotReady
  | agentSignData
  | waitClientMismatch
  | ambiguousSigner
  | base64
  | signing (e : SigningError)
  | context
deriving DecidableEq, Repr

/-- The texts of the errors; those of base64 decoding and of a context are the
library's. -/
def ApprovalError.message : ApprovalError → String
  | .notFound => "transaction not found"
  | .denied => "transaction denied"
  | .timeout => "approval timeout"
  | .signerNotReady => "signer not configured"
  | .agentSignData => "agent_sign_data required for local-key mode"
  | .waitClientMismatch => "client certificate mismatch"
  | .ambiguousSigner => "host key fingerprint required"
  | .base64 => ""
  | .signing e => e.message
  | .context => ""

/-- `Result`. -/
structure Result where
  cert : GoString := []
  signature : GoString := []
  expiresAt : Time := Time.zero
  leaseExpiresAt : Time := Time.zero
  err : Option ApprovalError := none
deriving DecidableEq, Repr

/-- `txEntry`, without its channel and timer. -/
structure TxEntry where
  tx : Transaction
  result : Option Result
  waiters : Int
deriving DecidableEq, Repr

/-- An `AfterFunc` timer: running until an instant, or with its function called
but not yet run, or without effect. -/
inductive Timer
  | running (deadline : Time)
  | fired
  | stopped
deriving DecidableEq, Repr

/-- `Timer.Stop`: a function that has been called is not called back. -/
def Timer.stop : Timer → Timer
  | .running _ => .stopped
  | .fired => .fired
  | .stopped => .stopped

/-- The transactions of the store, the buffers of their result channels, and
their timers. -/
structure Store where
  txs : Map TxID TxEntry
  channels : Map TxID (Option Result)
  timers : Map TxID Timer

/-- The configured signers. -/
structure Signers where
  issuer : Option (IssueRequest → Except SigningError IssueResult)
  keySigner : Option (GoString → Bytes → Except SigningError Bytes)

/-! ## Issuing -/

/-- The hosted-key branch of `issueForTransaction`. -/
def issueLocalKey (signers : Signers) (tx : Transaction) (validUntil : Time) :
    Except ApprovalError Result :=
  if tx.agentSignData = [] then .error .agentSignData
  else
    match signers.keySigner with
    | none => .error .signerNotReady
    | some signAgent =>
        match Base64.stdDecode tx.agentSignData with
        | none => .error .base64
        | some data =>
            if tx.hostKeyFingerprint = [] then .error .ambiguousSigner
            else
              match signAgent tx.hostKeyFingerprint data with
              | .error e => .error (.signing e)
              | .ok blob => .ok { signature := Base64.stdEncode blob, expiresAt := validUntil }

/-- What the hosted-key branch signs, and with which signer. -/
theorem issueLocalKey_eq_ok {signers : Signers} {tx : Transaction} {validUntil : Time}
    {res : Result} (h : issueLocalKey signers tx validUntil = .ok res) :
    tx.agentSignData ≠ [] ∧ ∃ signAgent data blob, signers.keySigner = some signAgent ∧
      Base64.stdDecode tx.agentSignData = some data ∧
      signAgent tx.hostKeyFingerprint data = .ok blob ∧
      res = { signature := Base64.stdEncode blob, expiresAt := validUntil } := by
  rw [issueLocalKey] at h
  split at h
  · exact nomatch h
  · next hne =>
      split at h
      · exact nomatch h
      · next signAgent hsigner =>
          split at h
          · exact nomatch h
          · next data hdata =>
              split at h
              · exact nomatch h
              · split at h
                · exact nomatch h
                · next blob hblob =>
                    cases h
                    exact ⟨hne, signAgent, data, blob, hsigner, hdata, hblob, rfl⟩

/-- The CA branch of `issueForTransaction`. -/
def issueLocalCA (signers : Signers) (tx : Transaction) (validUntil : Time) :
    Except ApprovalError Result :=
  match signers.issuer with
  | none => .error .signerNotReady
  | some issueCert =>
      match issueCert ⟨tx.publicKey, tx.targetUser, tx.targetIP, tx.sourceIP, validUntil⟩ with
      | .error e => .error (.signing e)
      | .ok res => .ok { cert := res.certificate, expiresAt := res.expiresAt }

/-- `issueForTransaction`. -/
def issueForTransaction (cfg : Config) (signers : Signers) (tx : Transaction) (validUntil : Time) :
    Except ApprovalError Result :=
  match cfg.signerMode with
  | .localKey => issueLocalKey signers tx validUntil
  | .localCA => issueLocalCA signers tx validUntil

/-! ## What a sign request brings -/

/-- The arguments with which the sign handler goes to the store. -/
structure SignInput where
  targetUser : GoString
  targetIP : GoString
  publicKey : GoString
  sourceIP : GoString
  clientCertFP : GoString
  agentSignData : GoString
  hostKeyFP : GoString
  destinationHostKeyFP : GoString
  client : ClientMeta
deriving DecidableEq, Repr

/-- The lookup key of the request, `lease.NewLookupKey`. -/
def SignInput.lookup (req : SignInput) : LookupKey where
  clientCertFP := req.clientCertFP
  targetUser := req.targetUser
  targetIP := req.targetIP
  sourceIP := req.sourceIP
  hostKeyFingerprint := req.hostKeyFP
  destinationHostKeyFingerprint := req.destinationHostKeyFP

/-- The lookup key of a transaction, as `approveWithIssuer` builds it. -/
def Transaction.lookup (tx : Transaction) : LookupKey where
  clientCertFP := tx.clientCertFP
  targetUser := tx.targetUser
  targetIP := tx.targetIP
  sourceIP := tx.sourceIP
  hostKeyFingerprint := tx.hostKeyFingerprint
  destinationHostKeyFingerprint := tx.destinationHostKeyFingerprint

/-- The transaction `CreateBound` registers. -/
def SignInput.pending (req : SignInput) (id : TxID) (now : Time) : Transaction where
  id := id
  targetUser := req.targetUser
  targetIP := req.targetIP
  publicKey := req.publicKey
  sourceIP := req.sourceIP
  sourceUser := req.client.sourceUser
  clientName := req.client.clientName
  clientVersion := req.client.clientVersion
  clientCertFP := req.clientCertFP
  agentSignData := req.agentSignData
  hostKeyFingerprint := req.hostKeyFP
  destinationHostKeyFingerprint := req.destinationHostKeyFP
  destinationHostKeySource := req.client.destinationHostKeySource
  disableLease := req.client.disableLease
  state := .pending
  createdAt := now

/-- The transaction `IssueFromLease` signs for, which is never registered: it has
the fields of the lookup key and of the call, and no others.  Nothing reads its
state. -/
def SignInput.leased (req : SignInput) : Transaction where
  id := []
  targetUser := req.lookup.targetUser
  targetIP := req.lookup.targetIP
  publicKey := req.publicKey
  sourceIP := req.lookup.sourceIP
  sourceUser := []
  clientName := []
  clientVersion := []
  clientCertFP := []
  agentSignData := req.agentSignData
  hostKeyFingerprint := req.hostKeyFP
  destinationHostKeyFingerprint := req.lookup.destinationHostKeyFingerprint
  destinationHostKeySource := []
  disableLease := false
  state := .pending
  createdAt := Time.zero

/-- The transaction `CreateInstantApproved` registers. -/
def SignInput.instant (req : SignInput) (id : TxID) (now : Time) : Transaction where
  id := id
  targetUser := req.targetUser
  targetIP := req.targetIP
  publicKey := req.publicKey
  sourceIP := req.sourceIP
  sourceUser := []
  clientName := []
  clientVersion := []
  clientCertFP := req.clientCertFP
  agentSignData := []
  hostKeyFingerprint := []
  destinationHostKeyFingerprint := []
  destinationHostKeySource := []
  disableLease := false
  state := .approved
  createdAt := now

namespace Store

/-- `NewStore`. -/
def new : Store := ⟨∅, ∅, ∅⟩

/-! ## The critical sections -/

/-- The state of a transaction, if there is one. -/
def stateOf (s : Store) (id : TxID) : Option State := (AList.lookup id s.txs).map (·.tx.state)

/-- `Snapshot`. -/
def snapshot (s : Store) (txID : TxID) : Option Transaction := (AList.lookup txID s.txs).map (·.tx)

/-- When a transaction was created, if there is one. -/
def createdAt (s : Store) (id : TxID) : Option Time :=
  (AList.lookup id s.txs).map (·.tx.createdAt)

/-- The map with one entry changed. -/
def setEntry (s : Store) (id : TxID) (entry : TxEntry) : Store :=
  { s with txs := s.txs.insert id entry }

/-- The timers with one changed. -/
def setTimer (s : Store) (id : TxID) (timer : Timer) : Store :=
  { s with timers := s.timers.insert id timer }

/-- The locked part of `CreateBound`. -/
def createBound (s : Store) (tx : Transaction) : Store :=
  { s with
    txs := s.txs.insert tx.id ⟨tx, none, 0⟩
    channels := s.channels.insert tx.id none }

/-- The `AfterFunc` call of `CreateBound`. -/
def startTimer (s : Store) (id : TxID) (deadline : Time) : Store :=
  s.setTimer id (.running deadline)

/-- `CreateInstantApproved`. -/
def createInstantApproved (s : Store) (tx : Transaction) (res : Result) : Store :=
  { s with
    txs := s.txs.insert tx.id ⟨tx, some res, 0⟩
    channels := s.channels.insert tx.id (some res) }

/-- Stop the timer of an entry, if it has been set. -/
def stopTimer (s : Store) (id : TxID) : Store :=
  match AList.lookup id s.timers with
  | none => s
  | some timer => s.setTimer id timer.stop

/-- The send of `finishLocked`: dropped if the buffer is full. -/
def send (s : Store) (id : TxID) (res : Result) : Store :=
  match AList.lookup id s.channels with
  | some none => { s with channels := s.channels.insert id (some res) }
  | _ => s

/-- `claimApproval`: the entry claimed, or nothing. -/
def claimApproval (s : Store) (id : TxID) : Option (TxEntry × Store) :=
  match AList.lookup id s.txs with
  | none => none
  | some entry =>
      if entry.result.isSome ∨ entry.tx.state ≠ .pending then none
      else
        let entry := { entry with tx := { entry.tx with state := .approving } }
        some (entry, s.setEntry id entry)

/-- `finishLocked`. -/
def finishLocked (s : Store) (id : TxID) (entry : TxEntry) (state : State) (res : Result) : Store :=
  let entry := { entry with tx := { entry.tx with state := state }, result := some res }
  ((s.setEntry id entry).stopTimer id).send id res

/-- The entry in the given state and without a result: what `finishPending` and
`finishClaimed` look for. -/
def unfinished (s : Store) (id : TxID) (state : State) : Option TxEntry :=
  (AList.lookup id s.txs).filter fun entry ↦ entry.result.isNone && entry.tx.state == state

/-- `finishPending`: nothing if there is no such entry. -/
def finishPending (s : Store) (id : TxID) (state : State) (res : Result) : Option Store :=
  (s.unfinished id .pending).map fun entry ↦ s.finishLocked id entry state res

/-- `finishClaimed`: nothing where the source returns false. -/
def finishClaimed (s : Store) (id : TxID) (state : State) (res : Result) : Option Store :=
  (s.unfinished id .approving).map fun entry ↦ s.finishLocked id entry state res

/-- The result of `Deny`. -/
def deniedResult : Result := { err := some .denied }

/-- The result of `expire`. -/
def expiredResult : Result := { err := some .timeout }

/-- `remove`. -/
def remove (s : Store) (id : TxID) : Store := { s with txs := s.txs.erase id }

/-- `cancelWait`. -/
def cancelWait (s : Store) (id : TxID) : Store :=
  match AList.lookup id s.txs with
  | none => s
  | some entry =>
      let entry := { entry with waiters := entry.waiters - 1 }
      if entry.waiters ≤ 0 then (s.stopTimer id).remove id
      else s.setEntry id entry

end Store

/-- `waitSlot`: the shared channel of the entry, or a private one that holds the
result. -/
inductive WaitSlot
  | shared
  | ownResult (res : Result)
deriving DecidableEq, Repr

/-- `waitResult`. -/
def Store.waitResult (s : Store) (id : TxID) : Option (WaitSlot × Store) :=
  match AList.lookup id s.txs with
  | none => none
  | some entry =>
      match entry.result with
      | some res => some (.ownResult res, s)
      | none =>
          some (.shared, s.setEntry id { entry with waiters := entry.waiters + 1 })

/-- `ClientCertFP`. -/
def Store.clientCertFP (s : Store) (id : TxID) : Option GoString :=
  (AList.lookup id s.txs).map (·.tx.clientCertFP)

/-! ## What the critical sections change -/

namespace Store

@[simp] theorem lookup_setEntry (s : Store) (id id' : TxID) (entry : TxEntry) :
    AList.lookup id' (s.setEntry id entry).txs =
      if id' = id then some entry else AList.lookup id' s.txs :=
  Map.lookup_insert_eq _ _ _ _

@[simp] theorem lookup_remove (s : Store) (id id' : TxID) :
    AList.lookup id' (s.remove id).txs = if id' = id then none else AList.lookup id' s.txs :=
  Map.lookup_erase_eq _ _ _

@[simp] theorem stopTimer_txs (s : Store) (id : TxID) : (s.stopTimer id).txs = s.txs := by
  rw [stopTimer]
  split <;> rfl

@[simp] theorem stopTimer_channels (s : Store) (id : TxID) :
    (s.stopTimer id).channels = s.channels := by
  rw [stopTimer]
  split <;> rfl

@[simp] theorem send_txs (s : Store) (id : TxID) (res : Result) : (s.send id res).txs = s.txs := by
  rw [send]
  split <;> rfl

theorem lookup_send (s : Store) (id id' : TxID) (res : Result) :
    AList.lookup id' (s.send id res).channels =
      if id' = id ∧ AList.lookup id s.channels = some none then some (some res)
      else AList.lookup id' s.channels := by
  rw [send]
  split
  · next h =>
      rw [Map.lookup_insert_eq]
      by_cases hid : id' = id
      · rw [if_pos hid, if_pos ⟨hid, h⟩]
      · rw [if_neg hid, if_neg fun hc ↦ hid hc.1]
  · next h => rw [if_neg fun hc ↦ h hc.2]

/-- The entry that `finishLocked` leaves. -/
def finishedEntry (entry : TxEntry) (state : State) (res : Result) : TxEntry :=
  { entry with tx := { entry.tx with state := state }, result := some res }

@[simp] theorem lookup_finishLocked (s : Store) (id id' : TxID) (entry : TxEntry) (state : State)
    (res : Result) :
    AList.lookup id' (s.finishLocked id entry state res).txs =
      if id' = id then some (finishedEntry entry state res) else AList.lookup id' s.txs := by
  rw [finishLocked, send_txs, stopTimer_txs, lookup_setEntry, finishedEntry]

theorem lookup_channels_finishLocked (s : Store) (id id' : TxID) (entry : TxEntry) (state : State)
    (res : Result) :
    AList.lookup id' (s.finishLocked id entry state res).channels =
      if id' = id ∧ AList.lookup id s.channels = some none then some (some res)
      else AList.lookup id' s.channels := by
  rw [finishLocked, lookup_send, stopTimer_channels]
  rfl

theorem unfinished_eq_some_iff {s : Store} {id : TxID} {state : State} {entry : TxEntry} :
    s.unfinished id state = some entry ↔
      AList.lookup id s.txs = some entry ∧ entry.result = none ∧ entry.tx.state = state := by
  rw [unfinished, Option.filter_eq_some_iff, Bool.and_eq_true, Option.isNone_iff_eq_none,
    beq_iff_eq]

theorem claimApproval_eq_some_iff {s store : Store} {id : TxID} {entry : TxEntry} :
    s.claimApproval id = some (entry, store) ↔
      ∃ e, s.unfinished id .pending = some e ∧
        entry = { e with tx := { e.tx with state := .approving } } ∧
        store = s.setEntry id entry := by
  simp only [unfinished_eq_some_iff]
  rw [claimApproval]
  cases he : AList.lookup id s.txs with
  | none => exact ⟨(nomatch ·), fun ⟨_, h, _⟩ ↦ nomatch h.1⟩
  | some e =>
      dsimp only
      by_cases hc : e.result.isSome ∨ e.tx.state ≠ .pending
      · rw [if_pos hc]
        refine ⟨(nomatch ·), ?_⟩
        rintro ⟨e', ⟨h, hres, hst⟩, -⟩
        obtain rfl := Option.some.inj h
        rcases hc with hc | hc
        · rw [hres] at hc
          exact nomatch hc
        · exact absurd hst hc
      · rw [if_neg hc, Option.some.injEq, Prod.mk.injEq]
        rw [not_or, Bool.not_eq_true, Option.isSome_eq_false_iff, Option.isNone_iff_eq_none,
          not_not] at hc
        constructor
        · rintro ⟨rfl, rfl⟩
          exact ⟨e, ⟨rfl, hc⟩, rfl, rfl⟩
        · rintro ⟨e', ⟨h, -⟩, rfl, rfl⟩
          obtain rfl := Option.some.inj h
          exact ⟨rfl, rfl⟩

theorem waitResult_eq_some {s store : Store} {id : TxID} {slot : WaitSlot}
    (h : s.waitResult id = some (slot, store)) :
    ∃ entry, AList.lookup id s.txs = some entry ∧
      ((∃ res, entry.result = some res ∧ slot = .ownResult res ∧ store = s) ∨
        (entry.result = none ∧ slot = .shared ∧
          store = s.setEntry id { entry with waiters := entry.waiters + 1 })) := by
  rw [waitResult] at h
  split at h
  · exact nomatch h
  · next entry he =>
      split at h
      · next res hres =>
          cases h
          exact ⟨entry, he, Or.inl ⟨res, hres, rfl, rfl⟩⟩
      · next hres =>
          cases h
          exact ⟨entry, he, Or.inr ⟨hres, rfl, rfl⟩⟩

end Store

end LunaZTrust.Approval
