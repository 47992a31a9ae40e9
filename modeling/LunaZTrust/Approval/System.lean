import LunaZTrust.Approval.Store
import LunaZTrust.Transition.Machine

/-!
# Concurrent calls on the approval store

The sign handler, the approvers, the waiters, the timers and the lease store's
cleanup run concurrently.  Each goes through the store in critical sections, and
between two of them anything can happen.  A call is therefore a value that says
how far it has got, and a step of the system is one critical section of one
call, one clock reading, one channel operation, or the passing of time.

Calls are numbered as they start.  What a signer answers is part of the action,
so nothing is assumed about signers here.  Transaction ids are new: the action
that brings one is possible only if it has never been used.

A step also emits events, which say what happened in the source's terms.
-/

namespace LunaZTrust.Approval

open LunaZTrust.Go LunaZTrust.Lease LunaZTrust.Transition

/-- How far a sign handler has got, from `IssueFromLease` on. -/
inductive SignCall
  /-- About to call `FindActive`. -/
  | looking (req : SignInput)
  /-- About to call `Remaining`. -/
  | found (req : SignInput) (lease : ActiveLease)
  /-- About to read the clock for the credential's expiry. -/
  | leased (req : SignInput) (lease : ActiveLease) (remaining : Duration)
  /-- Inside `issueForTransaction`. -/
  | issuing (req : SignInput) (lease : ActiveLease) (validUntil : Time)
  /-- About to call `CreateInstantApproved`. -/
  | issued (req : SignInput) (lease : ActiveLease) (res : Result)
  /-- About to call `CreateBound`. -/
  | creating (req : SignInput)
  /-- About to set the timer. -/
  | arming (id : TxID)
deriving DecidableEq, Repr

/-- How far a call of `approveWithIssuer` has got. -/
inductive ApproveCall
  /-- About to call `claimApproval`. -/
  | claiming (id : TxID) (ttl : Duration) (approver : GoString)
  /-- About to read the clock for the credential's expiry. -/
  | claimed (id : TxID) (tx : Transaction) (ttl : Duration) (approver : GoString)
  /-- Inside `issueForTransaction`. -/
  | issuing (id : TxID) (tx : Transaction) (validUntil : Time) (approver : GoString)
  /-- About to call `finishClaimed`. -/
  | issued (id : TxID) (tx : Transaction) (validUntil : Time) (approver : GoString)
      (res : Except ApprovalError Result)
  /-- About to call `leases.Put`. -/
  | putting (id : TxID) (tx : Transaction) (validUntil : Time) (approver : GoString)

/-- How far a call of `Wait` has got. -/
inductive WaitCall
  /-- In the select statement. -/
  | waiting (id : TxID) (slot : WaitSlot)
  /-- About to call `remove`. -/
  | received (id : TxID) (res : Result)
  /-- About to call `cancelWait`. -/
  | dropped (id : TxID)
deriving DecidableEq, Repr

/-- The state of the system: the clock, the two stores, the number of calls
started so far, and the calls in progress. -/
structure System where
  now : Time
  store : Store
  leases : Option Lease.Store
  calls : Nat
  signs : Map Nat SignCall
  approves : Map Nat ApproveCall
  waits : Map Nat WaitCall

/-- What can happen next. -/
inductive Action
  /-- Time passes. -/
  | tick (d : Nat)
  /-- A sign handler comes to the lease fast path, if it is allowed one. -/
  | sign (req : SignInput) (allowLease : Bool)
  | findActive (c : Nat)
  | remaining (c : Nat)
  | startLeased (c : Nat)
  | issueLeased (c : Nat) (signers : Signers)
  | createInstantApproved (c : Nat) (id : TxID)
  | createBound (c : Nat) (id : TxID)
  | startTimer (c : Nat)
  /-- `Approve` is called. -/
  | approve (id : TxID) (ttl : Duration) (approver : GoString)
  | claimApproval (c : Nat)
  | startIssue (c : Nat)
  | issue (c : Nat) (signers : Signers)
  | finishClaimed (c : Nat)
  | putLease (c : Nat)
  /-- `Deny` is called. -/
  | deny (id : TxID)
  /-- The timer of the transaction runs off. -/
  | fire (id : TxID)
  | expire (id : TxID)
  /-- `Wait` is called. -/
  | wait (id : TxID)
  | receive (c : Nat)
  | remove (c : Nat)
  /-- The waiter's context is done, and the select statement takes that branch. -/
  | ctxDone (c : Nat)
  | cancelWait (c : Nat)
  /-- `purgeExpired` of the lease store. -/
  | purge

/-- What happened. -/
inductive Event
  /-- A sign handler came to the store. -/
  | asked (c : Nat) (req : SignInput)
  /-- `FindActive` found a lease for it, at an instant. -/
  | leaseFound (c : Nat) (req : SignInput) (lease : ActiveLease) (now : Time)
  | created (c : Nat) (tx : Transaction)
  | instant (c : Nat) (req : SignInput) (lease : ActiveLease) (tx : Transaction) (res : Result)
  | approveCalled (c : Nat) (id : TxID) (ttl : Duration) (approver : GoString)
  /-- `claimApproval` returned the entry, which it found in the given state. -/
  | claimed (c : Nat) (id : TxID) (state : Option State)
  /-- `issueForTransaction` was started for the transaction. -/
  | issueStarted (c : Nat) (id : TxID) (validUntil : Time)
  /-- `finishLocked` took effect, for `finishClaimed` of a call or for `finishPending`. -/
  | finished (id : TxID) (state : State) (res : Result) (owner : Option Nat)
  | leasePut (c : Nat) (id : TxID) (key : FullKey) (expiresAt : Time)
  /-- `waitResult` gave the call its slot. -/
  | registered (c : Nat) (id : TxID) (slot : WaitSlot)
  /-- `Wait` returned `ErrNotFound`. -/
  | notFound (c : Nat) (id : TxID)
  | received (c : Nat) (id : TxID) (slot : WaitSlot) (res : Result)
  /-- `Wait` returned what it had received. -/
  | returned (c : Nat) (id : TxID) (res : Result)
  /-- `cancelWait` ran at an instant, on an entry created at another, if there was
  one. -/
  | cancelled (c : Nat) (id : TxID) (now : Time) (createdAt : Option Time)
  /-- The entry was deleted from the map. -/
  | removed (id : TxID)
  /-- `purgeExpired` ran at an instant. -/
  | purged (now : Time)
deriving DecidableEq, Repr

namespace System

/-- The system at the start of the proxy. -/
def start (now : Time) (withLeases : Bool) : System where
  now := now
  store := .new
  leases := if withLeases then some .new else none
  calls := 0
  signs := ∅
  approves := ∅
  waits := ∅

/-- A sign call moves on. -/
def setSign (s : System) (c : Nat) (call : SignCall) : System :=
  { s with signs := s.signs.insert c call }

/-- A sign call is through. -/
def endSign (s : System) (c : Nat) : System := { s with signs := s.signs.erase c }

/-- An approval call moves on. -/
def setApprove (s : System) (c : Nat) (call : ApproveCall) : System :=
  { s with approves := s.approves.insert c call }

/-- An approval call is through. -/
def endApprove (s : System) (c : Nat) : System := { s with approves := s.approves.erase c }

/-- A wait call moves on. -/
def setWait (s : System) (c : Nat) (call : WaitCall) : System :=
  { s with waits := s.waits.insert c call }

/-- A wait call is through. -/
def endWait (s : System) (c : Nat) : System := { s with waits := s.waits.erase c }

/-- A call of `approveWithIssuer` starts. -/
def spawnApprove (s : System) (id : TxID) (ttl : Duration) (approver : GoString) : System :=
  { s.setApprove s.calls (.claiming id ttl approver) with calls := s.calls + 1 }

end System

/-- The ttl with which `Approve` goes on. -/
def approveTTL (ttl : Duration) : Duration := if ttl ≤ 0 then defaultDevCertTTL else ttl

/-- Whether `approveWithIssuer` leaves a lease. -/
def leavesLease (s : System) (tx : Transaction) (approver : GoString) : Bool :=
  s.leases.isSome && approver != [] && tx.clientCertFP != [] && !tx.disableLease

/-- One step of the system. -/
def step (cfg : Config) (s : System) : Action → Option (System × List Event)
  | .tick d => some ({ s with now := s.now + d }, [])
  | .sign req allowLease =>
      let call := if !cfg.isDev && allowLease then SignCall.looking req else .creating req
      some ({ s.setSign s.calls call with calls := s.calls + 1 }, [.asked s.calls req])
  | .findActive c =>
      match AList.lookup c s.signs with
      | some (.looking req) =>
          match s.leases.bind fun leases ↦ leases.findActive s.now req.lookup with
          | none => some (s.setSign c (.creating req), [])
          | some lease => some (s.setSign c (.found req lease), [.leaseFound c req lease s.now])
      | _ => none
  | .remaining c =>
      match AList.lookup c s.signs with
      | some (.found req lease) =>
          if lease.remaining s.now ≤ 0 then some (s.setSign c (.creating req), [])
          else some (s.setSign c (.leased req lease (lease.remaining s.now)), [])
      | _ => none
  | .startLeased c =>
      match AList.lookup c s.signs with
      | some (.leased req lease remaining) =>
          some (s.setSign c (.issuing req lease (s.now + remaining)), [])
      | _ => none
  | .issueLeased c signers =>
      match AList.lookup c s.signs with
      | some (.issuing req lease validUntil) =>
          match issueForTransaction cfg signers req.leased validUntil with
          | .error _ => some (s.setSign c (.creating req), [])
          | .ok res =>
              some
                (s.setSign c (.issued req lease { res with leaseExpiresAt := lease.expiresAt }), [])
      | _ => none
  | .createInstantApproved c id =>
      match AList.lookup c s.signs, AList.lookup id s.store.channels with
      | some (.issued req lease res), none =>
          some ({ s.endSign c with
              store := s.store.createInstantApproved (req.instant id s.now) res },
            [.instant c req lease (req.instant id s.now) res])
      | _, _ => none
  | .createBound c id =>
      match AList.lookup c s.signs, AList.lookup id s.store.channels with
      | some (.creating req), none =>
          some
            ({ s.setSign c (.arming id) with store := s.store.createBound (req.pending id s.now) },
              [.created c (req.pending id s.now)])
      | _, _ => none
  | .startTimer c =>
      match AList.lookup c s.signs with
      | some (.arming id) =>
          let s' := { s.endSign c with store := s.store.startTimer id (s.now + cfg.timeout) }
          if cfg.isDev then
            some (s'.spawnApprove id defaultDevCertTTL [],
              [.approveCalled s.calls id defaultDevCertTTL []])
          else some (s', [])
      | _ => none
  | .approve id ttl approver =>
      some (s.spawnApprove id (approveTTL ttl) approver,
        [.approveCalled s.calls id (approveTTL ttl) approver])
  | .claimApproval c =>
      match AList.lookup c s.approves with
      | some (.claiming id ttl approver) =>
          match s.store.claimApproval id with
          | none => some (s.endApprove c, [])
          | some (entry, store) =>
              some ({ s.setApprove c (.claimed id entry.tx ttl approver) with store := store },
                [.claimed c id (s.store.stateOf id)])
      | _ => none
  | .startIssue c =>
      match AList.lookup c s.approves with
      | some (.claimed id tx ttl approver) =>
          some (s.setApprove c (.issuing id tx (s.now + ttl) approver),
            [.issueStarted c id (s.now + ttl)])
      | _ => none
  | .issue c signers =>
      match AList.lookup c s.approves with
      | some (.issuing id tx validUntil approver) =>
          some (s.setApprove c (.issued id tx validUntil approver
            (issueForTransaction cfg signers tx validUntil)), [])
      | _ => none
  | .finishClaimed c =>
      match AList.lookup c s.approves with
      | some (.issued id _ _ _ (.error e)) =>
          let res : Result := { err := some e }
          match s.store.finishClaimed id .denied res with
          | none => some (s.endApprove c, [])
          | some store =>
              some ({ s.endApprove c with store := store }, [.finished id .denied res (some c)])
      | some (.issued id tx validUntil approver (.ok res)) =>
          let res := { res with leaseExpiresAt := validUntil }
          match s.store.finishClaimed id .approved res with
          | none => some (s.endApprove c, [])
          | some store =>
              let s' := if leavesLease s tx approver then
                  s.setApprove c (.putting id tx validUntil approver)
                else s.endApprove c
              some ({ s' with store := store }, [.finished id .approved res (some c)])
      | _ => none
  | .putLease c =>
      match AList.lookup c s.approves with
      | some (.putting id tx validUntil approver) =>
          let key := newFullKey tx.lookup approver
          some ({ s.endApprove c with leases := s.leases.map (·.put key validUntil) },
            [.leasePut c id key validUntil])
      | _ => none
  | .deny id =>
      match s.store.finishPending id .denied Store.deniedResult with
      | none => some (s, [])
      | some store =>
          some ({ s with store := store }, [.finished id .denied Store.deniedResult none])
  | .fire id =>
      match AList.lookup id s.store.timers with
      | some (.running deadline) =>
          if deadline ≤ s.now then
            some ({ s with store := s.store.setTimer id .fired }, [])
          else none
      | _ => none
  | .expire id =>
      match AList.lookup id s.store.timers with
      | some .fired =>
          let store := s.store.setTimer id .stopped
          match store.finishPending id .expired Store.expiredResult with
          | none => some ({ s with store := store }, [])
          | some store =>
              some ({ s with store := store }, [.finished id .expired Store.expiredResult none])
      | _ => none
  | .wait id =>
      match s.store.waitResult id with
      | none => some ({ s with calls := s.calls + 1 }, [.notFound s.calls id])
      | some (slot, store) =>
          some ({ s.setWait s.calls (.waiting id slot) with calls := s.calls + 1, store := store },
            [.registered s.calls id slot])
  | .receive c =>
      match AList.lookup c s.waits with
      | some (.waiting id (.ownResult res)) =>
          some (s.setWait c (.received id res), [.received c id (.ownResult res) res])
      | some (.waiting id .shared) =>
          match AList.lookup id s.store.channels with
          | some (some res) =>
              some ({ s.setWait c (.received id res) with
                  store := { s.store with channels := s.store.channels.insert id none } },
                [.received c id .shared res])
          | _ => none
      | _ => none
  | .remove c =>
      match AList.lookup c s.waits with
      | some (.received id res) =>
          some ({ s.endWait c with store := s.store.remove id },
            [.removed id, .returned c id res])
      | _ => none
  | .ctxDone c =>
      match AList.lookup c s.waits with
      | some (.waiting id _) => some (s.setWait c (.dropped id), [])
      | _ => none
  | .cancelWait c =>
      match AList.lookup c s.waits with
      | some (.dropped id) =>
          some ({ s.endWait c with store := s.store.cancelWait id },
            .cancelled c id s.now (s.store.createdAt id) ::
              if (AList.lookup id s.store.txs).any fun entry ↦ decide (entry.waiters - 1 ≤ 0) then
                [.removed id]
              else [])
      | _ => none
  | .purge => some ({ s with leases := s.leases.map (·.purgeExpired s.now) }, [.purged s.now])

/-- The system as a machine, started at an instant, with or without a lease
store. -/
def machine (cfg : Config) (now : Time) (withLeases : Bool) : Machine System Action Event where
  start := .start now withLeases
  step := step cfg

/-! ## What a step can do -/

/-- The steps of the system, one by one: what has to hold for a step, the state it
leads to, and its events. -/
inductive Step (cfg : Config) (s : System) : Action → System → List Event → Prop
  | tick (d : Nat) : Step cfg s (.tick d) { s with now := s.now + d } []
  | sign (req : SignInput) (allowLease : Bool) :
      Step cfg s (.sign req allowLease)
        { s.setSign s.calls (if !cfg.isDev && allowLease then .looking req else .creating req) with
          calls := s.calls + 1 } [.asked s.calls req]
  | findActiveNone {c : Nat} {req : SignInput} (hc : AList.lookup c s.signs = some (.looking req))
      (hl : (s.leases.bind fun leases ↦ leases.findActive s.now req.lookup) = none) :
      Step cfg s (.findActive c) (s.setSign c (.creating req)) []
  | findActive {c : Nat} {req : SignInput} {leases : Lease.Store} {lease : ActiveLease}
      (hc : AList.lookup c s.signs = some (.looking req)) (hs : s.leases = some leases)
      (hl : leases.findActive s.now req.lookup = some lease) :
      Step cfg s (.findActive c) (s.setSign c (.found req lease)) [.leaseFound c req lease s.now]
  | remainingNone {c : Nat} {req : SignInput} {lease : ActiveLease}
      (hc : AList.lookup c s.signs = some (.found req lease)) (hr : lease.remaining s.now ≤ 0) :
      Step cfg s (.remaining c) (s.setSign c (.creating req)) []
  | remaining {c : Nat} {req : SignInput} {lease : ActiveLease}
      (hc : AList.lookup c s.signs = some (.found req lease)) (hr : 0 < lease.remaining s.now) :
      Step cfg s (.remaining c) (s.setSign c (.leased req lease (lease.remaining s.now))) []
  | startLeased {c : Nat} {req : SignInput} {lease : ActiveLease} {remaining : Duration}
      (hc : AList.lookup c s.signs = some (.leased req lease remaining)) :
      Step cfg s (.startLeased c) (s.setSign c (.issuing req lease (s.now + remaining))) []
  | issueLeasedError {c : Nat} {req : SignInput} {lease : ActiveLease} {validUntil : Time}
      {signers : Signers} {e : ApprovalError}
      (hc : AList.lookup c s.signs = some (.issuing req lease validUntil))
      (hi : issueForTransaction cfg signers req.leased validUntil = .error e) :
      Step cfg s (.issueLeased c signers) (s.setSign c (.creating req)) []
  | issueLeased {c : Nat} {req : SignInput} {lease : ActiveLease} {validUntil : Time}
      {signers : Signers} {res : Result}
      (hc : AList.lookup c s.signs = some (.issuing req lease validUntil))
      (hi : issueForTransaction cfg signers req.leased validUntil = .ok res) :
      Step cfg s (.issueLeased c signers)
        (s.setSign c (.issued req lease { res with leaseExpiresAt := lease.expiresAt })) []
  | createInstantApproved {c : Nat} {id : TxID} {req : SignInput} {lease : ActiveLease}
      {res : Result} (hc : AList.lookup c s.signs = some (.issued req lease res))
      (hid : AList.lookup id s.store.channels = none) :
      Step cfg s (.createInstantApproved c id)
        { s.endSign c with store := s.store.createInstantApproved (req.instant id s.now) res }
        [.instant c req lease (req.instant id s.now) res]
  | createBound {c : Nat} {id : TxID} {req : SignInput}
      (hc : AList.lookup c s.signs = some (.creating req))
      (hid : AList.lookup id s.store.channels = none) :
      Step cfg s (.createBound c id)
        { s.setSign c (.arming id) with store := s.store.createBound (req.pending id s.now) }
        [.created c (req.pending id s.now)]
  | startTimer {c : Nat} {id : TxID} (hc : AList.lookup c s.signs = some (.arming id))
      (hdev : cfg.isDev = false) :
      Step cfg s (.startTimer c)
        { s.endSign c with store := s.store.startTimer id (s.now + cfg.timeout) } []
  | startTimerDev {c : Nat} {id : TxID} (hc : AList.lookup c s.signs = some (.arming id))
      (hdev : cfg.isDev = true) :
      Step cfg s (.startTimer c)
        (System.spawnApprove
          { s.endSign c with store := s.store.startTimer id (s.now + cfg.timeout) }
          id defaultDevCertTTL [])
        [.approveCalled s.calls id defaultDevCertTTL []]
  | approve (id : TxID) (ttl : Duration) (approver : GoString) :
      Step cfg s (.approve id ttl approver) (s.spawnApprove id (approveTTL ttl) approver)
        [.approveCalled s.calls id (approveTTL ttl) approver]
  | claimApprovalNone {c : Nat} {id : TxID} {ttl : Duration} {approver : GoString}
      (hc : AList.lookup c s.approves = some (.claiming id ttl approver))
      (hn : s.store.claimApproval id = none) : Step cfg s (.claimApproval c) (s.endApprove c) []
  | claimApproval {c : Nat} {id : TxID} {ttl : Duration} {approver : GoString} {entry : TxEntry}
      {store : Store} (hc : AList.lookup c s.approves = some (.claiming id ttl approver))
      (hn : s.store.claimApproval id = some (entry, store)) :
      Step cfg s (.claimApproval c)
        { s.setApprove c (.claimed id entry.tx ttl approver) with store := store }
        [.claimed c id (s.store.stateOf id)]
  | startIssue {c : Nat} {id : TxID} {tx : Transaction} {ttl : Duration} {approver : GoString}
      (hc : AList.lookup c s.approves = some (.claimed id tx ttl approver)) :
      Step cfg s (.startIssue c) (s.setApprove c (.issuing id tx (s.now + ttl) approver))
        [.issueStarted c id (s.now + ttl)]
  | issue {c : Nat} {id : TxID} {tx : Transaction} {validUntil : Time} {approver : GoString}
      (signers : Signers)
      (hc : AList.lookup c s.approves = some (.issuing id tx validUntil approver)) :
      Step cfg s (.issue c signers)
        (s.setApprove c (.issued id tx validUntil approver
          (issueForTransaction cfg signers tx validUntil))) []
  | finishClaimedNone {c : Nat} {id : TxID} {tx : Transaction} {validUntil : Time}
      {approver : GoString} {res : Except ApprovalError Result}
      (hc : AList.lookup c s.approves = some (.issued id tx validUntil approver res))
      (hn : s.store.unfinished id .approving = none) :
      Step cfg s (.finishClaimed c) (s.endApprove c) []
  | finishDenied {c : Nat} {id : TxID} {tx : Transaction} {validUntil : Time}
      {approver : GoString} {e : ApprovalError} {entry : TxEntry}
      (hc : AList.lookup c s.approves = some (.issued id tx validUntil approver (.error e)))
      (hn : s.store.unfinished id .approving = some entry) :
      Step cfg s (.finishClaimed c)
        { s.endApprove c with store := s.store.finishLocked id entry .denied { err := some e } }
        [.finished id .denied { err := some e } (some c)]
  | finishApproved {c : Nat} {id : TxID} {tx : Transaction} {validUntil : Time}
      {approver : GoString} {res : Result} {entry : TxEntry}
      (hc : AList.lookup c s.approves = some (.issued id tx validUntil approver (.ok res)))
      (hn : s.store.unfinished id .approving = some entry) :
      Step cfg s (.finishClaimed c)
        { (if leavesLease s tx approver then s.setApprove c (.putting id tx validUntil approver)
            else s.endApprove c) with
          store := s.store.finishLocked id entry .approved
            { res with leaseExpiresAt := validUntil } }
        [.finished id .approved { res with leaseExpiresAt := validUntil } (some c)]
  | putLease {c : Nat} {id : TxID} {tx : Transaction} {validUntil : Time} {approver : GoString}
      (hc : AList.lookup c s.approves = some (.putting id tx validUntil approver)) :
      Step cfg s (.putLease c)
        { s.endApprove c with
          leases := s.leases.map (·.put (newFullKey tx.lookup approver) validUntil) }
        [.leasePut c id (newFullKey tx.lookup approver) validUntil]
  | denyNone {id : TxID} (hn : s.store.unfinished id .pending = none) : Step cfg s (.deny id) s []
  | deny {id : TxID} {entry : TxEntry} (hn : s.store.unfinished id .pending = some entry) :
      Step cfg s (.deny id)
        { s with store := s.store.finishLocked id entry .denied Store.deniedResult }
        [.finished id .denied Store.deniedResult none]
  | fire {id : TxID} {deadline : Time}
      (ht : AList.lookup id s.store.timers = some (.running deadline)) (hd : deadline ≤ s.now) :
      Step cfg s (.fire id) { s with store := s.store.setTimer id .fired } []
  | expireNone {id : TxID} (ht : AList.lookup id s.store.timers = some .fired)
      (hn : s.store.unfinished id .pending = none) :
      Step cfg s (.expire id) { s with store := s.store.setTimer id .stopped } []
  | expire {id : TxID} {entry : TxEntry} (ht : AList.lookup id s.store.timers = some .fired)
      (hn : s.store.unfinished id .pending = some entry) :
      Step cfg s (.expire id)
        { s with store :=
            (s.store.setTimer id .stopped).finishLocked id entry .expired Store.expiredResult }
        [.finished id .expired Store.expiredResult none]
  | waitNone {id : TxID} (hn : s.store.waitResult id = none) :
      Step cfg s (.wait id) { s with calls := s.calls + 1 } [.notFound s.calls id]
  | wait {id : TxID} {slot : WaitSlot} {store : Store}
      (hn : s.store.waitResult id = some (slot, store)) :
      Step cfg s (.wait id)
        { s.setWait s.calls (.waiting id slot) with calls := s.calls + 1, store := store }
        [.registered s.calls id slot]
  | receiveOwn {c : Nat} {id : TxID} {res : Result}
      (hc : AList.lookup c s.waits = some (.waiting id (.ownResult res))) :
      Step cfg s (.receive c) (s.setWait c (.received id res))
        [.received c id (.ownResult res) res]
  | receiveShared {c : Nat} {id : TxID} {res : Result}
      (hc : AList.lookup c s.waits = some (.waiting id .shared))
      (hch : AList.lookup id s.store.channels = some (some res)) :
      Step cfg s (.receive c)
        { s.setWait c (.received id res) with
          store := { s.store with channels := s.store.channels.insert id none } }
        [.received c id .shared res]
  | remove {c : Nat} {id : TxID} {res : Result}
      (hc : AList.lookup c s.waits = some (.received id res)) :
      Step cfg s (.remove c) { s.endWait c with store := s.store.remove id }
        [.removed id, .returned c id res]
  | ctxDone {c : Nat} {id : TxID} {slot : WaitSlot}
      (hc : AList.lookup c s.waits = some (.waiting id slot)) :
      Step cfg s (.ctxDone c) (s.setWait c (.dropped id)) []
  | cancelWaitNone {c : Nat} {id : TxID} (hc : AList.lookup c s.waits = some (.dropped id))
      (hn : AList.lookup id s.store.txs = none) :
      Step cfg s (.cancelWait c) (s.endWait c) [.cancelled c id s.now none]
  | cancelWaitKeep {c : Nat} {id : TxID} {entry : TxEntry}
      (hc : AList.lookup c s.waits = some (.dropped id))
      (hn : AList.lookup id s.store.txs = some entry) (hw : 1 < entry.waiters) :
      Step cfg s (.cancelWait c)
        { s.endWait c with
          store := s.store.setEntry id { entry with waiters := entry.waiters - 1 } }
        [.cancelled c id s.now (some entry.tx.createdAt)]
  | cancelWaitDelete {c : Nat} {id : TxID} {entry : TxEntry}
      (hc : AList.lookup c s.waits = some (.dropped id))
      (hn : AList.lookup id s.store.txs = some entry) (hw : entry.waiters ≤ 1) :
      Step cfg s (.cancelWait c)
        { s.endWait c with store := (s.store.stopTimer id).remove id }
        [.cancelled c id s.now (some entry.tx.createdAt), .removed id]
  | purge :
      Step cfg s .purge { s with leases := s.leases.map (·.purgeExpired s.now) } [.purged s.now]

/-- **Inversion.**  A step of the machine is one of these. -/
theorem Step.of_step {cfg : Config} {s s' : System} {a : Action} {es : List Event}
    (h : step cfg s a = some (s', es)) : Step cfg s a s' es := by
  cases a with
  | tick d =>
      cases h
      exact .tick d
  | sign req allowLease =>
      cases h
      exact .sign req allowLease
  | findActive c =>
      simp only [step] at h
      split at h
      · next hc =>
          split at h
          · next hl =>
              cases h
              exact .findActiveNone hc hl
          · next hl =>
              cases h
              obtain ⟨leases, hs, hl⟩ := Option.bind_eq_some_iff.mp hl
              exact .findActive hc hs hl
      · exact nomatch h
  | remaining c =>
      simp only [step] at h
      split at h
      · next hc =>
          split at h
          · next hr =>
              cases h
              exact .remainingNone hc hr
          · next hr =>
              cases h
              exact .remaining hc (Int.not_le.mp hr)
      · exact nomatch h
  | startLeased c =>
      simp only [step] at h
      split at h
      · next hc =>
          cases h
          exact .startLeased hc
      · exact nomatch h
  | issueLeased c signers =>
      simp only [step] at h
      split at h
      · next hc =>
          split at h
          · next hi =>
              cases h
              exact .issueLeasedError hc hi
          · next hi =>
              cases h
              exact .issueLeased hc hi
      · exact nomatch h
  | createInstantApproved c id =>
      simp only [step] at h
      split at h
      · next hc hid =>
          cases h
          exact .createInstantApproved hc hid
      · exact nomatch h
  | createBound c id =>
      simp only [step] at h
      split at h
      · next hc hid =>
          cases h
          exact .createBound hc hid
      · exact nomatch h
  | startTimer c =>
      simp only [step] at h
      split at h
      · next hc =>
          split at h
          · next hdev =>
              cases h
              exact .startTimerDev hc hdev
          · next hdev =>
              cases h
              exact .startTimer hc (Bool.eq_false_of_not_eq_true hdev)
      · exact nomatch h
  | approve id ttl approver =>
      cases h
      exact .approve id ttl approver
  | claimApproval c =>
      simp only [step] at h
      split at h
      · next hc =>
          split at h
          · next hn =>
              cases h
              exact .claimApprovalNone hc hn
          · next hn =>
              cases h
              exact .claimApproval hc hn
      · exact nomatch h
  | startIssue c =>
      simp only [step] at h
      split at h
      · next hc =>
          cases h
          exact .startIssue hc
      · exact nomatch h
  | issue c signers =>
      simp only [step] at h
      split at h
      · next hc =>
          cases h
          exact .issue signers hc
      · exact nomatch h
  | finishClaimed c =>
      simp only [step, Store.finishClaimed] at h
      split at h
      · next id _ _ _ e hc =>
          cases hn : s.store.unfinished id .approving with
          | none =>
              rw [hn] at h
              cases h
              exact .finishClaimedNone hc hn
          | some entry =>
              rw [hn] at h
              cases h
              exact .finishDenied hc hn
      · next id _ _ _ res hc =>
          cases hn : s.store.unfinished id .approving with
          | none =>
              rw [hn] at h
              cases h
              exact .finishClaimedNone hc hn
          | some entry =>
              rw [hn] at h
              cases h
              exact .finishApproved hc hn
      · exact nomatch h
  | putLease c =>
      simp only [step] at h
      split at h
      · next hc =>
          cases h
          exact .putLease hc
      · exact nomatch h
  | deny id =>
      simp only [step, Store.finishPending] at h
      cases hn : s.store.unfinished id .pending with
      | none =>
          rw [hn] at h
          cases h
          exact .denyNone hn
      | some entry =>
          rw [hn] at h
          cases h
          exact .deny hn
  | fire id =>
      simp only [step] at h
      split at h
      · next ht =>
          split at h
          · next hd =>
              cases h
              exact .fire ht hd
          · exact nomatch h
      · exact nomatch h
  | expire id =>
      simp only [step, Store.finishPending] at h
      split at h
      · next ht =>
          have hset : (s.store.setTimer id .stopped).unfinished id .pending =
            s.store.unfinished id .pending := rfl
          rw [hset] at h
          cases hn : s.store.unfinished id .pending with
          | none =>
              rw [hn] at h
              cases h
              exact .expireNone ht hn
          | some entry =>
              rw [hn] at h
              cases h
              exact .expire ht hn
      · exact nomatch h
  | wait id =>
      simp only [step] at h
      split at h
      · next hn =>
          cases h
          exact .waitNone hn
      · next hn =>
          cases h
          exact .wait hn
  | receive c =>
      simp only [step] at h
      split at h
      · next hc =>
          cases h
          exact .receiveOwn hc
      · next hc =>
          split at h
          · next hch =>
              cases h
              exact .receiveShared hc hch
          · exact nomatch h
      · exact nomatch h
  | remove c =>
      simp only [step] at h
      split at h
      · next hc =>
          cases h
          exact .remove hc
      · exact nomatch h
  | ctxDone c =>
      simp only [step] at h
      split at h
      · next hc =>
          cases h
          exact .ctxDone hc
      · exact nomatch h
  | cancelWait c =>
      simp only [step, Store.cancelWait] at h
      split at h
      · next id hc =>
          cases hn : AList.lookup id s.store.txs with
          | none =>
              simp only [Store.createdAt, hn] at h
              cases h
              exact .cancelWaitNone hc hn
          | some entry =>
              simp only [Store.createdAt, hn, Option.any_some, decide_eq_true_eq,
                Option.map_some] at h
              by_cases hw : entry.waiters - 1 ≤ 0
              · rw [if_pos hw, if_pos hw] at h
                cases h
                exact .cancelWaitDelete hc hn (by omega)
              · rw [if_neg hw, if_neg hw] at h
                cases h
                exact .cancelWaitKeep hc hn (by omega)
      · exact nomatch h
  | purge =>
      cases h
      exact .purge

/-! ## A request, for concrete runs -/

/-- A proxy that signs with its CA and waits a minute for an approval. -/
def plainConfig : Config where
  env := str "prod"
  signerMode := .localCA
  timeout := 60 * Time.second

/-- Signers that issue a certificate naming the user. -/
def plainSigners : Signers where
  issuer := some fun req ↦ .ok ⟨req.targetUser, req.validUntil⟩
  keySigner := none

/-- A request to log in as `deploy`. -/
def deployInput : SignInput where
  targetUser := str "deploy"
  targetIP := str "10.0.0.5"
  publicKey := [7]
  sourceIP := str "10.0.0.1"
  clientCertFP := str "client"
  agentSignData := []
  hostKeyFP := []
  destinationHostKeyFP := []
  client := ⟨[], [], [], [], false⟩

/-- The id of its transaction. -/
def deployTx : TxID := str "tx_1"

/-- The request comes in and its transaction is created. -/
def createDeploy : List Action :=
  [.sign deployInput false, .createBound 0 deployTx, .startTimer 0]

/-- A call numbered `c` approves it, up to the commit. -/
def approveDeploy (c : Nat) : List Action :=
  [.approve deployTx (5 * Time.minute) (str "telegram:1"), .claimApproval c, .startIssue c,
    .issue c plainSigners, .finishClaimed c]

end LunaZTrust.Approval
