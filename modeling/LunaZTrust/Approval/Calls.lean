import LunaZTrust.Approval.System

/-!
# The stages of an approval call

What a step of the system does to the calls of `approveWithIssuer` in progress: it starts one,
takes one to its next stage, ends one, or leaves all as they are (`Step.approves_cases`).  An
invariant of the calls is therefore kept if new calls have it and the next stage has it
(`Step.forall_approves`), and a call that is there before a step stays, goes on or ends
(`Step.approve_cases`).
-/

namespace LunaZTrust.Approval

open LunaZTrust.Go LunaZTrust.Lease

/-- From one stage of the call to the next. -/
inductive Advances (cfg : Config) (s : System) (c : Nat) :
    Action → List Event → ApproveCall → ApproveCall → Prop
  | claim {id : TxID} {ttl : Duration} {approver : GoString} {entry : TxEntry} {store : Store}
      (hn : s.store.claimApproval id = some (entry, store)) :
      Advances cfg s c (.claimApproval c) [.claimed c id (s.store.stateOf id)]
        (.claiming id ttl approver) (.claimed id entry.tx ttl approver)
  | start {id : TxID} {tx : Transaction} {ttl : Duration} {approver : GoString} :
      Advances cfg s c (.startIssue c) [.issueStarted c id (s.now + ttl)]
        (.claimed id tx ttl approver) (.issuing id tx (s.now + ttl) approver)
  | issue {id : TxID} {tx : Transaction} {validUntil : Time} {approver : GoString}
      (signers : Signers) :
      Advances cfg s c (.issue c signers) [] (.issuing id tx validUntil approver)
        (.issued id tx validUntil approver (issueForTransaction cfg signers tx validUntil))
  | finish {id : TxID} {tx : Transaction} {validUntil : Time} {approver : GoString}
      {res : Result} {entry : TxEntry} (hl : leavesLease s tx approver = true)
      (hn : s.store.unfinished id .approving = some entry) :
      Advances cfg s c (.finishClaimed c)
        [.finished id .approved { res with leaseExpiresAt := validUntil } (some c)]
        (.issued id tx validUntil approver (.ok res)) (.putting id tx validUntil approver)

/-- The end of the call. -/
inductive Ends (s : System) (c : Nat) : Action → List Event → ApproveCall → Prop
  | notPending {id : TxID} {ttl : Duration} {approver : GoString}
      (hn : s.store.claimApproval id = none) :
      Ends s c (.claimApproval c) [] (.claiming id ttl approver)
  | gone {id : TxID} {tx : Transaction} {validUntil : Time} {approver : GoString}
      {res : Except ApprovalError Result} (hn : s.store.unfinished id .approving = none) :
      Ends s c (.finishClaimed c) [] (.issued id tx validUntil approver res)
  | denied {id : TxID} {tx : Transaction} {validUntil : Time} {approver : GoString}
      {e : ApprovalError} :
      Ends s c (.finishClaimed c) [.finished id .denied { err := some e } (some c)]
        (.issued id tx validUntil approver (.error e))
  | approved {id : TxID} {tx : Transaction} {validUntil : Time} {approver : GoString}
      {res : Result} (hl : ¬leavesLease s tx approver = true) :
      Ends s c (.finishClaimed c)
        [.finished id .approved { res with leaseExpiresAt := validUntil } (some c)]
        (.issued id tx validUntil approver (.ok res))
  | put {id : TxID} {tx : Transaction} {validUntil : Time} {approver : GoString} :
      Ends s c (.putLease c) [.leasePut c id (newFullKey tx.lookup approver) validUntil]
        (.putting id tx validUntil approver)

variable {cfg : Config} {s s' : System} {a : Action} {es : List Event}

/-- What a step does to the calls. -/
theorem Step.approves_cases (hs : Step cfg s a s' es) :
    s'.approves = s.approves ∨
      (∃ id ttl approver, s'.approves = s.approves.insert s.calls (.claiming id ttl approver) ∧
        s'.calls = s.calls + 1 ∧ es = [.approveCalled s.calls id ttl approver]) ∨
      (∃ c call next, AList.lookup c s.approves = some call ∧ Advances cfg s c a es call next ∧
        s'.approves = s.approves.insert c next) ∨
      ∃ c call, AList.lookup c s.approves = some call ∧ Ends s c a es call ∧
        s'.approves = s.approves.erase c := by
  cases hs with
  | startTimerDev => exact .inr (.inl ⟨_, _, _, rfl, rfl, rfl⟩)
  | approve => exact .inr (.inl ⟨_, _, _, rfl, rfl, rfl⟩)
  | claimApprovalNone hc hn => exact .inr (.inr (.inr ⟨_, _, hc, .notPending hn, rfl⟩))
  | claimApproval hc hn => exact .inr (.inr (.inl ⟨_, _, _, hc, .claim hn, rfl⟩))
  | startIssue hc => exact .inr (.inr (.inl ⟨_, _, _, hc, .start, rfl⟩))
  | issue signers hc => exact .inr (.inr (.inl ⟨_, _, _, hc, .issue signers, rfl⟩))
  | finishClaimedNone hc hn => exact .inr (.inr (.inr ⟨_, _, hc, .gone hn, rfl⟩))
  | finishDenied hc hn => exact .inr (.inr (.inr ⟨_, _, hc, .denied, rfl⟩))
  | @finishApproved c id tx validUntil approver res entry hc hn =>
      by_cases hl : leavesLease s tx approver = true
      · rw [if_pos hl]
        exact .inr (.inr (.inl ⟨_, _, _, hc, .finish hl hn, rfl⟩))
      · rw [if_neg hl]
        exact .inr (.inr (.inr ⟨_, _, hc, .approved hl, rfl⟩))
  | putLease hc => exact .inr (.inr (.inr ⟨_, _, hc, .put, rfl⟩))
  | _ => exact .inl rfl

/-- **Invariants of the calls.**  It is enough to look at new calls and at next stages. -/
theorem Step.forall_approves (hs : Step cfg s a s' es) {P : Nat → ApproveCall → Prop}
    (hold : ∀ c call, AList.lookup c s.approves = some call → P c call)
    (hnew : ∀ id ttl approver, s'.calls = s.calls + 1 →
      es = [.approveCalled s.calls id ttl approver] → P s.calls (.claiming id ttl approver))
    (hnext : ∀ c call next, AList.lookup c s.approves = some call →
      Advances cfg s c a es call next → P c next) :
    ∀ c call, AList.lookup c s'.approves = some call → P c call := by
  rcases hs.approves_cases with heq | ⟨id, ttl, approver, heq, hcalls, hes⟩ |
    ⟨c, call, next, hc, hadv, heq⟩ | ⟨c, call, -, -, heq⟩
  · rwa [heq]
  · rw [heq]
    exact Map.forall_insert hold (hnew id ttl approver hcalls hes)
  · rw [heq]
    exact Map.forall_insert hold (hnext c call next hc hadv)
  · rw [heq]
    exact Map.forall_erase hold

/-- **A call in progress** stays where it is, comes to its next stage, or ends. -/
theorem Step.approve_cases (hs : Step cfg s a s' es) {c : Nat} {call : ApproveCall}
    (hlt : c < s.calls) (hc : AList.lookup c s.approves = some call) :
    AList.lookup c s'.approves = some call ∨
      (∃ next, AList.lookup c s'.approves = some next ∧ Advances cfg s c a es call next) ∨
      Ends s c a es call := by
  rcases hs.approves_cases with heq | ⟨id, ttl, approver, heq, -⟩ |
    ⟨c', call', next, hc', hadv, heq⟩ | ⟨c', call', hc', hend, heq⟩
  · exact .inl (heq ▸ hc)
  · rw [heq, AList.lookup_insert_ne (Nat.ne_of_lt hlt)]
    exact .inl hc
  · by_cases hcc' : c = c'
    · subst hcc'
      cases hc'.symm.trans hc
      exact .inr (.inl ⟨next, by rw [heq, AList.lookup_insert], hadv⟩)
    · rw [heq, AList.lookup_insert_ne hcc']
      exact .inl hc
  · by_cases hcc' : c = c'
    · subst hcc'
      cases hc'.symm.trans hc
      exact .inr (.inr hend)
    · rw [heq, AList.lookup_erase_ne hcc']
      exact .inl hc

end LunaZTrust.Approval
