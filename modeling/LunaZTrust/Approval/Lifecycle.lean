import LunaZTrust.Approval.System

/-!
# The life of a transaction

What the approval store is for, said about one transaction: it is created once,
claimed by at most one approval, decided once, and leaves a lease only after the
approval that claimed it has been committed.  `Life.next` says which events can
come when; an event that may not come has no next state.

`LunaZTrust.Approval.Refinement` shows that the events of every run of the store
are such a life, for every transaction.
-/

namespace LunaZTrust.Approval

open LunaZTrust.Go LunaZTrust.Lease LunaZTrust.Transition

/-- How far a transaction has got. -/
inductive Phase
  | absent
  | pending
  | claimed (c : Nat)
  | issuing (c : Nat) (validUntil : Time)
  /-- Decided; `owner` is the approval that decided it and has not left its lease. -/
  | decided (state : State) (res : Result) (owner : Option Nat)
deriving DecidableEq, Repr

namespace Phase

/-- The state of the entry in the phase, if there is an entry. -/
def state : Phase → State
  | .absent => .pending
  | .pending => .pending
  | .claimed _ => .approving
  | .issuing _ _ => .approving
  | .decided state _ _ => state

/-- The result in the entry. -/
def result : Phase → Option Result
  | .decided _ res _ => some res
  | _ => none

/-- The approval that has the transaction in hand. -/
def owner : Phase → Option Nat
  | .claimed c => some c
  | .issuing c _ => some c
  | .decided _ _ owner => owner
  | _ => none

end Phase

/-- The phase of a transaction, whether it has an entry, and what it was created
as. -/
structure Life where
  phase : Phase
  present : Bool
  origin : Option Transaction
deriving DecidableEq, Repr

/-- The transaction an event is about. -/
def Event.txID : Event → Option TxID
  | .created _ tx => some tx.id
  | .instant _ _ _ tx _ => some tx.id
  | .approveCalled _ id _ _ => some id
  | .claimed _ id _ => some id
  | .issueStarted _ id _ => some id
  | .finished id _ _ _ => some id
  | .leasePut _ id _ _ => some id
  | .registered _ id _ => some id
  | .notFound _ id => some id
  | .received _ id _ _ => some id
  | .returned _ id _ => some id
  | .cancelled _ id _ _ => some id
  | .removed id => some id
  | .asked _ _ => none
  | .leaseFound _ _ _ _ => none
  | .purged _ => none

/-- A result with an error and no credential, for a refused transaction. -/
def IsRefusal (state : State) (res : Result) : Prop :=
  (state = .denied ∨ state = .expired) ∧ res.err ≠ none ∧ res.cert = [] ∧ res.signature = []

instance (state : State) (res : Result) : Decidable (IsRefusal state res) :=
  inferInstanceAs (Decidable (_ ∧ _))

/-- The result of an approval that issues until an instant. -/
def IsGrant (state : State) (res : Result) (validUntil : Time) : Prop :=
  state = .approved ∧ res.err = none ∧ res.leaseExpiresAt = validUntil

instance (state : State) (res : Result) (validUntil : Time) :
    Decidable (IsGrant state res validUntil) :=
  inferInstanceAs (Decidable (_ ∧ _))

/-- A lease that a transaction may leave. -/
def MayLease (origin : Option Transaction) (key : FullKey) : Prop :=
  key.approver ≠ [] ∧ ∃ tx ∈ origin, key.toLookupKey = tx.lookup ∧ tx.clientCertFP ≠ [] ∧
    tx.disableLease = false

instance (origin : Option Transaction) (key : FullKey) : Decidable (MayLease origin key) :=
  match origin with
  | none => .isFalse fun ⟨_, _, h, _⟩ ↦ nomatch h
  | some tx =>
      decidable_of_iff (key.approver ≠ [] ∧ key.toLookupKey = tx.lookup ∧ tx.clientCertFP ≠ [] ∧
        tx.disableLease = false) (by simp [MayLease])

namespace Life

/-- Before anything has happened. -/
def start : Life := ⟨.absent, false, none⟩

/-- The life after an event about the transaction, if it may come now. -/
def next (l : Life) : Event → Option Life
  | .created _ tx =>
      if l.phase = .absent ∧ tx.state = .pending then some ⟨.pending, true, some tx⟩ else none
  | .instant _ _ _ tx res =>
      if l.phase = .absent ∧ tx.state = .approved ∧ res.err = none then
        some ⟨.decided .approved res none, true, some tx⟩
      else none
  | .claimed c _ state =>
      if l.phase = .pending ∧ l.present ∧ state = some .pending then
        some { l with phase := .claimed c }
      else none
  | .issueStarted c _ validUntil =>
      if l.phase = .claimed c then some { l with phase := .issuing c validUntil } else none
  | .finished _ state res none =>
      if l.phase = .pending ∧ l.present ∧ IsRefusal state res then
        some { l with phase := .decided state res none }
      else none
  | .finished _ state res (some c) =>
      match l.phase with
      | .issuing c' validUntil =>
          if c = c' ∧ l.present ∧ (IsGrant state res validUntil ∨ IsRefusal state res) then
            some { l with phase := .decided state res (some c) }
          else none
      | _ => none
  | .leasePut c _ key expiresAt =>
      match l.phase with
      | .decided .approved res (some c') =>
          if c = c' ∧ res.leaseExpiresAt = expiresAt ∧ MayLease l.origin key then
            some { l with phase := .decided .approved res none }
          else none
      | _ => none
  | .removed _ => some { l with present := false }
  | _ => some l

end Life

/-- The lives of one transaction, as a machine that is driven by the events of a
run and gives them back. -/
def lifecycle (id : TxID) : Machine Life Event Event where
  start := .start
  step l e := if e.txID = some id then (l.next e).map fun l' ↦ (l', [e]) else some (l, [e])

theorem lifecycle_step_of_ne {id : TxID} {l : Life} {e : Event} (h : e.txID ≠ some id) :
    (lifecycle id).step l e = some (l, [e]) := if_neg h

theorem lifecycle_step_of_next {id : TxID} {l l' : Life} {e : Event} (h : e.txID = some id)
    (hn : l.next e = some l') : (lifecycle id).step l e = some (l', [e]) := by
  show (if e.txID = some id then _ else _) = _
  rw [if_pos h, hn]
  rfl

theorem lifecycle_step_iff {id : TxID} {l l' : Life} {e : Event} {es : List Event} :
    (lifecycle id).step l e = some (l', es) ↔
      es = [e] ∧ (e.txID = some id ∧ l.next e = some l' ∨ e.txID ≠ some id ∧ l' = l) := by
  by_cases h : e.txID = some id
  · have hstep : (lifecycle id).step l e = (l.next e).map fun l' ↦ (l', [e]) := if_pos h
    rw [hstep, Option.map_eq_some_iff]
    constructor
    · rintro ⟨l'', hn, heq⟩
      obtain ⟨rfl, rfl⟩ := Prod.mk.inj heq
      exact ⟨rfl, Or.inl ⟨h, hn⟩⟩
    · rintro ⟨rfl, ⟨-, hn⟩ | ⟨hne, -⟩⟩
      · exact ⟨l', hn, rfl⟩
      · exact absurd h hne
  · rw [lifecycle_step_of_ne h, Option.some.injEq, Prod.mk.injEq]
    constructor
    · rintro ⟨rfl, rfl⟩
      exact ⟨rfl, Or.inr ⟨h, rfl⟩⟩
    · rintro ⟨rfl, ⟨h', -⟩ | ⟨-, rfl⟩⟩
      · exact absurd h' h
      · exact ⟨rfl, rfl⟩

/-- An event that leaves the life as it is. -/
def Event.isPassive : Event → Bool
  | .asked _ _ => true
  | .leaseFound _ _ _ _ => true
  | .approveCalled _ _ _ _ => true
  | .registered _ _ _ => true
  | .notFound _ _ => true
  | .received _ _ _ _ => true
  | .returned _ _ _ => true
  | .cancelled _ _ _ _ => true
  | .purged _ => true
  | _ => false

/-- The moves of a life, one by one. -/
inductive Life.Moves (l : Life) : Event → Life → Prop
  | created {c : Nat} {tx : Transaction} (hp : l.phase = .absent) (ht : tx.state = .pending) :
      Moves l (.created c tx) ⟨.pending, true, some tx⟩
  | instant {c : Nat} {req : SignInput} {lease : ActiveLease} {tx : Transaction} {res : Result}
      (hp : l.phase = .absent) (ht : tx.state = .approved) (hr : res.err = none) :
      Moves l (.instant c req lease tx res) ⟨.decided .approved res none, true, some tx⟩
  | claimed {c : Nat} {id : TxID} (hp : l.phase = .pending) (hpr : l.present = true) :
      Moves l (.claimed c id (some .pending)) { l with phase := .claimed c }
  | issueStarted {c : Nat} {id : TxID} {validUntil : Time} (hp : l.phase = .claimed c) :
      Moves l (.issueStarted c id validUntil) { l with phase := .issuing c validUntil }
  | refused {id : TxID} {state : State} {res : Result} (hp : l.phase = .pending)
      (hpr : l.present = true) (hr : IsRefusal state res) :
      Moves l (.finished id state res none) { l with phase := .decided state res none }
  | committed {c : Nat} {id : TxID} {state : State} {res : Result} {validUntil : Time}
      (hp : l.phase = .issuing c validUntil) (hpr : l.present = true)
      (hr : IsGrant state res validUntil ∨ IsRefusal state res) :
      Moves l (.finished id state res (some c)) { l with phase := .decided state res (some c) }
  | leasePut {c : Nat} {id : TxID} {key : FullKey} {res : Result}
      (hp : l.phase = .decided .approved res (some c)) (hk : MayLease l.origin key) :
      Moves l (.leasePut c id key res.leaseExpiresAt)
        { l with phase := .decided .approved res none }
  | removed {id : TxID} : Moves l (.removed id) { l with present := false }
  | passive {e : Event} (he : e.isPassive = true) : Moves l e l

theorem Life.Moves.of_next {l l' : Life} {e : Event} (h : l.next e = some l') : l.Moves e l' := by
  cases e with
  | created c tx =>
      obtain ⟨⟨hp, ht⟩, ⟨⟩⟩ := Option.ite_none_right_eq_some.mp h
      exact .created hp ht
  | «instant» c req lease tx res =>
      obtain ⟨⟨hp, ht, hr⟩, ⟨⟩⟩ := Option.ite_none_right_eq_some.mp h
      exact .instant hp ht hr
  | claimed c id state =>
      obtain ⟨⟨hp, hpr, rfl⟩, ⟨⟩⟩ := Option.ite_none_right_eq_some.mp h
      exact .claimed hp hpr
  | issueStarted c id validUntil =>
      obtain ⟨hp, ⟨⟩⟩ := Option.ite_none_right_eq_some.mp h
      exact .issueStarted hp
  | finished id state res owner =>
      cases owner with
      | none =>
          obtain ⟨⟨hp, hpr, hr⟩, ⟨⟩⟩ := Option.ite_none_right_eq_some.mp h
          exact .refused hp hpr hr
      | some c =>
          simp only [next] at h
          split at h
          · next hp =>
              obtain ⟨⟨rfl, hpr, hr⟩, ⟨⟩⟩ := Option.ite_none_right_eq_some.mp h
              exact .committed hp hpr hr
          · exact nomatch h
  | leasePut c id key expiresAt =>
      simp only [next] at h
      split at h
      · next hp =>
          obtain ⟨⟨rfl, rfl, hk⟩, ⟨⟩⟩ := Option.ite_none_right_eq_some.mp h
          exact .leasePut hp hk
      · exact nomatch h
  | removed id =>
      cases h
      exact .removed
  | asked | leaseFound | approveCalled | registered | notFound | received | returned | cancelled
  | purged => cases h; exact .passive rfl

/-! ## What every life satisfies -/

/-- `issueForTransaction` starts for the transaction. -/
def Event.startsIssue (id : TxID) : Event → Bool
  | .issueStarted _ id' _ => id' == id
  | _ => false

/-- `finishLocked` takes effect on the transaction. -/
def Event.finishes (id : TxID) : Event → Bool
  | .finished id' _ _ _ => id' == id
  | _ => false

theorem Event.startsIssue_of_ne {id : TxID} {e : Event} (h : e.txID ≠ some id) :
    e.startsIssue id = false := by
  cases e with
  | issueStarted c id' validUntil => exact beq_false_of_ne fun heq ↦ h (congrArg some heq)
  | _ => rfl

theorem Event.finishes_of_ne {id : TxID} {e : Event} (h : e.txID ≠ some id) :
    e.finishes id = false := by
  cases e with
  | finished id' state res owner => exact beq_false_of_ne fun heq ↦ h (congrArg some heq)
  | _ => rfl

theorem Event.of_isPassive {id : TxID} {e : Event} (h : e.isPassive = true) :
    e.startsIssue id = false ∧ e.finishes id = false := by
  cases e with
  | issueStarted => exact nomatch h
  | finished => exact nomatch h
  | _ => exact ⟨rfl, rfl⟩

/-- Whether `issueForTransaction` may have been started. -/
def Phase.mayHaveIssued : Phase → Bool
  | .issuing _ _ => true
  | .decided _ _ _ => true
  | _ => false

/-- What the events so far and the phase say about each other. -/
structure Life.Accounts (id : TxID) (l : Life) (log : List Event) : Prop where
  issues_le : log.countP (·.startsIssue id) ≤ 1
  issues_eq : l.phase.mayHaveIssued = false → log.countP (·.startsIssue id) = 0
  finishes_le : log.countP (·.finishes id) ≤ 1
  finishes_eq : l.phase.result = none → log.countP (·.finishes id) = 0
  claim : ∀ c, l.phase = .claimed c → .claimed c id (some .pending) ∈ log
  decision : ∀ state res owner, l.phase = .decided state res owner →
    IsGrant state res res.leaseExpiresAt ∨ IsRefusal state res
  commit : ∀ state res c, l.phase = .decided state res (some c) →
    .finished id state res (some c) ∈ log
  finished : ∀ state res owner, .finished id state res owner ∈ log →
    ∃ owner', l.phase = .decided state res owner'

namespace Life.Accounts

variable {id : TxID} {l l' : Life} {log : List Event} {e : Event}

theorem start (id : TxID) : Accounts id .start [] where
  issues_le := Nat.zero_le 1
  issues_eq _ := rfl
  finishes_le := Nat.zero_le 1
  finishes_eq _ := rfl
  claim _ h := nomatch h
  decision _ _ _ h := nomatch h
  commit _ _ _ h := nomatch h
  finished _ _ _ h := nomatch h

/-- An event that neither starts an issue nor finishes, and moves the phase to one
with the same account. -/
theorem quiet (h : Accounts id l log) (hi : e.startsIssue id = false)
    (hf : e.finishes id = false) (hmay : l'.phase.mayHaveIssued = l.phase.mayHaveIssued)
    (hres : l'.phase.result = l.phase.result)
    (hclaim : ∀ c, l'.phase = .claimed c → .claimed c id (some .pending) ∈ log ++ [e])
    (hdec : ∀ state res owner, l'.phase = .decided state res owner →
      ∃ owner', l.phase = .decided state res owner' ∧ (owner = none ∨ owner = owner'))
    (hfin : ∀ state res owner, l.phase = .decided state res owner →
      ∃ owner', l'.phase = .decided state res owner') :
    Accounts id l' (log ++ [e]) where
  issues_le := by
    rw [List.countP_append, List.countP_singleton, hi]
    exact h.issues_le
  issues_eq hp := by
    rw [List.countP_append, List.countP_singleton, hi]
    exact h.issues_eq (hmay ▸ hp)
  finishes_le := by
    rw [List.countP_append, List.countP_singleton, hf]
    exact h.finishes_le
  finishes_eq hp := by
    rw [List.countP_append, List.countP_singleton, hf]
    exact h.finishes_eq (hres ▸ hp)
  claim := hclaim
  decision state res owner hp := by
    obtain ⟨owner', hp', -⟩ := hdec state res owner hp
    exact h.decision state res owner' hp'
  commit state res c hp := by
    obtain ⟨owner', hp', hnone | rfl⟩ := hdec state res (some c) hp
    · exact nomatch hnone
    · exact List.mem_append_left _ (h.commit state res c hp')
  finished state res owner hmem := by
    rcases List.mem_append.mp hmem with hmem | hmem
    · obtain ⟨owner', hp⟩ := h.finished state res owner hmem
      exact hfin state res owner' hp
    · obtain rfl := List.mem_singleton.mp hmem
      exact absurd (hf.symm.trans (beq_self_eq_true id)) Bool.false_ne_true

/-- An event after which the phase and the account are as before. -/
theorem same (h : Accounts id l log) (hi : e.startsIssue id = false)
    (hf : e.finishes id = false) (hp : l'.phase = l.phase) : Accounts id l' (log ++ [e]) := by
  refine h.quiet hi hf (by rw [hp]) (by rw [hp]) (fun c hc ↦ ?_) (fun state res owner hd ↦ ?_)
    (fun state res owner hd ↦ ⟨owner, hp.trans hd⟩)
  · exact List.mem_append_left _ (h.claim c (hp.symm.trans hc))
  · exact ⟨owner, hp.symm.trans hd, Or.inr rfl⟩

/-- The account when the transaction is decided, by `finishLocked` or at its
creation. -/
theorem decide {state : State} {res : Result} {owner : Option Nat} (h : Accounts id l log)
    (hl : l.phase.result = none) (hp : l'.phase = .decided state res owner)
    (hr : IsGrant state res res.leaseExpiresAt ∨ IsRefusal state res)
    (hi : e.startsIssue id = false)
    (he : ∀ state' res' owner', e = .finished id state' res' owner' → state' = state ∧ res' = res)
    (hc : ∀ c, owner = some c → e = .finished id state res (some c)) :
    Accounts id l' (log ++ [e]) where
  issues_le := by
    rw [List.countP_append, List.countP_singleton, hi]
    exact h.issues_le
  issues_eq hm := by
    rw [hp] at hm
    exact nomatch hm
  finishes_le := by
    rw [List.countP_append, h.finishes_eq hl, List.countP_singleton]
    split <;> decide
  finishes_eq hm := by
    rw [hp] at hm
    exact nomatch hm
  claim c hc := by
    rw [hp] at hc
    exact nomatch hc
  decision state' res' owner' hd := by
    rw [hp] at hd
    cases hd
    exact hr
  commit state' res' c hd := by
    rw [hp] at hd
    cases hd
    exact List.mem_append_right _ (List.mem_singleton.mpr (hc c rfl).symm)
  finished state' res' owner' hmem := by
    rcases List.mem_append.mp hmem with hmem | hmem
    · obtain ⟨owner'', hp'⟩ := h.finished state' res' owner' hmem
      rw [hp'] at hl
      exact nomatch hl
    · obtain ⟨rfl, rfl⟩ := he state' res' owner' (List.mem_singleton.mp hmem).symm
      exact ⟨owner, hp⟩

/-- The account when the issue starts. -/
theorem issue {c : Nat} {validUntil : Time} (h : Accounts id l log) (hl : l.phase = .claimed c)
    (hp : l'.phase = .issuing c validUntil) :
    Accounts id l' (log ++ [.issueStarted c id validUntil]) where
  issues_le := by
    rw [List.countP_append, h.issues_eq (by rw [hl]; rfl), List.countP_singleton]
    split <;> decide
  issues_eq hm := by
    rw [hp] at hm
    exact nomatch hm
  finishes_le := by
    rw [List.countP_append, List.countP_singleton]
    exact h.finishes_le
  finishes_eq _ := by
    rw [List.countP_append, List.countP_singleton]
    exact h.finishes_eq (by rw [hl]; rfl)
  claim c hc := by
    rw [hp] at hc
    exact nomatch hc
  decision _ _ _ hd := by
    rw [hp] at hd
    exact nomatch hd
  commit _ _ _ hd := by
    rw [hp] at hd
    exact nomatch hd
  finished state res owner hmem := by
    rcases List.mem_append.mp hmem with hmem | hmem
    · obtain ⟨owner', hd⟩ := h.finished state res owner hmem
      rw [hl] at hd
      exact nomatch hd
    · exact nomatch List.mem_singleton.mp hmem

/-- **Step.**  Every move keeps the account. -/
theorem move (h : Accounts id l log) (he : e.txID = some id) (hm : l.Moves e l') :
    Accounts id l' (log ++ [e]) := by
  cases hm with
  | created hp ht =>
      refine h.quiet rfl rfl (by rw [hp]; rfl) (by rw [hp]; rfl) (fun c hc ↦ nomatch hc)
        (fun _ _ _ hd ↦ nomatch hd) (fun _ _ _ hd ↦ ?_)
      rw [hp] at hd
      exact nomatch hd
  | «instant» hp ht hr =>
      exact h.decide (by rw [hp]; rfl) rfl (Or.inl ⟨rfl, hr, rfl⟩) rfl
        (fun _ _ _ heq ↦ nomatch heq) (fun _ hc ↦ nomatch hc)
  | @claimed c id' hp hpr =>
      obtain rfl := Option.some.inj he
      refine h.quiet rfl rfl (by rw [hp]; rfl) (by rw [hp]; rfl) (fun c' hc ↦ ?_)
        (fun _ _ _ hd ↦ nomatch hd) (fun _ _ _ hd ↦ ?_)
      · cases hc
        exact List.mem_append_right _ (List.mem_singleton_self _)
      · rw [hp] at hd
        exact nomatch hd
  | issueStarted hp =>
      obtain rfl := Option.some.inj he
      exact h.issue hp rfl
  | refused hp hpr hr =>
      obtain rfl := Option.some.inj he
      refine h.decide (by rw [hp]; rfl) rfl (Or.inr hr) rfl (fun _ _ _ heq ↦ ?_)
        (fun _ hc ↦ nomatch hc)
      cases heq
      exact ⟨rfl, rfl⟩
  | committed hp hpr hr =>
      obtain rfl := Option.some.inj he
      refine h.decide (by rw [hp]; rfl) rfl (hr.imp_left fun hg ↦ ⟨hg.1, hg.2.1, rfl⟩) rfl
        (fun _ _ _ heq ↦ ?_) (fun c hc ↦ ?_)
      · cases heq
        exact ⟨rfl, rfl⟩
      · cases hc
        rfl
  | leasePut hp hk =>
      refine h.quiet rfl rfl (by rw [hp]; rfl) (by rw [hp]; rfl) (fun c hc ↦ nomatch hc)
        (fun _ _ _ hd ↦ ?_) (fun _ _ _ hd ↦ ?_)
      · cases hd
        exact ⟨_, hp, Or.inl rfl⟩
      · rw [hp] at hd
        cases hd
        exact ⟨none, rfl⟩
  | removed => exact h.same rfl rfl rfl
  | passive hpas => exact h.same (Event.of_isPassive hpas).1 (Event.of_isPassive hpas).2 rfl

/-- **Step.**  An event of the run keeps the account, whatever it is about. -/
theorem step {es : List Event} (h : Accounts id l log)
    (hs : (lifecycle id).step l e = some (l', es)) : Accounts id l' (log ++ es) := by
  obtain ⟨rfl, ⟨he, hn⟩ | ⟨he, rfl⟩⟩ := lifecycle_step_iff.mp hs
  · exact h.move he (.of_next hn)
  · exact h.same (Event.startsIssue_of_ne he) (Event.finishes_of_ne he) rfl

/-- **Run.**  The account of a whole life. -/
theorem of_exec {log' : List Event} (h : (lifecycle id).exec log = some (l, log')) :
    Accounts id l log' :=
  (lifecycle id).exec_induction (P := Accounts id) (.start id)
    (fun _ _ _ _ _ hP hs ↦ hP.step hs) h

end Life.Accounts

/-- A decision stands. -/
theorem Life.Moves.decided {l l' : Life} {e : Event} {state : State} {res : Result}
    {owner : Option Nat} (hm : l.Moves e l') (hd : l.phase = .decided state res owner) :
    ∃ owner', l'.phase = .decided state res owner' := by
  cases hm with
  | created hp => exact nomatch hp.symm.trans hd
  | «instant» hp => exact nomatch hp.symm.trans hd
  | claimed hp | issueStarted hp | refused hp | committed hp => exact nomatch hp.symm.trans hd
  | leasePut hp =>
      cases hp.symm.trans hd
      exact ⟨none, rfl⟩
  | removed => exact ⟨owner, hd⟩
  | passive => exact ⟨owner, hd⟩

theorem lifecycle_decided {id : TxID} {l l' : Life} {log log' : List Event} {state : State}
    {res : Result} {owner : Option Nat} (hd : l.phase = .decided state res owner)
    (h : (lifecycle id).execFrom l log = some (l', log')) :
    ∃ owner', l'.phase = .decided state res owner' := by
  refine (lifecycle id).execFrom_invariant
    (P := fun l ↦ ∃ owner, l.phase = .decided state res owner)
    (fun l e l' es hP hs ↦ ?_) ⟨owner, hd⟩ h
  obtain ⟨owner, hd⟩ := hP
  obtain ⟨rfl, ⟨he, hn⟩ | ⟨he, rfl⟩⟩ := lifecycle_step_iff.mp hs
  · exact (Life.Moves.of_next hn).decided hd
  · exact ⟨owner, hd⟩

/-- In a life, an issue starts only after a claim from `pending` by the same
call, and a lease is left only after a commit by the same call. -/
theorem lifecycle_along {id : TxID} {l : Life} {log log' : List Event}
    (h : (lifecycle id).exec log = some (l, log')) :
    Along (fun pre e ↦
      (∀ c validUntil, e = .issueStarted c id validUntil → .claimed c id (some .pending) ∈ pre) ∧
      ∀ c key expiresAt, e = .leasePut c id key expiresAt →
        ∃ res, .finished id .approved res (some c) ∈ pre ∧ res.leaseExpiresAt = expiresAt)
      log' := by
  refine (lifecycle id).exec_along (P := Life.Accounts id) (.start id)
    (fun _ _ _ _ _ hP hs ↦ hP.step hs) (fun l log e l' es hP hs ↦ ?_) h
  obtain ⟨rfl, hcases⟩ := lifecycle_step_iff.mp hs
  refine along_cons_iff.mpr ⟨?_, along_nil _⟩
  rw [List.append_nil]
  constructor
  · rintro c validUntil rfl
    rcases hcases with ⟨-, hn⟩ | ⟨hne, -⟩
    · cases Life.Moves.of_next hn with
      | issueStarted hp => exact hP.claim c hp
      | passive hpas => exact nomatch hpas
    · exact absurd rfl hne
  · rintro c key expiresAt rfl
    rcases hcases with ⟨-, hn⟩ | ⟨hne, -⟩
    · cases Life.Moves.of_next hn with
      | leasePut hp hk => exact ⟨_, hP.commit _ _ c hp, rfl⟩
      | passive hpas => exact nomatch hpas
    · exact absurd rfl hne

end LunaZTrust.Approval
