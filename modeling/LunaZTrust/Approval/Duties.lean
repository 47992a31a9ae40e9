import LunaZTrust.Approval.Provenance
import LunaZTrust.Approval.Waiters
import LunaZTrust.Transition.Liveness

/-!
# Who sees to a transaction

A transaction without a result waits for somebody: for its sign handler to set the timer, for
the timer, or for the approval call that has claimed it.  A `Duty` says for whom, and
`exec_due` that there always is one.  Nothing else that happens takes the duty away without
closing the transaction or passing it on to somebody closer to the end (`Due.step`), and
whoever has it can do it (`Due.enabled`) and gets further by it (`Due.does`).
-/

namespace LunaZTrust.Approval

open LunaZTrust.Go LunaZTrust.Transition

variable {cfg : Config} {now : Time} {withLeases : Bool} {as : List Action} {s s' : System}
  {a : Action} {log es : List Event} {id : TxID}

/-- The transaction needs nothing more: its entry is gone or has a result. -/
def System.Closed (s : System) (id : TxID) : Prop :=
  ∀ entry, AList.lookup id s.store.txs = some entry → entry.result ≠ none

/-! ## What a step does to an entry, its timer and its handler -/

theorem System.not_closed_iff :
    ¬s.Closed id ↔ ∃ entry, AList.lookup id s.store.txs = some entry ∧ entry.result = none := by
  simp only [Closed, not_forall, not_not, exists_prop]

theorem System.closed_of_lookup_eq_none (h : AList.lookup id s.store.txs = none) : s.Closed id :=
  fun _ he ↦ nomatch h.symm.trans he

theorem System.closed_of_finishLocked {store : Store} {entry : TxEntry} {state : State}
    {res : Result} (h : s.store = store.finishLocked id entry state res) : s.Closed id := by
  intro entry' he
  rw [h, Store.lookup_finishLocked, if_pos rfl] at he
  cases he
  exact Option.some_ne_none res

/-- An entry without a result stays in its state, is claimed, or is closed. -/
theorem Step.unfinished_cases (hs : Step cfg s a s' es) {state : State} {entry : TxEntry}
    (hch : AList.lookup id s.store.channels ≠ none)
    (hopen : s.store.unfinished id state = some entry) :
    s'.Closed id ∨ (∃ entry', s'.store.unfinished id state = some entry') ∨
      state = .pending ∧ ∃ c tx ttl approver entry', a = .claimApproval c ∧
        AList.lookup c s'.approves = some (.claimed id tx ttl approver) ∧
        s'.store.unfinished id .approving = some entry' := by
  obtain ⟨he, hres, hstate⟩ := Store.unfinished_eq_some_iff.mp hopen
  have hkept : ∀ {e : TxEntry}, AList.lookup id s'.store.txs = some e → e.result = none →
      e.tx.state = state → ∃ entry', s'.store.unfinished id state = some entry' :=
    fun he hres hstate ↦ ⟨_, Store.unfinished_eq_some_iff.mpr ⟨he, hres, hstate⟩⟩
  have hfinish : ∀ {store : Store} {id' : TxID} {e : TxEntry} {state' : State} {res : Result},
      s'.store = store.finishLocked id' e state' res → store.txs = s.store.txs →
        s'.Closed id ∨ ∃ entry', s'.store.unfinished id state = some entry' := by
    intro store id' e state' res heq htx
    by_cases hid : id = id'
    · exact .inl (System.closed_of_finishLocked (hid ▸ heq))
    · refine .inr (hkept ?_ hres hstate)
      rw [heq, Store.lookup_finishLocked, if_neg hid, htx, he]
  cases hs with
  | @createInstantApproved _ id' _ _ _ hc hid | @createBound _ id' _ hc hid =>
      have hne : id ≠ id' := fun heq ↦ hch (heq ▸ hid)
      exact .inr (.inl (hkept ((AList.lookup_insert_ne hne).trans he) hres hstate))
  | @claimApproval c id' ttl approver e' store hc hn =>
      obtain ⟨e, hu, rfl, rfl⟩ := Store.claimApproval_eq_some_iff.mp hn
      by_cases hid : id = id'
      · subst hid
        obtain ⟨he', hres', hstate'⟩ := Store.unfinished_eq_some_iff.mp hu
        cases he.symm.trans he'
        exact .inr (.inr ⟨hstate.symm.trans hstate', c, _, ttl, approver, _, rfl,
          AList.lookup_insert _,
          Store.unfinished_eq_some_iff.mpr ⟨AList.lookup_insert _, hres, rfl⟩⟩)
      · exact .inr (.inl (hkept ((AList.lookup_insert_ne hid).trans he) hres hstate))
  | finishDenied hc hn | finishApproved hc hn | deny hn | expire ht hn =>
      exact (hfinish rfl rfl).imp_right .inl
  | @wait id' slot store hn =>
      obtain ⟨e, he', ⟨res, -, -, rfl⟩ | ⟨hres', -, rfl⟩⟩ := Store.waitResult_eq_some hn
      · exact .inr (.inl (hkept he hres hstate))
      · by_cases hid : id = id'
        · subst hid
          cases he.symm.trans he'
          exact .inr (.inl (hkept (AList.lookup_insert _) hres hstate))
        · exact .inr (.inl (hkept ((AList.lookup_insert_ne hid).trans he) hres hstate))
  | @remove c id' res hc =>
      by_cases hid : id = id'
      · exact .inl (System.closed_of_lookup_eq_none
          ((Store.lookup_remove _ _ _).trans (if_pos hid)))
      · refine .inr (.inl (hkept ?_ hres hstate))
        exact ((Store.lookup_remove _ _ _).trans (if_neg hid)).trans he
  | @cancelWaitKeep c id' e hc hn hw =>
      by_cases hid : id = id'
      · subst hid
        cases he.symm.trans hn
        exact .inr (.inl (hkept (AList.lookup_insert _) hres hstate))
      · exact .inr (.inl (hkept ((AList.lookup_insert_ne hid).trans he) hres hstate))
  | @cancelWaitDelete c id' e hc hn hw =>
      have hremove : AList.lookup id ((s.store.stopTimer id').remove id').txs =
          if id = id' then none else AList.lookup id s.store.txs := by
        rw [Store.lookup_remove, Store.stopTimer_txs]
      by_cases hid : id = id'
      · exact .inl (System.closed_of_lookup_eq_none (hremove.trans (if_pos hid)))
      · exact .inr (.inl (hkept ((hremove.trans (if_neg hid)).trans he) hres hstate))
  | _ => exact .inr (.inl (hkept he hres hstate))

theorem Store.lookup_timers_stopTimer (s : Store) (id id' : TxID) :
    AList.lookup id (s.stopTimer id').timers =
      if id = id' then (AList.lookup id s.timers).map Timer.stop
      else AList.lookup id s.timers := by
  by_cases hid : id = id'
  · subst hid
    rw [if_pos rfl, stopTimer]
    split
    · next h => rw [h, Option.map_none]
    · next h => rw [h, Option.map_some]; exact AList.lookup_insert _
  · rw [if_neg hid, stopTimer]
    split
    · rfl
    · exact AList.lookup_insert_ne hid

theorem Store.lookup_timers_finishLocked (s : Store) (id id' : TxID) (entry : TxEntry)
    (state : State) (res : Result) :
    AList.lookup id (s.finishLocked id' entry state res).timers =
      if id = id' then (AList.lookup id s.timers).map Timer.stop
      else AList.lookup id s.timers := by
  have hsend : ∀ t : Store, (t.send id' res).timers = t.timers := by
    intro t
    rw [send]
    split <;> rfl
  rw [finishLocked, hsend, lookup_timers_stopTimer]
  rfl

/-- The timer of a transaction that is not closed is set by its handler, runs off, or has its
function run. -/
theorem Step.timers_cases (hs : Step cfg s a s' es) (id : TxID) :
    s'.Closed id ∨ AList.lookup id s'.store.timers = AList.lookup id s.store.timers ∨
      (∃ c, a = .startTimer c ∧ AList.lookup c s.signs = some (.arming id)) ∨
      a = .fire id ∨ a = .expire id := by
  have hfinish : ∀ {store : Store} {id' : TxID} {e : TxEntry} {state' : State} {res : Result},
      s'.store = store.finishLocked id' e state' res →
        (id ≠ id' → AList.lookup id store.timers = AList.lookup id s.store.timers) →
        s'.Closed id ∨ AList.lookup id s'.store.timers = AList.lookup id s.store.timers := by
    intro store id' e state' res heq htimers
    by_cases hid : id = id'
    · exact .inl (System.closed_of_finishLocked (hid ▸ heq))
    · exact .inr (by rw [heq, Store.lookup_timers_finishLocked, if_neg hid, htimers hid])
  cases hs with
  | @startTimer c id' hc hdev | @startTimerDev c id' hc hdev =>
      by_cases hid : id = id'
      · exact .inr (.inr (.inl ⟨c, rfl, hid ▸ hc⟩))
      · exact .inr (.inl (AList.lookup_insert_ne hid))
  | @fire id' deadline ht hd =>
      by_cases hid : id = id'
      · exact .inr (.inr (.inr (.inl (hid ▸ rfl))))
      · exact .inr (.inl (AList.lookup_insert_ne hid))
  | @expireNone id' ht hn =>
      by_cases hid : id = id'
      · exact .inr (.inr (.inr (.inr (hid ▸ rfl))))
      · exact .inr (.inl (AList.lookup_insert_ne hid))
  | expire ht hn => exact (hfinish rfl fun hid ↦ AList.lookup_insert_ne hid).imp_right .inl
  | finishDenied hc hn | finishApproved hc hn | deny hn =>
      exact (hfinish rfl fun _ ↦ rfl).imp_right .inl
  | @wait id' slot store hn =>
      obtain ⟨e, he', ⟨res, -, -, rfl⟩ | ⟨hres', -, rfl⟩⟩ := Store.waitResult_eq_some hn <;>
        exact .inr (.inl rfl)
  | claimApproval hc hn =>
      obtain ⟨e, hu, rfl, rfl⟩ := Store.claimApproval_eq_some_iff.mp hn
      exact .inr (.inl rfl)
  | @cancelWaitDelete c id' e hc hn hw =>
      by_cases hid : id = id'
      · refine .inl (System.closed_of_lookup_eq_none ?_)
        exact (Store.lookup_remove _ _ _).trans (if_pos hid)
      · exact .inr (.inl ((Store.lookup_timers_stopTimer _ _ _).trans (if_neg hid)))
  | _ => exact .inr (.inl rfl)

/-- A handler that is about to set the timer stays there until it does. -/
theorem Step.arming_cases (hs : Step cfg s a s' es) {c : Nat} (hlt : c < s.calls)
    (hc : AList.lookup c s.signs = some (.arming id)) :
    AList.lookup c s'.signs = some (.arming id) ∨ a = .startTimer c := by
  -- another step of this handler would have found it elsewhere
  have hother : ∀ {c' : Nat} {call : SignCall}, AList.lookup c' s.signs = some call →
      call ≠ .arming id → c ≠ c' := by
    rintro c' call hc' hne rfl
    exact hne (Option.some.inj (hc'.symm.trans hc))
  cases hs with
  | sign => exact .inl ((AList.lookup_insert_ne (Nat.ne_of_lt hlt)).trans hc)
  | findActiveNone hc' | findActive hc' | remainingNone hc' | remaining hc' | startLeased hc'
  | issueLeasedError hc' | issueLeased hc' | createBound hc' =>
      exact .inl ((AList.lookup_insert_ne (hother hc' nofun)).trans hc)
  | createInstantApproved hc' => exact .inl ((AList.lookup_erase_ne (hother hc' nofun)).trans hc)
  | @startTimer c' id' hc' | @startTimerDev c' id' hc' =>
      by_cases hcc' : c = c'
      · exact .inr (hcc' ▸ rfl)
      · exact .inl ((AList.lookup_erase_ne hcc').trans hc)
  | finishApproved =>
      refine .inl ?_
      dsimp only
      split <;> exact hc
  | _ => exact .inl hc

/-- A handler that is about to set the timer was so before, or has just created the
transaction. -/
theorem Step.arming_of_arming (hs : Step cfg s a s' es) {c : Nat}
    (hc : AList.lookup c s'.signs = some (.arming id)) :
    AList.lookup c s.signs = some (.arming id) ∨
      a = .createBound c id ∧ AList.lookup id s.store.channels = none := by
  cases hs with
  | sign =>
      rcases Map.lookup_insert_eq_some_iff.mp hc with ⟨-, heq⟩ | ⟨-, hc⟩
      · split at heq <;> cases heq
      · exact .inl hc
  | findActiveNone | findActive | remainingNone | remaining | startLeased | issueLeasedError
  | issueLeased =>
      rcases Map.lookup_insert_eq_some_iff.mp hc with ⟨-, heq⟩ | ⟨-, hc⟩
      · cases heq
      · exact .inl hc
  | createBound _ hid =>
      rcases Map.lookup_insert_eq_some_iff.mp hc with ⟨rfl, heq⟩ | ⟨-, hc⟩
      · cases heq
        exact .inr ⟨rfl, hid⟩
      · exact .inl hc
  | createInstantApproved | startTimer | startTimerDev =>
      exact .inl (Map.lookup_erase_eq_some_iff.mp hc).2
  | finishApproved =>
      dsimp only at hc
      split at hc <;> exact .inl hc
  | _ => exact .inl hc

/-- A channel stays. -/
theorem Step.channels_ne_none (hs : Step cfg s a s' es)
    (h : AList.lookup id s.store.channels ≠ none) : AList.lookup id s'.store.channels ≠ none := by
  have hinsert : ∀ {id' : TxID} {buffer : Option Result},
      AList.lookup id (s.store.channels.insert id' buffer) ≠ none := by
    intro id' buffer
    rw [Map.lookup_insert_eq]
    split
    · exact Option.some_ne_none _
    · exact h
  have hfinish : ∀ {store : Store} {id' : TxID} {e : TxEntry} {state : State} {res : Result},
      s'.store = store.finishLocked id' e state res → store.channels = s.store.channels →
        AList.lookup id s'.store.channels ≠ none := by
    intro store id' e state res heq hch
    rw [heq, Store.lookup_channels_finishLocked, hch]
    split
    · exact Option.some_ne_none _
    · exact h
  cases hs with
  | createInstantApproved | createBound | receiveShared => exact hinsert
  | finishDenied | finishApproved | deny | expire => exact hfinish rfl rfl
  | wait hn =>
      obtain ⟨e, he', ⟨res, -, -, rfl⟩ | ⟨hres', -, rfl⟩⟩ := Store.waitResult_eq_some hn <;> exact h
  | claimApproval hc hn =>
      obtain ⟨e, hu, rfl, rfl⟩ := Store.claimApproval_eq_some_iff.mp hn
      exact h
  | @cancelWaitDelete c id' =>
      exact fun hnone ↦ h ((congrArg (AList.lookup id) (Store.stopTimer_channels _ id')) ▸ hnone)
  | _ => exact h

/-- A timer was there before, or its handler has just set it. -/
theorem Step.timers_ne_none (hs : Step cfg s a s' es)
    (h : AList.lookup id s'.store.timers ≠ none) :
    AList.lookup id s.store.timers ≠ none ∨
      ∃ c, a = .startTimer c ∧ AList.lookup c s.signs = some (.arming id) ∧
        AList.lookup c s'.signs = none := by
  have hset : ∀ {id' : TxID} {timer timer' : Timer},
      AList.lookup id' s.store.timers = some timer' →
        AList.lookup id (s.store.timers.insert id' timer) ≠ none →
          AList.lookup id s.store.timers ≠ none := by
    intro id' timer timer' hold hnew hnone
    by_cases hid : id = id'
    · subst hid
      cases hnone.symm.trans hold
    · exact hnew ((AList.lookup_insert_ne hid).trans hnone)
  have hfinish : ∀ {store : Store} {id' : TxID} {e : TxEntry} {state : State} {res : Result},
      s'.store = store.finishLocked id' e state res → AList.lookup id store.timers ≠ none := by
    intro store id' e state res heq hnone
    rw [heq, Store.lookup_timers_finishLocked, hnone, Option.map_none, ite_self] at h
    exact h rfl
  cases hs with
  | @startTimer c id' hc | @startTimerDev c id' hc =>
      by_cases hid : id = id'
      · exact .inr ⟨c, rfl, hid ▸ hc, AList.lookup_erase _ _⟩
      · exact .inl fun hnone ↦ h ((AList.lookup_insert_ne hid).trans hnone)
  | fire ht => exact .inl (hset ht h)
  | expireNone ht => exact .inl (hset ht h)
  | expire ht => exact .inl (hset ht (hfinish rfl))
  | finishDenied | finishApproved | deny => exact .inl (hfinish rfl)
  | wait hn =>
      obtain ⟨e, he', ⟨res, -, -, rfl⟩ | ⟨hres', -, rfl⟩⟩ := Store.waitResult_eq_some hn <;>
        exact .inl h
  | claimApproval hc hn =>
      obtain ⟨e, hu, rfl, rfl⟩ := Store.claimApproval_eq_some_iff.mp hn
      exact .inl h
  | @cancelWaitDelete c id' =>
      refine .inl fun hnone ↦ h ?_
      exact (Store.lookup_timers_stopTimer _ _ _).trans (by rw [hnone, Option.map_none, ite_self])
  | _ => exact .inl h

/-! ## One handler for a timer -/

/-- A timer is set once, by the handler that created the transaction. -/
structure System.Armed (s : System) : Prop where
  fresh : ∀ c call, AList.lookup c s.signs = some call → c < s.calls
  created : ∀ c id, AList.lookup c s.signs = some (.arming id) →
    AList.lookup id s.store.channels ≠ none
  timed : ∀ id, AList.lookup id s.store.timers ≠ none → AList.lookup id s.store.channels ≠ none
  unset : ∀ c id, AList.lookup c s.signs = some (.arming id) → AList.lookup id s.store.timers = none
  unique : ∀ c c' id, AList.lookup c s.signs = some (.arming id) →
    AList.lookup c' s.signs = some (.arming id) → c = c'

/-- **Step.** -/
theorem System.Armed.step (h : s.Armed) (hs : Step cfg s a s' es) : s'.Armed where
  fresh := by
    have hold : ∀ c call, AList.lookup c s.signs = some call → c < s'.calls :=
      fun c call hc ↦ Nat.lt_of_lt_of_le (h.fresh c call hc) hs.calls_le
    cases hs with
    | sign => exact Map.forall_insert hold (Nat.lt_succ_self _)
    | findActiveNone hc | findActive hc | remainingNone hc | remaining hc | startLeased hc
    | issueLeasedError hc | issueLeased hc | createBound hc =>
        exact Map.forall_insert hold (hold _ _ hc)
    | createInstantApproved | startTimer | startTimerDev => exact Map.forall_erase hold
    | finishApproved => dsimp only at hold ⊢; split at hold <;> split <;> exact hold
    | _ => exact hold
  created c id hc := by
    rcases hs.arming_of_arming hc with hc | ⟨rfl, -⟩
    · exact hs.channels_ne_none (h.created c id hc)
    · cases hs with
      | createBound => exact fun hnone ↦ nomatch (AList.lookup_insert _).symm.trans hnone
  timed id ht := by
    rcases hs.timers_ne_none ht with ht | ⟨c, -, hc, -⟩
    · exact hs.channels_ne_none (h.timed id ht)
    · exact hs.channels_ne_none (h.created c id hc)
  unset c id hc := by
    by_contra hne
    rcases hs.timers_ne_none hne with ht | ⟨c', -, hc', hgone⟩
    · rcases hs.arming_of_arming hc with hc | ⟨-, hnone⟩
      · exact ht (h.unset c id hc)
      · exact h.timed id ht hnone
    · rcases hs.arming_of_arming hc with hold | ⟨-, hnone⟩
      · cases h.unique c c' id hold hc'
        cases hgone.symm.trans hc
      · exact h.created c' id hc' hnone
  unique c c' id hc hc' := by
    rcases hs.arming_of_arming hc with hold | ⟨rfl, hnone⟩ <;>
      rcases hs.arming_of_arming hc' with hold' | ⟨ha, hnone'⟩
    · exact h.unique c c' id hold hold'
    · exact absurd hnone' (h.created c id hold)
    · exact absurd hnone (h.created c' id hold')
    · cases ha
      rfl

/-- **Run.** -/
theorem exec_armed (hrun : (machine cfg now withLeases).exec as = some (s, log)) : s.Armed := by
  refine (machine cfg now withLeases).execFrom_invariant (P := System.Armed)
    (fun s a s' es h hs ↦ h.step (.of_step hs)) ?_ hrun
  exact
    { fresh := fun c _ h ↦ nomatch (AList.lookup_empty c).symm.trans h
      created := fun c _ h ↦ nomatch (AList.lookup_empty c).symm.trans h
      timed := fun id h ↦ absurd (AList.lookup_empty id) h
      unset := fun c _ h ↦ nomatch (AList.lookup_empty c).symm.trans h
      unique := fun c _ _ h ↦ nomatch (AList.lookup_empty c).symm.trans h }

/-! ## Duties -/

/-- What is to be done next for a transaction, and by which call. -/
inductive Duty
  /-- Its sign handler sets the timer. -/
  | arm (c : Nat)
  /-- The timer runs off. -/
  | fire (deadline : Time)
  /-- The timer's function is run. -/
  | expire
  /-- The approval call that has claimed it reads the clock. -/
  | startIssue (c : Nat)
  /-- The signer answers. -/
  | issue (c : Nat)
  /-- The approval call commits. -/
  | finish (c : Nat)
deriving DecidableEq, Repr

/-- How far the transaction is from its end. -/
@[simp] def Duty.rank : Duty → Nat
  | .arm _ => 5
  | .fire _ => 4
  | .expire => 3
  | .startIssue _ => 2
  | .issue _ => 1
  | .finish _ => 0

/-- The actions that do it. -/
inductive Duty.Does (id : TxID) : Duty → Action → Prop
  | arm (c : Nat) : Does id (.arm c) (.startTimer c)
  | fire (deadline : Time) : Does id (.fire deadline) (.fire id)
  | expire : Does id .expire (.expire id)
  | startIssue (c : Nat) : Does id (.startIssue c) (.startIssue c)
  | issue (c : Nat) (signers : Signers) : Does id (.issue c) (.issue c signers)
  | finish (c : Nat) : Does id (.finish c) (.finishClaimed c)

/-- The duty is there: the entry has no result, and whose turn it is is in the right place. -/
inductive System.Due (s : System) (id : TxID) : Duty → Prop
  | arm {c : Nat} {entry : TxEntry} (hopen : s.store.unfinished id .pending = some entry)
      (hc : AList.lookup c s.signs = some (.arming id)) : Due s id (.arm c)
  | fire {deadline : Time} {entry : TxEntry}
      (hopen : s.store.unfinished id .pending = some entry)
      (ht : AList.lookup id s.store.timers = some (.running deadline)) : Due s id (.fire deadline)
  | expire {entry : TxEntry} (hopen : s.store.unfinished id .pending = some entry)
      (ht : AList.lookup id s.store.timers = some .fired) : Due s id .expire
  | startIssue {c : Nat} {entry : TxEntry} {tx : Transaction} {ttl : Duration}
      {approver : GoString} (hopen : s.store.unfinished id .approving = some entry)
      (hc : AList.lookup c s.approves = some (.claimed id tx ttl approver)) :
      Due s id (.startIssue c)
  | issue {c : Nat} {entry : TxEntry} {tx : Transaction} {validUntil : Time}
      {approver : GoString} (hopen : s.store.unfinished id .approving = some entry)
      (hc : AList.lookup c s.approves = some (.issuing id tx validUntil approver)) :
      Due s id (.issue c)
  | finish {c : Nat} {entry : TxEntry} {tx : Transaction} {validUntil : Time}
      {approver : GoString} {res : Except ApprovalError Result}
      (hopen : s.store.unfinished id .approving = some entry)
      (hc : AList.lookup c s.approves = some (.issued id tx validUntil approver res)) :
      Due s id (.finish c)

/-- A result closes the transaction. -/
theorem Step.closed_of_finished (hs : Step cfg s a s' es) {state : State} {res : Result}
    {owner : Option Nat} (h : .finished id state res owner ∈ es) : s'.Closed id := by
  cases hs with
  | finishDenied | finishApproved | deny | expire =>
      cases List.mem_singleton.mp h
      exact System.closed_of_finishLocked rfl
  | _ => simp at h

theorem Step.startTimer_timer (hs : Step cfg s a s' es) {c : Nat} (ha : a = .startTimer c)
    (hc : AList.lookup c s.signs = some (.arming id)) :
    AList.lookup id s'.store.timers = some (.running (s.now + cfg.timeout)) := by
  cases hs with
  | startTimer hc' | startTimerDev hc' =>
      cases ha
      cases hc.symm.trans hc'
      exact AList.lookup_insert _
  | _ => cases ha

namespace System.Due

theorem not_closed {d : Duty} (h : s.Due id d) : ¬s.Closed id := by
  have hnot : ∀ {state : State} {entry : TxEntry},
      s.store.unfinished id state = some entry → ¬s.Closed id := by
    intro state entry hopen hclosed
    obtain ⟨he, hres, -⟩ := Store.unfinished_eq_some_iff.mp hopen
    exact hclosed entry he hres
  cases h with
  | _ hopen => exact hnot hopen

/-- **Step.**  A step closes the transaction, leaves the duty as it is, or passes it on to somebody
closer to the end. -/
theorem step {d : Duty} (h : s.Due id d) (harmed : s.Armed)
    (hlt : ∀ c call, AList.lookup c s.approves = some call → c < s.calls)
    (hch : AList.lookup id s.store.channels ≠ none) (hs : Step cfg s a s' es) :
    s'.Closed id ∨ s'.Due id d ∨ ∃ d', d'.rank < d.rank ∧ s'.Due id d' := by
  -- a claim is closer to the end than anything that is done before
  have hpending : ∀ {entry}, s.store.unfinished id .pending = some entry → 2 < d.rank →
      s'.Closed id ∨ (∃ entry', s'.store.unfinished id .pending = some entry') ∨
        ∃ d', d'.rank < d.rank ∧ s'.Due id d' := by
    intro entry hopen hrank
    rcases hs.unfinished_cases hch hopen with hclosed | hkept |
      ⟨-, c, tx, ttl, approver, entry', -, hc, hopen'⟩
    · exact .inl hclosed
    · exact .inr (.inl hkept)
    · exact .inr (.inr ⟨.startIssue c, hrank, .startIssue hopen' hc⟩)
  have happroving : ∀ {entry}, s.store.unfinished id .approving = some entry →
      s'.Closed id ∨ ∃ entry', s'.store.unfinished id .approving = some entry' := by
    intro entry hopen
    rcases hs.unfinished_cases hch hopen with hclosed | hkept | ⟨hstate, -⟩
    · exact .inl hclosed
    · exact .inr hkept
    · cases hstate
  cases h with
  | @arm c entry hopen hc =>
      rcases hpending hopen (by simp) with hclosed | ⟨entry', hopen'⟩ | hlower
      · exact .inl hclosed
      · rcases hs.arming_cases (harmed.fresh c _ hc) hc with hc' | ha
        · exact .inr (.inl (.arm hopen' hc'))
        · exact .inr (.inr ⟨.fire _, by simp, .fire hopen' (hs.startTimer_timer ha hc)⟩)
      · exact .inr (.inr hlower)
  | @fire deadline entry hopen ht =>
      rcases hpending hopen (by simp) with hclosed | ⟨entry', hopen'⟩ | hlower
      · exact .inl hclosed
      · rcases hs.timers_cases id with hclosed | hsame | ⟨c, -, hc⟩ | rfl | rfl
        · exact .inl hclosed
        · exact .inr (.inl (.fire hopen' (hsame.trans ht)))
        · cases (harmed.unset c id hc).symm.trans ht
        · cases hs with
          | fire => exact .inr (.inr ⟨.expire, by simp, .expire hopen' (AList.lookup_insert _)⟩)
        · cases hs with
          | expire ht' | expireNone ht' => cases ht.symm.trans ht'
      · exact .inr (.inr hlower)
  | @expire entry hopen ht =>
      rcases hpending hopen (by simp) with hclosed | ⟨entry', hopen'⟩ | hlower
      · exact .inl hclosed
      · rcases hs.timers_cases id with hclosed | hsame | ⟨c, -, hc⟩ | rfl | rfl
        · exact .inl hclosed
        · exact .inr (.inl (.expire hopen' (hsame.trans ht)))
        · cases (harmed.unset c id hc).symm.trans ht
        · cases hs with
          | fire ht' => cases ht.symm.trans ht'
        · cases hs with
          | expire => exact .inl (System.closed_of_finishLocked rfl)
          | expireNone _ hn => cases hopen.symm.trans hn
      · exact .inr (.inr hlower)
  | @startIssue c entry tx ttl approver hopen hc =>
      rcases happroving hopen with hclosed | ⟨entry', hopen'⟩
      · exact .inl hclosed
      · rcases hs.approve_cases (hlt c _ hc) hc with hc' | ⟨next, hc', hadv⟩ | hend
        · exact .inr (.inl (.startIssue hopen' hc'))
        · cases hadv
          exact .inr (.inr ⟨.issue c, by simp, .issue hopen' hc'⟩)
        · cases hend
  | @issue c entry tx validUntil approver hopen hc =>
      rcases happroving hopen with hclosed | ⟨entry', hopen'⟩
      · exact .inl hclosed
      · rcases hs.approve_cases (hlt c _ hc) hc with hc' | ⟨next, hc', hadv⟩ | hend
        · exact .inr (.inl (.issue hopen' hc'))
        · cases hadv
          exact .inr (.inr ⟨.finish c, by simp, .finish hopen' hc'⟩)
        · cases hend
  | @finish c entry tx validUntil approver res hopen hc =>
      rcases happroving hopen with hclosed | ⟨entry', hopen'⟩
      · exact .inl hclosed
      · rcases hs.approve_cases (hlt c _ hc) hc with hc' | ⟨next, hc', hadv⟩ | hend
        · exact .inr (.inl (.finish hopen' hc'))
        · cases hadv
          exact .inl (hs.closed_of_finished (List.mem_singleton_self _))
        · cases hend with
          | gone hn => cases hopen.symm.trans hn
          | denied | approved => exact .inl (hs.closed_of_finished (List.mem_singleton_self _))

/-- Whoever does the duty closes the transaction or passes the duty on. -/
theorem does {d : Duty} (h : s.Due id d) (harmed : s.Armed)
    (hlt : ∀ c call, AList.lookup c s.approves = some call → c < s.calls)
    (hch : AList.lookup id s.store.channels ≠ none) (hs : Step cfg s a s' es)
    (hdoes : d.Does id a) : s'.Closed id ∨ ∃ d', d'.rank < d.rank ∧ s'.Due id d' := by
  rcases h.step harmed hlt hch hs with hclosed | hsame | hlower
  · exact .inl hclosed
  · -- the place the duty was in has been left
    exfalso
    have hopen := hsame.not_closed
    cases hdoes with
    | arm c =>
        cases hsame with
        | arm _ hc =>
            cases hs with
            | startTimer | startTimerDev => cases (AList.lookup_erase _ _).symm.trans hc
    | fire deadline =>
        cases hsame with
        | fire _ ht =>
            cases hs with
            | fire => cases (AList.lookup_insert _).symm.trans ht
    | expire =>
        cases h with
        | expire hpending _ =>
            cases hs with
            | expireNone _ hn => cases hpending.symm.trans hn
            | expire => exact hopen (System.closed_of_finishLocked rfl)
    | startIssue c =>
        cases hsame with
        | startIssue _ hc =>
            cases hs with
            | startIssue => cases (AList.lookup_insert _).symm.trans hc
    | issue c signers =>
        cases hsame with
        | issue _ hc =>
            cases hs with
            | issue => cases (AList.lookup_insert _).symm.trans hc
    | finish c =>
        cases h with
        | finish happroving hc =>
            cases hs with
            | finishClaimedNone hc' hn =>
                cases hc.symm.trans hc'
                cases happroving.symm.trans hn
            | finishDenied hc' | finishApproved hc' =>
                cases hc.symm.trans hc'
                exact hopen (System.closed_of_finishLocked rfl)
  · exact .inr hlower

/-- Whoever has the duty can do it, the timer once it is time. -/
theorem enabled {d : Duty} (h : s.Due id d)
    (htime : ∀ deadline, d = .fire deadline → deadline ≤ s.now) :
    (machine cfg now withLeases).Enabled s (d.Does id) := by
  cases h with
  | arm _ hc =>
      refine ⟨_, .arm _, ?_⟩
      simp only [machine, Approval.step, hc]
      split <;> rfl
  | fire _ ht =>
      refine ⟨_, .fire _, ?_⟩
      simp only [machine, Approval.step, ht, if_pos (htime _ rfl), Option.isSome_some]
  | expire _ ht =>
      refine ⟨_, .expire, ?_⟩
      simp only [machine, Approval.step, ht]
      split <;> rfl
  | startIssue _ hc =>
      refine ⟨_, .startIssue _, ?_⟩
      simp only [machine, Approval.step, hc, Option.isSome_some]
  | issue _ hc =>
      refine ⟨_, .issue _ ⟨none, none⟩, ?_⟩
      simp only [machine, Approval.step, hc, Option.isSome_some]
  | @finish _ _ _ _ _ res _ hc =>
      refine ⟨_, .finish _, ?_⟩
      cases res <;> simp only [machine, Approval.step, hc] <;> split <;> rfl

end System.Due

/-! ## Every open transaction has somebody -/

/-- An open transaction has a channel. -/
theorem exec_channel_of_not_closed (hrun : (machine cfg now withLeases).exec as = some (s, log))
    (h : ¬s.Closed id) : AList.lookup id s.store.channels ≠ none := by
  obtain ⟨l, -, href⟩ := (exec_refines hrun).2 id
  obtain ⟨entry, he, -⟩ := System.not_closed_iff.mp h
  exact fun hnone ↦ (href.entry entry he).created (href.channel.mp hnone)

/-- An entry with a result is that of a decided transaction. -/
theorem decided_of_entry (hrun : (machine cfg now withLeases).exec as = some (s, log))
    {entry : TxEntry} (he : AList.lookup id s.store.txs = some entry) (hres : entry.result ≠ none) :
    Decided log id := by
  obtain ⟨l, hl, href⟩ := (exec_refines hrun).2 id
  rw [← lifecycle_result_isSome_iff hl, ← (href.entry entry he).result_eq]
  exact Option.isSome_iff_ne_none.mpr hres

/-- A transaction that is open was so before, or has just been created. -/
theorem Step.not_closed (hs : Step cfg s a s' es)
    (hrun : (machine cfg now withLeases).exec as = some (s, log))
    (hrun' : (machine cfg now withLeases).exec (as ++ [a]) = some (s', log ++ es))
    (h : ¬s'.Closed id) : ¬s.Closed id ∨ ∃ c, s'.Due id (.arm c) := by
  obtain ⟨entry, he, hres⟩ := System.not_closed_iff.mp h
  have hnot := not_decided_of_entry hrun' he hres
  rcases hs.entry_cases he with ⟨e, he', -⟩ | ⟨c, rfl⟩ | ⟨c, rfl⟩
  · refine .inl fun hclosed ↦ hnot (decided_append.mpr (.inl ?_))
    exact decided_of_entry hrun he' (hclosed e he')
  · cases hs with
    | createBound =>
        exact .inr ⟨c, .arm (Store.unfinished_eq_some_iff.mpr ⟨AList.lookup_insert _, rfl, rfl⟩)
          (AList.lookup_insert _)⟩
  · cases hs with
    | createInstantApproved =>
        refine absurd (decided_append.mpr (.inr ?_)) hnot
        exact decided_singleton.mpr (beq_self_eq_true id)

/-- **Run.**  In every run, an entry without a result has somebody to see to it. -/
theorem exec_due (hrun : (machine cfg now withLeases).exec as = some (s, log))
    (hopen : ¬s.Closed id) : ∃ d, s.Due id d := by
  refine (machine cfg now withLeases).exec_run_induction
    (P := fun _ s _ ↦ ¬s.Closed id → ∃ d, s.Due id d) ?_
    (fun as a s log s' es hrun h hs hopen ↦ ?_) hrun hopen
  · exact fun h ↦ absurd (System.closed_of_lookup_eq_none (AList.lookup_empty id)) h
  · have hstep : Step cfg s a s' es := .of_step hs
    have hrun' := (machine cfg now withLeases).exec_concat_iff.mpr ⟨s, log, es, hrun, hs, rfl⟩
    rcases hstep.not_closed hrun hrun' hopen with hold | ⟨c, hnew⟩
    · obtain ⟨d, hdue⟩ := h hold
      rcases hdue.step (exec_armed hrun) (exec_approves_lt hrun)
        (exec_channel_of_not_closed hrun hold) hstep with hclosed | hsame | ⟨d', -, hlower⟩
      · exact absurd hclosed hopen
      · exact ⟨d, hsame⟩
      · exact ⟨d', hlower⟩
    · exact ⟨.arm c, hnew⟩

end LunaZTrust.Approval
