import LunaZTrust.Approval.DroppedWait
import LunaZTrust.Approval.Duties
import LunaZTrust.Approval.Retention

/-!
# Transactions come to an end

So far runs of the approval system were finite, and nothing had to happen in them.  Here they go
on for ever, time passes, and every handler, timer and waiter that can go on sooner or later does.

Then every transaction is decided, whatever approvers do and in whatever order things happen,
unless its waiters have left it (`transaction_decided`).  A call of `Wait` that does not share its
channel with another one returns, unless its context is done (`wait_returns`).  With two waiters
that is not so: one of them takes the result, and the other waits for ever.
-/

namespace LunaZTrust.Approval

open LunaZTrust.Go LunaZTrust.Transition

variable {cfg : Config} {now : Time} {withLeases : Bool} {as : List Action} {s s' : System}
  {a : Action} {log es : List Event} {id : TxID}

/-- Every handler, timer and waiter that can go on does so, and time does not stop. -/
structure FairRun (ρ : (machine cfg now withLeases).Run) : Prop where
  duty : ∀ id (d : Duty), ρ.Fair (d.Does id)
  receive : ∀ c, ρ.Fair (· = .receive c)
  remove : ∀ c, ρ.Fair (· = .remove c)
  time : ∀ t, ∃ n, t ≤ (ρ.state n).now

/-! ## The duties are done -/

theorem Step.now_le (hs : Step cfg s a s' es) : s.now ≤ s'.now := by
  cases hs with
  | tick d => exact Int.le_add_of_nonneg_right (Int.natCast_nonneg d)
  | finishApproved => dsimp only; split <;> exact Int.le_refl _
  | _ => exact Int.le_refl _

section Fair

variable {ρ : (machine cfg now withLeases).Run}

theorem step_of_run (ρ : (machine cfg now withLeases).Run) (n : Nat) :
    Step cfg (ρ.state n) (ρ.action n) (ρ.state (n + 1)) (ρ.events n) :=
  .of_step (ρ.step_eq n)

theorem now_le_of_le {n m : Nat} (hnm : n ≤ m) : (ρ.state n).now ≤ (ρ.state m).now := by
  induction hnm with
  | refl => exact Int.le_refl _
  | @step m _ ih => exact Int.le_trans ih (step_of_run ρ m).now_le

/-- Sooner or later, whoever has the duty can do it, as long as they have it. -/
theorem FairRun.enabled (hfair : FairRun ρ) (d : Duty) (n : Nat) :
    ∃ m, n ≤ m ∧ ∀ k, m ≤ k → (ρ.state k).Due id d →
      (machine cfg now withLeases).Enabled (ρ.state k) (d.Does id) := by
  obtain ⟨m, hnm, hm⟩ : ∃ m, n ≤ m ∧
      ∀ k, m ≤ k → ∀ deadline, d = .fire deadline → deadline ≤ (ρ.state k).now := by
    cases d with
    | fire deadline =>
        obtain ⟨m, hm⟩ := hfair.time deadline
        refine ⟨max n m, Nat.le_max_left n m, ?_⟩
        rintro k hk _ ⟨⟩
        exact Int.le_trans hm (now_le_of_le (Nat.le_trans (Nat.le_max_right n m) hk))
    | _ => exact ⟨n, Nat.le_refl n, nofun⟩
  exact ⟨m, hnm, fun k hk hdue ↦ hdue.enabled (hm k hk)⟩

/-- A duty that is there at a point of the run, one step later. -/
theorem due_step {d : Duty} {n : Nat} (h : (ρ.state n).Due id d) :
    ((ρ.state (n + 1)).Closed id ∨ (ρ.state (n + 1)).Due id d ∨
      ∃ d', d'.rank < d.rank ∧ (ρ.state (n + 1)).Due id d') ∧
    (d.Does id (ρ.action n) → (ρ.state (n + 1)).Closed id ∨
      ∃ d', d'.rank < d.rank ∧ (ρ.state (n + 1)).Due id d') := by
  have hrun := ρ.exec_actions n
  have hch := exec_channel_of_not_closed hrun h.not_closed
  exact ⟨h.step (exec_armed hrun) (exec_approves_lt hrun) hch (step_of_run ρ n),
    h.does (exec_armed hrun) (exec_approves_lt hrun) hch (step_of_run ρ n)⟩

/-- **Transactions are closed.** -/
theorem FairRun.leadsTo_closed (hfair : FairRun ρ) (d : Duty) :
    LeadsTo (fun n ↦ (ρ.state n).Due id d) fun n ↦ (ρ.state n).Closed id :=
  Machine.Run.leadsTo_of_helpful Duty.rank (hfair.duty id)
    (fun d n _ ↦ hfair.enabled d n) (fun _ _ h ↦ (due_step h).1) (fun _ _ h ↦ (due_step h).2) d

theorem FairRun.eventually_closed (hfair : FairRun ρ) (id : TxID) (n : Nat) :
    ∃ m, n ≤ m ∧ (ρ.state m).Closed id := by
  by_cases hclosed : (ρ.state n).Closed id
  · exact ⟨n, Nat.le_refl n, hclosed⟩
  · obtain ⟨d, hdue⟩ := exec_due (ρ.exec_actions n) hclosed
    exact hfair.leadsTo_closed d n hdue

end Fair

/-! ## How an entry without a result is lost -/

theorem DecidedAs.decided {res : Result} (h : DecidedAs log id res) : Decided log id := by
  obtain ⟨state, owner, hmem⟩ | ⟨c, req, lease, tx, hmem, rfl⟩ := h
  · exact ⟨_, hmem, beq_self_eq_true id⟩
  · exact ⟨_, hmem, beq_self_eq_true _⟩

/-- The result a waiter has received is that of a decision. -/
theorem decided_of_received (hrun : (machine cfg now withLeases).exec as = some (s, log)) {c : Nat}
    {res : Result} (hc : AList.lookup c s.waits = some (.received id res)) : Decided log id :=
  ((exec_traced hrun).waits c _ hc).2.decided

/-- What a step creates has an entry. -/
theorem Step.entry_of_createdAs (hs : Step cfg s a s' es) {tx : Transaction}
    (h : CreatedAs es id tx) : ∃ entry, AList.lookup id s'.store.txs = some entry := by
  obtain ⟨rfl, e, hmem, he⟩ := h
  cases hs with
  | createBound | createInstantApproved =>
      cases List.mem_singleton.mp hmem
      cases he
      exact ⟨_, AList.lookup_insert _⟩
  | remove | cancelWaitDelete =>
      rcases List.mem_cons.mp hmem with rfl | hmem
      · cases he
      · cases List.mem_singleton.mp hmem
        cases he
  | tick | findActiveNone | remainingNone | remaining | startLeased | issueLeasedError | issueLeased
  | startTimer | claimApprovalNone | issue | finishClaimedNone | denyNone | fire | expireNone
  | ctxDone => cases hmem
  | _ =>
      cases List.mem_singleton.mp hmem
      cases he

/-- The last waiter for the transaction has left, and has taken the entry along. -/
def Abandoned (log : List Event) (id : TxID) : Prop :=
  .removed id ∈ log ∧ ∃ c t t', .cancelled c id t t' ∈ log

/-- **Run.**  A transaction that has been created has its entry, is decided, or has been
abandoned. -/
theorem exec_kept (hrun : (machine cfg now withLeases).exec as = some (s, log)) {tx : Transaction}
    (hcreated : CreatedAs log id tx) :
    (∃ entry, AList.lookup id s.store.txs = some entry) ∨ Decided log id ∨ Abandoned log id := by
  refine (machine cfg now withLeases).exec_run_induction
    (P := fun _ s log ↦ ∀ tx, CreatedAs log id tx →
      (∃ entry, AList.lookup id s.store.txs = some entry) ∨ Decided log id ∨
        Abandoned log id) ?_
    (fun as a s log s' es hrun h hs tx hcreated ↦ ?_) hrun tx hcreated
  · exact fun tx hcreated ↦ absurd hcreated not_createdAs_nil
  have hstep : Step cfg s a s' es := .of_step hs
  rcases createdAs_append.mp hcreated with hold | hnew
  · rcases h tx hold with ⟨entry, he⟩ | hdecided | ⟨hremoved, c, t, t', hmem⟩
    · cases he' : AList.lookup id s'.store.txs with
      | some entry' => exact .inl ⟨entry', rfl⟩
      | none =>
          rcases hstep.lost_cases he he' with ⟨c, res, hc⟩ | ⟨c, rfl, hc, hw⟩
          · exact .inr (.inl (decided_append.mpr (.inl (decided_of_received hrun hc))))
          · obtain ⟨-, rfl⟩ := hstep.cancelWait_last hc he (Int.not_lt.mpr hw)
            refine .inr (.inr ⟨?_, c, _, _, List.mem_append_right _ List.mem_cons_self⟩)
            exact List.mem_append_right _ (List.mem_cons_of_mem _ List.mem_cons_self)
    · exact .inr (.inl (decided_append.mpr (.inl hdecided)))
    · exact .inr (.inr ⟨List.mem_append_left _ hremoved, c, t, t', List.mem_append_left _ hmem⟩)
  · exact .inl (hstep.entry_of_createdAs hnew)

section Fair

variable {ρ : (machine cfg now withLeases).Run}

/-- **Every transaction is decided.**  In every fair run, each transaction that is created is
decided sooner or later, that is approved, denied or expired, unless the last of its waiters leaves
it. -/
theorem transaction_decided (hfair : FairRun ρ) {n : Nat} {tx : Transaction}
    (hcreated : CreatedAs (ρ.log n) id tx) :
    ∃ m, n ≤ m ∧ (Decided (ρ.log m) id ∨ Abandoned (ρ.log m) id) := by
  obtain ⟨m, hnm, hclosed⟩ := hfair.eventually_closed id n
  have hcreated' : CreatedAs (ρ.log m) id tx := by
    obtain ⟨hid, e, hmem, he⟩ := hcreated
    exact ⟨hid, e, ρ.mem_log_of_le hnm hmem, he⟩
  refine ⟨m, hnm, ?_⟩
  rcases exec_kept (ρ.exec_actions m) hcreated' with ⟨entry, he⟩ | hdone
  · exact .inl (decided_of_entry (ρ.exec_actions m) he (hclosed entry he))
  · exact hdone

end Fair

/-! ## The stages of a wait call -/

/-- From one stage of the call to the next. -/
inductive WaitAdvances (c : Nat) : Action → WaitCall → WaitCall → Prop
  | receive {id : TxID} {slot : WaitSlot} {res : Result} :
      WaitAdvances c (.receive c) (.waiting id slot) (.received id res)
  | ctxDone {id : TxID} {slot : WaitSlot} :
      WaitAdvances c (.ctxDone c) (.waiting id slot) (.dropped id)

/-- The end of the call. -/
inductive WaitEnds (c : Nat) : Action → List Event → WaitCall → Prop
  | remove {id : TxID} {res : Result} :
      WaitEnds c (.remove c) [.removed id, .returned c id res] (.received id res)
  | cancel {id : TxID} {es : List Event} : WaitEnds c (.cancelWait c) es (.dropped id)

theorem WaitAdvances.txID_eq {c : Nat} {call next : WaitCall} (h : WaitAdvances c a call next) :
    next.txID = call.txID := by
  cases h <;> rfl

/-- What a step does to the calls. -/
theorem Step.waits_cases (hs : Step cfg s a s' es) :
    s'.waits = s.waits ∨
      (∃ id slot store, s.store.waitResult id = some (slot, store) ∧ s'.store = store ∧
        s'.waits = s.waits.insert s.calls (.waiting id slot)) ∨
      (∃ c call next, AList.lookup c s.waits = some call ∧ WaitAdvances c a call next ∧
        s'.waits = s.waits.insert c next) ∨
      ∃ c call, AList.lookup c s.waits = some call ∧ WaitEnds c a es call ∧
        s'.waits = s.waits.erase c := by
  cases hs with
  | wait hn => exact .inr (.inl ⟨_, _, _, hn, rfl, rfl⟩)
  | receiveOwn hc => exact .inr (.inr (.inl ⟨_, _, _, hc, .receive, rfl⟩))
  | receiveShared hc => exact .inr (.inr (.inl ⟨_, _, _, hc, .receive, rfl⟩))
  | ctxDone hc => exact .inr (.inr (.inl ⟨_, _, _, hc, .ctxDone, rfl⟩))
  | remove hc => exact .inr (.inr (.inr ⟨_, _, hc, .remove, rfl⟩))
  | cancelWaitNone hc => exact .inr (.inr (.inr ⟨_, _, hc, .cancel, rfl⟩))
  | cancelWaitKeep hc => exact .inr (.inr (.inr ⟨_, _, hc, .cancel, rfl⟩))
  | cancelWaitDelete hc => exact .inr (.inr (.inr ⟨_, _, hc, .cancel, rfl⟩))
  | finishApproved =>
      refine .inl ?_
      dsimp only
      split <;> rfl
  | _ => exact .inl rfl

/-- **A call in progress** stays where it is, comes to its next stage, or ends. -/
theorem Step.wait_cases (hs : Step cfg s a s' es) {c : Nat} {call : WaitCall} (hlt : c < s.calls)
    (hc : AList.lookup c s.waits = some call) :
    AList.lookup c s'.waits = some call ∨
      (∃ next, AList.lookup c s'.waits = some next ∧ WaitAdvances c a call next) ∨
      WaitEnds c a es call := by
  rcases hs.waits_cases with heq | ⟨id, slot, store, -, -, heq⟩ |
    ⟨c', call', next, hc', hadv, heq⟩ | ⟨c', call', hc', hend, heq⟩
  · exact .inl (heq ▸ hc)
  · rw [heq, AList.lookup_insert_ne (Nat.ne_of_lt hlt)]
    exact .inl hc
  · by_cases hcc' : c = c'
    · subst hcc'
      cases hc'.symm.trans hc
      exact .inr (.inl ⟨next, by rw [heq, AList.lookup_insert], hadv⟩)
    · rw [heq, AList.lookup_insert_ne hcc']
      exact .inl hc
  · by_cases hcc' : c = c'
    · subst hcc'
      cases hc'.symm.trans hc
      exact .inr (.inr hend)
    · rw [heq, AList.lookup_erase_ne hcc']
      exact .inl hc

theorem Step.waiting_next (hs : Step cfg s a s' es) {c : Nat} {slot : WaitSlot}
    (hlt : c < s.calls) (hc : AList.lookup c s.waits = some (.waiting id slot)) :
    AList.lookup c s'.waits = some (.waiting id slot) ∨
      AList.lookup c s'.waits = some (.dropped id) ∨
      ∃ res, AList.lookup c s'.waits = some (.received id res) := by
  rcases hs.wait_cases hlt hc with hsame | ⟨next, hc', hadv⟩ | hend
  · exact .inl hsame
  · cases hadv with
    | receive => exact .inr (.inr ⟨_, hc'⟩)
    | ctxDone => exact .inr (.inl hc')
  · cases hend

theorem Step.received_next (hs : Step cfg s a s' es) {c : Nat} {res : Result} (hlt : c < s.calls)
    (hc : AList.lookup c s.waits = some (.received id res)) :
    AList.lookup c s'.waits = some (.received id res) ∨ .returned c id res ∈ es := by
  rcases hs.wait_cases hlt hc with hsame | ⟨next, hc', hadv⟩ | hend
  · exact .inl hsame
  · cases hadv
  · cases hend
    exact .inr (List.mem_cons_of_mem _ List.mem_cons_self)

theorem Step.not_waiting_of_receive (hs : Step cfg s a s' es) {c : Nat} {slot : WaitSlot}
    (ha : a = .receive c) : AList.lookup c s'.waits ≠ some (.waiting id slot) := by
  intro hc
  cases hs with
  | receiveOwn | receiveShared =>
      cases ha
      cases (AList.lookup_insert _).symm.trans hc
  | _ => cases ha

theorem Step.not_received_of_remove (hs : Step cfg s a s' es) {c : Nat} {res : Result}
    (ha : a = .remove c) : AList.lookup c s'.waits ≠ some (.received id res) := by
  intro hc
  cases hs with
  | remove =>
      cases ha
      cases (AList.lookup_erase _ _).symm.trans hc
  | _ => cases ha

/-- A call was there before, for the same transaction, or has just read the entry. -/
theorem Step.wait_origin (hs : Step cfg s a s' es) {c : Nat} {call : WaitCall}
    (hc : AList.lookup c s'.waits = some call) :
    (∃ call₀, AList.lookup c s.waits = some call₀ ∧ call₀.txID = call.txID ∧
      a ≠ .cancelWait c) ∨
      ∃ slot store, s.store.waitResult call.txID = some (slot, store) ∧ s'.store = store := by
  have ha : a ≠ .cancelWait c := by
    rintro rfl
    cases hs with
    | cancelWaitNone | cancelWaitKeep | cancelWaitDelete =>
        cases (AList.lookup_erase _ _).symm.trans hc
  rcases hs.waits_cases with heq | ⟨id, slot, store, hread, hstore, heq⟩ |
    ⟨c', call', next, hc', hadv, heq⟩ | ⟨c', call', hc', -, heq⟩ <;> rw [heq] at hc
  · exact .inl ⟨call, hc, rfl, ha⟩
  · rcases Map.lookup_insert_eq_some_iff.mp hc with ⟨-, rfl⟩ | ⟨-, hc⟩
    · exact .inr ⟨slot, store, hread, hstore⟩
    · exact .inl ⟨call, hc, rfl, ha⟩
  · rcases Map.lookup_insert_eq_some_iff.mp hc with ⟨rfl, rfl⟩ | ⟨-, hc⟩
    · exact .inl ⟨call', hc', hadv.txID_eq.symm, ha⟩
    · exact .inl ⟨call, hc, rfl, ha⟩
  · exact .inl ⟨call, (Map.lookup_erase_eq_some_iff.mp hc).2, rfl, ha⟩

/-! ## Waiters keep the entry -/

/-- Before the decision, the entry counts every waiter, and is there if there is one. -/
structure System.Held (s : System) (log : List Event) : Prop where
  counted : ∀ id entry, AList.lookup id s.store.txs = some entry → entry.result = none →
    s.waitsOn id ≤ entry.waiters
  there : ∀ c call, AList.lookup c s.waits = some call → ¬Decided log call.txID →
    ∃ entry, AList.lookup call.txID s.store.txs = some entry

theorem System.waitsOn_setWait {c : Nat} {call call' : WaitCall}
    (hc : AList.lookup c s.waits = some call) (hid : call'.txID = call.txID) (id : TxID) :
    (s.setWait c call').waitsOn id = s.waitsOn id :=
  Map.count_insert_of_eq _ hc (by rw [hid])

theorem System.waitsOn_register (hnone : AList.lookup s.calls s.waits = none) (id id' : TxID)
    (slot : WaitSlot) : (s.setWait s.calls (.waiting id slot)).waitsOn id' =
      s.waitsOn id' + if id = id' then 1 else 0 := by
  rw [waitsOn, setWait, Map.count_insert_of_lookup_eq_none _ hnone, waitsOn]
  simp only [WaitCall.txID, beq_iff_eq]

theorem System.waitsOn_endWait {c : Nat} {call : WaitCall}
    (hc : AList.lookup c s.waits = some call) (id : TxID) :
    s.waitsOn id = (s.endWait c).waitsOn id + if call.txID = id then 1 else 0 := by
  rw [waitsOn, waitsOn, endWait, Map.count_erase _ hc]
  simp only [beq_iff_eq]

namespace System.Held

/-- Of two different calls on a transaction, one stays when the other is counted out. -/
theorem one_lt_waitsOn {c c' : Nat} {call call' : WaitCall}
    (hc : AList.lookup c s.waits = some call) (hc' : AList.lookup c' s.waits = some call')
    (hne : c ≠ c') (hid : call.txID = id) (hid' : call'.txID = id) : 1 < s.waitsOn id := by
  have hrest : 0 < (s.endWait c').waitsOn id :=
    (Map.count_pos_iff _).mpr ⟨c, call, (AList.lookup_erase_ne hne).trans hc, beq_iff_eq.mpr hid⟩
  rw [waitsOn_endWait hc' id, if_pos hid']
  exact Nat.succ_lt_succ hrest

theorem step_there (h : s.Held log) (hrun : (machine cfg now withLeases).exec as = some (s, log))
    (hs : Step cfg s a s' es) :
    ∀ c call, AList.lookup c s'.waits = some call → ¬Decided (log ++ es) call.txID →
      ∃ entry, AList.lookup call.txID s'.store.txs = some entry := by
  intro c call hc hnot
  have hnot' : ¬Decided log call.txID := fun hd ↦ hnot (decided_append.mpr (.inl hd))
  rcases hs.wait_origin hc with ⟨call₀, hc₀, hid, ha⟩ | ⟨slot, store, hread, hstore⟩
  · obtain ⟨entry, he⟩ := h.there c call₀ hc₀ (hid ▸ hnot')
    rw [hid] at he
    cases he' : AList.lookup call.txID s'.store.txs with
    | some entry' => exact ⟨entry', rfl⟩
    | none =>
        exfalso
        rcases hs.lost_cases he he' with ⟨c', res, hc'⟩ | ⟨c', rfl, hc', hw⟩
        · exact hnot' (decided_of_received hrun hc')
        · -- the entry would count both calls
          have hres : entry.result = none := by
            by_contra hres
            exact hnot' (decided_of_entry hrun he hres)
          have hcounted := h.counted _ entry he hres
          have hmany := one_lt_waitsOn hc₀ hc' (fun heq ↦ ha (heq ▸ rfl)) hid rfl
          omega
  · obtain ⟨entry, he, ⟨res, -, -, rfl⟩ | ⟨-, -, rfl⟩⟩ := Store.waitResult_eq_some hread
    · exact ⟨entry, hstore ▸ he⟩
    · exact ⟨_, by rw [hstore, Store.lookup_setEntry, if_pos rfl]⟩

/-- A step that gives an entry a result. -/
theorem counted_of_finishLocked (h : s.Held log) {entry : TxEntry}
    (he : AList.lookup id s'.store.txs = some entry) (hres : entry.result = none) {store : Store}
    {id' : TxID} {e : TxEntry} {state : State} {res : Result}
    (hstore : s'.store = store.finishLocked id' e state res) (htxs : store.txs = s.store.txs)
    (hwaits : s'.waits = s.waits) : s'.waitsOn id ≤ entry.waiters := by
  rw [hstore, Store.lookup_finishLocked, htxs] at he
  split at he
  · cases he
    cases hres
  · rw [waitsOn, hwaits]
    exact h.counted id entry he hres

/-- A step that changes an entry without a result, and counts as many waiters as come or go. -/
theorem counted_of_insert (h : s.Held log) {entry : TxEntry}
    (he : AList.lookup id s'.store.txs = some entry) (hres : entry.result = none) {id' : TxID}
    {e e' : TxEntry} {d : Int} (htxs : s'.store.txs = s.store.txs.insert id' e')
    (he' : AList.lookup id' s.store.txs = some e) (hres' : e'.result = e.result)
    (hcount : e'.waiters = e.waiters + d)
    (hon : (s'.waitsOn id : Int) = s.waitsOn id + if id' = id then d else 0) :
    s'.waitsOn id ≤ entry.waiters := by
  rw [htxs] at he
  rw [hon]
  rcases Map.lookup_insert_eq_some_iff.mp he with ⟨rfl, rfl⟩ | ⟨hne, he⟩
  · rw [if_pos rfl, hcount]
    exact Int.add_le_add_right (h.counted id e he' (hres'.symm.trans hres)) d
  · rw [if_neg (Ne.symm hne), Int.add_zero]
    exact h.counted id entry he hres

/-- A step that takes a call and its entry away. -/
theorem counted_of_endWait (h : s.Held log) {entry : TxEntry}
    (he : AList.lookup id s'.store.txs = some entry) (hres : entry.result = none) {c : Nat}
    {call : WaitCall} (hc : AList.lookup c s.waits = some call)
    (hwaits : s'.waits = s.waits.erase c)
    (htxs : AList.lookup id s'.store.txs =
      if id = call.txID then none else AList.lookup id s.store.txs) :
    s'.waitsOn id ≤ entry.waiters := by
  rw [htxs] at he
  split at he
  · cases he
  · next hne =>
      have hon := waitsOn_endWait hc id
      rw [if_neg (Ne.symm hne), Nat.add_zero] at hon
      have hsame : s'.waitsOn id = (s.endWait c).waitsOn id := by rw [waitsOn, hwaits]; rfl
      rw [hsame, ← hon]
      exact h.counted id entry he hres

theorem step_counted (h : s.Held log)
    (hrun : (machine cfg now withLeases).exec as = some (s, log)) (hs : Step cfg s a s' es) :
    ∀ id entry, AList.lookup id s'.store.txs = some entry → entry.result = none →
      s'.waitsOn id ≤ entry.waiters := by
  intro id entry he hres
  cases hs with
  | @createInstantApproved c id' req lease res hc hid =>
      rcases Map.lookup_insert_eq_some_iff.mp he with ⟨rfl, rfl⟩ | ⟨-, he⟩
      · cases hres
      · exact h.counted id entry he hres
  | @createBound c id' req hc hid =>
      rcases Map.lookup_insert_eq_some_iff.mp he with ⟨rfl, rfl⟩ | ⟨-, he⟩
      · -- nobody waits for what has not been created
        have hnone : s.waitsOn id = 0 := by
          by_contra hne
          obtain ⟨c', call, hc', hcall⟩ := (Map.count_pos_iff _).mp (Nat.pos_of_ne_zero hne)
          have hattended := exec_attended hrun
          obtain ⟨tx, htx⟩ := hattended.created _ (hattended.registered c' call hc')
          exact exec_not_createdAs hrun hid tx (beq_iff_eq.mp hcall ▸ htx)
        exact Int.le_of_eq (congrArg Nat.cast hnone)
      · exact h.counted id entry he hres
  | claimApproval hc hn =>
      obtain ⟨e, hu, rfl, rfl⟩ := Store.claimApproval_eq_some_iff.mp hn
      refine h.counted_of_insert he hres rfl (Store.unfinished_eq_some_iff.mp hu).1 rfl
        (Int.add_zero _).symm ?_
      rw [ite_self, Int.add_zero]
      rfl
  | finishDenied | deny | expire => exact h.counted_of_finishLocked he hres rfl rfl rfl
  | finishApproved =>
      refine h.counted_of_finishLocked he hres rfl rfl ?_
      dsimp only
      split <;> rfl
  | @wait id' slot store hn =>
      have hnone : AList.lookup s.calls s.waits = none := by
        cases hcall : AList.lookup s.calls s.waits with
        | none => rfl
        | some call => exact absurd ((exec_attended hrun).fresh _ _ hcall) (Nat.lt_irrefl _)
      have hon := waitsOn_register hnone id'
      obtain ⟨e, he', ⟨res, hres', -, rfl⟩ | ⟨hres', -, rfl⟩⟩ := Store.waitResult_eq_some hn
      · -- the entry has a result
        have hne : id' ≠ id := by
          rintro rfl
          cases he.symm.trans he'
          cases hres.symm.trans hres'
        have hsame := hon id slot
        rw [if_neg hne, Nat.add_zero] at hsame
        exact Int.le_trans (Int.le_of_eq (congrArg Nat.cast hsame)) (h.counted id entry he hres)
      · refine h.counted_of_insert he hres rfl he' rfl rfl ?_
        refine (congrArg Nat.cast (hon id slot)).trans ?_
        rw [Nat.cast_add, Nat.cast_ite, Nat.cast_one, Nat.cast_zero]
  | receiveOwn hc | receiveShared hc | ctxDone hc =>
      have hsame := waitsOn_setWait hc rfl id
      exact Int.le_trans (Int.le_of_eq (congrArg Nat.cast hsame)) (h.counted id entry he hres)
  | remove hc =>
      exact h.counted_of_endWait he hres hc rfl (Store.lookup_remove _ _ _)
  | @cancelWaitNone c id' hc hn =>
      refine h.counted_of_endWait he hres hc rfl ?_
      split
      · next hid => rw [hid]; exact hn
      · rfl
  | @cancelWaitKeep c id' e hc hn hw =>
      refine h.counted_of_insert he hres rfl hn rfl rfl ?_
      have hon : s.waitsOn id = (s.endWait c).waitsOn id + if id' = id then 1 else 0 :=
        waitsOn_endWait hc id
      change (((s.endWait c).waitsOn id : Nat) : Int) = _
      rw [hon, Nat.cast_add, Nat.cast_ite, Nat.cast_one, Nat.cast_zero]
      split <;> omega
  | cancelWaitDelete hc hn hw =>
      refine h.counted_of_endWait he hres hc rfl ?_
      rw [Store.lookup_remove, Store.stopTimer_txs]
      rfl
  | _ => exact h.counted id entry he hres

end System.Held

/-- **Run.** -/
theorem exec_held (hrun : (machine cfg now withLeases).exec as = some (s, log)) : s.Held log := by
  refine (machine cfg now withLeases).exec_run_induction (P := fun _ s log ↦ s.Held log) ?_
    (fun as a s log s' es hrun h hs ↦ ?_) hrun
  · exact ⟨fun id _ he ↦ (nomatch (AList.lookup_empty id).symm.trans he),
      fun c _ hc ↦ (nomatch (AList.lookup_empty c).symm.trans hc)⟩
  · exact ⟨h.step_counted hrun (.of_step hs), h.step_there hrun (.of_step hs)⟩

/-! ## A waiter gets its result -/

/-- No two calls ever wait on the channel of the transaction at the same time. -/
def Alone (ρ : (machine cfg now withLeases).Run) (id : TxID) : Prop :=
  ∀ n c c', AList.lookup c (ρ.state n).waits = some (.waiting id .shared) →
    AList.lookup c' (ρ.state n).waits = some (.waiting id .shared) → c = c'

/-- What a call of `Wait` needs next. -/
inductive WaitStage
  /-- The transaction is to be decided. -/
  | duty (d : Duty)
  /-- The call is to receive the result. -/
  | receive
  /-- The call is to remove the entry, and to return. -/
  | remove

namespace WaitStage

@[simp] def rank : WaitStage → Nat
  | .duty d => d.rank + 2
  | .receive => 1
  | .remove => 0

/-- The actions that help. -/
def Does (c : Nat) (id : TxID) : WaitStage → Action → Prop
  | .duty d => d.Does id
  | .receive => (· = .receive c)
  | .remove => (· = .remove c)

/-- The call is in the stage. -/
def Holds (c : Nat) (id : TxID) (s : System) (log : List Event) : WaitStage → Prop
  | .duty d => AList.lookup c s.waits = some (.waiting id .shared) ∧ s.Due id d
  | .receive => (∃ slot, AList.lookup c s.waits = some (.waiting id slot)) ∧ Decided log id
  | .remove => ∃ res, AList.lookup c s.waits = some (.received id res)

end WaitStage

/-- The call has returned, or its context is done. -/
def WaitOver (c : Nat) (id : TxID) (s : System) (log : List Event) : Prop :=
  (∃ res, .returned c id res ∈ log) ∨ AList.lookup c s.waits = some (.dropped id)

section Fair

variable {ρ : (machine cfg now withLeases).Run}

theorem wait_lt {n c : Nat} {call : WaitCall}
    (hc : AList.lookup c (ρ.state n).waits = some call) : c < (ρ.state n).calls :=
  (exec_attended (ρ.exec_actions n)).fresh c call hc

/-- The only waiter for a decided transaction finds its result in the channel. -/
theorem Alone.channel (halone : Alone ρ id) {n c : Nat}
    (hc : AList.lookup c (ρ.state n).waits = some (.waiting id .shared))
    (hd : Decided (ρ.log n) id) :
    ∃ res, AList.lookup id (ρ.state n).store.channels = some (some res) := by
  induction n generalizing c with
  | zero => exact absurd hd not_decided_nil
  | succ n ih =>
      have hrun := ρ.exec_actions n
      have hd' : Decided (ρ.log n) id ∨ Decided (ρ.events n) id := decided_append.mp hd
      rcases (step_of_run ρ n).waiting_cases hc with hold | ⟨-, hes, store, hwait⟩
      · cases channelStep_of_step hrun (exec_undelivered hrun) (step_of_run ρ n) id with
        | same hsame hes => exact hsame ▸ ih hold (hd'.resolve_right hes)
        | made hnone _ hes =>
            obtain ⟨res, hfull⟩ := ih hold (hd'.resolve_right hes)
            cases hnone.symm.trans hfull
        | filled hfull _ => exact ⟨_, hfull⟩
        | taken _ hc' _ _ hw _ =>
            obtain rfl := halone n _ c hc' hold
            rw [hw, AList.lookup_insert] at hc
            cases hc
      · -- a waiter that comes after the decision does not share the channel
        obtain ⟨entry, he, ⟨res, _, hslot, _⟩ | ⟨hres, -⟩⟩ := Store.waitResult_eq_some hwait
        · cases hslot
        · rcases hd' with hd' | hd'
          · exact absurd hd' (not_decided_of_entry hrun he hres)
          · rw [hes] at hd'
            cases decided_singleton.mp hd'

/-- A waiter for a transaction that is closed has its decision. -/
theorem decided_of_closed {n c : Nat} {call : WaitCall}
    (hc : AList.lookup c (ρ.state n).waits = some call)
    (hclosed : (ρ.state n).Closed call.txID) : Decided (ρ.log n) call.txID := by
  by_contra hnot
  obtain ⟨entry, he⟩ := (exec_held (ρ.exec_actions n)).there c call hc hnot
  exact hnot (decided_of_entry (ρ.exec_actions n) he (hclosed entry he))

/-- A waiter, one step later, if the transaction still has a duty or is closed. -/
theorem waiting_step {n c : Nat} {slot : WaitSlot}
    (hc : AList.lookup c (ρ.state n).waits = some (.waiting id slot)) :
    WaitOver c id (ρ.state (n + 1)) (ρ.log (n + 1)) ∨
      WaitStage.remove.Holds c id (ρ.state (n + 1)) (ρ.log (n + 1)) ∨
      AList.lookup c (ρ.state (n + 1)).waits = some (.waiting id slot) ∧
        ((ρ.state (n + 1)).Closed id →
          WaitStage.receive.Holds c id (ρ.state (n + 1)) (ρ.log (n + 1))) := by
  rcases (step_of_run ρ n).waiting_next (wait_lt hc) hc with hc' | hdropped | hreceived
  · exact .inr (.inr ⟨hc', fun hclosed ↦ ⟨⟨slot, hc'⟩, decided_of_closed hc' hclosed⟩⟩)
  · exact .inl (.inr hdropped)
  · exact .inr (.inl hreceived)

/-- **Step.**  Every step ends the call, leaves its stage as it is, or takes it further. -/
theorem WaitStage.step {n c : Nat} {i : WaitStage} (h : i.Holds c id (ρ.state n) (ρ.log n)) :
    WaitOver c id (ρ.state (n + 1)) (ρ.log (n + 1)) ∨
      i.Holds c id (ρ.state (n + 1)) (ρ.log (n + 1)) ∨
      ∃ j : WaitStage, j.rank < i.rank ∧ j.Holds c id (ρ.state (n + 1)) (ρ.log (n + 1)) := by
  cases i with
  | duty d =>
      obtain ⟨hc, hdue⟩ := h
      rcases waiting_step hc with hover | hremove | ⟨hc', hreceive⟩
      · exact .inl hover
      · exact .inr (.inr ⟨.remove, by simp, hremove⟩)
      · rcases (due_step hdue).1 with hclosed | hsame | ⟨d', hlt, hdue'⟩
        · exact .inr (.inr ⟨.receive, by simp, hreceive hclosed⟩)
        · exact .inr (.inl ⟨hc', hsame⟩)
        · exact .inr (.inr ⟨.duty d', Nat.add_lt_add_right hlt 2, hc', hdue'⟩)
  | receive =>
      obtain ⟨⟨slot, hc⟩, hd⟩ := h
      rcases waiting_step hc with hover | hremove | ⟨hc', -⟩
      · exact .inl hover
      · exact .inr (.inr ⟨.remove, by simp, hremove⟩)
      · exact .inr (.inl ⟨⟨slot, hc'⟩, decided_append.mpr (.inl hd)⟩)
  | remove =>
      obtain ⟨res, hc⟩ := h
      rcases (step_of_run ρ n).received_next (wait_lt hc) hc with hc' | hreturned
      · exact .inr (.inl ⟨res, hc'⟩)
      · exact .inl (.inl ⟨res, List.mem_append_right _ hreturned⟩)

/-- A helpful step ends the call or takes it further. -/
theorem WaitStage.does {n c : Nat} {i : WaitStage} (h : i.Holds c id (ρ.state n) (ρ.log n))
    (hdoes : i.Does c id (ρ.action n)) :
    WaitOver c id (ρ.state (n + 1)) (ρ.log (n + 1)) ∨
      ∃ j : WaitStage, j.rank < i.rank ∧ j.Holds c id (ρ.state (n + 1)) (ρ.log (n + 1)) := by
  have hs := step_of_run ρ n
  cases i with
  | duty d =>
      obtain ⟨hc, hdue⟩ := h
      rcases waiting_step hc with hover | hremove | ⟨hc', hreceive⟩
      · exact .inl hover
      · exact .inr ⟨.remove, by simp, hremove⟩
      · rcases (due_step hdue).2 hdoes with hclosed | ⟨d', hlt, hdue'⟩
        · exact .inr ⟨.receive, by simp, hreceive hclosed⟩
        · exact .inr ⟨.duty d', Nat.add_lt_add_right hlt 2, hc', hdue'⟩
  | receive =>
      obtain ⟨⟨slot, hc⟩, -⟩ := h
      rcases waiting_step hc with hover | hremove | ⟨hc', -⟩
      · exact .inl hover
      · exact .inr ⟨.remove, by simp, hremove⟩
      · exact absurd hc' (hs.not_waiting_of_receive hdoes)
  | remove =>
      obtain ⟨res, hc⟩ := h
      rcases hs.received_next (wait_lt hc) hc with hc' | hreturned
      · exact absurd hc' (hs.not_received_of_remove hdoes)
      · exact .inl (.inl ⟨res, List.mem_append_right _ hreturned⟩)

/-- A call that is alone can go on, sooner or later. -/
theorem FairRun.wait_enabled (hfair : FairRun ρ) (halone : Alone ρ id) (c : Nat) (i : WaitStage)
    (n : Nat) : ∃ m, n ≤ m ∧ ∀ k, m ≤ k → i.Holds c id (ρ.state k) (ρ.log k) →
      (machine cfg now withLeases).Enabled (ρ.state k) (i.Does c id) := by
  cases i with
  | duty d =>
      obtain ⟨m, hnm, hm⟩ := hfair.enabled d n
      exact ⟨m, hnm, fun k hk h ↦ hm k hk h.2⟩
  | receive =>
      refine ⟨n, Nat.le_refl n, ?_⟩
      rintro k - ⟨⟨slot, hc⟩, hd⟩
      refine ⟨_, rfl, ?_⟩
      change (Approval.step cfg (ρ.state k) (.receive c)).isSome = true
      cases slot with
      | shared => exact (receive_isSome_iff hc).mpr (halone.channel hc hd)
      | ownResult res => exact receive_isSome_of_ownResult hc
  | remove =>
      refine ⟨n, Nat.le_refl n, ?_⟩
      rintro k - ⟨res, hc⟩
      refine ⟨_, rfl, ?_⟩
      simp only [machine, Approval.step, hc, Option.isSome_some]

/-- Every call in the select statement is in a stage. -/
theorem exists_stage {n c : Nat} {slot : WaitSlot}
    (hc : AList.lookup c (ρ.state n).waits = some (.waiting id slot)) :
    ∃ i : WaitStage, i.Holds c id (ρ.state n) (ρ.log n) := by
  have hrun := ρ.exec_actions n
  by_cases hclosed : (ρ.state n).Closed id
  · exact ⟨.receive, ⟨slot, hc⟩, decided_of_closed hc hclosed⟩
  · obtain ⟨d, hdue⟩ := exec_due hrun hclosed
    obtain ⟨entry, he, hres⟩ := System.not_closed_iff.mp hclosed
    cases slot with
    | shared => exact ⟨.duty d, hc, hdue⟩
    | ownResult res =>
        -- a private channel is there for a decision
        have hdecided := (exec_traced hrun).waits c _ hc
        refine absurd (DecidedAs.decided (hdecided.2 res rfl)) (not_decided_of_entry hrun he hres)

/-- **Waits return.**  In every fair run, a call of `Wait` returns with a result unless its context
is done, provided that no two calls wait on the transaction's channel at the same time. -/
theorem wait_returns (hfair : FairRun ρ) (halone : Alone ρ id) {n c : Nat} {slot : WaitSlot}
    (hc : AList.lookup c (ρ.state n).waits = some (.waiting id slot)) :
    ∃ m, n ≤ m ∧ WaitOver c id (ρ.state m) (ρ.log m) := by
  have hstages : ∀ i : WaitStage, ρ.Fair (i.Does c id) := by
    intro i
    cases i with
    | duty d => exact hfair.duty id d
    | receive => exact hfair.receive c
    | remove => exact hfair.remove c
  obtain ⟨i, hi⟩ := exists_stage hc
  exact Machine.Run.leadsTo_of_helpful WaitStage.rank hstages
    (fun i n _ ↦ hfair.wait_enabled halone c i n) (fun _ _ h ↦ WaitStage.step h)
    (fun _ _ h ↦ WaitStage.does h) i n hi

end Fair

/-! ## A run without end -/

/-- A client waits, nobody decides, and the timer runs off. -/
def expiringRun : List Action :=
  createDeploy ++ [.wait deployTx, .tick 60000000000, .fire deployTx, .expire deployTx, .receive 1,
    .remove 1]

/-- Go through a list of actions as far as they can be taken, then let time pass. -/
def thenIdle (cfg : Config) (as : List Action) (n : Nat) (s : System) : Action :=
  let a := as.getD n (.tick 1)
  if (step cfg s a).isSome then a else .tick 1

theorem thenIdle_isSome (cfg : Config) (as : List Action) (n : Nat) (s : System) :
    (step cfg s (thenIdle cfg as n s)).isSome = true := by
  rw [thenIdle]
  split
  · next h => exact h
  · rfl

/-- The run that goes through the list and then idles. -/
def idleRun (cfg : Config) (now : Time) (withLeases : Bool) (as : List Action) :
    (machine cfg now withLeases).Run :=
  .ofPlan _ (thenIdle cfg as) (thenIdle_isSome cfg as)

/-- Once it idles, nothing changes but the time. -/
theorem idleRun_state_add (cfg : Config) (now : Time) (withLeases : Bool) (as : List Action)
    (k : Nat) : (idleRun cfg now withLeases as).state (as.length + k) =
      { (idleRun cfg now withLeases as).state as.length with
        now := ((idleRun cfg now withLeases as).state as.length).now + k } := by
  induction k with
  | zero => rw [Nat.add_zero, Int.ofNat_zero, Int.add_zero]
  | succ k ih =>
      have htick : (idleRun cfg now withLeases as).action (as.length + k) = .tick 1 := by
        change thenIdle cfg as _ _ = _
        rw [thenIdle, List.getD_eq_getElem?_getD, List.getElem?_eq_none (Nat.le_add_right _ _)]
        exact ite_self _
      have hstep := (idleRun cfg now withLeases as).step_eq (as.length + k)
      rw [htick, ih] at hstep
      obtain ⟨hstate, -⟩ := Prod.mk.inj (Option.some.inj hstep)
      rw [← Nat.add_assoc, ← hstate, Nat.cast_add, Nat.cast_one, ← Int.add_assoc]

/-- No call is in progress, and no timer is to run off. -/
structure System.Quiet (s : System) : Prop where
  signs : s.signs.keys = []
  approves : s.approves.keys = []
  waits : s.waits.keys = []
  timers : ∀ id timer, AList.lookup id s.store.timers = some timer → timer = .stopped

namespace System.Quiet

theorem lookup_eq_none {V : Type} {m : Map Nat V} (h : m.keys = []) (c : Nat) :
    AList.lookup c m = none := by
  rw [AList.lookup_eq_none, AList.mem_keys, h]
  exact List.not_mem_nil

/-- In a quiet state nobody can go on. -/
theorem not_enabled (h : s.Quiet) {c : Nat} {i : WaitStage} :
    ¬(machine cfg now withLeases).Enabled s (i.Does c id) := by
  rintro ⟨a, hdoes, henabled⟩
  obtain ⟨⟨s', es⟩, hstep⟩ := Option.isSome_iff_exists.mp henabled
  have hs : Step cfg s a s' es := .of_step hstep
  cases i with
  | duty d =>
      cases hdoes with
      | arm c =>
          cases hs with
          | startTimer hc | startTimerDev hc => cases (lookup_eq_none h.signs c).symm.trans hc
      | fire =>
          cases hs with
          | fire ht => cases h.timers _ _ ht
      | expire =>
          cases hs with
          | expire ht | expireNone ht => cases h.timers _ _ ht
      | startIssue c =>
          cases hs with
          | startIssue hc => cases (lookup_eq_none h.approves c).symm.trans hc
      | issue c =>
          cases hs with
          | issue _ hc => cases (lookup_eq_none h.approves c).symm.trans hc
      | finish c =>
          cases hs with
          | finishClaimedNone hc | finishDenied hc | finishApproved hc =>
              cases (lookup_eq_none h.approves c).symm.trans hc
  | receive =>
      cases hdoes
      cases hs with
      | receiveOwn hc | receiveShared hc => cases (lookup_eq_none h.waits c).symm.trans hc
  | remove =>
      cases hdoes
      cases hs with
      | remove hc => cases (lookup_eq_none h.waits c).symm.trans hc

end System.Quiet

/-- A run that idles in a quiet state is fair. -/
theorem fairRun_idleRun (h : ((idleRun cfg now withLeases as).state as.length).Quiet) :
    FairRun (idleRun cfg now withLeases as) := by
  have hfair : ∀ (c : Nat) (id : TxID) (i : WaitStage),
      (idleRun cfg now withLeases as).Fair (i.Does c id) := by
    intro c id i n henabled
    have hquiet : ((idleRun cfg now withLeases as).state (as.length + n)).Quiet := by
      rw [idleRun_state_add]
      exact ⟨h.signs, h.approves, h.waits, h.timers⟩
    exact absurd (henabled _ (Nat.le_add_left n _)) hquiet.not_enabled
  constructor
  · exact fun id d ↦ hfair 0 id (.duty d)
  · exact fun c ↦ hfair c [] .receive
  · exact fun c ↦ hfair c [] .remove
  · intro t
    refine ⟨as.length + (t - ((idleRun cfg now withLeases as).state as.length).now).toNat, ?_⟩
    rw [idleRun_state_add]
    exact Int.le_add_of_sub_left_le (Int.self_le_toNat _)

/-- The run in which the timer runs off. -/
def expiring : (machine plainConfig 0 true).Run := idleRun plainConfig 0 true expiringRun

theorem fairRun_expiring : FairRun expiring := by
  refine fairRun_idleRun ⟨by decide +kernel, by decide +kernel, by decide +kernel, ?_⟩
  intro id timer h
  have hall : ((expiring.state expiringRun.length).store.timers.entries.all
      fun e ↦ decide (e.2 = .stopped)) = true := by
    decide +kernel
  exact of_decide_eq_true (List.all_eq_true.mp hall ⟨id, timer⟩ (AList.mem_lookup_iff.mp h))

/-- The transaction is decided without an approver. -/
theorem transaction_decided_expiring :
    ∃ m, 3 ≤ m ∧ (Decided (expiring.log m) deployTx ∨ Abandoned (expiring.log m) deployTx) := by
  have hcreated : .created 0 (deployInput.pending deployTx 0) ∈ expiring.log 3 := by decide +kernel
  exact transaction_decided fairRun_expiring ⟨rfl, _, hcreated, rfl⟩

/-- Its client is the only one. -/
theorem alone_expiring : Alone expiring deployTx := by
  have hkeys : ∀ n < 10, ∀ c ∈ (expiring.state n).waits.keys, c = 1 := by decide +kernel
  have hone : ∀ n c call, AList.lookup c (expiring.state n).waits = some call → c = 1 := by
    intro n c call hc
    have hmem : c ∈ (expiring.state n).waits.keys :=
      AList.mem_keys.mp (AList.lookup_isSome.mp (hc ▸ rfl))
    rcases Nat.lt_or_ge n 10 with hlt | hge
    · exact hkeys n hlt c hmem
    · -- nothing has changed since the end of the list
      obtain ⟨k, rfl⟩ := Nat.exists_eq_add_of_le (Nat.le_of_succ_le hge : expiringRun.length ≤ n)
      rw [expiring, idleRun_state_add] at hmem
      exact hkeys 9 (by decide) c hmem
  intro n c c' hc hc'
  exact (hone n c _ hc).trans (hone n c' _ hc').symm

/-- The client gets an answer. -/
theorem wait_returns_expiring :
    AList.lookup 1 (expiring.state 4).waits = some (.waiting deployTx .shared) ∧
      ∃ m, 4 ≤ m ∧ WaitOver 1 deployTx (expiring.state m) (expiring.log m) := by
  have hc : AList.lookup 1 (expiring.state 4).waits = some (.waiting deployTx .shared) := by
    decide +kernel
  exact ⟨hc, wait_returns fairRun_expiring alone_expiring hc⟩

end LunaZTrust.Approval
