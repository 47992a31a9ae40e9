import LunaZTrust.Approval.DroppedWait
import LunaZTrust.Approval.Provenance

/-!
# How long transactions are kept

Neither the timer nor a decision takes a transaction out of the store.  Only a wait call
does, when it has received the result or when the last of them is cancelled.  So an entry
that somebody has waited for has a wait call in progress, and one that nobody has ever
waited for stays, whatever its state and its age (`retention_iff`).
-/

namespace LunaZTrust.Approval

open LunaZTrust.Go LunaZTrust.Lease LunaZTrust.Transition

/-- The transaction a wait call is about. -/
def WaitCall.txID : WaitCall → TxID
  | .waiting id _ => id
  | .received id _ => id
  | .dropped id => id

/-- The number of wait calls in progress for a transaction. -/
def System.waitsOn (s : System) (id : TxID) : Nat := s.waits.count fun call ↦ call.txID == id

/-- A wait call has been registered for the transaction. -/
def WaitedFor (log : List Event) (id : TxID) : Prop := ∃ c slot, .registered c id slot ∈ log

theorem waitedFor_append {log es : List Event} {id : TxID} :
    WaitedFor (log ++ es) id ↔ WaitedFor log id ∨ WaitedFor es id := by
  constructor
  · rintro ⟨c, slot, h⟩
    exact (List.mem_append.mp h).imp (⟨c, slot, ·⟩) (⟨c, slot, ·⟩)
  · rintro (⟨c, slot, h⟩ | ⟨c, slot, h⟩)
    · exact ⟨c, slot, List.mem_append_left _ h⟩
    · exact ⟨c, slot, List.mem_append_right _ h⟩

theorem createdAs_append {log es : List Event} {id : TxID} {tx : Transaction} :
    CreatedAs (log ++ es) id tx ↔ CreatedAs log id tx ∨ CreatedAs es id tx := by
  constructor
  · rintro ⟨hid, e, h, he⟩
    exact (List.mem_append.mp h).imp (fun h ↦ ⟨hid, e, h, he⟩) fun h ↦ ⟨hid, e, h, he⟩
  · rintro (⟨hid, e, h, he⟩ | ⟨hid, e, h, he⟩)
    · exact ⟨hid, e, List.mem_append_left _ h, he⟩
    · exact ⟨hid, e, List.mem_append_right _ h, he⟩

/-- The event registers no wait call and creates no transaction. -/
def Event.isQuiet : Event → Bool
  | .registered _ _ _ => false
  | e => e.created?.isNone

theorem not_waitedFor_of_isQuiet {es : List Event} (h : es.all Event.isQuiet = true) (id : TxID) :
    ¬WaitedFor es id :=
  fun ⟨_, _, hmem⟩ ↦ nomatch List.all_eq_true.mp h _ hmem

theorem not_createdAs_of_isQuiet {es : List Event} (h : es.all Event.isQuiet = true) (id : TxID)
    (tx : Transaction) : ¬CreatedAs es id tx := by
  rintro ⟨-, e, hmem, he⟩
  have hq := List.all_eq_true.mp h e hmem
  cases e with
  | created => exact nomatch hq
  | «instant» => exact nomatch hq
  | _ => exact nomatch he

/-- What the wait calls and the entries say about each other: the count in an entry is at most
the number of calls in progress, an entry that has been waited for has such a call, and
an entry that has not is there. -/
structure System.Attended (s : System) (log : List Event) : Prop where
  fresh : ∀ c call, AList.lookup c s.waits = some call → c < s.calls
  registered : ∀ c call, AList.lookup c s.waits = some call → WaitedFor log call.txID
  created : ∀ id, WaitedFor log id → ∃ tx, CreatedAs log id tx
  counted : ∀ id entry, AList.lookup id s.store.txs = some entry → entry.waiters ≤ s.waitsOn id
  waited : ∀ id entry, AList.lookup id s.store.txs = some entry → WaitedFor log id →
    0 < s.waitsOn id
  kept : ∀ id tx, CreatedAs log id tx → ¬WaitedFor log id →
    ∃ entry, AList.lookup id s.store.txs = some entry

namespace System.Attended

variable {s s' : System} {log es : List Event}

/-- A step that leaves the wait calls alone, and the entries, apart from new ones. -/
theorem frame (h : s.Attended log) (hcalls : s.calls ≤ s'.calls) (hwaits : s'.waits = s.waits)
    (hreg : ∀ id, ¬WaitedFor es id)
    (hentry : ∀ id entry', AList.lookup id s'.store.txs = some entry' →
      (∃ entry, AList.lookup id s.store.txs = some entry ∧ entry'.waiters = entry.waiters) ∨
        entry'.waiters = 0 ∧ ∀ tx, ¬CreatedAs log id tx)
    (hkeep : ∀ id entry, AList.lookup id s.store.txs = some entry →
      ∃ entry', AList.lookup id s'.store.txs = some entry')
    (hnew : ∀ id tx, CreatedAs es id tx → ∃ entry', AList.lookup id s'.store.txs = some entry') :
    s'.Attended (log ++ es) := by
  have hon : ∀ id, s'.waitsOn id = s.waitsOn id := fun id ↦ by rw [waitsOn, waitsOn, hwaits]
  have hold : ∀ id, WaitedFor (log ++ es) id → WaitedFor log id :=
    fun id hw ↦ (waitedFor_append.mp hw).resolve_right (hreg id)
  constructor
  · intro c call hc
    exact Nat.lt_of_lt_of_le (h.fresh c call (hwaits ▸ hc)) hcalls
  · intro c call hc
    exact waitedFor_append.mpr (.inl (h.registered c call (hwaits ▸ hc)))
  · intro id hw
    obtain ⟨tx, htx⟩ := h.created id (hold id hw)
    exact ⟨tx, htx.mono⟩
  · intro id entry' he'
    rw [hon]
    rcases hentry id entry' he' with ⟨entry, he, hwaiters⟩ | ⟨hzero, -⟩
    · exact hwaiters ▸ h.counted id entry he
    · exact hzero ▸ Int.natCast_nonneg _
  · intro id entry' he' hw
    rw [hon]
    rcases hentry id entry' he' with ⟨entry, he, -⟩ | ⟨-, hnot⟩
    · exact h.waited id entry he (hold id hw)
    · obtain ⟨tx, htx⟩ := h.created id (hold id hw)
      exact absurd htx (hnot tx)
  · intro id tx htx hw
    rcases createdAs_append.mp htx with htx | htx
    · obtain ⟨entry, he⟩ := h.kept id tx htx fun hlog ↦ hw (waitedFor_append.mpr (.inl hlog))
      exact hkeep id entry he
    · exact hnew id tx htx

/-- A wait call moves on, for the same transaction. -/
theorem move (h : s.Attended log) {c : Nat} {call call' : WaitCall}
    (hc : AList.lookup c s.waits = some call) (hcalls : s'.calls = s.calls)
    (hwaits : s'.waits = s.waits.insert c call') (hid : call'.txID = call.txID)
    (htxs : s'.store.txs = s.store.txs) (hes : es.all Event.isQuiet = true) :
    s'.Attended (log ++ es) := by
  have hon : ∀ id, s'.waitsOn id = s.waitsOn id := by
    intro id
    rw [waitsOn, hwaits]
    exact Map.count_insert_of_eq _ hc (by rw [hid])
  have hold : ∀ id, WaitedFor (log ++ es) id → WaitedFor log id :=
    fun id hw ↦ (waitedFor_append.mp hw).resolve_right (not_waitedFor_of_isQuiet hes id)
  constructor
  · rw [hwaits, hcalls]
    exact Map.forall_insert h.fresh (h.fresh c call hc)
  · rw [hwaits]
    refine Map.forall_insert
      (fun c call hc ↦ waitedFor_append.mpr (.inl (h.registered c call hc))) ?_
    exact hid ▸ waitedFor_append.mpr (.inl (h.registered c call hc))
  · intro id hw
    obtain ⟨tx, htx⟩ := h.created id (hold id hw)
    exact ⟨tx, htx.mono⟩
  · intro id entry he
    exact hon id ▸ h.counted id entry (htxs ▸ he)
  · intro id entry he hw
    exact hon id ▸ h.waited id entry (htxs ▸ he) (hold id hw)
  · intro id tx htx hw
    rw [htxs]
    exact h.kept id tx
      ((createdAs_append.mp htx).resolve_right (not_createdAs_of_isQuiet hes id tx))
      fun hlog ↦ hw (waitedFor_append.mpr (.inl hlog))

/-- A wait call is registered for a transaction. -/
theorem register (h : s.Attended log) {id : TxID} {slot : WaitSlot} {tx : Transaction}
    (htx : CreatedAs log id tx)
    (hcalls : s'.calls = s.calls + 1)
    (hwaits : s'.waits = s.waits.insert s.calls (.waiting id slot))
    (hentry : ∀ id' entry', AList.lookup id' s'.store.txs = some entry' →
      ∃ entry, AList.lookup id' s.store.txs = some entry ∧
        entry'.waiters ≤ entry.waiters + if id = id' then 1 else 0)
    (hkeep : ∀ id' entry, AList.lookup id' s.store.txs = some entry →
      ∃ entry', AList.lookup id' s'.store.txs = some entry') :
    s'.Attended (log ++ [.registered s.calls id slot]) := by
  have hnone : AList.lookup s.calls s.waits = none := by
    cases hcall : AList.lookup s.calls s.waits with
    | none => rfl
    | some call => exact absurd (h.fresh s.calls call hcall) (Nat.lt_irrefl _)
  have hon : ∀ id', s'.waitsOn id' = s.waitsOn id' + if id = id' then 1 else 0 := by
    intro id'
    rw [waitsOn, hwaits, Map.count_insert_of_lookup_eq_none _ hnone, waitsOn]
    simp only [WaitCall.txID, beq_iff_eq]
  have hreg : WaitedFor [.registered s.calls id slot] id := ⟨s.calls, slot, List.mem_cons_self⟩
  have hcases : ∀ id', WaitedFor (log ++ [.registered s.calls id slot]) id' →
      WaitedFor log id' ∨ id = id' := by
    intro id' hw
    refine (waitedFor_append.mp hw).imp_right ?_
    rintro ⟨c, slot', hmem⟩
    cases List.mem_singleton.mp hmem
    rfl
  constructor
  · rw [hwaits, hcalls]
    exact Map.forall_insert (fun c call hc ↦ Nat.lt_succ_of_lt (h.fresh c call hc))
      (Nat.lt_succ_self _)
  · rw [hwaits]
    exact Map.forall_insert (fun c call hc ↦ waitedFor_append.mpr (.inl (h.registered c call hc)))
      (waitedFor_append.mpr (.inr hreg))
  · intro id' hw
    rcases hcases id' hw with hw | rfl
    · obtain ⟨tx', htx'⟩ := h.created id' hw
      exact ⟨tx', htx'.mono⟩
    · exact ⟨tx, htx.mono⟩
  · intro id' entry' he'
    obtain ⟨entry, he, hle⟩ := hentry id' entry' he'
    have hcounted := h.counted id' entry he
    rw [hon]
    by_cases hid : id = id'
    · rw [if_pos hid] at hle ⊢
      omega
    · rw [if_neg hid] at hle ⊢
      omega
  · intro id' entry' he' hw
    obtain ⟨entry, he, -⟩ := hentry id' entry' he'
    rw [hon]
    rcases hcases id' hw with hw | rfl
    · exact Nat.lt_of_lt_of_le (h.waited id' entry he hw) (Nat.le_add_right _ _)
    · rw [if_pos rfl]
      exact Nat.succ_pos _
  · intro id' tx' htx' hw
    have hlog : CreatedAs log id' tx' := by
      refine (createdAs_append.mp htx').resolve_right ?_
      rintro ⟨-, e, hmem, hcreated⟩
      cases List.mem_singleton.mp hmem
      exact nomatch hcreated
    obtain ⟨entry, he⟩ := h.kept id' tx' hlog fun hw' ↦ hw (waitedFor_append.mpr (.inl hw'))
    exact hkeep id' entry he

/-- A wait call is through, and its entry is gone or counts it no more. -/
theorem leave (h : s.Attended log) {c : Nat} {call : WaitCall}
    (hc : AList.lookup c s.waits = some call) (hcalls : s'.calls = s.calls)
    (hwaits : s'.waits = s.waits.erase c) (hes : es.all Event.isQuiet = true)
    (hother : ∀ id, id ≠ call.txID →
      AList.lookup id s'.store.txs = AList.lookup id s.store.txs)
    (hown : ∀ entry', AList.lookup call.txID s'.store.txs = some entry' →
      ∃ entry, AList.lookup call.txID s.store.txs = some entry ∧ 1 < entry.waiters ∧
        entry'.waiters = entry.waiters - 1) : s'.Attended (log ++ es) := by
  have hon : ∀ id, s.waitsOn id = s'.waitsOn id + if call.txID = id then 1 else 0 := by
    intro id
    rw [waitsOn, waitsOn, hwaits, Map.count_erase _ hc]
    simp only [beq_iff_eq]
  have hold : ∀ id, WaitedFor (log ++ es) id → WaitedFor log id :=
    fun id hw ↦ (waitedFor_append.mp hw).resolve_right (not_waitedFor_of_isQuiet hes id)
  constructor
  · rw [hwaits, hcalls]
    exact Map.forall_erase h.fresh
  · rw [hwaits]
    exact Map.forall_erase fun c call hc ↦ waitedFor_append.mpr (.inl (h.registered c call hc))
  · intro id hw
    obtain ⟨tx, htx⟩ := h.created id (hold id hw)
    exact ⟨tx, htx.mono⟩
  · intro id entry' he'
    by_cases hid : id = call.txID
    · subst hid
      obtain ⟨entry, he, -, hwaiters⟩ := hown entry' he'
      have hcounted := h.counted _ entry he
      rw [hon, if_pos rfl] at hcounted
      omega
    · have hcounted := h.counted id entry' (hother id hid ▸ he')
      rwa [hon, if_neg (Ne.symm hid), Nat.add_zero] at hcounted
  · intro id entry' he' hw
    by_cases hid : id = call.txID
    · -- another call is still counted
      subst hid
      obtain ⟨entry, he, hmany, -⟩ := hown entry' he'
      have hcounted := h.counted _ entry he
      rw [hon, if_pos rfl] at hcounted
      omega
    · have hpos := h.waited id entry' (hother id hid ▸ he') (hold id hw)
      rwa [hon, if_neg (Ne.symm hid), Nat.add_zero] at hpos
  · intro id tx htx hw
    have hlog := (createdAs_append.mp htx).resolve_right (not_createdAs_of_isQuiet hes id tx)
    have hid : id ≠ call.txID := by
      rintro rfl
      exact hw (waitedFor_append.mpr (.inl (h.registered c call hc)))
    rw [hother id hid]
    exact h.kept id tx hlog fun hw' ↦ hw (waitedFor_append.mpr (.inl hw'))

/-- A step that leaves the wait calls and the entries alone. -/
theorem same (h : s.Attended log) (hcalls : s.calls ≤ s'.calls) (hwaits : s'.waits = s.waits)
    (htxs : s'.store.txs = s.store.txs) (hes : es.all Event.isQuiet = true) :
    s'.Attended (log ++ es) := by
  refine h.frame hcalls hwaits (not_waitedFor_of_isQuiet hes) ?_ ?_
    fun id tx htx ↦ absurd htx (not_createdAs_of_isQuiet hes id tx)
  · exact fun id entry he ↦ .inl ⟨entry, htxs ▸ he, rfl⟩
  · exact fun id entry he ↦ ⟨entry, htxs ▸ he⟩

/-- A step that changes one entry, but not its count. -/
theorem setEntry (h : s.Attended log) {id₀ : TxID} {entry₀ entry₀' : TxEntry}
    (hcalls : s.calls ≤ s'.calls) (hwaits : s'.waits = s.waits)
    (he₀ : AList.lookup id₀ s.store.txs = some entry₀)
    (htxs : ∀ id, AList.lookup id s'.store.txs =
      if id = id₀ then some entry₀' else AList.lookup id s.store.txs)
    (hcount : entry₀'.waiters = entry₀.waiters)
    (hes : es.all Event.isQuiet = true) : s'.Attended (log ++ es) := by
  refine h.frame hcalls hwaits (not_waitedFor_of_isQuiet hes) ?_ ?_
    fun id tx htx ↦ absurd htx (not_createdAs_of_isQuiet hes id tx)
  · intro id entry' he'
    rw [htxs] at he'
    split at he'
    · next hid =>
        obtain rfl := Option.some.inj he'
        exact .inl ⟨entry₀, hid ▸ he₀, hcount⟩
    · exact .inl ⟨entry', he', rfl⟩
  · intro id entry he
    rw [htxs]
    split
    · exact ⟨entry₀', rfl⟩
    · exact ⟨entry, he⟩

/-- A step that creates a transaction. -/
theorem create (h : s.Attended log) {id₀ : TxID} {entry₀ : TxEntry} {e : Event}
    (hcalls : s.calls ≤ s'.calls) (hwaits : s'.waits = s.waits)
    (hnew : ∀ tx, ¬CreatedAs log id₀ tx) (hzero : entry₀.waiters = 0)
    (htxs : s'.store.txs = s.store.txs.insert id₀ entry₀)
    (he : ∀ tx, e.created? = some tx → tx.id = id₀) (hreg : ∀ id, ¬WaitedFor [e] id) :
    s'.Attended (log ++ [e]) := by
  refine h.frame hcalls hwaits hreg ?_ ?_ ?_
  · intro id entry' he'
    rw [htxs] at he'
    rcases Map.lookup_insert_eq_some_iff.mp he' with ⟨rfl, rfl⟩ | ⟨-, he'⟩
    · exact .inr ⟨hzero, hnew⟩
    · exact .inl ⟨entry', he', rfl⟩
  · intro id entry hentry
    rw [htxs, Map.lookup_insert_eq]
    split
    · exact ⟨entry₀, rfl⟩
    · exact ⟨entry, hentry⟩
  · rintro id tx ⟨hid, e', hmem, he'⟩
    cases List.mem_singleton.mp hmem
    obtain rfl : id = id₀ := hid.symm.trans (he tx he')
    exact ⟨entry₀, by rw [htxs, AList.lookup_insert]⟩

end System.Attended

section Runs

variable {cfg : Config} {now : Time} {withLeases : Bool} {as : List Action} {s s' : System}
  {a : Action} {log es : List Event}

/-- Nothing has been created under an id that has no channel. -/
theorem exec_not_createdAs (hrun : (machine cfg now withLeases).exec as = some (s, log)) {id : TxID}
    (hid : AList.lookup id s.store.channels = none) (tx : Transaction) : ¬CreatedAs log id tx := by
  obtain ⟨l, hl, href⟩ := (exec_refines hrun).2 id
  exact (lifecycle_originates hl).not_createdAs (href.channel.mp hid)

/-- **Step.** -/
theorem System.Attended.step (hrun : (machine cfg now withLeases).exec as = some (s, log))
    (h : s.Attended log) (hs : Step cfg s a s' es) : s'.Attended (log ++ es) := by
  have hcalls := hs.calls_le
  have hfinish : ∀ {id state entry}, s.store.unfinished id state = some entry →
      AList.lookup id s.store.txs = some entry :=
    fun hn ↦ (Store.unfinished_eq_some_iff.mp hn).1
  cases hs with
  | createInstantApproved hc hid =>
      refine h.create hcalls rfl (exec_not_createdAs hrun hid) rfl rfl (fun tx htx ↦ ?_) ?_
      · exact Option.some.inj htx ▸ rfl
      · rintro id ⟨_, _, hmem⟩
        exact nomatch List.mem_singleton.mp hmem
  | createBound hc hid =>
      refine h.create hcalls rfl (exec_not_createdAs hrun hid) rfl rfl (fun tx htx ↦ ?_) ?_
      · exact Option.some.inj htx ▸ rfl
      · rintro id ⟨_, _, hmem⟩
        exact nomatch List.mem_singleton.mp hmem
  | claimApproval hc hn =>
      obtain ⟨entry, he, rfl, rfl⟩ := Store.claimApproval_eq_some_iff.mp hn
      exact h.setEntry hcalls rfl (hfinish he) (Store.lookup_setEntry _ _ · _) rfl rfl
  | finishDenied hc hn =>
      exact h.setEntry hcalls rfl (hfinish hn) (Store.lookup_finishLocked _ _ · _ _ _) rfl rfl
  | finishApproved hc hn =>
      refine h.setEntry hcalls ?_ (hfinish hn) (Store.lookup_finishLocked _ _ · _ _ _) rfl rfl
      dsimp only
      split <;> rfl
  | deny hn =>
      exact h.setEntry hcalls rfl (hfinish hn) (Store.lookup_finishLocked _ _ · _ _ _) rfl rfl
  | expire ht hn =>
      exact h.setEntry hcalls rfl (hfinish hn) (Store.lookup_finishLocked _ _ · _ _ _) rfl rfl
  | @wait id slot store hn =>
      obtain ⟨entry, he, hcases⟩ := Store.waitResult_eq_some hn
      obtain ⟨tx, htx, -⟩ := exec_createdAs_of_entry hrun he
      rcases hcases with ⟨res, -, -, rfl⟩ | ⟨-, -, rfl⟩
      · refine h.register htx rfl rfl (fun id' entry' he' ↦ ⟨entry', he', ?_⟩)
          fun id' entry he ↦ ⟨entry, he⟩
        split <;> omega
      · refine h.register htx rfl rfl (fun id' entry' he' ↦ ?_) fun id' entry' he' ↦ ?_
        · rcases Map.lookup_insert_eq_some_iff.mp he' with ⟨rfl, rfl⟩ | ⟨hne, he'⟩
          · exact ⟨entry, he, by rw [if_pos rfl]⟩
          · exact ⟨entry', he', by rw [if_neg (Ne.symm hne), Int.add_zero]⟩
        · dsimp only
          rw [Store.lookup_setEntry]
          split
          · exact ⟨_, rfl⟩
          · exact ⟨entry', he'⟩
  | receiveOwn hc => exact h.move hc rfl rfl rfl rfl rfl
  | receiveShared hc hch => exact h.move hc rfl rfl rfl rfl rfl
  | ctxDone hc => exact h.move hc rfl rfl rfl rfl rfl
  | @remove c id res hc =>
      refine h.leave hc rfl rfl rfl (fun id' hne ↦ ?_) fun entry' he' ↦ ?_
      · exact (Store.lookup_remove _ _ _).trans (if_neg hne)
      · exact nomatch ((Store.lookup_remove _ _ _).trans (if_pos rfl)).symm.trans he'
  | @cancelWaitNone c id hc hn =>
      refine h.leave hc rfl rfl rfl (fun id' hne ↦ rfl) fun entry' he' ↦ ?_
      exact nomatch hn.symm.trans he'
  | @cancelWaitKeep c id entry hc hn hw =>
      refine h.leave hc rfl rfl rfl (fun id' hne ↦ ?_) fun entry' he' ↦ ?_
      · exact (Store.lookup_setEntry _ _ _ _).trans (if_neg hne)
      · obtain rfl := Option.some.inj
          (((Store.lookup_setEntry _ _ _ _).trans (if_pos rfl)).symm.trans he')
        exact ⟨entry, hn, hw, rfl⟩
  | @cancelWaitDelete c id entry hc hn hw =>
      have hremove : ∀ id', AList.lookup id' ((s.store.stopTimer id).remove id).txs =
          if id' = id then none else AList.lookup id' s.store.txs := by
        intro id'
        rw [Store.lookup_remove, Store.stopTimer_txs]
      refine h.leave hc rfl rfl rfl (fun id' hne ↦ ?_) fun entry' he' ↦ ?_
      · exact (hremove id').trans (if_neg hne)
      · exact nomatch ((hremove id).trans (if_pos rfl)).symm.trans he'
  | _ => exact h.same hcalls rfl rfl rfl

/-- **Run.** -/
theorem exec_attended (hrun : (machine cfg now withLeases).exec as = some (s, log)) :
    s.Attended log := by
  refine (machine cfg now withLeases).exec_run_induction (P := fun _ s log ↦ s.Attended log) ?_
    (fun as a s log s' es hrun h hs ↦ h.step hrun (.of_step hs)) hrun
  constructor
  · exact fun c call hc ↦ nomatch (AList.lookup_empty c).symm.trans hc
  · exact fun c call hc ↦ nomatch (AList.lookup_empty c).symm.trans hc
  · rintro id ⟨c, slot, hmem⟩
    exact nomatch hmem
  · exact fun id entry he ↦ nomatch (AList.lookup_empty id).symm.trans he
  · exact fun id entry he ↦ nomatch (AList.lookup_empty id).symm.trans he
  · exact fun id tx htx ↦ absurd htx not_createdAs_nil

end Runs

/-- The entry is younger than the timeout, or its approval is in progress. -/
def System.active (cfg : Config) (s : System) (entry : TxEntry) : Bool :=
  decide (s.now < entry.tx.createdAt + cfg.timeout) || entry.tx.state == .approving

/-- There is a reason to keep the entry: it is active, or a wait call for it has not returned. -/
def System.Justified (cfg : Config) (s : System) (id : TxID) (entry : TxEntry) : Prop :=
  s.active cfg entry = true ∨ ∃ c call, AList.lookup c s.waits = some call ∧ call.txID = id

/-- An entry is kept for a reason exactly if it is active or has been waited for.  What has never
been waited for is kept without one, for ever.  If there is no such entry, the size of the store is
bounded by the active entries and the wait calls in progress. -/
theorem retention_iff {cfg : Config} {now : Time} {withLeases : Bool} {as : List Action}
    {s : System} {log : List Event}
    (hrun : (machine cfg now withLeases).exec as = some (s, log)) :
    (∀ id entry, AList.lookup id s.store.txs = some entry →
      (s.Justified cfg id entry ↔ s.active cfg entry = true ∨ WaitedFor log id)) ∧
    (∀ id tx, CreatedAs log id tx → ¬WaitedFor log id →
      ∃ entry, AList.lookup id s.store.txs = some entry) ∧
    ((∀ id entry, AList.lookup id s.store.txs = some entry →
        s.active cfg entry = true ∨ WaitedFor log id) →
      s.store.txs.keys.length ≤ s.store.txs.count (s.active cfg) + s.waits.keys.length) := by
  have h := exec_attended hrun
  have hjustified : ∀ id entry, AList.lookup id s.store.txs = some entry → WaitedFor log id →
      ∃ c call, AList.lookup c s.waits = some call ∧ call.txID = id := by
    intro id entry he hw
    obtain ⟨c, call, hc, hid⟩ := (Map.count_pos_iff _).mp (h.waited id entry he hw)
    exact ⟨c, call, hc, beq_iff_eq.mp hid⟩
  refine ⟨fun id entry he ↦ or_congr_right ⟨?_, hjustified id entry he⟩, h.kept, fun hall ↦ ?_⟩
  · rintro ⟨c, call, hc, rfl⟩
    exact h.registered c call hc
  · refine Map.length_keys_le_count_add _ WaitCall.txID fun id entry he ↦ ?_
    exact (hall id entry he).imp_right (hjustified id entry he)

/-! ## Two runs -/

/-- A client waits, and the timeout passes. -/
def waitingRun : List Action :=
  createDeploy ++
    [.wait deployTx, .tick (60 * Time.second).toNat, .fire deployTx, .expire deployTx]

/-- The client is the reason to keep its transaction. -/
theorem retention_iff_waiting :
    ∃ s log entry, (machine plainConfig 0 true).exec waitingRun = some (s, log) ∧
      AList.lookup deployTx s.store.txs = some entry ∧ s.active plainConfig entry = false ∧
      s.Justified plainConfig deployTx entry := by
  have hlog : ((machine plainConfig 0 true).exec waitingRun).map (fun r ↦
      (r.2.contains (.registered 1 deployTx .shared),
        (AList.lookup deployTx r.1.store.txs).map (r.1.active plainConfig))) =
        some (true, some false) := by decide +kernel
  obtain ⟨⟨s, log⟩, hrun, heq⟩ := Option.map_eq_some_iff.mp hlog
  obtain ⟨hwait, hentry⟩ := Prod.mk.inj heq
  obtain ⟨entry, he, hactive⟩ := Option.map_eq_some_iff.mp hentry
  refine ⟨s, log, entry, hrun, he, hactive, ((retention_iff hrun).1 deployTx entry he).mpr ?_⟩
  exact .inr ⟨1, .shared, List.contains_iff_mem.mp hwait⟩

/-- Nobody comes back for three transactions: one that is approved, one that is served from the
lease this leaves, and one that runs into the timeout. -/
def abandonedRun : List Action :=
  createDeploy ++ approveDeploy 1 ++
    [.putLease 1, .sign deployInput true, .findActive 2, .remaining 2, .startLeased 2,
      .issueLeased 2 plainSigners, .createInstantApproved 2 (str "tx_2"),
      .sign deployInput false, .createBound 3 (str "tx_3"), .startTimer 3,
      .tick (60 * Time.second).toNat, .fire (str "tx_3"), .expire (str "tx_3")]

/-- A year later they are all there. -/
theorem abandoned_transactions_retained :
    ((machine plainConfig 0 true).exec
        (abandonedRun ++ [.tick (365 * 24 * 60 * Time.minute).toNat])).map (fun r ↦
          (r.1.store.txs.entries.map fun e ↦ (e.1, e.2.tx.state, r.1.active plainConfig e.2),
            r.1.waits.keys)) =
      some ([(str "tx_3", .expired, false), (str "tx_2", .approved, false),
        (str "tx_1", .approved, false)], []) := by
  decide +kernel

end LunaZTrust.Approval
