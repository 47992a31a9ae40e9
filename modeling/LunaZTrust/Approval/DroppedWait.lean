import LunaZTrust.Approval.Waiters

/-!
# Dropped waits

A client may lose its connection while it waits, and ask again.  `cancelWait`
counts a waiter out and deletes the entry when the count has gone to zero.  The
only waiter to go takes the transaction with it, and so does any waiter that came
after the decision, since only those that came before it were counted in.

`dropped_wait_keeps_iff` says exactly when a wait that is dropped before the
approval timeout leaves the transaction in place: if the count is at least two
whenever a waiter is counted out.
-/

namespace LunaZTrust.Approval

open LunaZTrust.Go LunaZTrust.Lease LunaZTrust.Transition

/-- A waiter has received the result of the transaction. -/
def Consumed (log : List Event) (id : TxID) : Prop :=
  ∃ c slot res, .received c id slot res ∈ log

/-- A wait for the transaction was cancelled before its approval timeout. -/
def DroppedEarly (cfg : Config) (log : List Event) (id : TxID) : Prop :=
  ∃ c now createdAt, .cancelled c id now (some createdAt) ∈ log ∧ now < createdAt + cfg.timeout

/-- A wait for the transaction finds it, and an approval of it is applied: it can
be claimed, or it is claimed and can be committed, unless it is decided. -/
def Kept (s : System) (log : List Event) (id : TxID) : Prop :=
  (s.store.waitResult id).isSome = true ∧
    (¬Decided log id → (s.store.claimApproval id).isSome = true ∨
      (s.store.unfinished id .approving).isSome = true)

theorem Consumed.mono {log es : List Event} {id : TxID} (h : Consumed log id) :
    Consumed (log ++ es) id := by
  obtain ⟨c, slot, res, hmem⟩ := h
  exact ⟨c, slot, res, List.mem_append_left _ hmem⟩

theorem DroppedEarly.mono {cfg : Config} {log es : List Event} {id : TxID}
    (h : DroppedEarly cfg log id) : DroppedEarly cfg (log ++ es) id := by
  obtain ⟨c, now, createdAt, hmem, hlt⟩ := h
  exact ⟨c, now, createdAt, List.mem_append_left _ hmem, hlt⟩

section Runs

variable {cfg : Config} {now : Time} {withLeases : Bool} {as : List Action} {s s' : System}
  {a : Action} {log es : List Event} {id : TxID}

/-! ## An entry is kept -/

theorem waitResult_isSome_iff :
    (s.store.waitResult id).isSome = true ↔ ∃ entry, AList.lookup id s.store.txs = some entry := by
  rw [Store.waitResult]
  cases AList.lookup id s.store.txs with
  | none =>
      constructor
      · intro h
        cases h
      · rintro ⟨entry, h⟩
        cases h
  | some entry =>
      refine ⟨fun _ ↦ ⟨entry, rfl⟩, fun _ ↦ ?_⟩
      cases hres : entry.result <;> simp [hres]

/-- The transaction is kept exactly if it has an entry. -/
theorem kept_iff (hrun : (machine cfg now withLeases).exec as = some (s, log)) :
    Kept s log id ↔ ∃ entry, AList.lookup id s.store.txs = some entry := by
  refine ⟨fun h ↦ waitResult_isSome_iff.mp h.1, fun ⟨entry, he⟩ ↦ ?_⟩
  refine ⟨waitResult_isSome_iff.mpr ⟨entry, he⟩, fun hnot ↦ ?_⟩
  obtain ⟨l, hl, href⟩ := (exec_refines hrun).2 id
  have hfits := href.entry entry he
  have hres : entry.result = none := by
    rw [← lifecycle_result_isSome_iff hl, ← hfits.result_eq] at hnot
    exact Option.not_isSome_iff_eq_none.mp hnot
  have hresult := hfits.result_eq.symm.trans hres
  have hstate := hfits.state_eq
  cases hp : l.phase with
  | absent => exact absurd hp hfits.created
  | pending =>
      rw [hp] at hstate
      have hclaim := Store.claimApproval_eq_some_iff.mpr
        ⟨entry, Store.unfinished_eq_some_iff.mpr ⟨he, hres, hstate⟩, rfl, rfl⟩
      exact Or.inl (by rw [hclaim]; rfl)
  | claimed c =>
      rw [hp] at hstate
      change entry.tx.state = .approving at hstate
      exact Or.inr (by rw [Store.unfinished_eq_some_iff.mpr ⟨he, hres, hstate⟩]; rfl)
  | issuing c validUntil =>
      rw [hp] at hstate
      change entry.tx.state = .approving at hstate
      exact Or.inr (by rw [Store.unfinished_eq_some_iff.mpr ⟨he, hres, hstate⟩]; rfl)
  | decided state res owner =>
      rw [hp] at hresult
      exact nomatch hresult

/-! ## How an entry is lost -/

/-- A waiter about to remove the entry has received. -/
theorem exec_received (hrun : (machine cfg now withLeases).exec as = some (s, log)) :
    ∀ c call, AList.lookup c s.waits = some call →
      ∀ id res, call = .received id res → Consumed log id := by
  refine (machine cfg now withLeases).exec_induction
    (P := fun s log ↦ ∀ c call, AList.lookup c s.waits = some call →
      ∀ id res, call = .received id res → Consumed log id)
    (fun c _ h ↦ nomatch (AList.lookup_empty c).symm.trans h) (fun s log a s' es h hs ↦ ?_) hrun
  have hold : ∀ c call, AList.lookup c s.waits = some call →
      ∀ id res, call = .received id res → Consumed (log ++ es) id :=
    fun c call hc id res heq ↦ (h c call hc id res heq).mono
  have hstep : Step cfg s a s' es := .of_step hs
  cases hstep with
  | wait => exact Map.forall_insert hold nofun
  | receiveOwn =>
      refine Map.forall_insert hold fun id res heq ↦ ?_
      cases heq
      exact ⟨_, _, _, List.mem_append_right _ (List.mem_singleton_self _)⟩
  | receiveShared =>
      refine Map.forall_insert hold fun id res heq ↦ ?_
      cases heq
      exact ⟨_, _, _, List.mem_append_right _ (List.mem_singleton_self _)⟩
  | remove => exact Map.forall_erase hold
  | ctxDone => exact Map.forall_insert hold nofun
  | cancelWaitNone => exact Map.forall_erase hold
  | cancelWaitKeep => exact Map.forall_erase hold
  | cancelWaitDelete => exact Map.forall_erase hold
  | finishApproved =>
      split <;> exact hold
  | _ => exact hold

/-- A step loses an entry only where a waiter removes it after receiving, or where
`cancelWait` counts it down to nothing. -/
theorem Step.lost_cases (hs : Step cfg s a s' es) {entry : TxEntry}
    (he : AList.lookup id s.store.txs = some entry) (hlost : AList.lookup id s'.store.txs = none) :
    (∃ c res, AList.lookup c s.waits = some (.received id res)) ∨
      ∃ c, a = .cancelWait c ∧ AList.lookup c s.waits = some (.dropped id) ∧ entry.waiters ≤ 1 := by
  have hset : ∀ {id'} {e : TxEntry},
      AList.lookup id (s.store.txs.insert id' e) ≠ none := by
    intro id' e h
    rw [Map.lookup_insert_eq] at h
    split at h
    · exact nomatch h
    · exact nomatch he.symm.trans h
  have hfinish : ∀ {store : Store} {id' e state res}, store.txs = s.store.txs →
      AList.lookup id (store.finishLocked id' e state res).txs ≠ none := by
    intro store id' e state res htx h
    rw [Store.lookup_finishLocked, htx] at h
    split at h
    · exact nomatch h
    · exact nomatch he.symm.trans h
  have hsame : s'.store.txs ≠ s.store.txs := fun htx ↦ by
    rw [htx] at hlost
    exact nomatch he.symm.trans hlost
  cases hs with
  | createInstantApproved => exact absurd hlost hset
  | createBound => exact absurd hlost hset
  | finishDenied | finishApproved | deny | expire => exact absurd hlost (hfinish rfl)
  | cancelWaitKeep => exact absurd hlost hset
  | claimApproval _ hn =>
      obtain ⟨_, -, -, rfl⟩ := Store.claimApproval_eq_some_iff.mp hn
      exact absurd hlost hset
  | wait hn =>
      obtain ⟨_, -, ⟨_, -, -, rfl⟩ | ⟨-, -, rfl⟩⟩ := Store.waitResult_eq_some hn
      · exact absurd rfl hsame
      · exact absurd hlost hset
  | @remove c id' res hc =>
      rw [Store.lookup_remove] at hlost
      split at hlost
      · next heq => exact Or.inl ⟨c, res, heq ▸ hc⟩
      · exact nomatch he.symm.trans hlost
  | @cancelWaitDelete c id' entry' hc hn hw =>
      rw [Store.lookup_remove, Store.stopTimer_txs] at hlost
      split at hlost
      · next heq =>
          subst heq
          obtain rfl := Option.some.inj (he.symm.trans hn)
          exact Or.inr ⟨c, rfl, hc, hw⟩
      · exact nomatch he.symm.trans hlost
  | _ => exact absurd rfl hsame

/-- The cancellation a step reports is one of an entry there was, unless it was
early before. -/
theorem Step.droppedEarly_cases (hs : Step cfg s a s' es)
    (h : DroppedEarly cfg (log ++ es) id) :
    DroppedEarly cfg log id ∨
      ∃ entry, AList.lookup id s.store.txs = some entry ∧
        s.now < entry.tx.createdAt + cfg.timeout := by
  obtain ⟨c, t, t₀, hmem, hlt⟩ := h
  rcases List.mem_append.mp hmem with hmem | hmem
  · exact Or.inl ⟨c, t, t₀, hmem, hlt⟩
  · cases hs with
    | @cancelWaitKeep c id' entry hc hn hw =>
        cases List.mem_singleton.mp hmem
        exact Or.inr ⟨entry, hn, hlt⟩
    | @cancelWaitDelete c id' entry hc hn hw =>
        rcases List.mem_cons.mp hmem with heq | hmem
        · cases heq
          exact Or.inr ⟨entry, hn, hlt⟩
        · exact nomatch List.mem_singleton.mp hmem
    | cancelWaitNone => exact nomatch List.mem_singleton.mp hmem
    | _ => simp at hmem

/-- A waiter that is counted down to nothing takes the entry along. -/
theorem Step.cancelWait_last {c : Nat} {entry : TxEntry} (hs : Step cfg s (.cancelWait c) s' es)
    (hc : AList.lookup c s.waits = some (.dropped id))
    (he : AList.lookup id s.store.txs = some entry) (hw : ¬1 < entry.waiters) :
    AList.lookup id s'.store.txs = none ∧
      es = [.cancelled c id s.now (some entry.tx.createdAt), .removed id] := by
  cases hs with
  | cancelWaitNone hc' hn =>
      cases hc.symm.trans hc'
      exact nomatch he.symm.trans hn
  | cancelWaitKeep hc' hn hw' =>
      cases hc.symm.trans hc'
      cases he.symm.trans hn
      exact absurd hw' hw
  | cancelWaitDelete hc' hn =>
      cases hc.symm.trans hc'
      cases he.symm.trans hn
      exact ⟨(Store.lookup_remove _ _ _).trans (if_pos rfl), rfl⟩

/-! ## When a dropped wait leaves the transaction in place -/

/-- **When a dropped wait keeps the transaction.**  In a run, a transaction of which
a wait was dropped before the timeout, and whose result nobody has received, is kept
at every point, exactly if the count is at least two whenever a waiter of such a
transaction is counted out. -/
theorem dropped_wait_keeps_iff (hrun : (machine cfg now withLeases).exec as = some (s, log)) :
    (∀ as₁ as₂ s₁ log₁, as = as₁ ++ as₂ →
      (machine cfg now withLeases).exec as₁ = some (s₁, log₁) →
        ∀ id, DroppedEarly cfg log₁ id → ¬Consumed log₁ id → Kept s₁ log₁ id) ↔
    ∀ as₁ c as₂ s₁ log₁ id entry, as = as₁ ++ .cancelWait c :: as₂ →
      (machine cfg now withLeases).exec as₁ = some (s₁, log₁) →
        AList.lookup c s₁.waits = some (.dropped id) →
          AList.lookup id s₁.store.txs = some entry → ¬Consumed log₁ id →
            (s₁.now < entry.tx.createdAt + cfg.timeout ∨ DroppedEarly cfg log₁ id) →
              1 < entry.waiters := by
  constructor
  · rintro hkept as₁ c as₂ s₁ log₁ id entry rfl hrun₁ hc he hnot hearly
    by_contra hw
    obtain ⟨s₂, es, hstep, hrun₂⟩ :=
      (machine cfg now withLeases).step_of_exec_append_cons hrun hrun₁
    have hkept₂ := hkept (as₁ ++ [.cancelWait c]) as₂ s₂ (log₁ ++ es)
      (by rw [List.append_assoc, List.singleton_append]) hrun₂ id
    have hcancel : Step cfg s₁ (.cancelWait c) s₂ es := .of_step hstep
    obtain ⟨hlost, rfl⟩ := hcancel.cancelWait_last hc he hw
    have hdropped : DroppedEarly cfg (log₁ ++ [.cancelled c id s₁.now (some entry.tx.createdAt),
        .removed id]) id := by
      rcases hearly with hlt | hbefore
      · exact ⟨c, s₁.now, _, List.mem_append_right _ List.mem_cons_self, hlt⟩
      · exact hbefore.mono
    have hunread : ¬Consumed (log₁ ++ [.cancelled c id s₁.now (some entry.tx.createdAt),
        .removed id]) id := by
      rintro ⟨c', slot, res, hmem⟩
      rcases List.mem_append.mp hmem with hmem | hmem
      · exact hnot ⟨c', slot, res, hmem⟩
      · simp at hmem
    obtain ⟨entry', he'⟩ := (kept_iff hrun₂).mp (hkept₂ hdropped hunread)
    exact nomatch hlost.symm.trans he'
  · intro hcount as₁ as₂ s₁ log₁ heq hrun₁ id hearly hnot
    rw [kept_iff hrun₁]
    refine (machine cfg now withLeases).exec_run_induction
      (P := fun as₁ s log ↦ ∀ as₂, as = as₁ ++ as₂ → DroppedEarly cfg log id →
        ¬Consumed log id → ∃ entry, AList.lookup id s.store.txs = some entry)
      ?_ ?_ hrun₁ as₂ heq hearly hnot
    · exact fun _ _ ⟨_, _, _, hmem, _⟩ _ ↦ nomatch hmem
    · intro as₁ a s₁ log₁ s₂ es hrun₁ ih hs as₂ heq hearly hnot
      rw [List.append_assoc, List.singleton_append] at heq
      have hstep : Step cfg s₁ a s₂ es := .of_step hs
      have hnot₁ : ¬Consumed log₁ id := fun h ↦ hnot h.mono
      -- the entry was there, since the wait was dropped before or is dropped now
      have hbefore : ∃ entry, AList.lookup id s₁.store.txs = some entry ∧
          (s₁.now < entry.tx.createdAt + cfg.timeout ∨ DroppedEarly cfg log₁ id) := by
        rcases hstep.droppedEarly_cases hearly with h | ⟨entry, he, hlt⟩
        · obtain ⟨entry, he⟩ := ih (a :: as₂) heq h hnot₁
          exact ⟨entry, he, Or.inr h⟩
        · exact ⟨entry, he, Or.inl hlt⟩
      obtain ⟨entry, he, hwhen⟩ := hbefore
      cases hlost : AList.lookup id s₂.store.txs with
      | some entry' => exact ⟨entry', rfl⟩
      | none =>
          rcases hstep.lost_cases he hlost with ⟨c, res, hc⟩ | ⟨c, rfl, hc, hw⟩
          · exact absurd (exec_received hrun₁ c _ hc id res rfl) hnot₁
          · exact absurd (hcount as₁ c as₂ s₁ log₁ id entry heq hrun₁ hc he hnot₁ hwhen)
              (Int.not_lt.mpr hw)

end Runs

/-- The only waiter goes, a minute before the timeout. -/
def oneWaiterDrops : List Action :=
  createDeploy ++ [.wait deployTx, .ctxDone 1, .cancelWait 1]

/-- The next one does not find the transaction, and it cannot be approved any more. -/
theorem dropped_wait_loses_transaction :
    ∃ s log, (machine plainConfig 0 true).exec oneWaiterDrops = some (s, log) ∧
      s.now < plainConfig.timeout ∧ DroppedEarly plainConfig log deployTx ∧
      ¬Consumed log deployTx ∧ ¬Decided log deployTx ∧
      s.store.waitResult deployTx = none ∧ s.store.claimApproval deployTx = none ∧
      s.store.unfinished deployTx .approving = none := by
  refine ⟨_, [.asked 0 deployInput, .created 0 (deployInput.pending deployTx 0),
    .registered 1 deployTx .shared, .cancelled 1 deployTx 0 (some 0), .removed deployTx], rfl,
    by decide, ⟨1, 0, 0, by simp, by decide⟩, ?_, ?_, by decide, by decide, by decide⟩
  · rintro ⟨c, slot, res, hmem⟩
    simp at hmem
  · rintro ⟨e, hmem, he⟩
    simp only [List.mem_cons, List.not_mem_nil, or_false] at hmem
    rcases hmem with rfl | rfl | rfl | rfl | rfl <;> exact nomatch he

/-- Of two waiters, one may go. -/
theorem dropped_wait_keeps_two_waiters :
    ∃ s log, (machine plainConfig 0 true).exec
        (createDeploy ++ [.wait deployTx, .wait deployTx, .ctxDone 1, .cancelWait 1]) =
          some (s, log) ∧
      ((∀ as₁ as₂ s₁ log₁,
          createDeploy ++ [.wait deployTx, .wait deployTx, .ctxDone 1, .cancelWait 1] =
            as₁ ++ as₂ →
          (machine plainConfig 0 true).exec as₁ = some (s₁, log₁) →
            ∀ id, DroppedEarly plainConfig log₁ id → ¬Consumed log₁ id → Kept s₁ log₁ id) ↔
        ∀ as₁ c as₂ s₁ log₁ id entry,
          createDeploy ++ [.wait deployTx, .wait deployTx, .ctxDone 1, .cancelWait 1] =
            as₁ ++ .cancelWait c :: as₂ →
          (machine plainConfig 0 true).exec as₁ = some (s₁, log₁) →
            AList.lookup c s₁.waits = some (.dropped id) →
              AList.lookup id s₁.store.txs = some entry → ¬Consumed log₁ id →
                (s₁.now < entry.tx.createdAt + plainConfig.timeout ∨
                  DroppedEarly plainConfig log₁ id) → 1 < entry.waiters) :=
  ⟨_, _, rfl, dropped_wait_keeps_iff rfl⟩

end LunaZTrust.Approval
