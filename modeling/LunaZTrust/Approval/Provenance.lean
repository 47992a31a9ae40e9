import LunaZTrust.Approval.Exclusion

/-!
# Where results come from

Every call of the approval system leaves events that say what it was called with.
`System.Traced` ties what is in the system, and what has happened, to these: a
transaction to the sign call that created it, a lease in use to the `Put` that left
it, a committed approval to the `Approve` call, and a result on its way to a waiter
to the decision it is the result of.
-/

namespace LunaZTrust.Approval

open LunaZTrust.Go LunaZTrust.Lease LunaZTrust.Transition

/-! ## Origins -/

/-- The transaction an event creates. -/
def Event.created? : Event → Option Transaction
  | .created _ tx => some tx
  | .instant _ _ _ tx _ => some tx
  | _ => none

/-- The transaction was created in the run. -/
def CreatedAs (log : List Event) (id : TxID) (tx : Transaction) : Prop :=
  tx.id = id ∧ ∃ e ∈ log, e.created? = some tx

/-- The transaction was decided in the run, with the result. -/
def DecidedAs (log : List Event) (id : TxID) (res : Result) : Prop :=
  (∃ state owner, .finished id state res owner ∈ log) ∨
    ∃ c req lease tx, .instant c req lease tx res ∈ log ∧ tx.id = id

/-- The lease was found for the request before its end, and had been put under the
request's own lookup key. -/
def FoundLease (log : List Event) (c : Nat) (req : SignInput) (lease : ActiveLease) : Prop :=
  ∃ now, .leaseFound c req lease now ∈ log ∧ now ≤ lease.expiresAt ∧
    ∃ c' id key, .leasePut c' id key lease.expiresAt ∈ log ∧ key.toLookupKey = req.lookup

/-- The transaction and the approver of an approval call. -/
def ApproveCall.target : ApproveCall → TxID × GoString
  | .claiming id _ approver => (id, approver)
  | .claimed id _ _ approver => (id, approver)
  | .issuing id _ _ approver => (id, approver)
  | .issued id _ _ approver _ => (id, approver)
  | .putting id _ _ approver => (id, approver)

theorem Advances.target_eq {cfg : Config} {s : System} {c : Nat} {a : Action} {es : List Event}
    {call next : ApproveCall} (h : Advances cfg s c a es call next) :
    next.target = call.target := by
  cases h <;> rfl

/-- `Approve` was called for the transaction by the approver. -/
def ApprovedBy (log : List Event) (c : Nat) (target : TxID × GoString) : Prop :=
  ∃ ttl, .approveCalled c target.1 ttl target.2 ∈ log

/-- The sign call has been asked, and the lease it uses has been found. -/
def SignCall.Traced (log : List Event) (c : Nat) : SignCall → Prop
  | .looking req => .asked c req ∈ log
  | .found req lease => .asked c req ∈ log ∧ FoundLease log c req lease
  | .leased req lease _ => .asked c req ∈ log ∧ FoundLease log c req lease
  | .issuing req lease _ => .asked c req ∈ log ∧ FoundLease log c req lease
  | .issued req lease _ => .asked c req ∈ log ∧ FoundLease log c req lease
  | .creating req => .asked c req ∈ log
  | .arming _ => True

/-- The wait call has been registered, and the result it has is that of the
transaction. -/
def WaitCall.Traced (log : List Event) (c : Nat) : WaitCall → Prop
  | .waiting id slot =>
      .registered c id slot ∈ log ∧ ∀ res, slot = .ownResult res → DecidedAs log id res
  | .received id res => (∃ slot, .registered c id slot ∈ log) ∧ DecidedAs log id res
  | .dropped _ => True

/-- What has come before an event. -/
def Event.Traced (log : List Event) : Event → Prop
  | .created c tx => ∃ req, .asked c req ∈ log ∧ tx = req.pending tx.id tx.createdAt
  | .instant c req lease tx _ =>
      .asked c req ∈ log ∧ tx = req.instant tx.id tx.createdAt ∧ FoundLease log c req lease
  | .finished id state res owner => res.err = none →
      state = .approved ∧ ∃ c approver, owner = some c ∧ ApprovedBy log c (id, approver)
  | .leasePut c id key _ => ApprovedBy log c (id, key.approver)
  | .returned c id res => (∃ slot, .registered c id slot ∈ log) ∧ DecidedAs log id res
  | _ => True

/-- Everything in the system, and everything that has happened, has come about. -/
structure System.Traced (s : System) (log : List Event) : Prop where
  signs : ∀ c call, AList.lookup c s.signs = some call → call.Traced log c
  approves : ∀ c call, AList.lookup c s.approves = some call → ApprovedBy log c call.target
  channels : ∀ id buffer, AList.lookup id s.store.channels = some buffer →
    ∀ res, buffer = some res → DecidedAs log id res
  results : ∀ id entry, AList.lookup id s.store.txs = some entry →
    ∀ res, entry.result = some res → DecidedAs log id res
  waits : ∀ c call, AList.lookup c s.waits = some call → call.Traced log c
  events : ∀ e ∈ log, e.Traced log

/-! ### Longer logs -/

section Mono

variable {log es : List Event} {c : Nat} {id : TxID}

theorem DecidedAs.mono {res : Result} (h : DecidedAs log id res) :
    DecidedAs (log ++ es) id res := by
  rcases h with ⟨state, owner, h⟩ | ⟨c, req, lease, tx, h, hid⟩
  · exact Or.inl ⟨state, owner, List.mem_append_left _ h⟩
  · exact Or.inr ⟨c, req, lease, tx, List.mem_append_left _ h, hid⟩

theorem FoundLease.mono {req : SignInput} {lease : ActiveLease} (h : FoundLease log c req lease) :
    FoundLease (log ++ es) c req lease := by
  obtain ⟨now, hfound, hle, c', id, key, hput, hkey⟩ := h
  exact ⟨now, List.mem_append_left _ hfound, hle, c', id, key, List.mem_append_left _ hput, hkey⟩

theorem ApprovedBy.mono {target : TxID × GoString} (h : ApprovedBy log c target) :
    ApprovedBy (log ++ es) c target := by
  obtain ⟨ttl, h⟩ := h
  exact ⟨ttl, List.mem_append_left _ h⟩

theorem SignCall.Traced.mono {call : SignCall} (h : call.Traced log c) :
    call.Traced (log ++ es) c := by
  cases call with
  | looking => exact List.mem_append_left _ h
  | creating => exact List.mem_append_left _ h
  | arming => exact trivial
  | _ => exact ⟨List.mem_append_left _ h.1, h.2.mono⟩

theorem WaitCall.Traced.mono {call : WaitCall} (h : call.Traced log c) :
    call.Traced (log ++ es) c := by
  cases call with
  | waiting => exact ⟨List.mem_append_left _ h.1, fun res hres ↦ (h.2 res hres).mono⟩
  | received =>
      obtain ⟨⟨slot, hslot⟩, hdec⟩ := h
      exact ⟨⟨slot, List.mem_append_left _ hslot⟩, hdec.mono⟩
  | dropped => exact trivial

theorem Event.Traced.mono {e : Event} (h : e.Traced log) : e.Traced (log ++ es) := by
  cases e with
  | created =>
      obtain ⟨req, hasked, heq⟩ := h
      exact ⟨req, List.mem_append_left _ hasked, heq⟩
  | «instant» => exact ⟨List.mem_append_left _ h.1, h.2.1, h.2.2.mono⟩
  | finished =>
      intro hres
      obtain ⟨hstate, c, approver, howner, happ⟩ := h hres
      exact ⟨hstate, c, approver, howner, happ.mono⟩
  | leasePut => exact ApprovedBy.mono h
  | returned =>
      obtain ⟨⟨slot, hslot⟩, hdec⟩ := h
      exact ⟨⟨slot, List.mem_append_left _ hslot⟩, hdec.mono⟩
  | _ => exact trivial

end Mono

/-! ## What a transaction was created as -/

section Lives

variable {id : TxID} {log es : List Event} {tx : Transaction}

theorem CreatedAs.mono (h : CreatedAs log id tx) : CreatedAs (log ++ es) id tx := by
  obtain ⟨hid, e, hmem, he⟩ := h
  exact ⟨hid, e, List.mem_append_left _ hmem, he⟩

theorem not_createdAs_nil : ¬CreatedAs [] id tx := fun ⟨_, _, hmem, _⟩ ↦ List.not_mem_nil hmem

theorem createdAs_concat_iff {e : Event} :
    CreatedAs (log ++ [e]) id tx ↔ CreatedAs log id tx ∨ tx.id = id ∧ e.created? = some tx := by
  constructor
  · rintro ⟨hid, e', hmem, he'⟩
    rcases List.mem_append.mp hmem with hmem | hmem
    · exact Or.inl ⟨hid, e', hmem, he'⟩
    · cases List.mem_singleton.mp hmem
      exact Or.inr ⟨hid, he'⟩
  · rintro (h | ⟨hid, he⟩)
    · exact h.mono
    · exact ⟨hid, e, List.mem_append_right _ (List.mem_singleton_self e), he⟩

theorem Event.txID_of_created? {e : Event} (h : e.created? = some tx) : e.txID = some tx.id := by
  cases e with
  | created => cases h; rfl
  | «instant» => cases h; rfl
  | _ => exact nomatch h

/-- A move of a life either creates the transaction, for the first time, or leaves
what it was created as. -/
theorem Life.Moves.origin_cases {l l' : Life} {e : Event} (h : l.Moves e l') :
    (l.phase = .absent ∧ ∃ tx, e.created? = some tx ∧ l'.origin = some tx ∧ l'.phase ≠ .absent) ∨
      e.created? = none ∧ l'.origin = l.origin ∧ (l'.phase = .absent → l.phase = .absent) := by
  cases h with
  | created hp => exact Or.inl ⟨hp, _, rfl, rfl, nofun⟩
  | «instant» hp => exact Or.inl ⟨hp, _, rfl, rfl, nofun⟩
  | passive hpas =>
      refine Or.inr ⟨?_, rfl, fun h ↦ h⟩
      cases e <;> first | rfl | exact nomatch hpas
  | removed => exact Or.inr ⟨rfl, rfl, fun h ↦ h⟩
  | _ => exact Or.inr ⟨rfl, rfl, nofun⟩

/-- The life has the origin the log tells, and that is one event. -/
structure Life.Originates (id : TxID) (l : Life) (log : List Event) : Prop where
  absent : l.phase = .absent → l.origin = none
  iff : ∀ tx, CreatedAs log id tx ↔ l.origin = some tx
  unique : ∀ e ∈ log, ∀ e' ∈ log, ∀ tx tx', e.created? = some tx → e'.created? = some tx' →
    tx.id = id → tx'.id = id → e = e'

/-- Nothing has been created before the life begins. -/
theorem Life.Originates.not_createdAs {l : Life} (h : l.Originates id log)
    (hp : l.phase = .absent) : ¬CreatedAs log id tx :=
  fun hc ↦ nomatch (h.absent hp).symm.trans ((h.iff tx).mp hc)

theorem Life.Originates.step_unique {l l' : Life} {e : Event} (h : l.Originates id log)
    (hs : (lifecycle id).step l e = some (l', es)) :
    ∀ e₁ ∈ log ++ es, ∀ e₂ ∈ log ++ es, ∀ tx tx', e₁.created? = some tx → e₂.created? = some tx' →
      tx.id = id → tx'.id = id → e₁ = e₂ := by
  obtain ⟨rfl, hcases⟩ := lifecycle_step_iff.mp hs
  -- the event creates the transaction only if nothing in the log does
  have hnew : ∀ tx, e.created? = some tx → tx.id = id → l.phase = .absent := by
    intro tx htx hid
    rcases hcases with ⟨-, hn⟩ | ⟨hne, -⟩
    · rcases (Life.Moves.of_next hn).origin_cases with ⟨habsent, -⟩ | ⟨hnone, -⟩
      · exact habsent
      · exact nomatch hnone.symm.trans htx
    · exact absurd ((Event.txID_of_created? htx).trans (congrArg some hid)) hne
  intro e₁ hmem₁ e₂ hmem₂ tx tx' h₁ h₂ hid hid'
  rcases List.mem_append.mp hmem₁ with hmem₁ | hmem₁ <;>
    rcases List.mem_append.mp hmem₂ with hmem₂ | hmem₂
  · exact h.unique e₁ hmem₁ e₂ hmem₂ tx tx' h₁ h₂ hid hid'
  · cases List.mem_singleton.mp hmem₂
    exact absurd ⟨hid, e₁, hmem₁, h₁⟩ (h.not_createdAs (hnew tx' h₂ hid'))
  · cases List.mem_singleton.mp hmem₁
    exact absurd ⟨hid', e₂, hmem₂, h₂⟩ (h.not_createdAs (hnew tx h₁ hid))
  · rw [List.mem_singleton.mp hmem₁, List.mem_singleton.mp hmem₂]

theorem Life.Originates.step {l l' : Life} {e : Event} (h : l.Originates id log)
    (hs : (lifecycle id).step l e = some (l', es)) : l'.Originates id (log ++ es) := by
  have hunique := h.step_unique hs
  obtain ⟨rfl, ⟨he, hn⟩ | ⟨he, rfl⟩⟩ := lifecycle_step_iff.mp hs
  · rcases (Life.Moves.of_next hn).origin_cases with
      ⟨habsent, tx, htx, horigin, hphase⟩ | ⟨hnone, horigin, hphase⟩
    · refine ⟨fun h ↦ absurd h hphase, fun tx' ↦ ?_, hunique⟩
      rw [createdAs_concat_iff, h.iff tx', h.absent habsent, horigin, htx]
      constructor
      · rintro (h | ⟨-, h⟩)
        · exact nomatch h
        · exact h
      · intro h
        cases h
        exact Or.inr ⟨Option.some.inj ((Event.txID_of_created? htx).symm.trans he), rfl⟩
    · refine ⟨fun hp ↦ horigin.trans (h.absent (hphase hp)), fun tx' ↦ ?_, hunique⟩
      rw [createdAs_concat_iff, h.iff tx', horigin, hnone]
      exact ⟨fun h ↦ h.resolve_right (nomatch ·.2), Or.inl⟩
  · refine ⟨h.absent, fun tx' ↦ ?_, hunique⟩
    rw [createdAs_concat_iff, h.iff tx']
    refine ⟨fun h ↦ h.resolve_right fun ⟨hid, h⟩ ↦ he ?_, Or.inl⟩
    rw [Event.txID_of_created? h, hid]

theorem Life.originates_start : Life.start.Originates id [] where
  absent _ := rfl
  iff _ := ⟨fun h ↦ absurd h not_createdAs_nil, (nomatch ·)⟩
  unique _ h := nomatch h

/-- The origin of a life is what the transaction was created as. -/
theorem lifecycle_originates {l : Life} {log' : List Event}
    (h : (lifecycle id).exec log = some (l, log')) : l.Originates id log' :=
  (lifecycle id).exec_induction (P := Life.Originates id) Life.originates_start
    (fun _ _ _ _ _ hP hs ↦ hP.step hs) h

/-- A lease is put for what the transaction was created as, if that may leave one. -/
theorem lifecycle_leasePut {l : Life} {log' : List Event} {c : Nat} {key : FullKey}
    {expiresAt : Time} (h : (lifecycle id).exec log = some (l, log'))
    (hmem : .leasePut c id key expiresAt ∈ log') :
    ∃ tx, CreatedAs log' id tx ∧ MayLease (some tx) key := by
  obtain ⟨pre, post, rfl⟩ := List.append_of_mem hmem
  have halong := (lifecycle id).exec_along (P := Life.Originates id)
    (Q := fun pre e ↦ ∀ c key expiresAt, e = .leasePut c id key expiresAt →
      ∃ tx, CreatedAs pre id tx ∧ MayLease (some tx) key)
    Life.originates_start (fun _ _ _ _ _ hP hs ↦ hP.step hs) (fun l log e l' es hP hs ↦ ?_) h
  · obtain ⟨tx, hcreated, hkey⟩ := halong pre _ post rfl c key expiresAt rfl
    exact ⟨tx, hcreated.mono, hkey⟩
  · obtain ⟨rfl, hcases⟩ := lifecycle_step_iff.mp hs
    refine along_cons_iff.mpr ⟨?_, along_nil _⟩
    rw [List.append_nil]
    rintro c key expiresAt rfl
    rcases hcases with ⟨-, hn⟩ | ⟨hne, -⟩
    · cases Life.Moves.of_next hn with
      | leasePut hp hk =>
          obtain ⟨happrover, tx, horigin, hrest⟩ := hk
          exact ⟨tx, (hP.iff tx).mpr horigin, happrover, tx, rfl, hrest⟩
      | passive hpas => exact nomatch hpas
    · exact absurd rfl hne

end Lives

/-! ## Steps -/

/-- Calls are numbered on. -/
theorem Step.calls_le {cfg : Config} {s s' : System} {a : Action} {es : List Event}
    (hs : Step cfg s a s' es) : s.calls ≤ s'.calls := by
  cases hs with
  | sign | startTimerDev | approve | waitNone | wait => exact Nat.le_succ _
  | finishApproved => dsimp only; split <;> exact Nat.le_refl _
  | _ => exact Nat.le_refl _

/-- An entry was there before the step, for the same client, or the step creates it. -/
theorem Step.entry_cases {cfg : Config} {s s' : System} {a : Action} {es : List Event}
    (hs : Step cfg s a s' es) {id : TxID} {entry : TxEntry}
    (he : AList.lookup id s'.store.txs = some entry) :
    (∃ e, AList.lookup id s.store.txs = some e ∧ e.tx.clientCertFP = entry.tx.clientCertFP) ∨
      (∃ c, a = .createBound c id) ∨ ∃ c, a = .createInstantApproved c id := by
  have hset : ∀ {id'} {e e' : TxEntry},
      AList.lookup id (s.store.txs.insert id' e') = some entry →
      AList.lookup id' s.store.txs = some e → e.tx.clientCertFP = e'.tx.clientCertFP →
        ∃ e, AList.lookup id s.store.txs = some e ∧
          e.tx.clientCertFP = entry.tx.clientCertFP := by
    intro id' e e' h he' hfp
    rcases Map.lookup_insert_eq_some_iff.mp h with ⟨rfl, rfl⟩ | ⟨-, h⟩
    · exact ⟨e, he', hfp⟩
    · exact ⟨entry, h, rfl⟩
  have hfinish : ∀ {store : Store} {id' e state state' res},
      AList.lookup id (store.finishLocked id' e state res).txs = some entry →
      store.txs = s.store.txs → s.store.unfinished id' state' = some e →
        ∃ e, AList.lookup id s.store.txs = some e ∧
          e.tx.clientCertFP = entry.tx.clientCertFP := by
    intro store id' e state state' res h htx hn
    rw [Store.lookup_finishLocked, htx] at h
    split at h
    · next heq =>
        cases h
        exact ⟨e, heq ▸ (Store.unfinished_eq_some_iff.mp hn).1, rfl⟩
    · exact ⟨entry, h, rfl⟩
  have hold : s'.store.txs = s.store.txs →
      ∃ e, AList.lookup id s.store.txs = some e ∧ e.tx.clientCertFP = entry.tx.clientCertFP :=
    fun htx ↦ ⟨entry, htx ▸ he, rfl⟩
  cases hs with
  | createInstantApproved =>
      rcases Map.lookup_insert_eq_some_iff.mp he with ⟨rfl, -⟩ | ⟨-, he⟩
      · exact Or.inr (Or.inr ⟨_, rfl⟩)
      · exact Or.inl ⟨entry, he, rfl⟩
  | createBound =>
      rcases Map.lookup_insert_eq_some_iff.mp he with ⟨rfl, -⟩ | ⟨-, he⟩
      · exact Or.inr (Or.inl ⟨_, rfl⟩)
      · exact Or.inl ⟨entry, he, rfl⟩
  | finishDenied _ hn | finishApproved _ hn | deny hn | expire _ hn =>
      exact Or.inl (hfinish he rfl hn)
  | claimApproval _ hn =>
      obtain ⟨e, hu, rfl, rfl⟩ := Store.claimApproval_eq_some_iff.mp hn
      exact Or.inl (hset he (Store.unfinished_eq_some_iff.mp hu).1 rfl)
  | wait hn =>
      obtain ⟨e, hu, ⟨_, -, -, rfl⟩ | ⟨-, -, rfl⟩⟩ := Store.waitResult_eq_some hn
      · exact Or.inl (hold rfl)
      · exact Or.inl (hset he hu rfl)
  | remove => exact Or.inl ⟨entry, (Map.lookup_erase_eq_some_iff.mp he).2, rfl⟩
  | cancelWaitKeep _ hn _ => exact Or.inl (hset he hn rfl)
  | cancelWaitDelete =>
      rw [Store.lookup_remove, Store.stopTimer_txs] at he
      split at he
      · exact nomatch he
      · exact Or.inl ⟨entry, he, rfl⟩
  | _ => exact Or.inl (hold rfl)

namespace System.Traced

variable {cfg : Config} {s s' : System} {a : Action} {log es : List Event}

theorem step_signs (h : s.Traced log) (hl : s.LeasesFrom log) (hs : Step cfg s a s' es) :
    ∀ c call, AList.lookup c s'.signs = some call → call.Traced (log ++ es) c := by
  have hold : ∀ c call, AList.lookup c s.signs = some call → call.Traced (log ++ es) c :=
    fun c call hc ↦ (h.signs c call hc).mono
  cases hs with
  | sign req allowLease =>
      have hasked : Event.asked s.calls req ∈ log ++ [.asked s.calls req] :=
        List.mem_append_right _ (List.mem_singleton_self _)
      refine Map.forall_insert hold ?_
      split <;> exact hasked
  | findActiveNone hc _ => exact Map.forall_insert hold (h.signs _ _ hc).mono
  | findActive hc hs hfind =>
      -- the lease comes from the store, where it was put under this lookup key
      obtain ⟨full, hkey, hfull, hle⟩ := (hl.indexed _ hs).findActive_eq_some hfind
      obtain ⟨c', id, hput⟩ := hl.origin _ hs full _ hfull
      refine Map.forall_insert hold ⟨(h.signs _ _ hc).mono, s.now, ?_, hle, c', id, full, ?_, hkey⟩
      · exact List.mem_append_right _ (List.mem_singleton_self _)
      · exact List.mem_append_left _ hput
  | remainingNone hc _ => exact Map.forall_insert hold (h.signs _ _ hc).mono.1
  | remaining hc _ => exact Map.forall_insert hold (h.signs _ _ hc).mono
  | startLeased hc => exact Map.forall_insert hold (h.signs _ _ hc).mono
  | issueLeasedError hc _ => exact Map.forall_insert hold (h.signs _ _ hc).mono.1
  | issueLeased hc _ => exact Map.forall_insert hold (h.signs _ _ hc).mono
  | createInstantApproved => exact Map.forall_erase hold
  | createBound => exact Map.forall_insert hold trivial
  | startTimer => exact Map.forall_erase hold
  | startTimerDev => exact Map.forall_erase hold
  | finishApproved => split <;> exact hold
  | _ => exact hold

theorem step_approves (h : s.Traced log) (hs : Step cfg s a s' es) :
    ∀ c call, AList.lookup c s'.approves = some call → ApprovedBy (log ++ es) c call.target := by
  have hold : ∀ c call, AList.lookup c s.approves = some call →
      ApprovedBy (log ++ es) c call.target := fun c call hc ↦ (h.approves c call hc).mono
  refine hs.forall_approves hold ?_ ?_
  · rintro id ttl approver - rfl
    exact ⟨ttl, List.mem_append_right _ (List.mem_singleton_self _)⟩
  · intro c call next hc hadv
    rw [hadv.target_eq]
    exact hold c call hc

/-- `finishLocked` fills the channel with the result of the decision. -/
theorem channels_finishLocked (h : s.Traced log) {store : Store} {id : TxID} {entry : TxEntry}
    {state : State} {res : Result} {owner : Option Nat}
    (hch : store.channels = s.store.channels) :
    ∀ id' buffer,
      AList.lookup id' (store.finishLocked id entry state res).channels = some buffer →
        ∀ res', buffer = some res' →
          DecidedAs (log ++ [.finished id state res owner]) id' res' := by
  rintro id' buffer hlookup res' rfl
  rw [Store.lookup_channels_finishLocked, hch] at hlookup
  split at hlookup
  · next hid =>
      cases hlookup
      rw [hid.1]
      exact Or.inl ⟨state, owner, List.mem_append_right _ (List.mem_singleton_self _)⟩
  · exact (h.channels id' _ hlookup res' rfl).mono

/-- `finishLocked` records the result of the decision. -/
theorem results_finishLocked (h : s.Traced log) {store : Store} {id : TxID} {entry : TxEntry}
    {state : State} {res : Result} {owner : Option Nat} (htx : store.txs = s.store.txs) :
    ∀ id' entry',
      AList.lookup id' (store.finishLocked id entry state res).txs = some entry' →
        ∀ res', entry'.result = some res' →
          DecidedAs (log ++ [.finished id state res owner]) id' res' := by
  intro id' entry' hlookup res' hres
  rw [Store.lookup_finishLocked, htx] at hlookup
  split at hlookup
  · next hid =>
      cases hlookup
      cases hres
      rw [hid]
      exact Or.inl ⟨state, owner, List.mem_append_right _ (List.mem_singleton_self _)⟩
  · exact (h.results id' entry' hlookup res' hres).mono

theorem step_channels (h : s.Traced log) (hs : Step cfg s a s' es) :
    ∀ id buffer, AList.lookup id s'.store.channels = some buffer →
      ∀ res, buffer = some res → DecidedAs (log ++ es) id res := by
  have hold : ∀ id buffer, AList.lookup id s.store.channels = some buffer →
      ∀ res, buffer = some res → DecidedAs (log ++ es) id res :=
    fun id buffer hc res hres ↦ (h.channels id buffer hc res hres).mono
  cases hs with
  | createInstantApproved =>
      refine Map.forall_insert hold fun res hres ↦ ?_
      cases hres
      exact Or.inr ⟨_, _, _, _, List.mem_append_right _ (List.mem_singleton_self _), rfl⟩
  | createBound => exact Map.forall_insert hold nofun
  | finishDenied | finishApproved | deny | expire => exact h.channels_finishLocked rfl
  | claimApproval _ hn =>
      obtain ⟨_, -, -, rfl⟩ := Store.claimApproval_eq_some_iff.mp hn
      exact hold
  | wait hn =>
      obtain ⟨_, -, ⟨_, -, -, rfl⟩ | ⟨-, -, rfl⟩⟩ := Store.waitResult_eq_some hn
      · exact hold
      · exact hold
  | receiveShared => exact Map.forall_insert hold nofun
  | cancelWaitDelete =>
      intro id buffer hc
      exact hold id buffer
        ((congrArg (AList.lookup id) (Store.stopTimer_channels _ _)).symm.trans hc)
  | _ => exact hold

theorem step_results (h : s.Traced log) (hs : Step cfg s a s' es) :
    ∀ id entry, AList.lookup id s'.store.txs = some entry →
      ∀ res, entry.result = some res → DecidedAs (log ++ es) id res := by
  have hold : ∀ id entry, AList.lookup id s.store.txs = some entry →
      ∀ res, entry.result = some res → DecidedAs (log ++ es) id res :=
    fun id entry he res hres ↦ (h.results id entry he res hres).mono
  cases hs with
  | createInstantApproved =>
      refine Map.forall_insert hold fun res hres ↦ ?_
      cases hres
      exact Or.inr ⟨_, _, _, _, List.mem_append_right _ (List.mem_singleton_self _), rfl⟩
  | createBound => exact Map.forall_insert hold nofun
  | finishDenied | finishApproved | deny | expire => exact h.results_finishLocked rfl
  | claimApproval _ hn =>
      obtain ⟨e, he, rfl, rfl⟩ := Store.claimApproval_eq_some_iff.mp hn
      exact Map.forall_insert hold (hold _ e (Store.unfinished_eq_some_iff.mp he).1)
  | wait hn =>
      obtain ⟨e, he, ⟨_, -, -, rfl⟩ | ⟨-, -, rfl⟩⟩ := Store.waitResult_eq_some hn
      · exact hold
      · exact Map.forall_insert hold (hold _ e he)
  | remove => exact Map.forall_erase hold
  | @cancelWaitKeep _ id entry _ hn _ => exact Map.forall_insert hold (hold id entry hn)
  | cancelWaitDelete =>
      intro id entry he
      rw [Store.lookup_remove, Store.stopTimer_txs] at he
      split at he
      · exact nomatch he
      · exact hold id entry he
  | _ => exact hold

theorem step_waits (h : s.Traced log) (hs : Step cfg s a s' es) :
    ∀ c call, AList.lookup c s'.waits = some call → call.Traced (log ++ es) c := by
  have hold : ∀ c call, AList.lookup c s.waits = some call → call.Traced (log ++ es) c :=
    fun c call hc ↦ (h.waits c call hc).mono
  cases hs with
  | wait hn =>
      refine Map.forall_insert hold
        ⟨List.mem_append_right _ (List.mem_singleton_self _), fun res hslot ↦ ?_⟩
      obtain ⟨entry, he, ⟨res', hres, hslot', -⟩ | ⟨-, hslot', -⟩⟩ := Store.waitResult_eq_some hn
      · cases hslot'.symm.trans hslot
        exact (h.results _ entry he res hres).mono
      · exact nomatch hslot'.symm.trans hslot
  | receiveOwn hc =>
      obtain ⟨hreg, hdec⟩ := hold _ _ hc
      exact Map.forall_insert hold ⟨⟨_, hreg⟩, hdec _ rfl⟩
  | receiveShared hc hch =>
      obtain ⟨hreg, -⟩ := hold _ _ hc
      exact Map.forall_insert hold ⟨⟨_, hreg⟩, (h.channels _ _ hch _ rfl).mono⟩
  | remove => exact Map.forall_erase hold
  | ctxDone => exact Map.forall_insert hold trivial
  | cancelWaitNone => exact Map.forall_erase hold
  | cancelWaitKeep => exact Map.forall_erase hold
  | cancelWaitDelete => exact Map.forall_erase hold
  | finishApproved => split <;> exact hold
  | _ => exact hold

theorem step_events (h : s.Traced log) (hs : Step cfg s a s' es) :
    ∀ e ∈ es, e.Traced (log ++ es) := by
  have hsingle : ∀ {e : Event}, es = [e] → e.Traced (log ++ es) →
      ∀ e ∈ es, e.Traced (log ++ es) := by
    rintro e rfl he e' hmem
    cases List.mem_singleton.mp hmem
    exact he
  cases hs with
  | createInstantApproved hc _ =>
      obtain ⟨hasked, hfound⟩ := h.signs _ _ hc
      exact hsingle rfl ⟨List.mem_append_left _ hasked, rfl, hfound.mono⟩
  | createBound hc _ =>
      exact hsingle rfl ⟨_, List.mem_append_left _ (h.signs _ _ hc), rfl⟩
  | finishDenied => exact hsingle rfl nofun
  | finishApproved hc _ =>
      exact hsingle rfl fun _ ↦ ⟨rfl, _, _, rfl, (h.approves _ _ hc).mono⟩
  | putLease hc => exact hsingle rfl (h.approves _ _ hc).mono
  | deny => exact hsingle rfl nofun
  | expire => exact hsingle rfl nofun
  | remove hc =>
      obtain ⟨⟨slot, hslot⟩, hdec⟩ := h.waits _ _ hc
      intro e hmem
      rcases List.mem_cons.mp hmem with rfl | hmem
      · exact trivial
      · cases List.mem_singleton.mp hmem
        exact ⟨⟨slot, List.mem_append_left _ hslot⟩, hdec.mono⟩
  | cancelWaitDelete =>
      intro e hmem
      rcases List.mem_cons.mp hmem with rfl | hmem
      · exact trivial
      · cases List.mem_singleton.mp hmem
        exact trivial
  | _ => first | exact hsingle rfl trivial | exact List.forall_mem_nil _

/-- **Step.** -/
theorem step (h : s.Traced log) (hl : s.LeasesFrom log) (hs : Step cfg s a s' es) :
    s'.Traced (log ++ es) where
  signs := h.step_signs hl hs
  approves := h.step_approves hs
  channels := h.step_channels hs
  results := h.step_results hs
  waits := h.step_waits hs
  events e hmem := by
    rcases List.mem_append.mp hmem with hmem | hmem
    · exact (h.events e hmem).mono
    · exact h.step_events hs e hmem

end System.Traced

section Runs

variable {cfg : Config} {now : Time} {withLeases : Bool} {as : List Action} {s : System}
  {log : List Event}

/-- **Run.**  In every run, everything has come about. -/
theorem exec_traced (hrun : (machine cfg now withLeases).exec as = some (s, log)) :
    s.Traced log := by
  refine (machine cfg now withLeases).exec_run_induction (P := fun _ s log ↦ s.Traced log) ?_
    (fun as a s log s' es hrun h hs ↦ h.step (exec_leasesFrom hrun) (.of_step hs)) hrun
  exact
    { signs := fun c _ h ↦ nomatch (AList.lookup_empty c).symm.trans h
      approves := fun c _ h ↦ nomatch (AList.lookup_empty c).symm.trans h
      channels := fun id _ h ↦ nomatch (AList.lookup_empty id).symm.trans h
      results := fun id _ h ↦ nomatch (AList.lookup_empty id).symm.trans h
      waits := fun c _ h ↦ nomatch (AList.lookup_empty c).symm.trans h
      events := fun _ h ↦ nomatch h }

/-- Approval calls are numbered as they come. -/
theorem exec_approves_lt (hrun : (machine cfg now withLeases).exec as = some (s, log)) :
    ∀ c call, AList.lookup c s.approves = some call → c < s.calls := by
  refine (machine cfg now withLeases).exec_induction
    (P := fun s _ ↦ ∀ c call, AList.lookup c s.approves = some call → c < s.calls)
    (fun c _ h ↦ nomatch (AList.lookup_empty c).symm.trans h) (fun s log a s' es h hs ↦ ?_) hrun
  have hstep : Step cfg s a s' es := .of_step hs
  have hold : ∀ c call, AList.lookup c s.approves = some call → c < s'.calls :=
    fun c call hc ↦ Nat.lt_of_lt_of_le (h c call hc) hstep.calls_le
  refine hstep.forall_approves hold ?_ fun c call _ hc _ ↦ hold c call hc
  intro id ttl approver hcalls _
  exact hcalls ▸ Nat.lt_succ_self _

/-- An entry is that of what the transaction was created as. -/
theorem exec_createdAs_of_entry (hrun : (machine cfg now withLeases).exec as = some (s, log))
    {id : TxID} {entry : TxEntry} (he : AList.lookup id s.store.txs = some entry) :
    ∃ tx, CreatedAs log id tx ∧ entry.tx = { tx with state := entry.tx.state } := by
  obtain ⟨l, hl, href⟩ := (exec_refines hrun).2 id
  obtain ⟨tx, horigin, heq⟩ := (href.entry entry he).origin
  exact ⟨tx, ((lifecycle_originates hl).iff tx).mpr horigin, heq⟩

/-- An approval issues for what the transaction was created as. -/
theorem exec_createdAs_of_issuing (hrun : (machine cfg now withLeases).exec as = some (s, log))
    {c : Nat} {id : TxID} {tx : Transaction} {validUntil : Time} {approver : GoString}
    (hc : AList.lookup c s.approves = some (.issuing id tx validUntil approver)) :
    ∃ tx', CreatedAs log id tx' ∧ tx = { tx' with state := tx.state } := by
  obtain ⟨l, hl, href⟩ := (exec_refines hrun).2 id
  obtain ⟨-, tx', horigin, heq⟩ := href.calls c _ hc rfl
  exact ⟨tx', ((lifecycle_originates hl).iff tx').mpr horigin, heq⟩

/-- What a transaction was created as is one thing. -/
theorem exec_createdAs_unique (hrun : (machine cfg now withLeases).exec as = some (s, log))
    {id : TxID} {tx tx' : Transaction} (h : CreatedAs log id tx) (h' : CreatedAs log id tx') :
    tx = tx' := by
  obtain ⟨l, hl, -⟩ := (exec_refines hrun).2 id
  have horigin := (lifecycle_originates hl).iff
  exact Option.some.inj (((horigin tx).mp h).symm.trans ((horigin tx').mp h'))

/-- A transaction is created once. -/
theorem exec_created_unique (hrun : (machine cfg now withLeases).exec as = some (s, log))
    {e e' : Event} {tx tx' : Transaction} (he : e ∈ log) (he' : e' ∈ log)
    (h : e.created? = some tx) (h' : e'.created? = some tx') (hid : tx.id = tx'.id) : e = e' := by
  obtain ⟨l, hl, -⟩ := (exec_refines hrun).2 tx'.id
  exact (lifecycle_originates hl).unique e he e' he' tx tx' h h' hid rfl

/-- A lease is put by a call that has committed the approval of a transaction which
may leave it. -/
theorem exec_leasePut_origin (hrun : (machine cfg now withLeases).exec as = some (s, log))
    {c : Nat} {id : TxID} {key : FullKey} {expiresAt : Time}
    (hmem : .leasePut c id key expiresAt ∈ log) :
    (∃ res, .finished id .approved res (some c) ∈ log) ∧
      ∃ tx, CreatedAs log id tx ∧ MayLease (some tx) key := by
  obtain ⟨l, hl, -⟩ := (exec_refines hrun).2 id
  refine ⟨?_, lifecycle_leasePut hl hmem⟩
  obtain ⟨pre, post, rfl⟩ := List.append_of_mem hmem
  obtain ⟨res, hfin, -⟩ := (lifecycle_along hl pre _ post rfl).2 c key expiresAt rfl
  exact ⟨res, List.mem_append_left _ hfin⟩

end Runs

end LunaZTrust.Approval
