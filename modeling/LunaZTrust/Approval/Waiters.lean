import LunaZTrust.Approval.Refinement

/-!
# Waiters and the result channel

All waiters that come before the decision share one channel with room for one
result; a waiter that comes later gets a channel of its own.  So the result is
there for one of the early waiters only.  `ready_iff` says exactly when nobody is
left waiting for a result that has been taken: a result may be received from the
shared channel only by a waiter that has it for itself.
-/

namespace LunaZTrust.Approval

open LunaZTrust.Go LunaZTrust.Lease LunaZTrust.Transition

/-! ## Decided transactions -/

/-- The transaction reaches a terminal result. -/
def Event.decides (id : TxID) : Event → Bool
  | .finished id' _ _ _ => id' == id
  | .instant _ _ _ tx _ => tx.id == id
  | _ => false

/-- The transaction has reached a terminal result. -/
def Decided (log : List Event) (id : TxID) : Prop := ∃ e ∈ log, e.decides id = true

theorem decided_append {log es : List Event} {id : TxID} :
    Decided (log ++ es) id ↔ Decided log id ∨ Decided es id := by
  constructor
  · rintro ⟨e, hmem, he⟩
    rcases List.mem_append.mp hmem with hmem | hmem
    · exact Or.inl ⟨e, hmem, he⟩
    · exact Or.inr ⟨e, hmem, he⟩
  · rintro (⟨e, hmem, he⟩ | ⟨e, hmem, he⟩)
    · exact ⟨e, List.mem_append_left _ hmem, he⟩
    · exact ⟨e, List.mem_append_right _ hmem, he⟩

theorem decided_singleton {e : Event} {id : TxID} : Decided [e] id ↔ e.decides id = true := by
  constructor
  · rintro ⟨e', hmem, he⟩
    cases List.mem_singleton.mp hmem
    exact he
  · exact fun he ↦ ⟨e, List.mem_singleton_self e, he⟩

theorem not_decided_nil {id : TxID} : ¬Decided [] id := fun ⟨_, h, _⟩ ↦ nomatch h

/-- A move of a life decides the transaction if its event does. -/
theorem Life.Moves.result_isSome_iff {l l' : Life} {e : Event} {id : TxID}
    (he : e.txID = some id) (hm : l.Moves e l') :
    l'.phase.result.isSome = true ↔ l.phase.result.isSome = true ∨ e.decides id = true := by
  cases hm with
  | created hp => rw [hp]; simp [Phase.result, Event.decides]
  | «instant» hp =>
      cases he
      exact ⟨fun _ ↦ Or.inr (beq_self_eq_true _), fun _ ↦ rfl⟩
  | claimed hp => rw [hp]; simp [Phase.result, Event.decides]
  | issueStarted hp => rw [hp]; simp [Phase.result, Event.decides]
  | refused =>
      cases he
      exact ⟨fun _ ↦ Or.inr (beq_self_eq_true _), fun _ ↦ rfl⟩
  | committed =>
      cases he
      exact ⟨fun _ ↦ Or.inr (beq_self_eq_true _), fun _ ↦ rfl⟩
  | leasePut hp => rw [hp]; simp [Phase.result]
  | removed => exact ⟨Or.inl, fun h ↦ h.resolve_right Bool.false_ne_true⟩
  | passive hpas =>
      have hnone : e.decides id = false := by
        cases e <;> first | rfl | exact nomatch hpas
      rw [hnone]
      exact ⟨Or.inl, fun h ↦ h.resolve_right Bool.false_ne_true⟩

theorem Event.decides_of_ne {id : TxID} {e : Event} (h : e.txID ≠ some id) :
    e.decides id = false := by
  cases e with
  | finished id' => exact beq_false_of_ne fun heq ↦ h (congrArg some heq)
  | «instant» _ _ _ tx => exact beq_false_of_ne fun heq ↦ h (congrArg some heq)
  | _ => rfl

/-- A life has a result exactly if its transaction has been decided. -/
theorem lifecycle_result_isSome_iff {id : TxID} {l : Life} {log log' : List Event}
    (h : (lifecycle id).exec log = some (l, log')) :
    l.phase.result.isSome = true ↔ Decided log' id := by
  refine (lifecycle id).exec_induction
    (P := fun l log ↦ l.phase.result.isSome = true ↔ Decided log id) ?_
    (fun l log e l' es hP hs ↦ ?_) h
  · exact ⟨(nomatch ·), fun h ↦ absurd h not_decided_nil⟩
  · obtain ⟨rfl, ⟨he, hn⟩ | ⟨he, rfl⟩⟩ := lifecycle_step_iff.mp hs
    · rw [decided_append, decided_singleton, ← hP]
      exact (Life.Moves.of_next hn).result_isSome_iff he
    · rw [decided_append, decided_singleton, Event.decides_of_ne he, ← hP]
      exact ⟨Or.inl, fun h ↦ h.resolve_right Bool.false_ne_true⟩

/-- An entry without a result is one of an undecided transaction. -/
theorem not_decided_of_entry {cfg : Config} {now : Time} {withLeases : Bool} {as : List Action}
    {s : System} {log : List Event}
    (hrun : (machine cfg now withLeases).exec as = some (s, log)) {id : TxID} {entry : TxEntry}
    (he : AList.lookup id s.store.txs = some entry) (hres : entry.result = none) :
    ¬Decided log id := by
  obtain ⟨l, hl, href⟩ := (exec_refines hrun).2 id
  rw [← lifecycle_result_isSome_iff hl, ← (href.entry entry he).result_eq, hres]
  exact Bool.false_ne_true

/-! ## What a step does to a channel and to the waiters -/

/-- What a step can do to the channel of a transaction. -/
inductive ChannelStep (s : System) (a : Action) (s' : System) (es : List Event) (id : TxID) : Prop
  | same (hch : AList.lookup id s'.store.channels = AList.lookup id s.store.channels)
      (hes : ¬Decided es id)
  | made (hnone : AList.lookup id s.store.channels = none)
      (hch : AList.lookup id s'.store.channels = some none) (hes : ¬Decided es id)
  | filled {res : Result} (hch : AList.lookup id s'.store.channels = some (some res))
      (hes : Decided es id)
  | taken {c : Nat} {res : Result} (ha : a = .receive c)
      (hc : AList.lookup c s.waits = some (.waiting id .shared))
      (hfull : AList.lookup id s.store.channels = some (some res))
      (hch : AList.lookup id s'.store.channels = some none)
      (hw : s'.waits = s.waits.insert c (.received id res)) (hes : ¬Decided es id)

/-- Before the decision, nothing is in the channel. -/
def System.Undelivered (s : System) (log : List Event) : Prop :=
  ∀ id, ¬Decided log id → ∀ buffer, AList.lookup id s.store.channels = some buffer → buffer = none

/-- `finishLocked` fills an empty channel. -/
theorem ChannelStep.of_finishLocked {s s' : System} {a : Action} {id id' : TxID} {store : Store}
    {entry : TxEntry} {state : State} {res : Result} {owner : Option Nat}
    (hs : s'.store = store.finishLocked id' entry state res)
    (hch : store.channels = s.store.channels)
    (hempty : AList.lookup id' s.store.channels = some none) :
    ChannelStep s a s' [.finished id' state res owner] id := by
  by_cases heq : id = id'
  · subst heq
    have hfull : AList.lookup id s'.store.channels = some (some res) := by
      rw [hs, Store.lookup_channels_finishLocked, hch, if_pos ⟨rfl, hempty⟩]
    exact .filled hfull (decided_singleton.mpr (beq_self_eq_true id))
  · refine .same ?_ fun h ↦ heq (eq_of_beq (decided_singleton.mp h)).symm
    rw [hs, Store.lookup_channels_finishLocked, hch, if_neg fun h ↦ heq h.1]

/-- What every step of a run does to the channel of a transaction. -/
theorem channelStep_of_step {cfg : Config} {now : Time} {withLeases : Bool} {as : List Action}
    {s s' : System} {a : Action} {log es : List Event}
    (hrun : (machine cfg now withLeases).exec as = some (s, log)) (hund : s.Undelivered log)
    (hs : Step cfg s a s' es) (id : TxID) : ChannelStep s a s' es id := by
  -- the channel of an unfinished entry is there and empty
  have hempty : ∀ {id state entry}, s.store.unfinished id state = some entry →
      AList.lookup id s.store.channels = some none := by
    intro id state entry hn
    obtain ⟨he, hres, -⟩ := Store.unfinished_eq_some_iff.mp hn
    obtain ⟨l, -, href⟩ := (exec_refines hrun).2 id
    cases hch : AList.lookup id s.store.channels with
    | none => exact absurd (href.channel.mp hch) (href.entry entry he).created
    | some buffer => rw [hund id (not_decided_of_entry hrun he hres) buffer hch]
  cases hs with
  | @createInstantApproved c id' req lease res hc hid =>
      by_cases heq : id = id'
      · subst heq
        exact .filled ((Map.lookup_insert_eq _ _ _ _).trans (if_pos rfl))
          (decided_singleton.mpr (beq_self_eq_true id))
      · exact .same ((Map.lookup_insert_eq _ _ _ _).trans (if_neg heq))
          fun h ↦ heq (eq_of_beq (decided_singleton.mp h)).symm
  | @createBound c id' req hc hid =>
      have hes : ¬Decided [Event.created c (req.pending id' s.now)] id :=
        fun h ↦ nomatch decided_singleton.mp h
      by_cases heq : id = id'
      · subst heq
        exact .made hid ((Map.lookup_insert_eq _ _ _ _).trans (if_pos rfl)) hes
      · exact .same ((Map.lookup_insert_eq _ _ _ _).trans (if_neg heq)) hes
  | finishDenied hc hn | finishApproved hc hn | deny hn | expire ht hn =>
      exact .of_finishLocked rfl rfl (hempty hn)
  | @wait id' slot store hn =>
      refine .same ?_ fun h ↦ nomatch decided_singleton.mp h
      obtain ⟨entry, he, ⟨res, hres, rfl, rfl⟩ | ⟨hres, rfl, rfl⟩⟩ := Store.waitResult_eq_some hn
      · rfl
      · rfl
  | @claimApproval c id' ttl approver entry store hc hn =>
      obtain ⟨e, he, rfl, rfl⟩ := Store.claimApproval_eq_some_iff.mp hn
      exact .same rfl fun h ↦ nomatch decided_singleton.mp h
  | @receiveShared c id' res hc hch =>
      have hes : ¬Decided [Event.received c id' .shared res] id :=
        fun h ↦ nomatch decided_singleton.mp h
      by_cases heq : id = id'
      · subst heq
        exact .taken rfl hc hch ((Map.lookup_insert_eq _ _ _ _).trans (if_pos rfl)) rfl hes
      · exact .same ((Map.lookup_insert_eq _ _ _ _).trans (if_neg heq)) hes
  | @remove c id' res hc =>
      refine .same rfl fun ⟨e, hmem, he⟩ ↦ ?_
      rcases List.mem_cons.mp hmem with rfl | hmem
      · exact nomatch he
      · cases List.mem_singleton.mp hmem
        exact nomatch he
  | @cancelWaitDelete c id' entry hc hn hw =>
      refine .same (congrArg (AList.lookup id) (Store.stopTimer_channels s.store id'))
        fun ⟨e, hmem, he⟩ ↦ ?_
      rcases List.mem_cons.mp hmem with rfl | hmem
      · exact nomatch he
      · cases List.mem_singleton.mp hmem
        exact nomatch he
  | tick | findActiveNone | remainingNone | remaining | startLeased | issueLeasedError
  | issueLeased | startTimer | claimApprovalNone | issue | finishClaimedNone | denyNone | fire
  | expireNone | ctxDone => exact .same rfl not_decided_nil
  | _ => exact .same rfl fun h ↦ nomatch decided_singleton.mp h

/-- A waiter in the select statement was there before, or has just come. -/
theorem Step.waiting_cases {cfg : Config} {s s' : System} {a : Action} {es : List Event}
    (hs : Step cfg s a s' es) {c : Nat} {id : TxID} {slot : WaitSlot}
    (hc : AList.lookup c s'.waits = some (.waiting id slot)) :
    AList.lookup c s.waits = some (.waiting id slot) ∨
      (c = s.calls ∧ es = [.registered c id slot] ∧
        ∃ store, s.store.waitResult id = some (slot, store)) := by
  cases hs with
  | wait hn =>
      rcases Map.lookup_insert_eq_some_iff.mp hc with ⟨rfl, heq⟩ | ⟨-, hc⟩
      · cases heq
        exact Or.inr ⟨rfl, rfl, _, hn⟩
      · exact Or.inl hc
  | receiveOwn =>
      rcases Map.lookup_insert_eq_some_iff.mp hc with ⟨-, heq⟩ | ⟨-, hc⟩
      · exact nomatch heq
      · exact Or.inl hc
  | receiveShared =>
      rcases Map.lookup_insert_eq_some_iff.mp hc with ⟨-, heq⟩ | ⟨-, hc⟩
      · exact nomatch heq
      · exact Or.inl hc
  | ctxDone =>
      rcases Map.lookup_insert_eq_some_iff.mp hc with ⟨-, heq⟩ | ⟨-, hc⟩
      · exact nomatch heq
      · exact Or.inl hc
  | remove | cancelWaitNone | cancelWaitKeep | cancelWaitDelete =>
      exact Or.inl (Map.lookup_erase_eq_some_iff.mp hc).2
  | finishApproved =>
      split at hc <;> exact Or.inl hc
  | _ => exact Or.inl hc

/-! ## Starved waiters -/

section Runs

variable {cfg : Config} {now : Time} {withLeases : Bool} {as : List Action} {s : System}
  {log : List Event}

theorem exec_undelivered (hrun : (machine cfg now withLeases).exec as = some (s, log)) :
    s.Undelivered log := by
  refine (machine cfg now withLeases).exec_run_induction (P := fun _ s log ↦ s.Undelivered log)
    (fun id _ buffer h ↦ nomatch (AList.lookup_empty id).symm.trans h)
    (fun as a s log s' es hrun hund hs ↦ ?_) hrun
  intro id hnot buffer hch
  rw [decided_append, not_or] at hnot
  cases channelStep_of_step hrun hund (Step.of_step hs) id with
  | same hsame => exact hund id hnot.1 buffer (hsame.symm.trans hch)
  | made _ hmade =>
      cases hmade.symm.trans hch
      rfl
  | filled _ hes => exact absurd hes hnot.2
  | taken _ _ _ htaken =>
      cases htaken.symm.trans hch
      rfl

/-- Every waiter for a decided transaction can receive. -/
def Ready (cfg : Config) (s : System) (log : List Event) : Prop :=
  ∀ c id slot, AList.lookup c s.waits = some (.waiting id slot) → Decided log id →
    (step cfg s (.receive c)).isSome = true

theorem receive_isSome_of_ownResult {c : Nat} {id : TxID} {res : Result}
    (hc : AList.lookup c s.waits = some (.waiting id (.ownResult res))) :
    (step cfg s (.receive c)).isSome = true := by
  simp only [step, hc, Option.isSome_some]

theorem receive_isSome_iff {c : Nat} {id : TxID}
    (hc : AList.lookup c s.waits = some (.waiting id .shared)) :
    (step cfg s (.receive c)).isSome = true ↔
      ∃ res, AList.lookup id s.store.channels = some (some res) := by
  simp only [step, hc]
  split
  · next res hch => exact ⟨fun _ ↦ ⟨res, hch⟩, fun _ ↦ rfl⟩
  · next hch =>
      constructor
      · intro h
        cases h
      · rintro ⟨res, h⟩
        exact absurd h (hch res)

/-- The channel of a decided transaction that somebody waits on is full. -/
def System.Delivered (s : System) (log : List Event) : Prop :=
  ∀ c id, AList.lookup c s.waits = some (.waiting id .shared) → Decided log id →
    ∃ res, AList.lookup id s.store.channels = some (some res)

theorem ready_iff_delivered : Ready cfg s log ↔ s.Delivered log := by
  constructor
  · intro h c id hc hd
    exact (receive_isSome_iff hc).mp (h c id .shared hc hd)
  · intro h c id slot hc hd
    cases slot with
    | shared => exact (receive_isSome_iff hc).mpr (h c id hc hd)
    | ownResult res => exact receive_isSome_of_ownResult hc

/-- **Step.**  The channels stay full, unless a waiter takes a result that another
one waits for. -/
theorem System.Delivered.step {s' : System} {a : Action} {es : List Event}
    (hrun : (machine cfg now withLeases).exec as = some (s, log)) (h : s.Delivered log)
    (hs : Step cfg s a s' es)
    (halone : ∀ c id, a = .receive c → AList.lookup c s.waits = some (.waiting id .shared) →
      ∀ c', AList.lookup c' s.waits = some (.waiting id .shared) → c' = c) :
    s'.Delivered (log ++ es) := by
  intro c id hc hd
  rw [decided_append] at hd
  rcases hs.waiting_cases hc with hold | ⟨rfl, rfl, store, hwait⟩
  · cases channelStep_of_step hrun (exec_undelivered hrun) hs id with
    | same hsame hes =>
        rw [hsame]
        exact h c id hold (hd.resolve_right hes)
    | made hnone _ hes =>
        obtain ⟨res, hfull⟩ := h c id hold (hd.resolve_right hes)
        exact nomatch hnone.symm.trans hfull
    | filled hfull _ => exact ⟨_, hfull⟩
    | taken ha hc' _ _ hw _ =>
        -- the waiter that took the result is not waiting any more
        obtain rfl := halone _ id ha hc' c hold
        rw [hw, AList.lookup_insert] at hc
        exact nomatch hc
  · -- a waiter that comes after the decision does not share the channel
    obtain ⟨entry, he, ⟨res, _, hslot, _⟩ | ⟨hres, -⟩⟩ := Store.waitResult_eq_some hwait
    · exact nomatch hslot
    · rcases hd with hd | hd
      · exact absurd hd (not_decided_of_entry hrun he hres)
      · exact nomatch decided_singleton.mp hd

/-- **When no waiter is starved.**  In a run, every waiter for a decided
transaction can receive at every point, exactly if every result received from a
shared channel is received by a waiter that is the only one on it. -/
theorem ready_iff (hrun : (machine cfg now withLeases).exec as = some (s, log)) :
    (∀ as₁ as₂ s₁ log₁, as = as₁ ++ as₂ →
      (machine cfg now withLeases).exec as₁ = some (s₁, log₁) → Ready cfg s₁ log₁) ↔
    ∀ as₁ c as₂ s₁ log₁ id, as = as₁ ++ .receive c :: as₂ →
      (machine cfg now withLeases).exec as₁ = some (s₁, log₁) →
        AList.lookup c s₁.waits = some (.waiting id .shared) →
          ∀ c', AList.lookup c' s₁.waits = some (.waiting id .shared) → c' = c := by
  constructor
  · rintro hready as₁ c as₂ s₁ log₁ id rfl hrun₁ hc c' hc'
    by_contra hne
    obtain ⟨s₂, es, hstep, hrun₂⟩ :=
      (machine cfg now withLeases).step_of_exec_append_cons hrun hrun₁
    have hdel := ready_iff_delivered.mp (hready (as₁ ++ [.receive c]) as₂ s₂ _
      (by rw [List.append_assoc, List.singleton_append]) hrun₂)
    have hreceive : Step cfg s₁ (.receive c) s₂ es := .of_step hstep
    cases hreceive with
    | receiveOwn hown => exact nomatch hc.symm.trans hown
    | @receiveShared _ id' res hc₀ hch =>
        obtain ⟨⟩ := hc.symm.trans hc₀
        have hdecided : Decided log₁ id := by
          by_contra hnot
          exact nomatch exec_undelivered hrun₁ id hnot _ hch
        have hc₂ : AList.lookup c' (s₁.waits.insert c (.received id res)) =
            some (.waiting id .shared) := by
          rw [AList.lookup_insert_ne hne]
          exact hc'
        obtain ⟨res', hfull⟩ := hdel c' id hc₂ (decided_append.mpr (Or.inl hdecided))
        have hempty : AList.lookup id (s₁.store.channels.insert id none) = some none :=
          AList.lookup_insert _
        exact nomatch hempty.symm.trans hfull
  · intro halone as₁ as₂ s₁ log₁ heq hrun₁
    rw [ready_iff_delivered]
    refine (machine cfg now withLeases).exec_run_induction
      (P := fun as₁ s log ↦ ∀ as₂, as = as₁ ++ as₂ → s.Delivered log) ?_ ?_ hrun₁ as₂ heq
    · exact fun _ _ c id hc _ ↦ nomatch (AList.lookup_empty c).symm.trans hc
    · intro as₁ a s₁ log₁ s₂ es hrun₁ ih hs as₂ heq
      rw [List.append_assoc, List.singleton_append] at heq
      refine (ih (a :: as₂) heq).step hrun₁ (.of_step hs) ?_
      rintro c id rfl hc
      exact halone as₁ c as₂ s₁ log₁ id heq hrun₁ hc

end Runs

/-- Two waiters, one approval: one of them receives. -/
def twoWaiters : List Action :=
  createDeploy ++ [.wait deployTx, .wait deployTx] ++ approveDeploy 3 ++ [.receive 1]

/-- The other one is left waiting for a decided transaction. -/
theorem second_waiter_starved :
    ∃ s log, (machine plainConfig 0 true).exec twoWaiters = some (s, log) ∧
      AList.lookup 2 s.waits = some (.waiting deployTx .shared) ∧ Decided log deployTx ∧
      (step plainConfig s (.receive 2)).isSome = false :=
  ⟨_, _, rfl, by decide, ⟨.finished deployTx .approved
    { cert := str "deploy", expiresAt := 5 * Time.minute, leaseExpiresAt := 5 * Time.minute }
    (some 3), by decide, by decide⟩, by decide⟩

/-- One waiter alone is not. -/
theorem ready_iff_one_waiter :
    ∃ s log, (machine plainConfig 0 true).exec
        (createDeploy ++ [.wait deployTx] ++ approveDeploy 2 ++ [.receive 1]) = some (s, log) ∧
      ((∀ as₁ as₂ s₁ log₁,
          createDeploy ++ [.wait deployTx] ++ approveDeploy 2 ++ [.receive 1] = as₁ ++ as₂ →
          (machine plainConfig 0 true).exec as₁ = some (s₁, log₁) → Ready plainConfig s₁ log₁) ↔
        ∀ as₁ c as₂ s₁ log₁ id,
          createDeploy ++ [.wait deployTx] ++ approveDeploy 2 ++ [.receive 1] =
            as₁ ++ .receive c :: as₂ →
          (machine plainConfig 0 true).exec as₁ = some (s₁, log₁) →
            AList.lookup c s₁.waits = some (.waiting id .shared) →
              ∀ c', AList.lookup c' s₁.waits = some (.waiting id .shared) → c' = c) :=
  ⟨_, _, rfl, ready_iff rfl⟩

end LunaZTrust.Approval
