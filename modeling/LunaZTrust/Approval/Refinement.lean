import LunaZTrust.Approval.Calls
import LunaZTrust.Approval.Lifecycle

/-!
# The store refines the lives of its transactions

Whatever runs concurrently, the events about a transaction are a life of it in
the sense of `LunaZTrust.Approval.Lifecycle`, its entry shows the phase of that
life, and an approval that has got past `claimApproval` is the one that has the
transaction in hand.
-/

namespace LunaZTrust.Approval

open LunaZTrust.Go LunaZTrust.Lease LunaZTrust.Transition

/-! ## The refinement relation -/

/-- The data of a transaction are those it was created with. -/
def Transaction.From (tx : Transaction) (l : Life) : Prop :=
  ∃ o, l.origin = some o ∧ tx = { o with state := tx.state }

/-- The entry shows the life. -/
structure TxEntry.Fits (entry : TxEntry) (l : Life) : Prop where
  present : l.present = true
  created : l.phase ≠ .absent
  state_eq : entry.tx.state = l.phase.state
  result_eq : entry.result = l.phase.result
  origin : entry.tx.From l

/-- An approval past `claimApproval` has its transaction in hand. -/
def ApproveCall.Fits (c : Nat) (id : TxID) (l : Life) : ApproveCall → Prop
  | .claiming _ _ _ => True
  | .claimed id' tx _ _ => id' = id → l.phase = .claimed c ∧ tx.From l
  | .issuing id' tx validUntil _ => id' = id → l.phase = .issuing c validUntil ∧ tx.From l
  | .issued id' tx validUntil _ _ => id' = id → l.phase = .issuing c validUntil ∧ tx.From l
  | .putting id' tx validUntil approver => id' = id →
      (∃ res, l.phase = .decided .approved res (some c) ∧ res.leaseExpiresAt = validUntil) ∧
        tx.From l ∧ approver ≠ [] ∧ tx.clientCertFP ≠ [] ∧ tx.disableLease = false

/-- The system shows the life of a transaction. -/
structure System.Refines (s : System) (id : TxID) (l : Life) : Prop where
  entry : ∀ entry, AList.lookup id s.store.txs = some entry → entry.Fits l
  missing : AList.lookup id s.store.txs = none → l.present = false
  channel : AList.lookup id s.store.channels = none ↔ l.phase = .absent
  calls : ∀ c call, AList.lookup c s.approves = some call → call.Fits c id l

/-- A sign call that is about to store an approval has one without an error. -/
def SignCall.Clean : SignCall → Prop
  | .issued _ _ res => res.err = none
  | _ => True

/-- So does an approval call that is about to commit one. -/
def ApproveCall.Clean : ApproveCall → Prop
  | .issued _ _ _ _ (.ok res) => res.err = none
  | _ => True

/-- Whatever is about to be stored as an approval has no error. -/
structure System.Clean (s : System) : Prop where
  signs : ∀ c call, AList.lookup c s.signs = some call → call.Clean
  approves : ∀ c call, AList.lookup c s.approves = some call → call.Clean

theorem issueForTransaction_err {cfg : Config} {signers : Signers} {tx : Transaction}
    {validUntil : Time} {res : Result}
    (h : issueForTransaction cfg signers tx validUntil = .ok res) : res.err = none := by
  rw [issueForTransaction] at h
  split at h
  · obtain ⟨-, _, _, _, -, -, -, rfl⟩ := issueLocalKey_eq_ok h
    rfl
  · rw [issueLocalCA] at h
    split at h
    · exact nomatch h
    · split at h
      · exact nomatch h
      · cases h
        rfl

/-! ## Calls other than the one that moves -/

/-- If another call has the transaction in hand, or none, this one only claims or
is about another transaction. -/
theorem ApproveCall.Fits.of_owner_ne {call : ApproveCall} {c : Nat} {id : TxID} {l : Life}
    (h : call.Fits c id l) (hne : l.phase.owner ≠ some c) (l' : Life) : call.Fits c id l' := by
  cases call with
  | claiming => trivial
  | claimed id' tx ttl approver =>
      intro heq
      rw [(h heq).1] at hne
      exact absurd rfl hne
  | issuing id' tx validUntil approver =>
      intro heq
      rw [(h heq).1] at hne
      exact absurd rfl hne
  | issued id' tx validUntil approver res =>
      intro heq
      rw [(h heq).1] at hne
      exact absurd rfl hne
  | putting id' tx validUntil approver =>
      intro heq
      obtain ⟨⟨res, hp, -⟩, -⟩ := h heq
      rw [hp] at hne
      exact absurd rfl hne

/-- The phase and the origin are all a call looks at. -/
theorem ApproveCall.Fits.of_eq {call : ApproveCall} {c : Nat} {id : TxID} {l l' : Life}
    (h : call.Fits c id l) (hp : l'.phase = l.phase) (ho : l'.origin = l.origin) :
    call.Fits c id l' := by
  have hfrom : ∀ tx : Transaction, tx.From l → tx.From l' := fun tx ⟨o, h, heq⟩ ↦
    ⟨o, ho.trans h, heq⟩
  cases call with
  | claiming => trivial
  | claimed id' tx ttl approver => exact fun heq ↦ ⟨hp.trans (h heq).1, hfrom tx (h heq).2⟩
  | issuing id' tx validUntil approver => exact fun heq ↦ ⟨hp.trans (h heq).1, hfrom tx (h heq).2⟩
  | issued id' tx validUntil approver res =>
      exact fun heq ↦ ⟨hp.trans (h heq).1, hfrom tx (h heq).2⟩
  | putting id' tx validUntil approver =>
      intro heq
      obtain ⟨⟨res, hr, hu⟩, hf, hrest⟩ := h heq
      exact ⟨⟨res, hp.trans hr, hu⟩, hfrom tx hf, hrest⟩

namespace System.Refines

variable {s s' : System} {id : TxID} {l l' : Life}

/-- The calls after one of them moved on. -/
theorem calls_insert (h : s.Refines id l) {c : Nat} {call : ApproveCall}
    (hcall : call.Fits c id l')
    (hothers : ∀ c' (call' : ApproveCall), c' ≠ c → call'.Fits c' id l → call'.Fits c' id l') :
    ∀ c' call', AList.lookup c' (s.approves.insert c call) = some call' → call'.Fits c' id l' := by
  intro c' call' hl
  rcases Map.lookup_insert_eq_some_iff.mp hl with ⟨rfl, rfl⟩ | ⟨hne, hl⟩
  · exact hcall
  · exact hothers c' call' hne (h.calls c' call' hl)

/-- The calls after one of them ended. -/
theorem calls_erase (h : s.Refines id l) {c : Nat}
    (hothers : ∀ c' (call' : ApproveCall), c' ≠ c → call'.Fits c' id l → call'.Fits c' id l') :
    ∀ c' call', AList.lookup c' (s.approves.erase c) = some call' → call'.Fits c' id l' := by
  intro c' call' hl
  obtain ⟨hne, hl⟩ := Map.lookup_erase_eq_some_iff.mp hl
  exact hothers c' call' hne (h.calls c' call' hl)

/-- A step that does not touch the transaction. -/
theorem frame (h : s.Refines id l)
    (htx : AList.lookup id s'.store.txs = AList.lookup id s.store.txs)
    (hch : AList.lookup id s'.store.channels = none ↔ AList.lookup id s.store.channels = none)
    (hcalls : ∀ c call, AList.lookup c s'.approves = some call → call.Fits c id l) :
    s'.Refines id l where
  entry entry he := h.entry entry (htx ▸ he)
  missing he := h.missing (htx ▸ he)
  channel := hch.trans h.channel
  calls := hcalls

/-- A step that touches nothing the life is about. -/
theorem of_eq (h : s.Refines id l) (htx : s'.store.txs = s.store.txs)
    (hch : s'.store.channels = s.store.channels) (hcalls : s'.approves = s.approves) :
    s'.Refines id l :=
  h.frame (by rw [htx]) (by rw [hch]) (by rw [hcalls]; exact h.calls)

/-- A step that touches only calls, and leaves them fitting. -/
theorem of_calls (h : s.Refines id l) (hs : s'.store = s.store)
    (hcalls : ∀ c call, AList.lookup c s'.approves = some call → call.Fits c id l) :
    s'.Refines id l :=
  h.frame (by rw [hs]) (by rw [hs]) hcalls

/-- A step that changes the entry of another transaction. -/
theorem setEntry_of_ne (h : s.Refines id l) {id' : TxID} (hne : id ≠ id') {entry : TxEntry}
    (hs : s'.store = s.store.setEntry id' entry)
    (hcalls : ∀ c call, AList.lookup c s'.approves = some call → call.Fits c id l) :
    s'.Refines id l := by
  refine h.frame ?_ (by rw [hs]; exact Iff.rfl) hcalls
  rw [hs, Store.lookup_setEntry, if_neg hne]

/-- A step that finishes another transaction. -/
theorem finishLocked_of_ne (h : s.Refines id l) {id' : TxID} (hne : id ≠ id') {store : Store}
    {entry : TxEntry} {state : State} {res : Result} (htx : store.txs = s.store.txs)
    (hch : store.channels = s.store.channels)
    (hs : s'.store = store.finishLocked id' entry state res)
    (hcalls : ∀ c call, AList.lookup c s'.approves = some call → call.Fits c id l) :
    s'.Refines id l := by
  refine h.frame ?_ ?_ hcalls
  · rw [hs, Store.lookup_finishLocked, if_neg hne, htx]
  · rw [hs, Store.lookup_channels_finishLocked, if_neg fun hc ↦ hne hc.1, hch]

/-- A step that finishes the transaction. -/
theorem finishLocked (h : s.Refines id l) {store : Store} {entry : TxEntry} {state : State}
    {res : Result} {owner : Option Nat} (hch : store.channels = s.store.channels)
    (he : AList.lookup id s.store.txs = some entry)
    (hs : s'.store = store.finishLocked id entry state res)
    (hl : l' = { l with phase := .decided state res owner })
    (hcalls : ∀ c call, AList.lookup c s'.approves = some call → call.Fits c id l') :
    s'.Refines id l' := by
  subst hl
  have hfits := h.entry entry he
  have htx' : AList.lookup id s'.store.txs = some (Store.finishedEntry entry state res) := by
    rw [hs, Store.lookup_finishLocked, if_pos rfl]
  refine ⟨fun entry' he' ↦ ?_, fun hnone ↦ ?_, ⟨fun hnone ↦ ?_, (fun h ↦ by cases h)⟩, hcalls⟩
  · obtain rfl := Option.some.inj (htx'.symm.trans he')
    obtain ⟨o, ho, heq⟩ := hfits.origin
    refine ⟨hfits.present, nofun, rfl, rfl, o, ho, ?_⟩
    rw [Store.finishedEntry, heq]
  · rw [htx'] at hnone
    cases hnone
  · rw [hs, Store.lookup_channels_finishLocked] at hnone
    split at hnone
    · cases hnone
    · rw [hch] at hnone
      exact absurd (h.channel.mp hnone) hfits.created

/-- A step that changes the entry without changing what it shows. -/
theorem setEntry (h : s.Refines id l) {entry entry' : TxEntry}
    (hs : s'.store = s.store.setEntry id entry')
    (he : AList.lookup id s.store.txs = some entry) (htx : entry'.tx = entry.tx)
    (hres : entry'.result = entry.result) (hcalls : s'.approves = s.approves) :
    s'.Refines id l := by
  have hfits := h.entry entry he
  have htx' : AList.lookup id s'.store.txs = some entry' := by
    rw [hs, Store.lookup_setEntry, if_pos rfl]
  refine ⟨fun entry'' he' ↦ ?_, fun hnone ↦ ?_, ?_, by rw [hcalls]; exact h.calls⟩
  · obtain rfl := Option.some.inj (htx'.symm.trans he')
    refine ⟨hfits.present, hfits.created, ?_, hres.trans hfits.result_eq, ?_⟩
    · rw [htx]
      exact hfits.state_eq
    · rw [htx]
      exact hfits.origin
  · rw [htx'] at hnone
    exact nomatch hnone
  · rw [hs]
    exact h.channel

/-- A step that deletes the entry. -/
theorem remove (h : s.Refines id l) (htx : AList.lookup id s'.store.txs = none)
    (hch : s'.store.channels = s.store.channels) (hcalls : s'.approves = s.approves) :
    s'.Refines id { l with present := false } := by
  refine ⟨fun entry he ↦ ?_, fun _ ↦ rfl, by rw [hch]; exact h.channel, ?_⟩
  · rw [htx] at he
    exact nomatch he
  · rw [hcalls]
    exact fun c call hl ↦ (h.calls c call hl).of_eq rfl rfl

/-- A step that creates the transaction. -/
theorem create (h : s.Refines id l) (hid : AList.lookup id s.store.channels = none)
    {tx : Transaction} {result : Option Result} {phase : Phase} {buffer : Option Result}
    (htx : AList.lookup id s'.store.txs = some ⟨tx, result, 0⟩)
    (hch : AList.lookup id s'.store.channels = some buffer) (hcalls : s'.approves = s.approves)
    (hphase : phase ≠ .absent) (hstate : tx.state = phase.state) (hresult : result = phase.result) :
    s'.Refines id ⟨phase, true, some tx⟩ := by
  have howner : l.phase.owner = none := by rw [h.channel.mp hid]; rfl
  refine ⟨fun entry he ↦ ?_, fun hnone ↦ ?_, ⟨fun hnone ↦ ?_, fun hp ↦ absurd hp hphase⟩, ?_⟩
  · obtain rfl := Option.some.inj (htx.symm.trans he)
    exact ⟨rfl, hphase, hstate, hresult, tx, rfl, rfl⟩
  · rw [htx] at hnone
    exact nomatch hnone
  · rw [hch] at hnone
    exact nomatch hnone
  · rw [hcalls]
    exact fun c call hl ↦ (h.calls c call hl).of_owner_ne (by rw [howner]; exact nofun) _

end System.Refines

/-! ## The refinement -/

theorem Life.next_of_isPassive {e : Event} (h : e.isPassive = true) (l : Life) :
    l.next e = some l := by
  cases e <;> first | rfl | exact nomatch h

theorem lifecycle_passive {id : TxID} {l : Life} {e : Event} (h : e.isPassive = true) :
    (lifecycle id).execFrom l [e] = some (l, [e]) := by
  have hstep : (lifecycle id).step l e = some (l, [e]) := by
    by_cases he : e.txID = some id
    · exact lifecycle_step_of_next he (Life.next_of_isPassive h l)
    · exact lifecycle_step_of_ne he
  exact (lifecycle id).execFrom_cons_iff.mpr ⟨l, [e], [], hstep, rfl, rfl⟩

theorem lifecycle_other {id : TxID} {l : Life} {e : Event} (h : e.txID ≠ some id) :
    (lifecycle id).execFrom l [e] = some (l, [e]) :=
  (lifecycle id).execFrom_cons_iff.mpr ⟨l, [e], [], lifecycle_step_of_ne h, rfl, rfl⟩

theorem lifecycle_next {id : TxID} {l l' : Life} {e : Event} (h : e.txID = some id)
    (hn : l.next e = some l') : (lifecycle id).execFrom l [e] = some (l', [e]) :=
  (lifecycle id).execFrom_cons_iff.mpr ⟨l', [e], [], lifecycle_step_of_next h hn, rfl, rfl⟩

/-- An entry that can be claimed or refused is that of a pending life. -/
theorem TxEntry.Fits.phase_eq_pending {entry : TxEntry} {l : Life} (h : entry.Fits l)
    (hres : entry.result = none) (hst : entry.tx.state = .pending) : l.phase = .pending := by
  have hres' := h.result_eq.symm.trans hres
  have hst' := h.state_eq.symm.trans hst
  have hcreated := h.created
  cases hp : l.phase with
  | absent => exact absurd hp hcreated
  | pending => rfl
  | claimed c =>
      rw [hp] at hst'
      exact nomatch hst'
  | issuing c validUntil =>
      rw [hp] at hst'
      exact nomatch hst'
  | decided state res owner =>
      rw [hp] at hres'
      exact nomatch hres'

/-- Where nobody has the transaction in hand, no call minds a new phase. -/
theorem ApproveCall.Fits.of_pending {call : ApproveCall} {c : Nat} {id : TxID} {l : Life}
    (h : call.Fits c id l) (hp : l.phase = .pending) (l' : Life) : call.Fits c id l' :=
  h.of_owner_ne (by rw [hp]; exact nofun) l'

/-- `finishPending`, for any transaction. -/
theorem System.Refines.refuse {s s' : System} {id id' : TxID} {l : Life} {store : Store}
    {entry : TxEntry} {state : State} {res : Result} (h : s.Refines id l)
    (hs : s'.store = store.finishLocked id' entry state res)
    (htx : store.txs = s.store.txs) (hch : store.channels = s.store.channels)
    (hn : s.store.unfinished id' .pending = some entry) (hr : IsRefusal state res)
    (hcalls : s'.approves = s.approves) :
    ∃ l', (lifecycle id).execFrom l [.finished id' state res none] =
      some (l', [.finished id' state res none]) ∧ s'.Refines id l' := by
  obtain ⟨he, hres, hst⟩ := Store.unfinished_eq_some_iff.mp hn
  by_cases heq : id = id'
  · subst heq
    have hfits := h.entry entry he
    have hp := hfits.phase_eq_pending hres hst
    have hnext : l.next (.finished id state res none) =
        some { l with phase := .decided state res none } := if_pos ⟨hp, hfits.present, hr⟩
    refine ⟨_, lifecycle_next rfl hnext, h.finishLocked hch he hs rfl ?_⟩
    rw [hcalls]
    exact fun c call hl ↦ (h.calls c call hl).of_pending hp _
  · refine ⟨l, lifecycle_other fun h ↦ heq (Option.some.inj h).symm, ?_⟩
    exact h.finishLocked_of_ne heq htx hch hs (by rw [hcalls]; exact h.calls)

/-- `finishClaimed` of the call that has the transaction in hand. -/
theorem System.Refines.commit {s s' : System} {id id' : TxID} {l : Life} {c : Nat}
    {tx : Transaction} {validUntil : Time} {approver : GoString}
    {answer : Except ApprovalError Result} {entry : TxEntry} {state : State} {res : Result}
    (h : s.Refines id l)
    (hc : AList.lookup c s.approves = some (.issued id' tx validUntil approver answer))
    (hn : s.store.unfinished id' .approving = some entry)
    (hr : IsGrant state res validUntil ∨ IsRefusal state res)
    (hs : s'.store = s.store.finishLocked id' entry state res)
    (hcalls : ∀ l', (id' = id → l'.phase = .decided state res (some c) ∧ tx.From l') →
      (∀ c' (call : ApproveCall), c' ≠ c → AList.lookup c' s.approves = some call →
        call.Fits c' id l') →
      ∀ c' call, AList.lookup c' s'.approves = some call → call.Fits c' id l') :
    ∃ l', (lifecycle id).execFrom l [.finished id' state res (some c)] =
      some (l', [.finished id' state res (some c)]) ∧ s'.Refines id l' := by
  obtain ⟨he, -, -⟩ := Store.unfinished_eq_some_iff.mp hn
  by_cases heq : id = id'
  · subst heq
    obtain ⟨hp, hfrom⟩ := h.calls c _ hc rfl
    have hfits := h.entry entry he
    have hnext : l.next (.finished id state res (some c)) =
        some { l with phase := .decided state res (some c) } := by
      rw [Life.next, hp]
      exact if_pos ⟨rfl, hfits.present, hr⟩
    refine ⟨_, lifecycle_next rfl hnext, h.finishLocked rfl he hs rfl ?_⟩
    refine hcalls _ (fun _ ↦ ⟨rfl, hfrom⟩) fun c' call hne hl ↦ ?_
    refine (h.calls c' call hl).of_owner_ne ?_ _
    rw [hp]
    exact fun hc ↦ hne (Option.some.inj hc).symm
  · refine ⟨l, lifecycle_other fun h ↦ heq (Option.some.inj h).symm, ?_⟩
    refine h.finishLocked_of_ne heq rfl rfl hs (hcalls l (fun h ↦ absurd h.symm heq) ?_)
    exact fun c' call _ hl ↦ h.calls c' call hl

/-- **Step.**  A step of the system is a step of every life. -/
theorem System.Refines.step {cfg : Config} {s s' : System} {a : Action} {es : List Event}
    {id : TxID} {l : Life} (hclean : s.Clean) (h : s.Refines id l) (hs : Step cfg s a s' es) :
    ∃ l', (lifecycle id).execFrom l es = some (l', es) ∧ s'.Refines id l' := by
  cases hs with
  | tick => exact ⟨l, rfl, h.of_eq rfl rfl rfl⟩
  | sign => exact ⟨l, lifecycle_passive rfl, h.of_eq rfl rfl rfl⟩
  | findActiveNone => exact ⟨l, rfl, h.of_eq rfl rfl rfl⟩
  | findActive => exact ⟨l, lifecycle_passive rfl, h.of_eq rfl rfl rfl⟩
  | remainingNone | remaining | startLeased | issueLeasedError | issueLeased =>
      exact ⟨l, rfl, h.of_eq rfl rfl rfl⟩
  | @createInstantApproved c id' req lease res hc hid =>
      by_cases heq : id = id'
      · subst heq
        have hp := h.channel.mp hid
        refine ⟨_, lifecycle_next rfl (if_pos ⟨hp, rfl, hclean.signs c _ hc⟩), ?_⟩
        exact h.create hid ((Map.lookup_insert_eq _ _ _ _).trans (if_pos rfl))
          ((Map.lookup_insert_eq _ _ _ _).trans (if_pos rfl)) rfl (fun h ↦ by cases h) rfl rfl
      · refine ⟨l, lifecycle_other fun h ↦ heq (Option.some.inj h).symm, ?_⟩
        refine h.frame ((Map.lookup_insert_eq _ _ _ _).trans (if_neg heq)) ?_ h.calls
        exact iff_of_eq (congrArg (· = none) ((Map.lookup_insert_eq _ _ _ _).trans (if_neg heq)))
  | @createBound c id' req hc hid =>
      by_cases heq : id = id'
      · subst heq
        refine ⟨_, lifecycle_next rfl (if_pos ⟨h.channel.mp hid, rfl⟩), ?_⟩
        exact h.create hid ((Map.lookup_insert_eq _ _ _ _).trans (if_pos rfl))
          ((Map.lookup_insert_eq _ _ _ _).trans (if_pos rfl)) rfl (fun h ↦ by cases h) rfl rfl
      · refine ⟨l, lifecycle_other fun h ↦ heq (Option.some.inj h).symm, ?_⟩
        refine h.frame ((Map.lookup_insert_eq _ _ _ _).trans (if_neg heq)) ?_ h.calls
        exact iff_of_eq (congrArg (· = none) ((Map.lookup_insert_eq _ _ _ _).trans (if_neg heq)))
  | startTimer => exact ⟨l, rfl, h.of_eq rfl rfl rfl⟩
  | startTimerDev =>
      exact ⟨l, lifecycle_passive rfl,
        h.frame rfl Iff.rfl (h.calls_insert trivial fun _ _ _ hf ↦ hf)⟩
  | approve =>
      exact ⟨l, lifecycle_passive rfl,
        h.frame rfl Iff.rfl (h.calls_insert trivial fun _ _ _ hf ↦ hf)⟩
  | claimApprovalNone => exact ⟨l, rfl, h.of_calls rfl (h.calls_erase fun _ _ _ hf ↦ hf)⟩
  | @claimApproval c id' ttl approver entry store hc hn =>
      obtain ⟨e, he, rfl, rfl⟩ := Store.claimApproval_eq_some_iff.mp hn
      obtain ⟨htx, hres, hst⟩ := Store.unfinished_eq_some_iff.mp he
      by_cases heq : id = id'
      · subst heq
        have hfits := h.entry e htx
        have hp := hfits.phase_eq_pending hres hst
        have hfound : s.store.stateOf id = some .pending := by
          rw [Store.stateOf, htx, Option.map_some, hst]
        obtain ⟨o, ho, htxo⟩ := hfits.origin
        have hfrom : ({ e.tx with state := .approving } : Transaction).From
            { l with phase := .claimed c } := ⟨o, ho, by rw [htxo]⟩
        refine ⟨_, lifecycle_next rfl (if_pos ⟨hp, hfits.present, hfound⟩), ?_⟩
        refine ⟨fun entry' he' ↦ ?_, fun hnone ↦ ?_, ?_, ?_⟩
        · rw [Store.lookup_setEntry, if_pos rfl] at he'
          cases he'
          exact ⟨hfits.present, (fun h ↦ by cases h), rfl, hres, hfrom⟩
        · rw [Store.lookup_setEntry, if_pos rfl] at hnone
          cases hnone
        · refine ⟨fun hnone ↦ ?_, (fun h ↦ by cases h)⟩
          exact absurd (h.channel.mp hnone) hfits.created
        · exact h.calls_insert (fun _ ↦ ⟨rfl, hfrom⟩) fun _ _ _ hf ↦ hf.of_pending hp _
      · refine ⟨l, lifecycle_other fun h ↦ heq (Option.some.inj h).symm, ?_⟩
        exact h.setEntry_of_ne heq rfl
          (h.calls_insert (fun h ↦ absurd h.symm heq) fun _ _ _ hf ↦ hf)
  | @startIssue c id' tx ttl approver hc =>
      by_cases heq : id = id'
      · subst heq
        obtain ⟨hp, hfrom⟩ := h.calls c _ hc rfl
        refine ⟨_, lifecycle_next rfl (if_pos hp), ?_⟩
        refine ⟨fun entry he ↦ ?_, h.missing, ?_, ?_⟩
        · have hfits := h.entry entry he
          refine ⟨hfits.present, (fun h ↦ by cases h), ?_, ?_, hfits.origin⟩
          · rw [hfits.state_eq, hp]
            rfl
          · rw [hfits.result_eq, hp]
            rfl
        · refine ⟨fun hnone ↦ ?_, (fun h ↦ by cases h)⟩
          cases hp.symm.trans (h.channel.mp hnone)
        · refine h.calls_insert (fun _ ↦ ⟨rfl, hfrom⟩) fun c' _ hne hf ↦ hf.of_owner_ne ?_ _
          rw [hp]
          exact fun hc ↦ hne (Option.some.inj hc).symm
      · refine ⟨l, lifecycle_other fun h ↦ heq (Option.some.inj h).symm, ?_⟩
        exact h.of_calls rfl (h.calls_insert (fun h ↦ absurd h.symm heq) fun _ _ _ hf ↦ hf)
  | @issue c id' tx validUntil approver signers hc =>
      refine ⟨l, rfl, h.of_calls rfl (h.calls_insert ?_ fun _ _ _ hf ↦ hf)⟩
      exact fun heq ↦ h.calls c _ hc heq
  | finishClaimedNone => exact ⟨l, rfl, h.of_calls rfl (h.calls_erase fun _ _ _ hf ↦ hf)⟩
  | finishDenied hc hn =>
      refine h.commit hc hn (Or.inr ⟨Or.inl rfl, (fun h ↦ by cases h), rfl, rfl⟩) rfl
        fun l' _ hothers c' call hl ↦ ?_
      obtain ⟨hne, hl⟩ := Map.lookup_erase_eq_some_iff.mp hl
      exact hothers c' call hne hl
  | @finishApproved c id' tx validUntil approver res entry hc hn =>
      have hgrant : IsGrant .approved { res with leaseExpiresAt := validUntil } validUntil :=
        ⟨rfl, hclean.approves c _ hc, rfl⟩
      refine h.commit hc hn (Or.inl hgrant) rfl fun l' howner hothers c' call hl ↦ ?_
      by_cases hlease : leavesLease s tx approver
      · simp only [hlease, if_true] at hl
        rcases Map.lookup_insert_eq_some_iff.mp hl with ⟨rfl, rfl⟩ | ⟨hne, hl⟩
        · intro heq
          obtain ⟨hp, hfrom⟩ := howner heq
          simp only [leavesLease, Bool.and_eq_true, bne_iff_ne, ne_eq, Bool.not_eq_true'] at hlease
          exact ⟨⟨_, hp, rfl⟩, hfrom, hlease.1.1.2, hlease.1.2, hlease.2⟩
        · exact hothers c' call hne hl
      · simp only [hlease] at hl
        obtain ⟨hne, hl⟩ := Map.lookup_erase_eq_some_iff.mp hl
        exact hothers c' call hne hl
  | @putLease c id' tx validUntil approver hc =>
      by_cases heq : id = id'
      · subst heq
        obtain ⟨⟨res, hp, hu⟩, ⟨o, ho, htx⟩, happ, hcert, hdis⟩ := h.calls c _ hc rfl
        have hmay : MayLease l.origin (newFullKey tx.lookup approver) := by
          refine ⟨happ, o, ho, ?_, ?_, ?_⟩
          · rw [htx]
            rfl
          · rw [htx] at hcert
            exact hcert
          · rw [htx] at hdis
            exact hdis
        have hnext : l.next (.leasePut c id (newFullKey tx.lookup approver) validUntil) =
            some { l with phase := .decided .approved res none } := by
          rw [Life.next, hp]
          exact if_pos ⟨rfl, hu, hmay⟩
        refine ⟨_, lifecycle_next rfl hnext, ?_⟩
        refine ⟨fun entry he ↦ ?_, h.missing, ?_, ?_⟩
        · have hfits := h.entry entry he
          refine ⟨hfits.present, (fun h ↦ by cases h), ?_, ?_, hfits.origin⟩
          · rw [hfits.state_eq, hp]
            rfl
          · rw [hfits.result_eq, hp]
            rfl
        · refine ⟨fun hnone ↦ ?_, (fun h ↦ by cases h)⟩
          cases hp.symm.trans (h.channel.mp hnone)
        · refine h.calls_erase fun c' _ hne hf ↦ hf.of_owner_ne ?_ _
          rw [hp]
          exact fun hc ↦ hne (Option.some.inj hc).symm
      · refine ⟨l, lifecycle_other fun h ↦ heq (Option.some.inj h).symm, ?_⟩
        exact h.of_calls rfl (h.calls_erase fun _ _ _ hf ↦ hf)
  | denyNone => exact ⟨l, rfl, h⟩
  | deny hn => exact h.refuse rfl rfl rfl hn (by decide) rfl
  | fire => exact ⟨l, rfl, h.of_eq rfl rfl rfl⟩
  | expireNone => exact ⟨l, rfl, h.of_eq rfl rfl rfl⟩
  | expire ht hn => exact h.refuse rfl rfl rfl hn (by decide) rfl
  | waitNone => exact ⟨l, lifecycle_passive rfl, h.of_eq rfl rfl rfl⟩
  | @wait id' slot store hn =>
      refine ⟨l, lifecycle_passive rfl, ?_⟩
      obtain ⟨entry, he, ⟨res, hres, rfl, rfl⟩ | ⟨hres, rfl, rfl⟩⟩ := Store.waitResult_eq_some hn
      · exact h.of_eq rfl rfl rfl
      · by_cases heq : id = id'
        · subst heq
          exact h.setEntry rfl he rfl rfl rfl
        · exact h.setEntry_of_ne heq rfl h.calls
  | receiveOwn => exact ⟨l, lifecycle_passive rfl, h.of_eq rfl rfl rfl⟩
  | @receiveShared c id' res hc hch =>
      refine ⟨l, lifecycle_passive rfl, h.frame rfl ?_ h.calls⟩
      show AList.lookup id (s.store.channels.insert id' none) = none ↔ _
      rw [Map.lookup_insert_eq]
      by_cases heq : id = id'
      · subst heq
        rw [if_pos rfl, hch]
        exact ⟨(fun h ↦ by cases h), (fun h ↦ by cases h)⟩
      · rw [if_neg heq]
  | @remove c id' res hc =>
      by_cases heq : id = id'
      · subst heq
        refine ⟨{ l with present := false }, ?_, ?_⟩
        · exact (lifecycle id).execFrom_cons_iff.mpr
            ⟨_, _, _, lifecycle_step_of_next rfl rfl, lifecycle_passive rfl, rfl⟩
        · exact h.remove ((Store.lookup_remove _ _ _).trans (if_pos rfl)) rfl rfl
      · refine ⟨l, ?_, h.frame ((Store.lookup_remove _ _ _).trans (if_neg heq)) Iff.rfl h.calls⟩
        exact (lifecycle id).execFrom_cons_iff.mpr
          ⟨_, _, _, lifecycle_step_of_ne fun h ↦ heq (Option.some.inj h).symm,
            lifecycle_passive rfl, rfl⟩
  | ctxDone => exact ⟨l, rfl, h.of_eq rfl rfl rfl⟩
  | cancelWaitNone => exact ⟨l, lifecycle_passive rfl, h.of_eq rfl rfl rfl⟩
  | @cancelWaitKeep c id' entry hc hn hw =>
      refine ⟨l, lifecycle_passive rfl, ?_⟩
      by_cases heq : id = id'
      · subst heq
        exact h.setEntry rfl hn rfl rfl rfl
      · exact h.setEntry_of_ne heq rfl h.calls
  | @cancelWaitDelete c id' entry hc hn hw =>
      have hcancel : ∀ t t₀, (lifecycle id).step l (.cancelled c id' t t₀) =
          some (l, [.cancelled c id' t t₀]) := fun t t₀ ↦ by
        by_cases heq : id = id'
        · exact lifecycle_step_of_next (congrArg some heq.symm) rfl
        · exact lifecycle_step_of_ne fun h ↦ heq (Option.some.inj h).symm
      by_cases heq : id = id'
      · subst heq
        refine ⟨{ l with present := false }, ?_, ?_⟩
        · exact (lifecycle id).execFrom_cons_iff.mpr
            ⟨_, _, _, hcancel _ _, lifecycle_next rfl rfl, rfl⟩
        · exact h.remove ((Store.lookup_remove _ _ _).trans (if_pos rfl))
            (Store.stopTimer_channels _ _) rfl
      · refine ⟨l, (lifecycle id).execFrom_cons_iff.mpr
          ⟨_, _, _, hcancel _ _, lifecycle_other fun h ↦ heq (Option.some.inj h).symm, rfl⟩, ?_⟩
        refine h.frame ?_ ?_ h.calls
        · exact ((Store.lookup_remove _ _ _).trans (if_neg heq)).trans
            (by rw [Store.stopTimer_txs])
        · show AList.lookup id (s.store.stopTimer id').channels = none ↔ _
          rw [Store.stopTimer_channels]
  | purge => exact ⟨l, lifecycle_passive rfl, h.of_eq rfl rfl rfl⟩

/-- The sign calls stay clean. -/
theorem System.Clean.step_signs {cfg : Config} {s s' : System} {a : Action} {es : List Event}
    (h : s.Clean) (hs : Step cfg s a s' es) :
    ∀ c call, AList.lookup c s'.signs = some call → call.Clean := by
  cases hs with
  | sign req allowLease =>
      refine Map.forall_insert h.signs ?_
      split <;> trivial
  | findActiveNone | findActive | remainingNone | remaining | startLeased | issueLeasedError =>
      exact Map.forall_insert h.signs trivial
  | issueLeased hc hi =>
      have herr := issueForTransaction_err hi
      exact Map.forall_insert h.signs herr
  | createInstantApproved => exact Map.forall_erase h.signs
  | createBound => exact Map.forall_insert h.signs trivial
  | startTimer => exact Map.forall_erase h.signs
  | startTimerDev => exact Map.forall_erase h.signs
  | finishApproved => split <;> exact h.signs
  | _ => exact h.signs

/-- **Step.**  Only answers without an error are stored as approvals. -/
theorem System.Clean.step {cfg : Config} {s s' : System} {a : Action} {es : List Event}
    (h : s.Clean) (hs : Step cfg s a s' es) : s'.Clean := by
  refine ⟨h.step_signs hs, hs.forall_approves h.approves (fun _ _ _ _ _ ↦ trivial) ?_⟩
  intro c call next _ hadv
  cases hadv with
  | @issue id tx validUntil approver signers =>
      cases hi : issueForTransaction cfg signers tx validUntil with
      | error e => trivial
      | ok res => exact issueForTransaction_err hi
  | claim | start | finish => trivial

theorem clean_start (now : Time) (withLeases : Bool) : (System.start now withLeases).Clean where
  signs c _ h := nomatch (AList.lookup_empty c).symm.trans h
  approves c _ h := nomatch (AList.lookup_empty c).symm.trans h

theorem refines_start (now : Time) (withLeases : Bool) (id : TxID) :
    (System.start now withLeases).Refines id .start where
  entry _ h := nomatch (AList.lookup_empty id).symm.trans h
  missing _ := rfl
  channel := ⟨fun _ ↦ rfl, fun _ ↦ AList.lookup_empty id⟩
  calls c _ h := nomatch (AList.lookup_empty c).symm.trans h

/-- **Run.**  In every run, the events about a transaction are a life of it, and
the system shows that life. -/
theorem exec_refines {cfg : Config} {now : Time} {withLeases : Bool} {as : List Action}
    {s : System} {log : List Event}
    (hrun : (machine cfg now withLeases).exec as = some (s, log)) :
    s.Clean ∧ ∀ id, ∃ l, (lifecycle id).exec log = some (l, log) ∧ s.Refines id l := by
  refine (machine cfg now withLeases).exec_induction
    (P := fun s log ↦ s.Clean ∧ ∀ id, ∃ l, (lifecycle id).exec log = some (l, log) ∧ s.Refines id l)
    ⟨clean_start now withLeases, fun id ↦ ⟨.start, rfl, refines_start now withLeases id⟩⟩
    (fun s log a s' es hP hs ↦ ?_) hrun
  obtain ⟨hclean, hlives⟩ := hP
  have hstep := Step.of_step hs
  refine ⟨hclean.step hstep, fun id ↦ ?_⟩
  obtain ⟨l, hl, href⟩ := hlives id
  obtain ⟨l', hl', href'⟩ := href.step hclean hstep
  exact ⟨l', (lifecycle id).exec_append_iff.mpr ⟨l, log, es, hl, hl', rfl⟩, href'⟩

/-- The rest of a run goes on with the life. -/
theorem execFrom_refines {cfg : Config} {s s' : System} {as : List Action} {es : List Event}
    {now : Time} {withLeases : Bool} {id : TxID} {l : Life} (hclean : s.Clean)
    (h : s.Refines id l) (hrun : (machine cfg now withLeases).execFrom s as = some (s', es)) :
    ∃ l', (lifecycle id).execFrom l es = some (l', es) ∧ s'.Refines id l' := by
  induction as generalizing s l es with
  | nil =>
      obtain ⟨rfl, rfl⟩ := Prod.mk.inj (Option.some.inj hrun)
      exact ⟨l, rfl, h⟩
  | cons a as ih =>
      obtain ⟨s₁, es₁, es₂, h₁, h₂, rfl⟩ := (machine cfg now withLeases).execFrom_cons_iff.mp hrun
      have hstep := Step.of_step h₁
      obtain ⟨l₁, hl₁, href₁⟩ := h.step hclean hstep
      obtain ⟨l₂, hl₂, href₂⟩ := ih (hclean.step hstep) href₁ h₂
      exact ⟨l₂, (lifecycle id).execFrom_append_iff.mpr ⟨l₁, es₁, es₂, hl₁, hl₂, rfl⟩, href₂⟩

end LunaZTrust.Approval
