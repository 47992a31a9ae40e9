import LunaZTrust.Approval.Exclusion

/-!
# Approved results and their leases

`approveWithIssuer` commits the result in `finishClaimed`, and puts the lease into
the other store afterwards, under the other lock.  Between the two the approval
can be observed and the lease cannot.

The lease under a key is at every point the last one put there, unless a purge has
found it expired (`exec_leaseAt`).  Since leases are put only after a commit, the
first commit of a run is always seen without its lease: the runs in which a visible
approval always has its lease are those without any such approval.
-/

namespace LunaZTrust.Approval

open LunaZTrust.Go LunaZTrust.Lease LunaZTrust.Transition

/-- The lease the system holds under a key. -/
def System.leaseAt (s : System) (key : FullKey) : Option ActiveLease :=
  s.leases.bind fun leases ↦ AList.lookup key leases.leases

/-- What an event does to the expiry of the lease under a key. -/
def Event.renews (key : FullKey) (held : Option Time) : Event → Option Time
  | .leasePut _ _ key' expiresAt => if key = key' then some expiresAt else held
  | .purged now => held.filter fun expiresAt ↦ decide (now ≤ expiresAt)
  | _ => held

/-- The expiry of the lease under a key, as the log has it: that of the last one put,
if no purge has come after it. -/
def leaseOf (log : List Event) (key : FullKey) : Option Time :=
  log.foldl (fun held e ↦ e.renews key held) none

theorem leaseOf_append (log es : List Event) (key : FullKey) :
    leaseOf (log ++ es) key = es.foldl (fun held e ↦ e.renews key held) (leaseOf log key) :=
  List.foldl_append

/-- `finishClaimed` of the call returns true, for an approval that is to leave a
lease. -/
def System.Commits (s : System) (c : Nat) (tx : Transaction) (validUntil : Time)
    (approver : GoString) : Prop :=
  leavesLease s tx approver = true ∧
    ∃ id res, AList.lookup c s.approves = some (.issued id tx validUntil approver (.ok res)) ∧
      (s.store.unfinished id .approving).isSome = true

section Runs

variable {cfg : Config} {now : Time} {withLeases : Bool} {as : List Action} {s s' : System}
  {a : Action} {log es : List Event} {tx : Transaction} {validUntil : Time} {approver : GoString}

variable (cfg now withLeases) in
/-- In the run, an approval that is to leave a lease has become visible. -/
def Committed (as : List Action) (tx : Transaction) (validUntil : Time) (approver : GoString) :
    Prop :=
  ∃ as₁ c as₂ s₁ log₁, as = as₁ ++ .finishClaimed c :: as₂ ∧
    (machine cfg now withLeases).exec as₁ = some (s₁, log₁) ∧ s₁.Commits c tx validUntil approver

variable (cfg now withLeases) in
/-- The approvals that have become visible have their leases in place. -/
def LeasesHeld (as : List Action) (s : System) : Prop :=
  ∀ tx validUntil approver, Committed cfg now withLeases as tx validUntil approver →
    s.leaseAt (newFullKey tx.lookup approver) = some ⟨approver, validUntil⟩

theorem Committed.mono (h : Committed cfg now withLeases as tx validUntil approver)
    (as' : List Action) : Committed cfg now withLeases (as ++ as') tx validUntil approver := by
  obtain ⟨as₁, c, as₂, s₁, log₁, rfl, hrun, hc⟩ := h
  exact ⟨as₁, c, as₂ ++ as', s₁, log₁, by rw [List.append_assoc, List.cons_append], hrun, hc⟩

/-- A commit at the end of a run. -/
theorem committed_concat {c : Nat} (hrun : (machine cfg now withLeases).exec as = some (s, log))
    (hc : s.Commits c tx validUntil approver) :
    Committed cfg now withLeases (as ++ [.finishClaimed c]) tx validUntil approver :=
  ⟨as, c, [], s, log, rfl, hrun, hc⟩

/-- An approval became visible before, or does so in the last step. -/
theorem Committed.concat_cases
    (h : Committed cfg now withLeases (as ++ [a]) tx validUntil approver)
    (hrun : (machine cfg now withLeases).exec as = some (s, log)) :
    Committed cfg now withLeases as tx validUntil approver ∨
      ∃ c, a = .finishClaimed c ∧ s.Commits c tx validUntil approver := by
  obtain ⟨as₁, c, as₂, s₁, log₁, heq, hrun₁, hc⟩ := h
  rcases as₂.eq_nil_or_concat with rfl | ⟨as₃, b, rfl⟩
  · obtain ⟨rfl, ha⟩ := List.append_inj' heq rfl
    obtain ⟨rfl, rfl⟩ := Prod.mk.inj (Option.some.inj (hrun.symm.trans hrun₁))
    exact Or.inr ⟨c, (List.cons.inj ha).1, hc⟩
  · rw [List.concat_eq_append, ← List.cons_append, ← List.append_assoc] at heq
    obtain ⟨rfl, -⟩ := List.append_inj' heq rfl
    exact Or.inl ⟨as₁, c, as₃, s₁, log₁, rfl, hrun₁, hc⟩

/-! ## The leases of a run -/

/-- A call about to put a lease has committed the approval. -/
theorem exec_putting (hrun : (machine cfg now withLeases).exec as = some (s, log)) :
    ∀ c call, AList.lookup c s.approves = some call → ∀ id tx validUntil approver,
      call = .putting id tx validUntil approver →
        Committed cfg now withLeases as tx validUntil approver := by
  refine (machine cfg now withLeases).exec_run_induction
    (P := fun as s _ ↦ ∀ c call, AList.lookup c s.approves = some call →
      ∀ id tx validUntil approver, call = .putting id tx validUntil approver →
        Committed cfg now withLeases as tx validUntil approver)
    (fun c _ h ↦ nomatch (AList.lookup_empty c).symm.trans h)
    (fun as a s log s' es hrun h hs ↦ ?_) hrun
  have hold : ∀ c call, AList.lookup c s.approves = some call →
      ∀ id tx validUntil approver, call = .putting id tx validUntil approver →
        Committed cfg now withLeases (as ++ [a]) tx validUntil approver :=
    fun c call hc id tx validUntil approver heq ↦
      (h c call hc id tx validUntil approver heq).mono [a]
  refine (Step.of_step hs).forall_approves hold ?_ ?_
  · rintro id ttl approver - - id' tx validUntil approver' heq
    cases heq
  · rintro c call next hc hadv id tx validUntil approver rfl
    cases hadv with
    | finish hl hn => exact committed_concat hrun ⟨hl, id, _, hc, by rw [hn]; rfl⟩

theorem Step.leases_isSome (hs : Step cfg s a s' es) : s'.leases.isSome = s.leases.isSome := by
  rcases hs.leases_cases with heq | heq | ⟨c, id, key, expiresAt, -, heq⟩ <;> rw [heq] <;>
    simp only [Option.isSome_map]

theorem exec_leases_isSome (hrun : (machine cfg now withLeases).exec as = some (s, log)) :
    s.leases.isSome = withLeases := by
  refine (machine cfg now withLeases).execFrom_invariant (P := fun s ↦ s.leases.isSome = withLeases)
    (fun s a s' es h hs ↦ (Step.leases_isSome (.of_step hs)).trans h) ?_ hrun
  cases withLeases with
  | true => rfl
  | false => rfl

theorem Committed.configured (h : Committed cfg now withLeases as tx validUntil approver) :
    withLeases = true := by
  obtain ⟨as₁, c, as₂, s₁, log₁, -, hrun, hl, -⟩ := h
  rw [leavesLease, Bool.and_assoc, Bool.and_assoc, Bool.and_eq_true] at hl
  rw [← exec_leases_isSome hrun]
  exact hl.1

/-- A lease is put only for an approval that has been committed. -/
theorem exec_leasePut (hrun : (machine cfg now withLeases).exec as = some (s, log)) {c : Nat}
    {id : TxID} {key : FullKey} {expiresAt : Time} (hmem : .leasePut c id key expiresAt ∈ log) :
    ∃ tx approver, Committed cfg now withLeases as tx expiresAt approver := by
  refine (machine cfg now withLeases).exec_run_induction
    (P := fun as _ log ↦ .leasePut c id key expiresAt ∈ log →
      ∃ tx approver, Committed cfg now withLeases as tx expiresAt approver)
    (nomatch ·) (fun as a s log s' es hrun h hs hmem ↦ ?_) hrun hmem
  rcases List.mem_append.mp hmem with hmem | hmem
  · obtain ⟨tx, approver, hc⟩ := h hmem
    exact ⟨tx, approver, hc.mono [a]⟩
  · have hstep : Step cfg s a s' es := .of_step hs
    cases hstep with
    | putLease hput =>
        cases List.mem_singleton.mp hmem
        exact ⟨_, _, (exec_putting hrun _ _ hput _ _ _ _ rfl).mono _⟩
    | _ => simp at hmem

theorem leaseAt_purge {key : FullKey} {l : ActiveLease}
    (hs : s'.leases = s.leases.map (·.purgeExpired s.now)) :
    s'.leaseAt key = some l ↔ s.leaseAt key = some l ∧ s.now ≤ l.expiresAt := by
  rw [System.leaseAt, System.leaseAt, hs]
  cases s.leases with
  | none => exact ⟨(nomatch ·), (nomatch ·.1)⟩
  | some leases => exact Lease.Store.lookup_purgeExpired_eq_some_iff

/-- **Step.**  The lease under a key follows the log. -/
theorem leaseAt_step (hs : Step cfg s a s' es) {key : FullKey}
    (hput : ∀ c id tx validUntil approver,
      AList.lookup c s.approves = some (.putting id tx validUntil approver) →
        s.leases.isSome = true)
    (h : s.leaseAt key = (leaseOf log key).map (⟨key.approver, ·⟩)) :
    s'.leaseAt key = (leaseOf (log ++ es) key).map (⟨key.approver, ·⟩) := by
  rw [leaseOf_append]
  cases hs with
  | @putLease c id tx validUntil approver hc =>
      obtain ⟨leases, hl⟩ := Option.isSome_iff_exists.mp (hput c id tx validUntil approver hc)
      have hlookup := Lease.Store.lookup_put leases (newFullKey tx.lookup approver) key validUntil
      rw [System.leaseAt, hl] at h ⊢
      refine hlookup.trans ?_
      rw [List.foldl_cons, List.foldl_nil, Event.renews]
      split
      · next heq => rw [heq]; rfl
      · exact h
  | purge =>
      rw [List.foldl_cons, List.foldl_nil, Event.renews]
      refine Option.ext fun l ↦ ?_
      rw [leaseAt_purge rfl, h]
      simp only [Option.map_eq_some_iff, Option.filter_eq_some_iff, decide_eq_true_eq]
      constructor
      · rintro ⟨⟨expiresAt, hheld, rfl⟩, hle⟩
        exact ⟨expiresAt, ⟨hheld, hle⟩, rfl⟩
      · rintro ⟨expiresAt, ⟨hheld, hle⟩, rfl⟩
        exact ⟨⟨expiresAt, hheld, rfl⟩, hle⟩
  | finishApproved =>
      rw [System.leaseAt] at h ⊢
      dsimp only
      split <;> exact h
  | _ => exact h

/-- **Run.**  The lease under a key is the one the log has. -/
theorem exec_leaseAt (hrun : (machine cfg now withLeases).exec as = some (s, log)) (key : FullKey) :
    s.leaseAt key = (leaseOf log key).map (⟨key.approver, ·⟩) := by
  refine (machine cfg now withLeases).exec_run_induction
    (P := fun _ s log ↦ s.leaseAt key = (leaseOf log key).map (⟨key.approver, ·⟩)) ?_
    (fun as a s log s' es hrun h hs ↦ leaseAt_step (.of_step hs) ?_ h) hrun
  · cases withLeases with
    | true => exact AList.lookup_empty (β := fun _ ↦ ActiveLease) key
    | false => rfl
  · intro c id tx validUntil approver hc
    rw [exec_leases_isSome hrun]
    exact (exec_putting hrun c _ hc id tx validUntil approver rfl).configured

theorem leases_finishClaimed {c : Nat} (hs : Step cfg s (.finishClaimed c) s' es) :
    s'.leases = s.leases := by
  cases hs with
  | finishClaimedNone => rfl
  | finishDenied => rfl
  | finishApproved => dsimp only; split <;> rfl

/-- **When an approval and its lease are seen together.**  The lease of a visible
approval is in place exactly if it is the last one put under its key and no purge
has come after its end; and in a run, this is so for all visible approvals at every
point exactly if there are none. -/
theorem lease_held_iff (hrun : (machine cfg now withLeases).exec as = some (s, log)) :
    (∀ tx validUntil approver, Committed cfg now withLeases as tx validUntil approver →
      (s.leaseAt (newFullKey tx.lookup approver) = some ⟨approver, validUntil⟩ ↔
        leaseOf log (newFullKey tx.lookup approver) = some validUntil)) ∧
    ((∀ as₁ as₂ s₁ log₁, as = as₁ ++ as₂ →
      (machine cfg now withLeases).exec as₁ = some (s₁, log₁) →
        LeasesHeld cfg now withLeases as₁ s₁) ↔
      ∀ tx validUntil approver, ¬Committed cfg now withLeases as tx validUntil approver) := by
  refine ⟨fun tx validUntil approver _ ↦ ?_, fun hheld ↦ ?_, fun hnone ↦ ?_⟩
  · rw [exec_leaseAt hrun]
    cases leaseOf log (newFullKey tx.lookup approver) with
    | none => exact ⟨(nomatch ·), (nomatch ·)⟩
    | some expiresAt =>
        constructor
        · intro h
          cases h
          rfl
        · intro h
          cases h
          rfl
  · -- the first commit of the run finds no lease in place
    refine (machine cfg now withLeases).exec_run_induction
      (P := fun as₁ _ _ ↦ ∀ as₂, as = as₁ ++ as₂ →
        ∀ tx validUntil approver, ¬Committed cfg now withLeases as₁ tx validUntil approver)
      ?_ ?_ hrun [] (List.append_nil as).symm
    · rintro _ _ tx validUntil approver ⟨as₁, c, as₂, _, _, h, -⟩
      exact absurd h.symm (List.append_ne_nil_of_right_ne_nil as₁ (List.cons_ne_nil _ as₂))
    · intro as₁ a s₁ log₁ s₂ es hrun₁ ih hs as₂ heq tx validUntil approver hc
      have hrun₂ : (machine cfg now withLeases).exec (as₁ ++ [a]) = some (s₂, log₁ ++ es) :=
        (machine cfg now withLeases).exec_concat_iff.mpr ⟨s₁, log₁, es, hrun₁, hs, rfl⟩
      have hafter := hheld (as₁ ++ [a]) as₂ s₂ _ heq hrun₂ tx validUntil approver hc
      rw [List.append_assoc, List.singleton_append] at heq
      rcases hc.concat_cases hrun₁ with hc | ⟨c, rfl, hc⟩
      · exact ih (a :: as₂) heq tx validUntil approver hc
      · have hstep : Step cfg s₁ (.finishClaimed c) s₂ es := .of_step hs
        rw [System.leaseAt, leases_finishClaimed hstep] at hafter
        obtain ⟨leases, hl, hlease⟩ := Option.bind_eq_some_iff.mp hafter
        obtain ⟨c', id', hput⟩ := (exec_leasesFrom hrun₁).origin leases hl _ _ hlease
        obtain ⟨tx', approver', hc'⟩ := exec_leasePut hrun₁ hput
        exact ih (.finishClaimed c :: as₂) heq tx' validUntil approver' hc'
  · rintro as₁ as₂ s₁ log₁ rfl hrun₁ tx validUntil approver hc
    exact absurd (hc.mono as₂) (hnone tx validUntil approver)

end Runs

/-- The approval of `deploy` is committed, and its lease is yet to be put. -/
def beforePut : List Action := createDeploy ++ approveDeploy 1

/-- The approved result can be received, and a second request for the same access
finds no lease. -/
theorem approval_seen_before_lease :
    ∃ s log tx, (machine plainConfig 0 true).exec beforePut = some (s, log) ∧
      Committed plainConfig 0 true beforePut tx (5 * Time.minute) (str "telegram:1") ∧
      s.store.stateOf deployTx = some .approved ∧
      (step plainConfig s (.wait deployTx)).isSome = true ∧
      s.leaseAt (newFullKey tx.lookup (str "telegram:1")) = none ∧
      (s.leases.bind fun leases ↦ leases.findActive s.now deployInput.lookup) = none := by
  refine ⟨_, _, { deployInput.pending deployTx 0 with state := .approving }, rfl,
    ⟨createDeploy ++ (approveDeploy 1).dropLast, 1, [], _, _, rfl, rfl, by decide, deployTx, _, rfl,
      by decide⟩, by decide, by decide, by decide, by decide⟩

/-- Once the lease has been put, it is in place. -/
theorem lease_held_after_put :
    ∃ s log, (machine plainConfig 0 true).exec (beforePut ++ [.putLease 1]) = some (s, log) ∧
      (∀ tx validUntil approver,
        Committed plainConfig 0 true (beforePut ++ [.putLease 1]) tx validUntil approver →
        (s.leaseAt (newFullKey tx.lookup approver) = some ⟨approver, validUntil⟩ ↔
          leaseOf log (newFullKey tx.lookup approver) = some validUntil)) ∧
      ((∀ as₁ as₂ s₁ log₁, beforePut ++ [.putLease 1] = as₁ ++ as₂ →
        (machine plainConfig 0 true).exec as₁ = some (s₁, log₁) →
          LeasesHeld plainConfig 0 true as₁ s₁) ↔
        ∀ tx validUntil approver,
          ¬Committed plainConfig 0 true (beforePut ++ [.putLease 1]) tx validUntil approver) :=
  ⟨_, _, rfl, lease_held_iff rfl⟩

end LunaZTrust.Approval
