import LunaZTrust.Approval.Refinement

/-!
# One outcome for each transaction

What holds of all lives of a transaction holds of all runs of the store: the
credential is issued at most once, the decision is made at most once and stands,
and a lease is left only after a committed approval.
-/

namespace LunaZTrust.Approval

open LunaZTrust.Go LunaZTrust.Lease LunaZTrust.Transition

/-! ## Where leases come from -/

/-- What a step can do to the leases. -/
theorem Step.leases_cases {cfg : Config} {s s' : System} {a : Action} {es : List Event}
    (hs : Step cfg s a s' es) :
    s'.leases = s.leases ∨ s'.leases = s.leases.map (·.purgeExpired s.now) ∨
      ∃ c id key expiresAt, es = [.leasePut c id key expiresAt] ∧
        s'.leases = s.leases.map (·.put key expiresAt) := by
  cases hs with
  | putLease => exact Or.inr (Or.inr ⟨_, _, _, _, rfl, rfl⟩)
  | purge => exact Or.inr (Or.inl rfl)
  | finishApproved =>
      refine Or.inl ?_
      split <;> rfl
  | _ => exact Or.inl rfl

/-- The lease store is indexed, and every lease in it was put there. -/
structure System.LeasesFrom (s : System) (log : List Event) : Prop where
  indexed : ∀ leases ∈ s.leases, leases.Indexed
  origin : ∀ leases ∈ s.leases, ∀ full l, AList.lookup full leases.leases = some l →
    ∃ c id, .leasePut c id full l.expiresAt ∈ log

theorem System.LeasesFrom.step {cfg : Config} {s s' : System} {a : Action} {log es : List Event}
    (h : s.LeasesFrom log) (hs : Step cfg s a s' es) : s'.LeasesFrom (log ++ es) := by
  have hmono : ∀ {e : Event}, e ∈ log → e ∈ log ++ es := List.mem_append_left es
  rcases hs.leases_cases with heq | heq | ⟨c, id, key, expiresAt, rfl, heq⟩
  · refine ⟨fun leases hl ↦ h.indexed leases (heq ▸ hl), fun leases hl full l hfull ↦ ?_⟩
    obtain ⟨c, id, hput⟩ := h.origin leases (heq ▸ hl) full l hfull
    exact ⟨c, id, hmono hput⟩
  · constructor
    · intro leases hl
      obtain ⟨leases', hl', rfl⟩ := Option.map_eq_some_iff.mp (heq ▸ hl)
      exact (h.indexed leases' hl').purgeExpired s.now
    · intro leases hl full l hfull
      obtain ⟨leases', hl', rfl⟩ := Option.map_eq_some_iff.mp (heq ▸ hl)
      obtain ⟨c, id, hput⟩ := h.origin leases' hl' full l
        (Lease.Store.lookup_purgeExpired_eq_some_iff.mp hfull).1
      exact ⟨c, id, hmono hput⟩
  · constructor
    · intro leases hl
      obtain ⟨leases', hl', rfl⟩ := Option.map_eq_some_iff.mp (heq ▸ hl)
      exact (h.indexed leases' hl').put key expiresAt
    · intro leases hl full l hfull
      obtain ⟨leases', hl', rfl⟩ := Option.map_eq_some_iff.mp (heq ▸ hl)
      rw [Lease.Store.lookup_put] at hfull
      split at hfull
      · next hkey =>
          cases hfull
          rw [hkey]
          exact ⟨c, id, List.mem_append_right _ (List.mem_singleton_self _)⟩
      · obtain ⟨c', id', hput⟩ := h.origin leases' hl' full l hfull
        exact ⟨c', id', hmono hput⟩

theorem leasesFrom_start (now : Time) (withLeases : Bool) :
    (System.start now withLeases).LeasesFrom [] := by
  cases withLeases with
  | false => exact ⟨nofun, nofun⟩
  | true =>
      refine ⟨fun leases h ↦ ?_, fun leases h full l hl ↦ ?_⟩
      · cases h
        exact Lease.Store.indexed_new
      · cases h
        exact nomatch (AList.lookup_empty full).symm.trans hl

theorem exec_leasesFrom {cfg : Config} {now : Time} {withLeases : Bool} {as : List Action}
    {s : System} {log : List Event}
    (hrun : (machine cfg now withLeases).exec as = some (s, log)) : s.LeasesFrom log :=
  (machine cfg now withLeases).exec_induction (P := System.LeasesFrom)
    (leasesFrom_start now withLeases) (fun _ _ _ _ _ h hs ↦ h.step (.of_step hs)) hrun

/-! ## Exclusion -/

/-- What an entry shows, as a function of its result. -/
theorem TxEntry.Fits.outcome {entry : TxEntry} {id : TxID} {l : Life} {log : List Event}
    (h : entry.Fits l) (hacc : l.Accounts id log) :
    (entry.tx.state = .approved ↔ ∃ res, entry.result = some res ∧ res.err = none) ∧
      (entry.tx.state = .denied ∨ entry.tx.state = .expired →
        ∃ res, entry.result = some res ∧ res.err ≠ none ∧ res.cert = [] ∧ res.signature = []) := by
  rw [h.state_eq, h.result_eq]
  cases hp : l.phase with
  | absent => exact absurd hp h.created
  | pending => exact ⟨⟨nofun, fun ⟨_, h, _⟩ ↦ nomatch h⟩, nofun⟩
  | claimed c => exact ⟨⟨nofun, fun ⟨_, h, _⟩ ↦ nomatch h⟩, nofun⟩
  | issuing c validUntil => exact ⟨⟨nofun, fun ⟨_, h, _⟩ ↦ nomatch h⟩, nofun⟩
  | decided state res owner =>
      rcases hacc.decision state res owner hp with ⟨rfl, herr, -⟩ | ⟨hst, herr, hcert, hsig⟩
      · exact ⟨⟨fun _ ↦ ⟨res, rfl, herr⟩, fun _ ↦ rfl⟩, nofun⟩
      · refine ⟨⟨fun h ↦ ?_, fun ⟨res', h, hnone⟩ ↦ ?_⟩, fun _ ↦ ⟨res, rfl, herr, hcert, hsig⟩⟩
        · rcases hst with rfl | rfl <;> exact nomatch h
        · cases h
          exact absurd hnone herr

/-- **One outcome.**  In every run, for every transaction:

* its credential is issued at most once, by an approval that claimed it when it
  was pending;
* it is finished at most once, and a result in its entry stays as it is for as
  long as the entry exists;
* its entry is in state approved exactly if the result has no error, and a denied
  or expired one has an error and no credential;
* a lease is put for it only by a call whose `finishClaimed` to approved took
  effect before, and then it was never finished otherwise; no other leases are in
  the lease store. -/
theorem one_outcome {cfg : Config} {now : Time} {withLeases : Bool} {as : List Action}
    {s : System} {log : List Event}
    (hrun : (machine cfg now withLeases).exec as = some (s, log)) (id : TxID) :
    (log.countP (·.startsIssue id) ≤ 1 ∧
      Along (fun pre e ↦ ∀ c validUntil, e = .issueStarted c id validUntil →
        .claimed c id (some .pending) ∈ pre) log) ∧
    (log.countP (·.finishes id) ≤ 1 ∧
      ∀ bs s' log', (machine cfg now withLeases).execFrom s bs = some (s', log') →
        ∀ entry entry' res, AList.lookup id s.store.txs = some entry → entry.result = some res →
          AList.lookup id s'.store.txs = some entry' →
            entry'.result = some res ∧ entry'.tx.state = entry.tx.state) ∧
    (∀ entry, AList.lookup id s.store.txs = some entry →
      (entry.tx.state = .approved ↔ ∃ res, entry.result = some res ∧ res.err = none) ∧
        (entry.tx.state = .denied ∨ entry.tx.state = .expired →
          ∃ res, entry.result = some res ∧ res.err ≠ none ∧ res.cert = [] ∧
            res.signature = [])) ∧
    (Along (fun pre e ↦ ∀ c key expiresAt, e = .leasePut c id key expiresAt →
        (∃ res, .finished id .approved res (some c) ∈ pre) ∧
          ∀ state res owner, .finished id state res owner ∈ log → state = .approved) log ∧
      ∀ leases ∈ s.leases, ∀ full l, AList.lookup full leases.leases = some l →
        ∃ c id', .leasePut c id' full l.expiresAt ∈ log) := by
  obtain ⟨hclean, hlives⟩ := exec_refines hrun
  obtain ⟨l, hl, href⟩ := hlives id
  have hacc := Life.Accounts.of_exec hl
  have halong := lifecycle_along hl
  refine ⟨⟨hacc.issues_le, fun pre e post h ↦ (halong pre e post h).1⟩,
    ⟨hacc.finishes_le, ?_⟩, fun entry he ↦ (href.entry entry he).outcome hacc,
    ⟨fun pre e post h c key expiresAt he ↦ ?_, (exec_leasesFrom hrun).origin⟩⟩
  · intro bs s' log' hrun' entry entry' res he hres he'
    obtain ⟨l', hl', href'⟩ := execFrom_refines hclean href hrun'
    have hfits := href.entry entry he
    have hfits' := href'.entry entry' he'
    obtain ⟨state, owner, hd⟩ : ∃ state owner, l.phase = .decided state res owner := by
      have hp := hfits.result_eq.symm.trans hres
      cases hphase : l.phase with
      | decided state res' owner =>
          rw [hphase] at hp
          cases hp
          exact ⟨state, owner, rfl⟩
      | _ =>
          rw [hphase] at hp
          exact nomatch hp
    obtain ⟨owner', hd'⟩ := lifecycle_decided hd hl'
    constructor
    · rw [hfits'.result_eq, hd']
      rfl
    · rw [hfits'.state_eq, hfits.state_eq, hd, hd']
      rfl
  · obtain ⟨res, hfin, -⟩ := (halong pre e post h).2 c key expiresAt he
    refine ⟨⟨res, hfin⟩, fun state res' owner hmem ↦ ?_⟩
    obtain ⟨owner₁, h₁⟩ := hacc.finished .approved res (some c)
      (h ▸ List.mem_append_left _ hfin)
    obtain ⟨owner₂, h₂⟩ := hacc.finished state res' owner hmem
    cases h₁.symm.trans h₂
    rfl

/-- The run in which a transaction is approved and leaves its lease. -/
theorem one_outcome_deploy :
    ∃ s log, (machine plainConfig 0 true).exec
        (createDeploy ++ approveDeploy 1 ++ [.putLease 1]) = some (s, log) ∧
      (∃ c key expiresAt, .leasePut c deployTx key expiresAt ∈ log) ∧
      log.countP (·.startsIssue deployTx) ≤ 1 ∧ log.countP (·.finishes deployTx) ≤ 1 := by
  obtain ⟨s, log, hrun, hput⟩ : ∃ s log, (machine plainConfig 0 true).exec
      (createDeploy ++ approveDeploy 1 ++ [.putLease 1]) = some (s, log) ∧
        ∃ c key expiresAt, .leasePut c deployTx key expiresAt ∈ log :=
    ⟨_, _, rfl, 1, newFullKey deployInput.lookup (str "telegram:1"), 5 * Time.minute, by decide⟩
  have h := one_outcome hrun deployTx
  exact ⟨s, log, hrun, hput, h.1.1, h.2.1.1⟩

end LunaZTrust.Approval
