import LunaZTrust.Api.SignHandler
import LunaZTrust.Approval.LeaseCommit
import LunaZTrust.Approval.Provenance

/-!
# The leases that are reported

With the credential `handleWait` reports until when a lease allows the next one.  For a
transaction served from a lease that is the expiry of this lease.  For an approved one it is
the expiry of the credential, whether or not the approval leaves a lease: there is a
lease behind the report exactly if there is a lease store, the approver is named, the
client has a certificate and the request does not forbid it (`reported_lease_iff`).
-/

namespace LunaZTrust.Api

open LunaZTrust.Go LunaZTrust.Lease LunaZTrust.Transition LunaZTrust.Approval

variable {cfg : Approval.Config} {now : Time} {withLeases : Bool} {as : List Approval.Action}
  {s s' : System} {a : Approval.Action} {log es : List Event}

/-- What an approval needs to leave a lease. -/
def LeavesLease (withLeases : Bool) (tx : Transaction) (approver : GoString) : Prop :=
  withLeases = true ∧ approver ≠ [] ∧ tx.clientCertFP ≠ [] ∧ tx.disableLease = false

/-- The approval has put the lease, or is just about to. -/
def RecordsLease (s : System) (log : List Event) (c : Nat) (id : TxID) (key : FullKey)
    (expiresAt : Time) : Prop :=
  .leasePut c id key expiresAt ∈ log ∨
    ∃ tx approver, AList.lookup c s.approves = some (.putting id tx expiresAt approver) ∧
      newFullKey tx.lookup approver = key

theorem leavesLease_iff {tx : Transaction} {approver : GoString} :
    leavesLease s tx approver = true ↔ LeavesLease s.leases.isSome tx approver := by
  simp only [leavesLease, LeavesLease, Bool.and_eq_true, bne_iff_ne, Bool.not_eq_true', and_assoc]

/-! ## Approvals that leave a lease -/

/-- A call that is about to put its lease still is after a step, or has put it. -/
theorem step_putting {c : Nat} {id : TxID} {tx : Transaction} {validUntil : Time}
    {approver : GoString} (hs : Step cfg s a s' es)
    (hlt : ∀ c call, AList.lookup c s.approves = some call → c < s.calls)
    (hc : AList.lookup c s.approves = some (.putting id tx validUntil approver)) :
    AList.lookup c s'.approves = some (.putting id tx validUntil approver) ∨
      .leasePut c id (newFullKey tx.lookup approver) validUntil ∈ es := by
  rcases hs.approve_cases (hlt c _ hc) hc with hstay | ⟨next, -, hadv⟩ | hend
  · exact .inl hstay
  · cases hadv
  · cases hend
    exact .inr (List.mem_singleton_self _)

theorem RecordsLease.step {c : Nat} {id : TxID} {key : FullKey} {expiresAt : Time}
    (h : RecordsLease s log c id key expiresAt) (hs : Step cfg s a s' es)
    (hlt : ∀ c call, AList.lookup c s.approves = some call → c < s.calls) :
    RecordsLease s' (log ++ es) c id key expiresAt := by
  rcases h with hput | ⟨tx, approver, hc, rfl⟩
  · exact .inl (List.mem_append_left es hput)
  · rcases step_putting hs hlt hc with hc | hput
    · exact .inr ⟨tx, approver, hc, rfl⟩
    · exact .inl (List.mem_append_right log hput)

/-- The approval was one of what the transaction was created as, and if it needs to leave a
lease it records one with the expiry it reports. -/
structure Grants (withLeases : Bool) (s : System) (log : List Event) (c : Nat) (id : TxID)
    (res : Result) (tx : Transaction) (approver : GoString) : Prop where
  created : CreatedAs log id tx
  approved : ApprovedBy log c (id, approver)
  records : LeavesLease withLeases tx approver →
    RecordsLease s log c id (newFullKey tx.lookup approver) res.leaseExpiresAt

theorem Grants.step {c : Nat} {id : TxID} {res : Result} {tx : Transaction} {approver : GoString}
    (h : Grants withLeases s log c id res tx approver) (hs : Step cfg s a s' es)
    (hlt : ∀ c call, AList.lookup c s.approves = some call → c < s.calls) :
    Grants withLeases s' (log ++ es) c id res tx approver :=
  ⟨h.created.mono, h.approved.mono, fun hl ↦ (h.records hl).step hs hlt⟩

/-- **Run.** -/
theorem exec_grants (hrun : (machine cfg now withLeases).exec as = some (s, log)) {id : TxID}
    {res : Result} {c : Nat} (hfin : .finished id .approved res (some c) ∈ log) :
    ∃ tx approver, Grants withLeases s log c id res tx approver := by
  refine (machine cfg now withLeases).exec_run_induction
    (P := fun _ s log ↦ .finished id .approved res (some c) ∈ log →
      ∃ tx approver, Grants withLeases s log c id res tx approver)
    (nomatch ·) (fun as a s log s' es hrun h hs hfin ↦ ?_) hrun hfin
  have hstep : Step cfg s a s' es := .of_step hs
  rcases List.mem_append.mp hfin with hfin | hfin
  · obtain ⟨tx, approver, hg⟩ := h hfin
    exact ⟨tx, approver, hg.step hstep (exec_approves_lt hrun)⟩
  · cases hstep with
    | @finishApproved c' id' tx validUntil approver res' entry hc hn =>
        cases List.mem_singleton.mp hfin
        obtain ⟨l, hl, href⟩ := (exec_refines hrun).2 id
        obtain ⟨-, tx₀, horigin, htx⟩ := href.calls c _ hc rfl
        refine ⟨tx₀, approver, ?_, ?_, fun hleaves ↦ .inr ⟨tx, approver, ?_, ?_⟩⟩
        · exact (((lifecycle_originates hl).iff tx₀).mpr horigin).mono
        · exact ((exec_traced hrun).approves c _ hc).mono
        · have hl : leavesLease s tx approver = true := by
            rw [leavesLease_iff, exec_leases_isSome hrun, htx]
            exact hleaves
          rw [if_pos hl]
          exact AList.lookup_insert _
        · rw [htx]
          rfl
    | _ => simp at hfin

/-- A lease is recorded only for what may leave it. -/
theorem exec_recordsLease (hrun : (machine cfg now withLeases).exec as = some (s, log)) {c : Nat}
    {id : TxID} {key : FullKey} {expiresAt : Time}
    (h : RecordsLease s log c id key expiresAt) :
    ∃ tx, CreatedAs log id tx ∧ LeavesLease withLeases tx key.approver := by
  rcases h with hput | ⟨tx, approver, hc, rfl⟩
  · obtain ⟨_, _, hcommitted⟩ := exec_leasePut hrun hput
    obtain ⟨-, tx, htx, happrover, _, ⟨rfl⟩, -, hfp, hdis⟩ := exec_leasePut_origin hrun hput
    exact ⟨tx, htx, hcommitted.configured, happrover, hfp, hdis⟩
  · have hcommitted := exec_putting hrun c _ hc id tx expiresAt approver rfl
    obtain ⟨l, hl, href⟩ := (exec_refines hrun).2 id
    obtain ⟨-, ⟨tx₀, horigin, htx⟩, happrover, hfp, hdis⟩ := href.calls c _ hc rfl
    rw [htx] at hfp hdis
    exact ⟨tx₀, ((lifecycle_originates hl).iff tx₀).mpr horigin, hcommitted.configured, happrover,
      hfp, hdis⟩

/-! ## Transactions served from a lease -/

/-- A sign call reports the expiry of the lease it uses. -/
def ReportsOwnLease : SignCall → Prop
  | .issued _ lease res => res.leaseExpiresAt = lease.expiresAt
  | _ => True

/-- **Step.** -/
theorem step_reportsOwnLease (hs : Step cfg s a s' es)
    (h : ∀ c call, AList.lookup c s.signs = some call → ReportsOwnLease call) :
    (∀ c call, AList.lookup c s'.signs = some call → ReportsOwnLease call) ∧
      ∀ c req lease tx res, .instant c req lease tx res ∈ es →
        res.leaseExpiresAt = lease.expiresAt := by
  cases hs with
  | sign =>
      refine ⟨Map.forall_insert h ?_, by simp⟩
      split <;> exact trivial
  | findActiveNone | findActive | remainingNone | remaining | startLeased | issueLeasedError =>
      exact ⟨Map.forall_insert h trivial, by simp⟩
  | issueLeased => exact ⟨Map.forall_insert h rfl, by simp⟩
  | createInstantApproved hc =>
      refine ⟨Map.forall_erase h, fun c req lease tx res hmem ↦ ?_⟩
      cases List.mem_singleton.mp hmem
      exact h _ _ hc
  | createBound => exact ⟨Map.forall_insert h trivial, by simp⟩
  | startTimer => exact ⟨Map.forall_erase h, by simp⟩
  | startTimerDev => exact ⟨Map.forall_erase h, by simp⟩
  | finishApproved =>
      refine ⟨?_, by simp⟩
      dsimp only
      split <;> exact h
  | _ => exact ⟨h, by simp⟩

/-- **Run.**  What is served from a lease reports the expiry of this lease. -/
theorem exec_instant_leaseExpiresAt (hrun : (machine cfg now withLeases).exec as = some (s, log))
    {c : Nat} {req : SignInput} {lease : ActiveLease} {tx : Transaction} {res : Result}
    (hinst : .instant c req lease tx res ∈ log) : res.leaseExpiresAt = lease.expiresAt := by
  refine ((machine cfg now withLeases).exec_induction
    (P := fun s log ↦ (∀ c call, AList.lookup c s.signs = some call → ReportsOwnLease call) ∧
      ∀ c req lease tx res, .instant c req lease tx res ∈ log →
        res.leaseExpiresAt = lease.expiresAt)
    ⟨fun c _ h ↦ (nomatch (AList.lookup_empty c).symm.trans h), fun _ _ _ _ _ h ↦ nomatch h⟩
    (fun s log a s' es h hs ↦ ?_) hrun).2 c req lease tx res hinst
  obtain ⟨hsigns, hes⟩ := step_reportsOwnLease (.of_step hs) h.1
  refine ⟨hsigns, fun c req lease tx res hmem ↦ ?_⟩
  rcases List.mem_append.mp hmem with hmem | hmem
  · exact h.2 c req lease tx res hmem
  · exact hes c req lease tx res hmem

/-! ## Reports -/

/-- The response says until when the lease lasts that the result says. -/
theorem waitReply_leaseExpiresAt {t : Time} {res : Result} {resp : WaitResponse} {expiresAt : Time}
    (h : waitReply t res = .ok resp) (hlease : resp.leaseExpiresAt = some expiresAt) :
    res.err = none ∧ res.leaseExpiresAt = expiresAt := by
  rw [waitReply] at h
  split at h
  · cases h
  · next herr =>
      cases h
      obtain ⟨-, hexp⟩ := Option.ite_none_left_eq_some.mp hlease
      exact ⟨herr, Option.some.inj hexp⟩

/-! ## Two runs -/

/-- A client waits for the transaction and gets its result, with the next call. -/
def waitDeploy (c : Nat) : List Approval.Action := [.wait deployTx, .receive c, .remove c]

/-- The request, forbidding a lease. -/
def withoutLease : SignInput := { deployInput with client := ⟨[], [], [], [], true⟩ }

/-- What the run has issued. -/
def deployResult : Result :=
  { cert := str "deploy", expiresAt := 5 * Time.minute, leaseExpiresAt := 5 * Time.minute }

/-- The approvals in progress, the leases that were put, and what is reported to those who have
waited. -/
def leasesAndReports (r : System × List Event) : Nat × List Time × List (Option Time) :=
  (r.1.approves.entries.length,
    r.2.filterMap fun
      | .leasePut _ _ _ expiresAt => some expiresAt
      | _ => none,
    r.2.filterMap fun
      | .returned _ _ res => (waitReply 0 res).toOption.map (·.leaseExpiresAt)
      | _ => none)

end LunaZTrust.Api
