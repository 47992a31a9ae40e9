import LunaZTrust.Approval.Provenance

/-!
# The expiry of an approval

`approveWithIssuer` reads the clock once, before the credential is issued, and adds its ttl.
The instant it gets is the expiry of the credential, of the result and of the lease: the log
has it in `issueStarted`, and the later steps of the call carry it along (`exec_timed`).
-/

namespace LunaZTrust.Approval

open LunaZTrust.Go LunaZTrust.Lease LunaZTrust.Transition

/-- The log has the ttl of an approval call, or its expiry. -/
def ApproveCall.Timed (log : List Event) (c : Nat) : ApproveCall → Prop
  | .claiming id ttl approver => .approveCalled c id ttl approver ∈ log
  | .claimed id _ ttl approver => .approveCalled c id ttl approver ∈ log
  | .issuing id _ validUntil _ => .issueStarted c id validUntil ∈ log
  | .issued id _ validUntil _ _ => .issueStarted c id validUntil ∈ log
  | .putting id _ validUntil _ => .issueStarted c id validUntil ∈ log

/-- The log has the expiry an event brings. -/
def Event.Timed (log : List Event) : Event → Prop
  | .finished id .approved res (some c) => .issueStarted c id res.leaseExpiresAt ∈ log
  | .leasePut c id _ expiresAt => .issueStarted c id expiresAt ∈ log
  | _ => True

variable {cfg : Config} {now : Time} {withLeases : Bool} {as : List Action} {s s' : System}
  {a : Action} {log es : List Event}

theorem ApproveCall.Timed.mono {c : Nat} {call : ApproveCall} (h : call.Timed log c) :
    call.Timed (log ++ es) c := by
  cases call <;> exact List.mem_append_left _ h

theorem Event.Timed.mono {e : Event} (h : e.Timed log) : e.Timed (log ++ es) := by
  rw [Event.Timed.eq_def] at h ⊢
  split at h
  · exact List.mem_append_left _ h
  · exact List.mem_append_left _ h
  · exact trivial

/-- All expiries come from the log. -/
structure System.Timed (s : System) (log : List Event) : Prop where
  approves : ∀ c call, AList.lookup c s.approves = some call → call.Timed log c
  events : ∀ e ∈ log, e.Timed log

namespace System.Timed

theorem step_approves (h : s.Timed log) (hs : Step cfg s a s' es) :
    ∀ c call, AList.lookup c s'.approves = some call → call.Timed (log ++ es) c := by
  have hold : ∀ c call, AList.lookup c s.approves = some call → call.Timed (log ++ es) c :=
    fun c call hc ↦ (h.approves c call hc).mono
  refine hs.forall_approves hold ?_ ?_
  · rintro id ttl approver - rfl
    exact List.mem_append_right _ (List.mem_singleton_self _)
  · intro c call next hc hadv
    have hcall := hold c call hc
    cases hadv with
    | start => exact List.mem_append_right _ (List.mem_singleton_self _)
    | claim | issue | finish => exact hcall

theorem step_events (h : s.Timed log) (hs : Step cfg s a s' es) :
    ∀ e ∈ es, e.Timed (log ++ es) := by
  have hsingle : ∀ {e : Event}, es = [e] → e.Timed (log ++ es) →
      ∀ e ∈ es, e.Timed (log ++ es) := by
    rintro e rfl he
    exact List.forall_mem_singleton.mpr he
  cases hs with
  | finishApproved hc _ => exact hsingle rfl (h.approves _ _ hc).mono
  | putLease hc => exact hsingle rfl (h.approves _ _ hc).mono
  | remove => exact List.forall_mem_cons.mpr ⟨trivial, List.forall_mem_singleton.mpr trivial⟩
  | cancelWaitDelete =>
      exact List.forall_mem_cons.mpr ⟨trivial, List.forall_mem_singleton.mpr trivial⟩
  | _ => first | exact hsingle rfl trivial | exact List.forall_mem_nil _

/-- **Step.** -/
theorem step (h : s.Timed log) (hs : Step cfg s a s' es) : s'.Timed (log ++ es) where
  approves := h.step_approves hs
  events e hmem := by
    rcases List.mem_append.mp hmem with hmem | hmem
    · exact (h.events e hmem).mono
    · exact h.step_events hs e hmem

end System.Timed

/-- **Run.**  In every run, all expiries come from the log. -/
theorem exec_timed (hrun : (machine cfg now withLeases).exec as = some (s, log)) :
    s.Timed log := by
  refine (machine cfg now withLeases).exec_induction (P := System.Timed) ?_
    (fun _ _ _ _ _ h hs ↦ h.step (.of_step hs)) hrun
  exact
    { approves := fun c _ h ↦ by cases (AList.lookup_empty c).symm.trans h
      events := fun _ h ↦ absurd h List.not_mem_nil }

/-! ## Where the events come from -/

/-- The expiry is the reading of the clock and the ttl of the call. -/
theorem Step.issueStarted_eq (hs : Step cfg s a s' es) {c : Nat} {id : TxID} {validUntil : Time}
    (h : .issueStarted c id validUntil ∈ es) :
    a = .startIssue c ∧ ∃ tx ttl approver,
      AList.lookup c s.approves = some (.claimed id tx ttl approver) ∧
        validUntil = s.now + ttl := by
  cases hs with
  | startIssue hc =>
      cases List.mem_singleton.mp h
      exact ⟨rfl, _, _, _, hc, rfl⟩
  | _ => simp at h

/-- A call gets the next number. -/
theorem Step.approveCalled_eq (hs : Step cfg s a s' es) {c : Nat} {id : TxID} {ttl : Duration}
    {approver : GoString} (h : .approveCalled c id ttl approver ∈ es) :
    es = [.approveCalled s.calls id ttl approver] ∧ c = s.calls ∧ s'.calls = s.calls + 1 ∧
      ((∃ c₀, a = .startTimer c₀) ∨
        ∃ ttl₀, a = .approve id ttl₀ approver ∧ ttl = approveTTL ttl₀) := by
  cases hs with
  | startTimerDev =>
      cases List.mem_singleton.mp h
      exact ⟨rfl, rfl, rfl, Or.inl ⟨_, rfl⟩⟩
  | approve =>
      cases List.mem_singleton.mp h
      exact ⟨rfl, rfl, rfl, Or.inr ⟨_, rfl, rfl⟩⟩
  | _ => simp at h

/-- A number belongs to one call of `Approve`, and not yet to the next one. -/
structure System.CallsNumbered (s : System) (log : List Event) : Prop where
  lt : ∀ c id ttl approver, .approveCalled c id ttl approver ∈ log → c < s.calls
  unique : ∀ c id ttl approver id' ttl' approver', .approveCalled c id ttl approver ∈ log →
    .approveCalled c id' ttl' approver' ∈ log → ttl = ttl'

/-- **Step.** -/
theorem System.CallsNumbered.step (h : s.CallsNumbered log) (hs : Step cfg s a s' es) :
    s'.CallsNumbered (log ++ es) where
  lt c id ttl approver hmem := by
    rcases List.mem_append.mp hmem with hmem | hmem
    · exact (h.lt _ _ _ _ hmem).trans_le hs.calls_le
    · obtain ⟨-, rfl, hcalls, -⟩ := hs.approveCalled_eq hmem
      exact hcalls ▸ Nat.lt_succ_self _
  unique c id ttl approver id' ttl' approver' hmem hmem' := by
    have hne : ∀ {c id ttl approver id' ttl' approver'},
        Event.approveCalled c id ttl approver ∈ log →
        Event.approveCalled c id' ttl' approver' ∈ es → False := by
      intro c id ttl approver id' ttl' approver' hold hnew
      obtain ⟨-, rfl, -⟩ := hs.approveCalled_eq hnew
      exact Nat.lt_irrefl _ (h.lt _ _ _ _ hold)
    rcases List.mem_append.mp hmem with hmem | hmem <;>
      rcases List.mem_append.mp hmem' with hmem' | hmem'
    · exact h.unique _ _ _ _ _ _ _ hmem hmem'
    · exact (hne hmem hmem').elim
    · exact (hne hmem' hmem).elim
    · obtain ⟨hes, -⟩ := hs.approveCalled_eq hmem
      rw [hes] at hmem'
      cases List.mem_singleton.mp hmem'
      rfl

/-- **Run.** -/
theorem exec_callsNumbered (hrun : (machine cfg now withLeases).exec as = some (s, log)) :
    s.CallsNumbered log := by
  refine (machine cfg now withLeases).exec_induction (P := System.CallsNumbered) ?_
    (fun _ _ _ _ _ h hs ↦ h.step (.of_step hs)) hrun
  exact
    { lt := fun _ _ _ _ h ↦ absurd h List.not_mem_nil
      unique := fun _ _ _ _ _ _ _ h ↦ absurd h List.not_mem_nil }

end LunaZTrust.Approval
