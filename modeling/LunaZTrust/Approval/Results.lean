import LunaZTrust.Approval.Provenance

/-!
# What results say

A result that a wait returns was made by `issueForTransaction`, in an approval or on a lease, and
has been through the call that made it, an event, an entry of the store and a channel on its
way.  `Attested` follows what a result is known to be on that way: if every result that is
issued stands in some relation to the transaction it is issued for, so does every result that
is decided, to the transaction as it was created or, on a lease, to the one made up for the
request (`Attested.step`).
-/

namespace LunaZTrust.Approval

open LunaZTrust.Go LunaZTrust.Lease LunaZTrust.Transition

variable {cfg : Config} {s s' : System} {a : Action} {log es : List Event}
  {Q Q' : Transaction → Result → Prop}

/-- The relation does not look at what changes on the way. -/
structure Stable (Q : Transaction → Result → Prop) : Prop where
  state : ∀ tx state res, Q { tx with state := state } res → Q tx res
  leaseExpiresAt : ∀ tx res t, Q tx res → Q tx { res with leaseExpiresAt := t }

/-- The result is for the transaction as it was created. -/
def IssuedFor (Q : Transaction → Result → Prop) (log : List Event) (id : TxID) (res : Result) :
    Prop :=
  ∃ tx, CreatedAs log id tx ∧ Q tx res

theorem IssuedFor.mono {id : TxID} {res : Result} (h : IssuedFor Q log id res) :
    IssuedFor Q (log ++ es) id res := by
  obtain ⟨tx, hcreated, hQ⟩ := h
  exact ⟨tx, hcreated.mono, hQ⟩

theorem IssuedFor.imp {id : TxID} {res : Result} (h : IssuedFor Q log id res)
    (himp : ∀ tx res, Q tx res → Q' tx res) : IssuedFor Q' log id res := by
  obtain ⟨tx, hcreated, hQ⟩ := h
  exact ⟨tx, hcreated, himp tx res hQ⟩

/-- The results that are under way, and those that have been decided, are as the relation says. -/
structure Attested (Q : Transaction → Result → Prop) (s : System) (log : List Event) : Prop where
  leased : ∀ c call, AList.lookup c s.signs = some call → ∀ req lease res,
    call = .issued req lease res → Q req.leased res
  issued : ∀ c call, AList.lookup c s.approves = some call → ∀ id tx validUntil approver res,
    call = .issued id tx validUntil approver (.ok res) → IssuedFor Q log id res
  finished : ∀ id res c, .finished id .approved res (some c) ∈ log → IssuedFor Q log id res
  instant : ∀ c req lease tx res, .instant c req lease tx res ∈ log → Q req.leased res

theorem Attested.imp (h : Attested Q s log) (himp : ∀ tx res, Q tx res → Q' tx res) :
    Attested Q' s log where
  leased c call hc req lease res hres := himp _ _ (h.leased c call hc req lease res hres)
  issued c call hc id tx validUntil approver res hres :=
    (h.issued c call hc id tx validUntil approver res hres).imp himp
  finished id res c hmem := (h.finished id res c hmem).imp himp
  instant c req lease tx res hmem := himp _ _ (h.instant c req lease tx res hmem)

theorem attested_start (now : Time) (withLeases : Bool) :
    Attested Q (.start now withLeases) [] where
  leased c _ h := nomatch (AList.lookup_empty c).symm.trans h
  issued c _ h := nomatch (AList.lookup_empty c).symm.trans h
  finished _ _ _ h := nomatch h
  instant _ _ _ _ _ h := nomatch h

variable (cfg Q) in
/-- Whatever the signers of the action issue is as the relation says. -/
def Action.Issues (a : Action) : Prop :=
  ∀ c signers, a = .issue c signers ∨ a = .issueLeased c signers → ∀ tx validUntil res,
    issueForTransaction cfg signers tx validUntil = .ok res → Q tx res

namespace Attested

theorem step_leased (h : Attested Q s log) (hQ : Stable Q) (hs : Step cfg s a s' es)
    (ha : a.Issues cfg Q) :
    ∀ c call, AList.lookup c s'.signs = some call → ∀ req lease res,
      call = .issued req lease res → Q req.leased res := by
  cases hs with
  | sign req allowLease =>
      refine Map.forall_insert h.leased fun req lease res hcall ↦ ?_
      split at hcall <;> cases hcall
  | issueLeased _ hi =>
      refine Map.forall_insert h.leased ?_
      rintro req lease res ⟨⟩
      exact hQ.leaseExpiresAt _ _ _ (ha _ _ (.inr rfl) _ _ _ hi)
  | findActiveNone | findActive | remainingNone | remaining | startLeased | issueLeasedError
  | createBound => exact Map.forall_insert h.leased nofun
  | createInstantApproved | startTimer | startTimerDev => exact Map.forall_erase h.leased
  | finishApproved =>
      dsimp only
      split <;> exact h.leased
  | _ => exact h.leased

theorem step_issued (h : Attested Q s log) (hQ : Stable Q) {as : List Action} {now : Time}
    {withLeases : Bool} (hrun : (machine cfg now withLeases).exec as = some (s, log))
    (hs : Step cfg s a s' es) (ha : a.Issues cfg Q) :
    ∀ c call, AList.lookup c s'.approves = some call → ∀ id tx validUntil approver res,
      call = .issued id tx validUntil approver (.ok res) → IssuedFor Q (log ++ es) id res := by
  refine hs.forall_approves ?_ ?_ ?_
  · intro c call hc id tx validUntil approver res hcall
    exact (h.issued c call hc id tx validUntil approver res hcall).mono
  · rintro id ttl approver - - id' tx validUntil approver' res ⟨⟩
  · intro c call next hc hadv id tx validUntil approver res hnext
    cases hadv with
    | issue signers =>
        obtain ⟨tx', hcreated, htx⟩ := exec_createdAs_of_issuing hrun hc
        obtain ⟨rfl, rfl, rfl, rfl, hres⟩ := ApproveCall.issued.inj hnext
        have hissued := ha c signers (.inl rfl) _ _ _ hres
        rw [htx] at hissued
        exact ⟨tx', hcreated.mono, hQ.state _ _ _ hissued⟩
    | claim | start | finish => cases hnext

theorem step_finished (h : Attested Q s log) (hQ : Stable Q) (hs : Step cfg s a s' es) :
    ∀ id res c, .finished id .approved res (some c) ∈ es → IssuedFor Q (log ++ es) id res := by
  intro id res c hmem
  cases hs with
  | finishApproved hc _ =>
      cases List.mem_singleton.mp hmem
      obtain ⟨tx, hcreated, hissued⟩ := h.issued _ _ hc _ _ _ _ _ rfl
      exact ⟨tx, hcreated.mono, hQ.leaseExpiresAt _ _ _ hissued⟩
  | _ => simp at hmem

theorem step_instant (h : Attested Q s log) (hs : Step cfg s a s' es) :
    ∀ c req lease tx res, .instant c req lease tx res ∈ es → Q req.leased res := by
  intro c req lease tx res hmem
  cases hs with
  | createInstantApproved hc _ =>
      cases List.mem_singleton.mp hmem
      exact h.leased _ _ hc _ _ _ rfl
  | _ => simp at hmem

/-- **Step.** -/
theorem step (h : Attested Q s log) (hQ : Stable Q) {as : List Action} {now : Time}
    {withLeases : Bool} (hrun : (machine cfg now withLeases).exec as = some (s, log))
    (hs : Step cfg s a s' es) (ha : a.Issues cfg Q) : Attested Q s' (log ++ es) where
  leased := h.step_leased hQ hs ha
  issued := h.step_issued hQ hrun hs ha
  finished id res c hmem := by
    rcases List.mem_append.mp hmem with hmem | hmem
    · exact (h.finished id res c hmem).mono
    · exact h.step_finished hQ hs id res c hmem
  instant c req lease tx res hmem := by
    rcases List.mem_append.mp hmem with hmem | hmem
    · exact h.instant c req lease tx res hmem
    · exact h.step_instant hs c req lease tx res hmem

end Attested

end LunaZTrust.Approval
