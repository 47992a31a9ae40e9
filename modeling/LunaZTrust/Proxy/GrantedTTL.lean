import LunaZTrust.Approval.CallbackGrammar
import LunaZTrust.Approval.Expiry
import LunaZTrust.Proxy.Provenance

/-!
# The ttl of an approval

An approver may choose among the configured ttls.  The number of a callback and the
`ttl_seconds` of a mobile request are looked up in the list before they are multiplied, so
that a product that wraps cannot pass for an allowed one; a ttl that is not positive stands for
the first of the list.  So `Approve` is called with a ttl of the list, and the expiry of the
credential, of the result and of the lease is the reading of the clock plus that ttl
(`approve_ttl_allowed`).

In the dev environment `Approve` is also called without an approver; that call has a ttl of its
own.
-/

namespace LunaZTrust.Proxy

open LunaZTrust.Go LunaZTrust.Lease LunaZTrust.Approval LunaZTrust.Api LunaZTrust.Ssh
open LunaZTrust.Transition LunaZTrust.Mobile

/-! ## What the handlers ask for -/

/-- There are ttls to choose from, and each of them is a positive `time.Duration`. -/
structure Admissible (allowed : List Int) : Prop where
  ne_nil : allowed ≠ []
  pos : ∀ a ∈ allowed, 0 < a
  small : ∀ a ∈ allowed, a * Time.second < 2 ^ 63

/-- The ttl is one of those configured. -/
def Granted (allowed : List Int) (ttl : Duration) : Prop := ∃ a ∈ allowed, ttl = a * Time.second

section Handlers

variable {allowed : List Int} {ttl : Duration}

theorem Admissible.ofSeconds_eq (h : Admissible allowed) {a : Int} (ha : a ∈ allowed) :
    Time.ofSeconds a = a * Time.second := by
  have hpos := h.pos a ha
  have hsmall := h.small a ha
  rw [Time.second] at hsmall
  refine wrap64_of_small ?_ (h.small a ha)
  rw [Time.second]
  omega

theorem Admissible.granted_ofSeconds (h : Admissible allowed) {a : Int} (ha : a ∈ allowed) :
    Granted allowed (Time.ofSeconds a) :=
  ⟨a, ha, h.ofSeconds_eq ha⟩

theorem Admissible.granted_default (h : Admissible allowed) :
    Granted allowed (defaultTTLFromAllowed allowed) := by
  cases allowed with
  | nil => exact absurd rfl h.ne_nil
  | cons a allowed => exact h.granted_ofSeconds List.mem_cons_self

/-- `Approve` keeps such a ttl, since it is positive. -/
theorem Granted.approveTTL (hg : Granted allowed ttl) (h : Admissible allowed) :
    Granted allowed (approveTTL ttl) := by
  obtain ⟨a, ha, rfl⟩ := hg
  have hpos := h.pos a ha
  have hsecond : ¬a * Time.second ≤ 0 := by
    rw [Time.second]
    omega
  rw [Approval.approveTTL, if_neg hsecond]
  exact ⟨a, ha, rfl⟩

/-- The ttl of a parsed callback is zero or one of those configured. -/
theorem Admissible.granted_of_parseCallbackData (h : Admissible allowed) {data txID : GoString}
    (hparse : parseCallbackData data allowed = some (.approve txID ttl)) :
    ttl = 0 ∨ Granted allowed ttl := by
  cases parseCallbackData_eq_some_iff.mp hparse with
  | approve => exact Or.inl rfl
  | approveFor _ _ _ hn => exact Or.inr (h.granted_ofSeconds hn)

/-- A callback approves with a ttl of the list. -/
theorem Admissible.granted_of_handleUpdate {p : Poller} (h : Admissible p.allowedTTLs)
    {upd : TelegramUpdate} {txID approver : GoString}
    (hu : handleUpdate p upd = some (.approve txID ttl approver)) : Granted p.allowedTTLs ttl := by
  obtain ⟨cq, callback, chatID, -, hparse, -, -, -, hd⟩ := handleUpdate_eq_some hu
  obtain ⟨-, asked, rfl, rfl⟩ := Callback.decision_eq_approve hd
  split
  · exact h.granted_default
  · next hpos =>
      rcases h.granted_of_parseCallbackData hparse with rfl | hg
      · exact absurd (Int.le_refl 0) hpos
      · exact hg

/-- A device approves with a ttl of the list. -/
theorem Admissible.granted_of_approveByDevice (h : Admissible allowed) {crypto : Crypto}
    {lib : Library} {req : MobileApproveRequest} {dev : Device} {now : Time}
    {txID approver : GoString}
    (ha : approveByDevice crypto lib allowed req dev now = .ok (txID, ttl, approver)) :
    Granted allowed ttl := by
  obtain ⟨-, -, -, rfl | ⟨hallowed, rfl⟩⟩ := approveByDevice_cases ha
  · exact h.granted_default
  · exact h.granted_ofSeconds (ttlAllowed_eq_true_iff.mp hallowed)

end Handlers

/-! ## The calls of a run -/

/-- The call of `Approve` is that of a callback or of a device. -/
inductive ByApprover (log : List Event) (c : Nat) : Prop
  | callback {upd : TelegramUpdate} (called : .callback c upd ∈ log)
  | device {r : HttpRequest} {req : MobileApproveRequest} {dev : Device} {t : Time}
      (called : .device c r req dev t ∈ log)

/-- `Approve` has been called with a ttl of the list. -/
def CalledWithin (allowed : List Int) (log : List Event) (c : Nat) : Prop :=
  ∃ id ttl approver, .store (.approveCalled c id ttl approver) ∈ log ∧ Granted allowed ttl

/-- The call an event stands for has a ttl of the list. -/
def Event.Within (allowed : List Int) (log : List Event) : Event → Prop
  | .callback c _ => CalledWithin allowed log c
  | .device c _ _ _ _ => CalledWithin allowed log c
  | _ => True

variable {Key Signer : Type} {crypto : Crypto} {ssh : Package Key Signer} {lib : Library}
  {cfg : Config} {now : Time} {as bs : List Action} {a : Action} {s s' : System Signer}
  {log es : List Event}

theorem CalledWithin.mono {allowed : List Int} {c : Nat} (h : CalledWithin allowed log c) :
    CalledWithin allowed (log ++ es) c := by
  obtain ⟨id, ttl, approver, hmem, hg⟩ := h
  exact ⟨id, ttl, approver, List.mem_append_left _ hmem, hg⟩

theorem Event.Within.mono {allowed : List Int} {e : Event} (h : e.Within allowed log) :
    e.Within allowed (log ++ es) := by
  cases e with
  | callback => exact CalledWithin.mono h
  | device => exact CalledWithin.mono h
  | _ => exact trivial

/-- **Step.** -/
theorem Step.within (hs : Step crypto ssh lib cfg s a s' es)
    (hallowed : Admissible cfg.poller.allowedTTLs) :
    ∀ e ∈ es, e.Within cfg.poller.allowedTTLs (log ++ es) := by
  have hmap : ∀ {es' : List Approval.Event} {log : List Event},
      ∀ e ∈ es'.map Event.store, e.Within cfg.poller.allowedTTLs log := by
    intro es' log e he
    obtain ⟨e', -, rfl⟩ := List.mem_map.mp he
    exact trivial
  have hlast : ∀ {e e' : Event}, e' ∈ log ++ [e, e'] :=
    List.mem_append_right _ (List.mem_cons_of_mem _ (List.mem_singleton_self _))
  cases hs with
  | bind => exact List.forall_mem_cons.mpr ⟨trivial, hmap⟩
  | startWait => exact List.forall_mem_cons.mpr ⟨trivial, hmap⟩
  | verifyDevice hh ha hst =>
      have hg := (hallowed.granted_of_approveByDevice ha).approveTTL hallowed
      refine List.forall_mem_cons.mpr ⟨?_, hmap⟩
      cases Approval.Step.of_step hst
      exact ⟨_, _, _, hlast, hg⟩
  | updateApprove hu hst =>
      have hg := (hallowed.granted_of_handleUpdate hu).approveTTL hallowed
      refine List.forall_mem_cons.mpr ⟨?_, hmap⟩
      cases Approval.Step.of_step hst
      exact ⟨_, _, _, hlast, hg⟩
  | store | issue | issueLeased | updateDeny => exact hmap
  | _ => exact List.forall_mem_nil _

/-- **Run.**  In every run, approvers have called `Approve` with a ttl of the list. -/
theorem exec_within (hallowed : Admissible cfg.poller.allowedTTLs)
    (hrun : (machine crypto ssh lib cfg now).exec as = some (s, log)) :
    ∀ e ∈ log, e.Within cfg.poller.allowedTTLs log := by
  refine (machine crypto ssh lib cfg now).exec_induction
    (P := fun _ log ↦ ∀ e ∈ log, e.Within cfg.poller.allowedTTLs log)
    (List.forall_mem_nil _) (fun s log a s' es h hs ↦ ?_) hrun
  refine List.forall_mem_append.mpr ⟨fun e he ↦ (h e he).mono, ?_⟩
  exact (Step.of_step hs).within hallowed

/-! ## The clock -/

variable (crypto ssh lib cfg now) in
/-- In the run, the call has read the clock to compute its expiry. -/
def ReadAt (as : List Action) (c : Nat) (t : Time) : Prop :=
  ∃ as₁ as₂ s₁ log₁, as = as₁ ++ .store (.startIssue c) :: as₂ ∧
    (machine crypto ssh lib cfg now).exec as₁ = some (s₁, log₁) ∧ s₁.approval.now = t

theorem ReadAt.mono {c : Nat} {t : Time} (h : ReadAt crypto ssh lib cfg now as c t) :
    ReadAt crypto ssh lib cfg now (as ++ bs) c t := by
  obtain ⟨as₁, as₂, s₁, log₁, rfl, hrun, ht⟩ := h
  exact ⟨as₁, as₂ ++ bs, s₁, log₁, by rw [List.append_assoc, List.cons_append], hrun, ht⟩

/-- An expiry is computed in a step of the store. -/
theorem Step.issueStarted_eq (hs : Step crypto ssh lib cfg s a s' es) {c : Nat} {id : TxID}
    {validUntil : Time} (h : .store (.issueStarted c id validUntil) ∈ es) :
    a = .store (.startIssue c) ∧ ∃ tx ttl approver,
      AList.lookup c s.approval.approves = some (.claimed id tx ttl approver) ∧
        validUntil = s.approval.now + ttl := by
  rcases hs.approval_cases with ⟨-, rfl⟩ | ⟨b, pre, es', hst, rfl, hpre, hb⟩
  · cases h
  · have hmem := mem_storeLog_iff.mpr h
    rw [storeLog_append, hpre, storeLog_map_store, List.nil_append] at hmem
    obtain ⟨rfl, hclaimed⟩ := (Approval.Step.of_step hst).issueStarted_eq hmem
    exact ⟨hb rfl, hclaimed⟩

/-- **Run.**  An expiry is a reading of the clock and the ttl with which `Approve` was called. -/
theorem exec_issueStarted (hrun : (machine crypto ssh lib cfg now).exec as = some (s, log)) :
    ∀ c id validUntil, .store (.issueStarted c id validUntil) ∈ log →
      ∃ t ttl approver, ReadAt crypto ssh lib cfg now as c t ∧
        .store (.approveCalled c id ttl approver) ∈ log ∧ validUntil = t + ttl := by
  refine (machine crypto ssh lib cfg now).exec_run_induction
    (P := fun as _ log ↦ ∀ c id validUntil, .store (.issueStarted c id validUntil) ∈ log →
      ∃ t ttl approver, ReadAt crypto ssh lib cfg now as c t ∧
        .store (.approveCalled c id ttl approver) ∈ log ∧ validUntil = t + ttl)
    (fun _ _ _ h ↦ absurd h List.not_mem_nil) (fun as a s log s' es hrun h hs ↦ ?_) hrun
  intro c id validUntil hmem
  rcases List.mem_append.mp hmem with hmem | hmem
  · obtain ⟨t, ttl, approver, hread, hcalled, heq⟩ := h c id validUntil hmem
    exact ⟨t, ttl, approver, hread.mono, List.mem_append_left _ hcalled, heq⟩
  · obtain ⟨rfl, tx, ttl, approver, hc, heq⟩ := (Step.of_step hs).issueStarted_eq hmem
    obtain ⟨as', happroval⟩ := exec_approval hrun
    have hcalled := (exec_timed happroval).approves c _ hc
    exact ⟨_, ttl, approver, ⟨as, [], s, log, rfl, hrun, rfl⟩,
      List.mem_append_left _ (mem_storeLog_iff.mp hcalled), heq⟩

/-! ## Expiries -/

/-- The instants up to which a call of `Approve` makes something valid. -/
inductive Expiry (s : System Signer) (log : List Event) (c : Nat) : Time → Prop
  /-- The credential it is about to have issued. -/
  | credential {id : TxID} {tx : Transaction} {validUntil : Time} {approver : GoString}
      (issuing : AList.lookup c s.approval.approves = some (.issuing id tx validUntil approver)) :
      Expiry s log c validUntil
  /-- The result it has published. -/
  | result {id : TxID} {res : Result}
      (finished : .store (.finished id .approved res (some c)) ∈ log) :
      Expiry s log c res.leaseExpiresAt
  /-- The lease it has left. -/
  | lease {id : TxID} {key : FullKey} {expiresAt : Time}
      (put : .store (.leasePut c id key expiresAt) ∈ log) : Expiry s log c expiresAt

theorem Expiry.issueStarted {c : Nat} {e : Time} (h : Expiry s log c e)
    (hrun : (machine crypto ssh lib cfg now).exec as = some (s, log)) :
    ∃ id, .store (.issueStarted c id e) ∈ log := by
  obtain ⟨as', happroval⟩ := exec_approval hrun
  have htimed := exec_timed happroval
  cases h with
  | credential hc => exact ⟨_, mem_storeLog_iff.mp (htimed.approves c _ hc)⟩
  | result hmem =>
      exact ⟨_, mem_storeLog_iff.mp (htimed.events _ (mem_storeLog_iff.mpr hmem))⟩
  | lease hmem =>
      exact ⟨_, mem_storeLog_iff.mp (htimed.events _ (mem_storeLog_iff.mpr hmem))⟩

/-- A callback or a device approves with a ttl of the list, and every expiry of its call is a
reading of the clock plus that ttl. -/
theorem approve_ttl_allowed (hallowed : Admissible cfg.poller.allowedTTLs)
    (hrun : (machine crypto ssh lib cfg now).exec as = some (s, log)) {c : Nat}
    (hc : ByApprover log c) :
    ∃ id approver, ∃ a ∈ cfg.poller.allowedTTLs,
      .store (.approveCalled c id (a * Time.second) approver) ∈ log ∧
      ∀ e, Expiry s log c e →
        ∃ t, ReadAt crypto ssh lib cfg now as c t ∧ e = t + a * Time.second := by
  have hwithin : CalledWithin cfg.poller.allowedTTLs log c := by
    cases hc with
    | callback called => exact exec_within hallowed hrun _ called
    | device called => exact exec_within hallowed hrun _ called
  obtain ⟨id, ttl, approver, hcalled, a, ha, rfl⟩ := hwithin
  refine ⟨id, approver, a, ha, hcalled, fun e he ↦ ?_⟩
  obtain ⟨id', hstarted⟩ := he.issueStarted hrun
  obtain ⟨t, ttl', approver', hread, hcalled', rfl⟩ := exec_issueStarted hrun c id' e hstarted
  obtain ⟨as', happroval⟩ := exec_approval hrun
  -- the number of the call belongs to one ttl
  have hunique := (exec_callsNumbered happroval).unique c _ _ _ _ _ _
    (mem_storeLog_iff.mpr hcalled') (mem_storeLog_iff.mpr hcalled)
  exact ⟨t, hread, by rw [hunique]⟩

/-- The calls of callbacks, and the leases that calls have left. -/
def granted (log : List Event) : List Nat × List (Nat × Time) :=
  (log.filterMap fun
    | .callback c _ => some c
    | _ => none,
  log.filterMap fun
    | .store (.leasePut c _ _ expiresAt) => some (c, expiresAt)
    | _ => none)

theorem byApprover_of_mem_granted {c : Nat} (h : c ∈ (granted log).1) : ByApprover log c := by
  obtain ⟨e, hmem, he⟩ := List.mem_filterMap.mp h
  split at he
  · cases he
    exact .callback hmem
  · cases he

theorem expiry_of_mem_granted {c : Nat} {e : Time} (h : (c, e) ∈ (granted log).2) :
    Expiry s log c e := by
  obtain ⟨e, hmem, he⟩ := List.mem_filterMap.mp h
  split at he
  · cases he
    exact .lease hmem
  · cases he

/-- The user approves for 300 seconds, at second 1000. -/
theorem approve_ttl_allowed_300 :
    ∃ s log, hostedMachine.exec approvedRun = some (s, log) ∧ ByApprover log 2 ∧
      Expiry s log 2 (1300 * Time.second) ∧
      ∃ t, ReadAt prefixingCrypto .plain twoRequestsLibrary hostedConfig (1000 * Time.second)
        approvedRun 2 t ∧ 1300 * Time.second = t + 300 * Time.second := by
  have hgranted : (hostedMachine.exec approvedRun).map (granted ·.2) =
      some ([2], [(2, 1300 * Time.second)]) := by decide +kernel
  obtain ⟨⟨s, log⟩, hrun, hlog⟩ := Option.map_eq_some_iff.mp hgranted
  dsimp only at hlog
  have hcall : ByApprover log 2 :=
    byApprover_of_mem_granted (by rw [hlog]; exact List.mem_singleton_self _)
  have hexpiry : Expiry s log 2 (1300 * Time.second) :=
    expiry_of_mem_granted (by rw [hlog]; exact List.mem_singleton_self _)
  have hallowed : Admissible hostedConfig.poller.allowedTTLs :=
    ⟨by decide, by decide, by decide⟩
  obtain ⟨id, approver, a, ha, -, hread⟩ := approve_ttl_allowed hallowed hrun hcall
  cases List.mem_singleton.mp ha
  exact ⟨s, log, hrun, hcall, hexpiry, hread _ hexpiry⟩

end LunaZTrust.Proxy
