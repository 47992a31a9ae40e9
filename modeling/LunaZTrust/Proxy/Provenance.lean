import LunaZTrust.Api.FailClosed
import LunaZTrust.Proxy.Runs

/-!
# Who gets a credential

A credential leaves the proxy through a wait handler.  `credential_authorized` says
for every run outside of the dev environment that it goes to the client who asked
for it, and only after somebody who may has approved: the transaction itself, or
another for the same access whose lease has not ended.

`Checked` is the invariant behind it: every handler that has got as far as the store
has passed its checks, and every call on the store is that of such a handler.
-/

namespace LunaZTrust.Proxy

open LunaZTrust.Go LunaZTrust.Ssh LunaZTrust.Auth LunaZTrust.Keystore LunaZTrust.Approval
open LunaZTrust.Lease LunaZTrust.Api LunaZTrust.Mobile LunaZTrust.Transition

variable {Key Signer : Type} (crypto : Crypto) (ssh : Package Key Signer) (lib : Library)
  (cfg : Config) (now : Time)

/-! ## Who may approve -/

/-- The request arrived at `handleMobileApprove` when the device was enrolled. -/
def Arrived (as : List Action) (m : MobileHandler) : Prop :=
  ∃ as₁ as₂ s₁ log₁, as = as₁ ++ .mobileApprove m.r :: as₂ ∧
    (machine crypto ssh lib cfg now).exec as₁ = some (s₁, log₁) ∧
    AList.lookup m.req.deviceID s₁.devices = some m.dev

/-- The approval call is one of `handleUpdate`, on a callback that names the
transaction and comes from the right chat and user, or one of `handleMobileApprove`,
on a request of an enrolled device that has its certificate and its signature. -/
inductive Authorized (as : List Action) (log : List Event) (c : Nat) (id : TxID)
    (approver : GoString) : Prop
  | callback {upd : TelegramUpdate} {cq : CallbackQuery} {chatID : Int}
      (called : .callback c upd ∈ log)
      (allowed : AuthorizedCallback cfg.poller upd id approver cq chatID)
  | device {m : MobileHandler} {t : Time} (called : .device c m.r m.req m.dev t ∈ log)
      (enrolled : Arrived crypto ssh lib cfg now as m)
      (cert : clientCertFPFromRequest crypto m.r = m.dev.certFingerprint)
      (names : m.req.txID = id)
      (signed : verifyDeviceSignature crypto m.dev.pubKey
        (lib.marshalMobileApproveSignPayload m.req.toMobileApproveSignPayload) m.req.signature t
        m.req.timestamp = .ok ())
      (approver_eq : approver = formatApproverDeviceID m.req.deviceID)

/-! ## The checks of the handlers -/

/-- The request of a sign handler. -/
def SignHandler.request : SignHandler → HttpRequest
  | .validating r _ _ _ _ => r
  | .checking r _ => r
  | .resolving r _ => r
  | .binding r _ _ => r

/-- The client may have a transaction's result. -/
def MayHave (r : HttpRequest) (tx : Transaction) : Prop :=
  tx.clientCertFP = [] ∨ clientCertFPFromRequest crypto r = tx.clientCertFP

/-- The call was made by a handler that had passed its checks. -/
def Event.Checked (as : List Action) (log : List Event) : Event → Prop
  | .submitted _ r req input => withMTLS r = .ok () ∧
      ∃ hostKeyFP dest client, input = signInput crypto lib r req hostKeyFP dest client
  | .store (.asked c input) => ∃ r req, .submitted c r req input ∈ log
  | .store (.registered c id _) => ∃ r tx, .waited c r id ∈ log ∧
      CreatedAs (storeLog log) id tx ∧ MayHave crypto r tx
  | .store (.approveCalled c id _ approver) => cfg.approval.isDev = false →
      Authorized crypto ssh lib cfg now as log c id approver
  | _ => True

/-- Handlers have passed their checks. -/
structure Checked (as : List Action) (s : System Signer) (log : List Event) : Prop where
  signs : ∀ h handler, AList.lookup h s.signs = some handler → withMTLS handler.request = .ok ()
  waits : ∀ h w, AList.lookup h s.waits = some w →
    ∀ entry, AList.lookup w.id s.approval.store.txs = some entry → MayHave crypto w.r entry.tx
  mobiles : ∀ h m, AList.lookup h s.mobiles = some m →
    Arrived crypto ssh lib cfg now as m ∧
      clientCertFPFromRequest crypto m.r = m.dev.certFingerprint
  events : ∀ e ∈ log, e.Checked crypto ssh lib cfg now as log

variable {crypto ssh lib cfg now} {as bs : List Action} {a : Action} {s s' : System Signer}
  {log es : List Event}

theorem Arrived.mono {m : MobileHandler} (h : Arrived crypto ssh lib cfg now as m) :
    Arrived crypto ssh lib cfg now (as ++ bs) m := by
  obtain ⟨as₁, as₂, s₁, log₁, rfl, hrun, hdev⟩ := h
  exact ⟨as₁, as₂ ++ bs, s₁, log₁, by rw [List.append_assoc, List.cons_append], hrun, hdev⟩

theorem Authorized.mono {c : Nat} {id : TxID} {approver : GoString}
    (h : Authorized crypto ssh lib cfg now as log c id approver) :
    Authorized crypto ssh lib cfg now (as ++ bs) (log ++ es) c id approver := by
  cases h with
  | callback called allowed => exact .callback (List.mem_append_left _ called) allowed
  | device called enrolled cert names signed approver_eq =>
      exact .device (List.mem_append_left _ called) enrolled.mono cert names signed approver_eq

theorem Event.Checked.mono {e : Event} (h : e.Checked crypto ssh lib cfg now as log) :
    e.Checked crypto ssh lib cfg now (as ++ bs) (log ++ es) := by
  cases e with
  | store e =>
      cases e with
      | asked =>
          obtain ⟨r, req, hmem⟩ := h
          exact ⟨r, req, List.mem_append_left _ hmem⟩
      | registered =>
          obtain ⟨r, tx, hmem, hcreated, hmay⟩ := h
          exact ⟨r, tx, List.mem_append_left _ hmem, storeLog_append ▸ hcreated.mono, hmay⟩
      | approveCalled => exact fun hdev ↦ (h hdev).mono
      | _ => exact trivial
  | submitted => exact h
  | _ => exact trivial

/-! ## Steps -/

/-- The action starts a call on the store. -/
def IsCall : Approval.Action → Bool
  | .sign _ _ => true
  | .approve _ _ _ => true
  | .wait _ => true
  | _ => false

theorem not_isCall_of_allows {b : Approval.Action} (h : s.allows b = true) : IsCall b = false := by
  cases b with
  | sign => exact nomatch h
  | approve => exact nomatch h
  | wait => exact nomatch h
  | _ => rfl

/-- No other step makes a call, except for an approval in the dev environment. -/
theorem checked_of_not_isCall {b : Approval.Action} {approval : Approval.System}
    {es' : List Approval.Event} (hb : IsCall b = false)
    (hst : Approval.step cfg.approval s.approval b = some (approval, es')) :
    ∀ e ∈ es'.map Event.store, e.Checked crypto ssh lib cfg now as log := by
  cases Approval.Step.of_step hst with
  | sign | approve | wait | waitNone => exact nomatch hb
  | startTimerDev _ h =>
      refine List.forall_mem_singleton.mpr fun hdev ↦ ?_
      exact nomatch hdev.symm.trans h
  | remove =>
      refine List.forall_mem_cons.mpr ⟨?_, List.forall_mem_singleton.mpr ?_⟩ <;> exact trivial
  | cancelWaitDelete =>
      refine List.forall_mem_cons.mpr ⟨?_, List.forall_mem_singleton.mpr ?_⟩ <;> exact trivial
  | _ =>
      first
      | exact List.forall_mem_nil _
      | refine List.forall_mem_singleton.mpr ?_; exact trivial

namespace Checked

theorem step_signs (h : Checked crypto ssh lib cfg now as s log)
    (hs : Step crypto ssh lib cfg s a s' es) :
    ∀ n handler, AList.lookup n s'.signs = some handler → withMTLS handler.request = .ok () := by
  cases hs with
  | sign hm _ => exact Map.forall_insert h.signs hm
  | validateRefused => exact Map.forall_erase h.signs
  | validate hh _ =>
      have hm := h.signs _ _ hh
      exact Map.forall_insert h.signs hm
  | checkSealedRefused => exact Map.forall_erase h.signs
  | checkSealed hh _ =>
      have hm := h.signs _ _ hh
      exact Map.forall_insert h.signs hm
  | resolveRefused => exact Map.forall_erase h.signs
  | resolve hh _ =>
      have hm := h.signs _ _ hh
      exact Map.forall_insert h.signs hm
  | bindRefused => exact Map.forall_erase h.signs
  | bind => exact Map.forall_erase h.signs
  | _ => exact h.signs

theorem step_mobiles (h : Checked crypto ssh lib cfg now as s log)
    (hrun : (machine crypto ssh lib cfg now).exec as = some (s, log))
    (hs : Step crypto ssh lib cfg s a s' es) :
    ∀ n m, AList.lookup n s'.mobiles = some m → Arrived crypto ssh lib cfg now (as ++ [a]) m ∧
      clientCertFPFromRequest crypto m.r = m.dev.certFingerprint := by
  have hold : ∀ n m, AList.lookup n s.mobiles = some m →
      Arrived crypto ssh lib cfg now (as ++ [a]) m ∧
        clientCertFPFromRequest crypto m.r = m.dev.certFingerprint :=
    fun n m hm ↦ ⟨(h.mobiles n m hm).1.mono, (h.mobiles n m hm).2⟩
  cases hs with
  | mobileApprove _ hf =>
      obtain ⟨hdev, hfp⟩ := findDevice_eq_ok hf
      exact Map.forall_insert hold ⟨⟨as, [], s, log, rfl, hrun, hdev⟩, hfp⟩
  | verifyRefused => exact Map.forall_erase hold
  | verifyDevice => exact Map.forall_erase hold
  | _ => exact hold

/-- A step of the approval system that creates no transaction a wait handler has. -/
theorem waits_of_approval (h : Checked crypto ssh lib cfg now as s log) {b : Approval.Action}
    {approval : Approval.System} {es' : List Approval.Event}
    (hst : Approval.step cfg.approval s.approval b = some (approval, es'))
    (hfresh : ∀ n w, AList.lookup n s.waits = some w →
      ∀ c, b ≠ .createBound c w.id ∧ b ≠ .createInstantApproved c w.id) :
    ∀ n w, AList.lookup n s.waits = some w →
      ∀ entry, AList.lookup w.id approval.store.txs = some entry → MayHave crypto w.r entry.tx := by
  intro n w hw entry he
  rcases (Approval.Step.of_step hst).entry_cases he with ⟨e, he', hfp⟩ | ⟨c, rfl⟩ | ⟨c, rfl⟩
  · have hmay := h.waits n w hw e he'
    rwa [MayHave, hfp] at hmay
  · exact absurd rfl (hfresh n w hw c).1
  · exact absurd rfl (hfresh n w hw c).2

theorem ne_of_allows {b : Approval.Action} (ha : s.allows b = true) {n : Nat} {w : WaitHandler}
    (hw : AList.lookup n s.waits = some w) (c : Nat) :
    b ≠ .createBound c w.id ∧ b ≠ .createInstantApproved c w.id := by
  have hmem : (⟨n, w⟩ : Sigma fun _ : Nat ↦ WaitHandler) ∈ s.waits.entries :=
    AList.mem_lookup_iff.mp hw
  constructor
  · rintro rfl
    exact absurd (List.all_eq_true.mp ha _ hmem) (by simp)
  · rintro rfl
    exact absurd (List.all_eq_true.mp ha _ hmem) (by simp)

theorem step_waits (h : Checked crypto ssh lib cfg now as s log)
    (hs : Step crypto ssh lib cfg s a s' es) :
    ∀ n w, AList.lookup n s'.waits = some w →
      ∀ entry, AList.lookup w.id s'.approval.store.txs = some entry →
        MayHave crypto w.r entry.tx := by
  cases hs with
  | store ha hst => exact h.waits_of_approval hst fun _ _ hw c ↦ ne_of_allows ha hw c
  | issue hst => exact h.waits_of_approval hst fun _ _ _ _ ↦ ⟨nofun, nofun⟩
  | issueLeased hst => exact h.waits_of_approval hst fun _ _ _ _ ↦ ⟨nofun, nofun⟩
  | bind _ _ hst => exact h.waits_of_approval hst fun _ _ _ _ ↦ ⟨nofun, nofun⟩
  | wait _ hw =>
      refine Map.forall_insert h.waits fun entry he ↦ ?_
      have hbound : s.approval.store.clientCertFP _ = some entry.tx.clientCertFP :=
        congrArg (Option.map fun e : TxEntry ↦ e.tx.clientCertFP) he
      rw [mayWait, hbound] at hw
      rcases Bool.or_eq_true_iff.mp hw with hempty | hfp
      · exact Or.inl (eq_of_beq hempty)
      · exact Or.inr (eq_of_beq hfp)
  | startWait _ hst =>
      exact Map.forall_erase (h.waits_of_approval hst fun _ _ _ _ ↦ ⟨nofun, nofun⟩)
  | verifyDevice _ _ hst => exact h.waits_of_approval hst fun _ _ _ _ ↦ ⟨nofun, nofun⟩
  | updateApprove _ hst => exact h.waits_of_approval hst fun _ _ _ _ ↦ ⟨nofun, nofun⟩
  | updateDeny _ hst => exact h.waits_of_approval hst fun _ _ _ _ ↦ ⟨nofun, nofun⟩
  | _ => exact h.waits

theorem step_events (h : Checked crypto ssh lib cfg now as s log)
    (hrun : (machine crypto ssh lib cfg now).exec as = some (s, log))
    (hs : Step crypto ssh lib cfg s a s' es) :
    ∀ e ∈ es, e.Checked crypto ssh lib cfg now (as ++ [a]) (log ++ es) := by
  have hmem : ∀ {e : Event} {es : List Event}, e ∈ log ++ e :: es :=
    List.mem_append_right _ List.mem_cons_self
  cases hs with
  | store ha hst => exact checked_of_not_isCall (not_isCall_of_allows ha) hst
  | issue hst => exact checked_of_not_isCall rfl hst
  | issueLeased hst => exact checked_of_not_isCall rfl hst
  | updateDeny _ hst => exact checked_of_not_isCall rfl hst
  | bind hh hb hst =>
      obtain ⟨dest, client, heq⟩ := bindRequest_eq_signInput hb
      have hm := h.signs _ _ hh
      cases Approval.Step.of_step hst with
      | sign =>
          refine List.forall_mem_cons.mpr ⟨⟨hm, _, dest, client, heq⟩,
            List.forall_mem_singleton.mpr ?_⟩
          exact ⟨_, _, hmem⟩
  | startWait hh hst =>
      cases Approval.Step.of_step hst with
      | waitNone =>
          refine List.forall_mem_cons.mpr ⟨?_, List.forall_mem_singleton.mpr ?_⟩ <;> exact trivial
      | wait hn =>
          -- the entry the handler is registered with was made for its client
          obtain ⟨entry, he, -⟩ := Store.waitResult_eq_some hn
          have hmay := h.waits _ _ hh entry he
          obtain ⟨as', happroval⟩ := exec_approval hrun
          obtain ⟨tx, hcreated, htx⟩ := exec_createdAs_of_entry happroval he
          refine List.forall_mem_cons.mpr ⟨trivial, List.forall_mem_singleton.mpr ?_⟩
          refine ⟨_, tx, hmem, storeLog_append ▸ hcreated.mono, ?_⟩
          rwa [MayHave, htx] at hmay
  | verifyDevice hh ha hst =>
      obtain ⟨hnames, happrover, hsigned⟩ := approveByDevice_eq_ok ha
      obtain ⟨harrived, hfp⟩ := h.mobiles _ _ hh
      cases Approval.Step.of_step hst with
      | approve =>
          refine List.forall_mem_cons.mpr ⟨trivial, List.forall_mem_singleton.mpr ?_⟩
          exact fun _ ↦ .device hmem harrived.mono hfp hnames hsigned happrover
  | updateApprove hu hst =>
      obtain ⟨cq, chatID, hallowed⟩ := handleUpdate_approve hu
      cases Approval.Step.of_step hst with
      | approve =>
          refine List.forall_mem_cons.mpr ⟨trivial, List.forall_mem_singleton.mpr ?_⟩
          exact fun _ ↦ .callback hmem hallowed
  | _ => exact List.forall_mem_nil _

/-- **Step.** -/
theorem step (h : Checked crypto ssh lib cfg now as s log)
    (hrun : (machine crypto ssh lib cfg now).exec as = some (s, log))
    (hs : Step crypto ssh lib cfg s a s' es) :
    Checked crypto ssh lib cfg now (as ++ [a]) s' (log ++ es) where
  signs := h.step_signs hs
  waits := h.step_waits hs
  mobiles := h.step_mobiles hrun hs
  events e hmem := by
    rcases List.mem_append.mp hmem with hmem | hmem
    · exact (h.events e hmem).mono
    · exact h.step_events hrun hs e hmem

end Checked

/-- **Run.**  In every run, handlers have passed their checks. -/
theorem exec_checked
    (hrun : (machine crypto ssh lib cfg now).exec as = some (s, log)) :
    Checked crypto ssh lib cfg now as s log := by
  refine (machine crypto ssh lib cfg now).exec_run_induction
    (P := fun as s log ↦ Checked crypto ssh lib cfg now as s log) ?_
    (fun as a s log s' es hrun h hs ↦ h.step hrun (.of_step hs)) hrun
  exact
    { signs := fun n _ h ↦ nomatch (AList.lookup_empty n).symm.trans h
      waits := fun n _ h ↦ nomatch (AList.lookup_empty n).symm.trans h
      mobiles := fun n _ h ↦ nomatch (AList.lookup_empty n).symm.trans h
      events := fun _ h ↦ absurd h List.not_mem_nil }

/-! ## Credentials -/

/-- The sign call of the request created the transaction, to be decided or as decided
by a lease. -/
structure Opened (log : List Event) (id : TxID) (c : Nat) (r : HttpRequest) (req : SignRequest)
    (input : SignInput) : Prop where
  submitted : .submitted c r req input ∈ log
  created : ∃ tx, tx.id = id ∧ (.store (.created c tx) ∈ log ∨
    ∃ lease res, .store (.instant c input lease tx res) ∈ log)

variable (crypto ssh lib cfg now) in
/-- The result is that of an approval of the transaction by somebody who may. -/
def ByApproval (as : List Action) (log : List Event) (id : TxID) (c : Nat) (approver : GoString)
    (res : Result) : Prop :=
  .store (.finished id .approved res (some c)) ∈ log ∧
    Authorized crypto ssh lib cfg now as log c id approver

variable (crypto ssh lib cfg now) in
/-- The result was issued on a lease that was found before its end.  The lease is that
of an approval of a transaction which has the same lookup key and may leave one. -/
def ByLease (as : List Action) (log : List Event) (id : TxID) (c : Nat) (input : SignInput)
    (res : Result) : Prop :=
  ∃ lease tx, tx.id = id ∧ .store (.instant c input lease tx res) ∈ log ∧
    (∃ t, .store (.leaseFound c input lease t) ∈ log ∧ t ≤ lease.expiresAt) ∧
    ∃ c' id' key, .store (.leasePut c' id' key lease.expiresAt) ∈ log ∧
      key.toLookupKey = input.lookup ∧
      (∃ res', ByApproval crypto ssh lib cfg now as log id' c' key.approver res') ∧
      ∃ tx', CreatedAs (storeLog log) id' tx' ∧ tx'.lookup = input.lookup ∧
        tx'.disableLease = false

section Runs

variable (hrun : (machine crypto ssh lib cfg now).exec as = some (s, log))

include hrun

/-- A sign call on the store is that of a request. -/
theorem exec_submitted {c : Nat} {input : SignInput} (h : .asked c input ∈ storeLog log) :
    ∃ r req, .submitted c r req input ∈ log :=
  (exec_checked hrun).events _ (mem_storeLog_iff.mp h)

/-- An approval call on the store is authorised. -/
theorem exec_authorized (hdev : cfg.approval.isDev = false) {c : Nat} {id : TxID}
    {approver : GoString} (h : ApprovedBy (storeLog log) c (id, approver)) :
    Authorized crypto ssh lib cfg now as log c id approver := by
  obtain ⟨ttl, hcalled⟩ := h
  exact (exec_checked hrun).events _ (mem_storeLog_iff.mp hcalled) hdev

/-- A transaction was opened by a request. -/
theorem exec_opened {id : TxID} {tx : Transaction} (h : CreatedAs (storeLog log) id tx) :
    ∃ c r req input, Opened log id c r req input := by
  obtain ⟨as', happroval⟩ := exec_approval hrun
  obtain ⟨hid, e, hmem, he⟩ := h
  have htraced := (exec_traced happroval).events e hmem
  cases e with
  | created c tx' =>
      cases he
      obtain ⟨input, hasked, -⟩ := htraced
      obtain ⟨r, req, hsub⟩ := exec_submitted hrun hasked
      exact ⟨c, r, req, input, hsub, tx, hid, Or.inl (mem_storeLog_iff.mp hmem)⟩
  | «instant» c input lease tx' res =>
      cases he
      obtain ⟨r, req, hsub⟩ := exec_submitted hrun htraced.1
      exact ⟨c, r, req, input, hsub, tx, hid, Or.inr ⟨lease, res, mem_storeLog_iff.mp hmem⟩⟩
  | _ => exact nomatch he

/-- A transaction has what its request brought. -/
theorem exec_transaction_eq {id : TxID} {tx : Transaction} {c : Nat} {r : HttpRequest}
    {req : SignRequest} {input : SignInput} (h : Opened log id c r req input)
    (hc : CreatedAs (storeLog log) id tx) :
    tx = input.pending id tx.createdAt ∨ tx = input.instant id tx.createdAt := by
  obtain ⟨as', happroval⟩ := exec_approval hrun
  obtain ⟨rfl, e, hmem, he⟩ := hc
  obtain ⟨hsub, tx₀, hid₀, hcreated⟩ := h
  rcases hcreated with hcreated | ⟨lease, res, hcreated⟩
  · have hmem₀ := mem_storeLog_iff.mpr hcreated
    cases exec_created_unique happroval hmem hmem₀ he rfl hid₀.symm
    obtain ⟨input', hasked, htx⟩ := (exec_traced happroval).events _ hmem₀
    obtain ⟨r', req', hsub'⟩ := exec_submitted hrun hasked
    -- the call belongs to one request only
    cases (exec_numbered hrun).unique _ hsub _ hsub' c rfl rfl
    cases he
    exact Or.inl htx
  · have hmem₀ := mem_storeLog_iff.mpr hcreated
    cases exec_created_unique happroval hmem hmem₀ he rfl hid₀.symm
    obtain ⟨-, htx, -⟩ := (exec_traced happroval).events _ hmem₀
    cases he
    exact Or.inr htx

/-- The transaction belongs to the client whose request opened it. -/
theorem exec_clientCertFP {id : TxID} {tx : Transaction} {c : Nat} {r : HttpRequest}
    {req : SignRequest} {input : SignInput} (h : Opened log id c r req input)
    (hc : CreatedAs (storeLog log) id tx) :
    tx.clientCertFP = clientCertFPFromRequest crypto r := by
  obtain ⟨-, hostKeyFP, dest, client, hinput⟩ := (exec_checked hrun).events _ h.submitted
  have hfp : tx.clientCertFP = input.clientCertFP := by
    rcases exec_transaction_eq hrun h hc with htx | htx
    · rw [htx]
      rfl
    · rw [htx]
      rfl
  rw [hfp, hinput]
  rfl

/-- A result without an error is that of an approval, or was issued on a lease. -/
theorem exec_decided (hdev : cfg.approval.isDev = false) {id : TxID} {res : Result} {c : Nat}
    {r : HttpRequest} {req : SignRequest} {input : SignInput} (hopen : Opened log id c r req input)
    (herr : res.err = none)
    (h : DecidedAs (storeLog log) id res) :
    (∃ c' approver, ByApproval crypto ssh lib cfg now as log id c' approver res) ∨
      ByLease crypto ssh lib cfg now as log id c input res := by
  obtain ⟨as', happroval⟩ := exec_approval hrun
  have htraced := exec_traced happroval
  rcases h with ⟨state, owner, hfin⟩ | ⟨c₁, input₁, lease, tx, hinst, hid⟩
  · obtain ⟨rfl, c', approver, rfl, happ⟩ := htraced.events _ hfin herr
    exact Or.inl ⟨c', approver, mem_storeLog_iff.mp hfin, exec_authorized hrun hdev happ⟩
  · obtain ⟨tx₀, hid₀, hcreated⟩ := hopen.created
    rcases hcreated with hcreated | ⟨lease₀, res₀, hcreated⟩
    · exact nomatch exec_created_unique happroval hinst (mem_storeLog_iff.mpr hcreated) rfl rfl
        (hid.trans hid₀.symm)
    · cases exec_created_unique happroval hinst (mem_storeLog_iff.mpr hcreated) rfl rfl
        (hid.trans hid₀.symm)
      obtain ⟨-, -, t, hfound, hle, c', id', key, hput, hkey⟩ := htraced.events _ hinst
      obtain ⟨⟨res', hfin⟩, tx', htx', -, _, ⟨rfl⟩, hlookup, -, hdis⟩ :=
        exec_leasePut_origin happroval hput
      refine Or.inr ⟨lease, tx, hid, hcreated, ⟨t, mem_storeLog_iff.mp hfound, hle⟩, c', id', key,
        mem_storeLog_iff.mp hput, hkey, ⟨res', mem_storeLog_iff.mp hfin, ?_⟩, tx', htx',
        hlookup.symm.trans hkey, hdis⟩
      exact exec_authorized hrun hdev (htraced.events _ hput)

end Runs

theorem clientCertFPFromRequest_ne_nil (hsha : ∀ b, crypto.sha256 b ≠ []) {r : HttpRequest}
    (hm : withMTLS r = .ok ()) : clientCertFPFromRequest crypto r ≠ [] := by
  rw [withMTLS] at hm
  split at hm
  · cases hm
  · next hcerts =>
      rw [clientCertFPFromRequest]
      split
      · next h => exact absurd h hcerts
      · next raw _ _ =>
          rw [clientCertFingerprint, Hex.encode]
          cases hsum : crypto.sha256 raw with
          | nil => exact absurd hsum (hsha raw)
          | cons => exact List.cons_ne_nil _ _

/-- **Who gets a credential.**  In every run outside of the dev environment, a wait
call whose result makes a response belongs to a request, and the transaction was
opened by one.  The two come from the same client, and either the transaction was
approved by somebody who may, or its result was issued on a lease for the same access,
not yet ended, that such an approval has left. -/
theorem credential_authorized (hdev : cfg.approval.isDev = false)
    (hsha : ∀ b, crypto.sha256 b ≠ [])
    (hrun : (machine crypto ssh lib cfg now).exec as = some (s, log)) {c : Nat} {id : TxID}
    {res : Result} {t : Time} {resp : WaitResponse} (hret : .store (.returned c id res) ∈ log)
    (hresp : waitReply t res = .ok resp) :
    (∃ r, .waited c r id ∈ log) ∧ (∃ c₀ r₀ req₀ input, Opened log id c₀ r₀ req₀ input) ∧
    ∀ r c₀ r₀ req₀ input, .waited c r id ∈ log → Opened log id c₀ r₀ req₀ input →
      clientCertFPFromRequest crypto r = clientCertFPFromRequest crypto r₀ ∧
      (∃ hostKeyFP dest client, input = signInput crypto lib r₀ req₀ hostKeyFP dest client) ∧
      ((∃ c' approver, ByApproval crypto ssh lib cfg now as log id c' approver res) ∨
        ByLease crypto ssh lib cfg now as log id c₀ input res) := by
  obtain ⟨as', happroval⟩ := exec_approval hrun
  obtain ⟨herr, -⟩ := waitReply_eq_ok hresp
  have hchecked := exec_checked hrun
  obtain ⟨⟨slot, hreg⟩, hdec⟩ := (exec_traced happroval).events _ (mem_storeLog_iff.mpr hret)
  obtain ⟨r₁, tx, hwaited, hcreated, hmay⟩ := hchecked.events _ (mem_storeLog_iff.mp hreg)
  refine ⟨⟨r₁, hwaited⟩, exec_opened hrun hcreated, ?_⟩
  intro r c₀ r₀ req₀ input hw hopen
  cases (exec_numbered hrun).unique _ hw _ hwaited c rfl rfl
  have hfp := exec_clientCertFP hrun hopen hcreated
  obtain ⟨hm, hinput⟩ := hchecked.events _ hopen.submitted
  refine ⟨?_, hinput, exec_decided hrun hdev hopen herr hdec⟩
  rcases hmay with hempty | hmay
  · exact absurd (hfp.symm.trans hempty) (clientCertFPFromRequest_ne_nil hsha hm)
  · exact hmay.trans hfp

/-! ### A run with both kinds of credentials -/

/-- Functions without collisions whose sums are not empty. -/
def prefixingCrypto : Crypto := { Crypto.plain with sha256 := (0 :: ·) }

/-- The request once more, a second later. -/
def laterRequest : SignRequest :=
  { boundRequest with
    timestamp := 1001
    popSignature := Hex.encode (popChallenge (str "deploy") (str "10.0.0.5") 1001) }

/-- A library that reads the body `[1]` as the request, and all others as the later
one. -/
def twoRequestsLibrary : Library :=
  { plainLibrary with
    unmarshalSignRequest := fun b ↦ some (if b = [1] then boundRequest else laterRequest) }

/-- The later request as it comes in. -/
def laterHttpRequest : HttpRequest :=
  { boundHttpRequest with body := [2], bodyMAC := Hex.encode [2] }

/-- A proxy that hosts keys, with a chat in which the user `1` decides. -/
def hostedConfig : Config where
  approval := { plainConfig with signerMode := .localKey }
  poller := ⟨str "1", [], [300]⟩
  telegramConfigured := true

/-- It starts at second 1000. -/
def hostedMachine : Machine (System Bytes) Action Event :=
  machine prefixingCrypto .plain twoRequestsLibrary hostedConfig (1000 * Time.second)

/-- A key is loaded, the request comes in, its client waits, and the user approves. -/
def approvedRun : List Action :=
  [.loadPEM [7] [] [] ⟨true, true, true⟩ 0, .sign boundHttpRequest, .validate 0, .checkSealed 0,
    .resolve 0, .bind 0, .store (.findActive 0), .store (.createBound 0 deployTx),
    .store (.startTimer 0), .wait boundHttpRequest deployTx, .startWait 1,
    .update ⟨some ⟨str "approve:tx_1:300", 1, some 1⟩⟩, .store (.claimApproval 2),
    .store (.startIssue 2), .issue 2 [], .store (.finishClaimed 2), .store (.putLease 2),
    .store (.receive 1), .store (.remove 1)]

/-- The later request is served on the lease. -/
def leasedRun : List Action :=
  [.sign laterHttpRequest, .validate 2, .checkSealed 2, .resolve 2, .bind 2,
    .store (.findActive 3), .store (.remaining 3), .store (.startLeased 3), .issueLeased 3 [],
    .store (.createInstantApproved 3 (str "tx_2")), .wait laterHttpRequest (str "tx_2"),
    .startWait 3, .store (.receive 4), .store (.remove 4)]

/-- The wait calls that are answered with a signature. -/
def served (log : List Event) : List (Nat × TxID) :=
  log.filterMap fun
    | .store (.returned c id res) =>
        match waitReply 0 res with
        | .ok resp => if resp.sshSignature ≠ [] then some (c, id) else none
        | .error _ => none
    | _ => none

theorem exists_returned_of_mem_served {c : Nat} {id : TxID} (h : (c, id) ∈ served log) :
    ∃ res resp, .store (.returned c id res) ∈ log ∧ waitReply 0 res = .ok resp := by
  obtain ⟨e, hmem, he⟩ := List.mem_filterMap.mp h
  split at he
  · next c' id' res =>
      split at he
      · next resp hresp =>
          obtain ⟨-, heq⟩ := Option.ite_none_right_eq_some.mp he
          cases heq
          exact ⟨res, resp, hmem, hresp⟩
      · exact nomatch he
  · exact nomatch he

/-- Both requests get their signatures, and both transactions have their requests. -/
theorem credential_authorized_deploy :
    ∃ s log, hostedMachine.exec (approvedRun ++ leasedRun) = some (s, log) ∧
      served log = [(1, deployTx), (4, str "tx_2")] ∧
      (∃ c r req input, Opened log deployTx c r req input) ∧
      ∃ c r req input, Opened log (str "tx_2") c r req input := by
  have hserved : (hostedMachine.exec (approvedRun ++ leasedRun)).map (served ·.2) =
      some [(1, deployTx), (4, str "tx_2")] := by decide +kernel
  have hsha : ∀ b, prefixingCrypto.sha256 b ≠ [] := fun b ↦ List.cons_ne_nil 0 b
  obtain ⟨⟨s, log⟩, hrun, hlog⟩ := Option.map_eq_some_iff.mp hserved
  have hmem : (1, deployTx) ∈ served log := hlog ▸ List.mem_cons_self
  have hmem' : (4, str "tx_2") ∈ served log := hlog ▸ List.mem_cons_of_mem _ List.mem_cons_self
  obtain ⟨res, resp, hret, hresp⟩ := exists_returned_of_mem_served hmem
  obtain ⟨res', resp', hret', hresp'⟩ := exists_returned_of_mem_served hmem'
  exact ⟨s, log, hrun, hlog, (credential_authorized (by decide) hsha hrun hret hresp).2.1,
    (credential_authorized (by decide) hsha hrun hret' hresp').2.1⟩

end LunaZTrust.Proxy
