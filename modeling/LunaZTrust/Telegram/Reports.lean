import LunaZTrust.Telegram.Poller

/-!
# Reports and what became of the transaction

A report of the poller comes after its call on the store has returned.  By then the transaction
has been settled as reported, unless the call came to nothing (`report_settled_or_blocked`): there
was none, since the chat or the user may not decide; the transaction was not pending; it could not
be signed for; or it was gone when the approval was through.  The store does not tell the poller,
which reports all the same.
-/

namespace LunaZTrust.Approval

open LunaZTrust.Go

/-! ## The end of an approval -/

/-- The approval is committed and about to put its lease. -/
def ApproveCall.isPutting : ApproveCall → Bool
  | .putting _ _ _ _ => true
  | _ => false

/-- An approval of the transaction is in progress under a number, and not committed. -/
def System.Undecided (s : System) (c : Nat) (id : TxID) : Prop :=
  ∃ call, AList.lookup c s.approves = some call ∧ call.target.1 = id ∧ call.isPutting = false

/-- The steps at which an approval comes to nothing. -/
inductive System.Fails (s : System) (c : Nat) (id : TxID) : Action → Prop
  | notPending {ttl : Duration} {approver : GoString}
      (hc : AList.lookup c s.approves = some (.claiming id ttl approver))
      (hn : s.store.claimApproval id = none) : s.Fails c id (.claimApproval c)
  | notSigned {tx : Transaction} {validUntil : Time} {approver : GoString} {e : ApprovalError}
      (hc : AList.lookup c s.approves = some (.issued id tx validUntil approver (.error e))) :
      s.Fails c id (.finishClaimed c)
  | gone {tx : Transaction} {validUntil : Time} {approver : GoString}
      {res : Except ApprovalError Result}
      (hc : AList.lookup c s.approves = some (.issued id tx validUntil approver res))
      (hn : s.store.unfinished id .approving = none) : s.Fails c id (.finishClaimed c)

/-- **Step.**  An approval goes on, comes to nothing, or is committed. -/
theorem Step.undecided_cases {cfg : Config} {s s' : System} {a : Action} {es : List Event}
    {c : Nat} {id : TxID} (hs : Step cfg s a s' es) (hlt : c < s.calls) (h : s.Undecided c id) :
    s'.Undecided c id ∨ s.Fails c id a ∨ ∃ res, .finished id .approved res (some c) ∈ es := by
  obtain ⟨call, hc, hid, hput⟩ := h
  rcases hs.approve_cases hlt hc with hstay | ⟨next, hnext, hadv⟩ | hend
  · exact .inl ⟨call, hstay, hid, hput⟩
  · have htarget : next.target.1 = id := by rw [hadv.target_eq, hid]
    cases hadv with
    | finish =>
        cases hid
        exact .inr (.inr ⟨_, List.mem_singleton_self _⟩)
    | claim | start | issue => exact .inl ⟨_, hnext, htarget, rfl⟩
  · cases hid
    cases hend with
    | notPending hn => exact .inr (.inl (.notPending hc hn))
    | gone hn => exact .inr (.inl (.gone hc hn))
    | denied => exact .inr (.inl (.notSigned hc))
    | approved => exact .inr (.inr ⟨_, List.mem_singleton_self _⟩)
    | put => cases hput

end LunaZTrust.Approval

namespace LunaZTrust.Telegram

open LunaZTrust.Go LunaZTrust.Approval LunaZTrust.Transition

/-- The transaction has been decided, the way the action decides. -/
def Settled (log : List Event) (about : TxID × Verb) : Prop :=
  (∃ res owner, .store (.finished about.1 about.2.state res owner) ∈ log) ∨
    about.2 = .approve ∧ ∃ c req lease tx res, .store (.instant c req lease tx res) ∈ log ∧
      tx.id = about.1

section Runs

variable (cfg : Config) (p : Poller) (f : Formats) (now : Time) (withLeases : Bool)

/-- In the run, the poller's call came to nothing, or there was none. -/
def Blocked (as : List Action) (id : TxID) : Option Call → Prop
  | none => True
  | some (.approve c) => ∃ as₁ a as₂ s log, as = as₁ ++ .store a :: as₂ ∧
      (machine cfg p f now withLeases).exec as₁ = some (s, log) ∧ s.approval.Fails c id a
  | some (.deny n) => ∃ as₁ as₂ s log, as = as₁ ++ .call :: as₂ ∧
      (machine cfg p f now withLeases).exec as₁ = some (s, log) ∧ s.updates = n ∧
        s.approval.store.unfinished id .pending = none

/-- A report is right, or there is a reason for it not to be. -/
def Backed (as : List Action) (log : List Event) (call : Option Call) (about : TxID × Verb) :
    Prop :=
  Settled log about ∨ Blocked cfg p f now withLeases as about.1 call

/-- If the event is a report, it is backed by what came before. -/
def Judged (as : List Action) (pre : List Event) (e : Event) : Prop :=
  ∀ call r about, e = .reported call r → r.conveys = some about →
    Backed cfg p f now withLeases as pre call about

/-- What the poller is about to report is backed, or the approval it waits for is in progress. -/
def Prepared (as : List Action) (s : System) (log : List Event) : Prop :=
  match s.progress with
  | .approving c rs => c < s.approval.calls ∧ ∃ id, (∀ r ∈ rs, r.conveys = some (id, .approve)) ∧
      (s.approval.Undecided c id ∨
        Backed cfg p f now withLeases as log (some (.approve c)) (id, .approve))
  | .reporting call rs => ∀ r ∈ rs, ∀ about, r.conveys = some about →
      Backed cfg p f now withLeases as log call about
  | _ => True

variable {cfg p f now withLeases} {as : List Action} {s s' : System} {a : Action}
  {log es : List Event}

theorem Settled.mono {about : TxID × Verb} (h : Settled log about) : Settled (log ++ es) about := by
  rcases h with ⟨res, owner, hmem⟩ | ⟨hverb, c, req, lease, tx, res, hmem, hid⟩
  · exact .inl ⟨res, owner, List.mem_append_left es hmem⟩
  · exact .inr ⟨hverb, c, req, lease, tx, res, List.mem_append_left es hmem, hid⟩

theorem Blocked.mono {id : TxID} {call : Option Call} {bs : List Action}
    (h : Blocked cfg p f now withLeases as id call) :
    Blocked cfg p f now withLeases (as ++ bs) id call := by
  match call, h with
  | none, _ => trivial
  | some (.approve c), ⟨as₁, b, as₂, s, log, has, hrun, hf⟩ =>
      exact ⟨as₁, b, as₂ ++ bs, s, log, by rw [has, List.append_assoc, List.cons_append], hrun, hf⟩
  | some (.deny n), ⟨as₁, as₂, s, log, has, hrun, hn, hp⟩ =>
      exact ⟨as₁, as₂ ++ bs, s, log, by rw [has, List.append_assoc, List.cons_append], hrun, hn, hp⟩

theorem Backed.mono {call : Option Call} {about : TxID × Verb} {bs : List Action}
    (h : Backed cfg p f now withLeases as log call about) :
    Backed cfg p f now withLeases (as ++ bs) (log ++ es) call about :=
  h.imp Settled.mono Blocked.mono

/-- **Step.** -/
theorem Prepared.step (hrun : (machine cfg p f now withLeases).exec as = some (s, log))
    (h : Prepared cfg p f now withLeases as s log) (hs : Step cfg p f s a s' es) :
    Prepared cfg p f now withLeases (as ++ [a]) s' (log ++ es) := by
  cases hs with
  | @store b approval es hst =>
      have hstep : Approval.Step cfg s.approval b approval es := .of_step hst
      rw [Prepared] at h ⊢
      dsimp only
      cases hp : s.progress with
      | accepted => trivial
      | snapped => trivial
      | approving c rs =>
          rw [hp] at h
          obtain ⟨hlt, id, hconveys, hdec⟩ := h
          refine ⟨Nat.lt_of_lt_of_le hlt hstep.calls_le, id, hconveys, ?_⟩
          rcases hdec with hdec | hback
          · rcases hstep.undecided_cases hlt hdec with hdec | hfail | ⟨res, hmem⟩
            · exact .inl hdec
            · exact .inr (.inr ⟨as, b, [], s, log, rfl, hrun, hfail⟩)
            · exact .inr (.inl (.inl ⟨res, some c, List.mem_append_right log
                (List.mem_map_of_mem hmem)⟩))
          · exact .inr hback.mono
      | reporting call rs =>
          rw [hp] at h
          exact fun r hr about habout ↦ (h r hr about habout).mono
  | ignored hp hr => exact fun r hr about habout ↦ .inr trivial
  | accepted hp hr => trivial
  | snapshot hp => trivial
  | @approve cq msg txID ttl approver tx time hp =>
      refine ⟨Nat.lt_succ_self _, txID, fun r hr ↦ conveys_of_mem_reports hr, .inl ?_⟩
      exact ⟨.claiming txID (approveTTL ttl) approver, AList.lookup_insert _, rfl, rfl⟩
  | @deny cq msg txID tx time approval es hp hst =>
      intro r hr about habout
      obtain rfl := Option.some.inj (habout.symm.trans (conveys_of_mem_reports hr))
      have hstep : Approval.Step cfg s.approval (.deny txID) approval es := .of_step hst
      cases hstep with
      | denyNone hn => exact .inr ⟨as, [], s, log, rfl, hrun, rfl, hn⟩
      | deny hn =>
          exact .inl (.inl ⟨_, none, List.mem_append_right log (List.mem_singleton_self _)⟩)
  | @returned c rs hp hc =>
      rw [Prepared, hp] at h
      obtain ⟨-, id, hconveys, hdec⟩ := h
      intro r hr about habout
      obtain rfl := Option.some.inj (habout.symm.trans (hconveys r hr))
      rcases hdec with ⟨call, hcall, -⟩ | hback
      · exact nomatch hc.symm.trans hcall
      · exact hback.mono
  | @report call r rs hp =>
      rw [Prepared, hp] at h
      exact fun r' hr' about habout ↦ (h r' (List.mem_cons_of_mem r hr') about habout).mono

theorem Prepared.judged (h : Prepared cfg p f now withLeases as s log)
    (hs : Step cfg p f s a s' es) :
    Along (fun pre ↦ Judged cfg p f now withLeases as (log ++ pre)) es := by
  have hstore : ∀ es : List Approval.Event,
      Along (fun pre ↦ Judged cfg p f now withLeases as (log ++ pre)) (es.map .store) := by
    rintro es pre e post heq call r about rfl
    have hmem : .reported call r ∈ es.map Event.store := by
      rw [heq]
      exact List.mem_append_right pre List.mem_cons_self
    obtain ⟨e, -, he⟩ := List.mem_map.mp hmem
    exact nomatch he
  cases hs with
  | store => exact hstore _
  | approve => exact hstore [_]
  | deny => exact hstore _
  | @report call r rs hp =>
      refine along_singleton fun call' r' about heq habout ↦ ?_
      cases heq
      rw [Prepared, hp] at h
      exact h r List.mem_cons_self about habout
  | _ => exact along_nil _

/-- **Run.** -/
theorem exec_judged (hrun : (machine cfg p f now withLeases).exec as = some (s, log)) :
    Prepared cfg p f now withLeases as s log ∧ Along (Judged cfg p f now withLeases as) log := by
  refine (machine cfg p f now withLeases).exec_run_induction
    (P := fun as s log ↦ Prepared cfg p f now withLeases as s log ∧
      Along (Judged cfg p f now withLeases as) log)
    ⟨fun _ hr ↦ (nomatch hr), along_nil _⟩ (fun as a s log s' es hrun h hs ↦ ?_) hrun
  have hstep : Step cfg p f s a s' es := .of_step hs
  refine ⟨h.1.step hrun hstep, fun pre e post heq call r about he habout ↦ ?_⟩
  have hjudged := along_append_iff.mpr ⟨h.2, h.1.judged hstep⟩ pre e post heq call r about he habout
  exact hjudged.imp_right Blocked.mono

/-- Whatever the poller reports on a transaction, the transaction has been settled that way before
the report, or the poller's call came to nothing. -/
theorem report_settled_or_blocked {pre post : List Event} {call : Option Call} {r : Report}
    {id : TxID} {verb : Verb}
    (hrun : (machine cfg p f now withLeases).exec as = some (s, log))
    (hlog : log = pre ++ .reported call r :: post) (hconveys : r.conveys = some (id, verb)) :
    Settled pre (id, verb) ∨ Blocked cfg p f now withLeases as id call :=
  (exec_judged hrun).2 pre _ post hlog call r (id, verb) rfl hconveys

end Runs

/-! ## Runs -/

/-- A poller for the chat with user 1. -/
def plainPoller : Poller := ⟨str "1", [], [300]⟩

/-- Formats that leave everything out. -/
def noFormats : Formats := ⟨fun _ ↦ [], fun _ ↦ []⟩

/-- A button under the message of the transaction, pressed by a user. -/
def press (data : String) (userID : Int) : Action :=
  .update (some ⟨str "q", str data, userID, some ⟨7, 1⟩⟩)

/-- The poller takes the update to the store. -/
def takeToStore : List Action := [.snapshot, .call]

/-- It sends its three reports. -/
def sendReports : List Action := [.report, .report, .report]

/-- What the store has of the transaction, and what has been said about it. -/
def deployAndReports (r : System × List Event) : Option State × List (TxID × Verb) :=
  (r.1.approval.store.stateOf deployTx,
    r.2.filterMap fun
      | .reported _ r => r.conveys
      | .store _ => none)

/-- The user approves, and the approval is committed. -/
def approvedRun : List Action :=
  createDeploy.map .store ++ [press "approve:tx_1:300" 1] ++ takeToStore ++
    [.store (.claimApproval 1), .store (.startIssue 1), .store (.issue 1 plainSigners),
      .store (.finishClaimed 1), .store (.putLease 1), .returned]

/-- A report of the approval, and why it is right. -/
theorem report_settled_or_blocked_approved :
    ∃ s log pre post call r,
      (machine plainConfig plainPoller noFormats 0 true).exec (approvedRun ++ [.report]) =
        some (s, log) ∧
      log = pre ++ .reported call r :: post ∧ r.conveys = some (deployTx, .approve) ∧
      s.approval.store.stateOf deployTx = some .approved ∧
      (Settled pre (deployTx, .approve) ∨
        Blocked plainConfig plainPoller noFormats 0 true (approvedRun ++ [.report]) deployTx
          call) := by
  have hlog : ((machine plainConfig plainPoller noFormats 0 true).exec
      (approvedRun ++ [.report])).map (fun r ↦ (r.1.approval.store.stateOf deployTx,
        r.2.contains (.reported (some (.approve 1))
          (.log deployTx (.resolved .approve) (str "ttl="))))) = some (some .approved, true) := by
    decide +kernel
  obtain ⟨⟨s, log⟩, hrun, heq⟩ := Option.map_eq_some_iff.mp hlog
  obtain ⟨hstate, hmem⟩ := Prod.mk.inj heq
  obtain ⟨pre, post, hsplit⟩ := List.append_of_mem (List.contains_iff_mem.mp hmem)
  exact ⟨s, log, pre, post, _, _, hrun, hsplit, rfl, hstate,
    report_settled_or_blocked hrun hsplit rfl⟩

/-- The transaction has expired before the user approves. -/
def lateRun : List Action :=
  createDeploy.map .store ++
    [.store (.tick (60 * Time.second).toNat), .store (.fire deployTx), .store (.expire deployTx),
      press "approve:tx_1:300" 1] ++
    takeToStore ++ [.store (.claimApproval 1), .returned] ++ sendReports

/-- No certificate can be issued. -/
def unsignableRun : List Action :=
  createDeploy.map .store ++ [press "approve:tx_1:300" 1] ++ takeToStore ++
    [.store (.claimApproval 1), .store (.startIssue 1), .store (.issue 1 ⟨none, none⟩),
      .store (.finishClaimed 1), .returned] ++ sendReports

/-- The waiter has gone, and the transaction with it. -/
def goneRun : List Action :=
  createDeploy.map .store ++
    [.store (.wait deployTx), .store (.ctxDone 1), .store (.cancelWait 1),
      press "approve:tx_1:300" 1] ++
    takeToStore ++ [.store (.claimApproval 2), .returned] ++ sendReports

/-- The user denies what another approver has approved. -/
def deniedLateRun : List Action :=
  (createDeploy ++ approveDeploy 1).map .store ++ [press "deny:tx_1" 1] ++ takeToStore ++
    sendReports

/-- A user who may not decide presses a button. -/
def strangerRun : List Action :=
  createDeploy.map .store ++ [press "approve:tx_1:300" 2, .report, .report]

/-- In all of them the reports are wrong. -/
theorem reports_without_effect :
    [lateRun, unsignableRun, goneRun, deniedLateRun, strangerRun].map (fun as ↦
        ((machine plainConfig plainPoller noFormats 0 true).exec as).map deployAndReports) =
      [some (some .expired, List.replicate 3 (deployTx, .approve)),
        some (some .denied, List.replicate 3 (deployTx, .approve)),
        some (none, List.replicate 3 (deployTx, .approve)),
        some (some .approved, List.replicate 3 (deployTx, .deny)),
        some (some .pending, [(deployTx, .approve)])] := by
  decide +kernel

end LunaZTrust.Telegram
