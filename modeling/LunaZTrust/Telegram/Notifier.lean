import LunaZTrust.Go.Map
import LunaZTrust.Telegram.Keyboard
import LunaZTrust.Telegram.Prompt
import LunaZTrust.Transition.Machine

/-!
# One prompt per transaction

`Notify` of `proxy/internal/approval/telegram.go` marks the transaction as sent, builds the
request, sends it, and takes the mark back if the answer is a failure.  Calls run side by side
and meet only in the marks, so `machine` interleaves the parts between which the lock is free.

A mark has one cause: a call under way that has set it, a prompt that was delivered, or a call
that failed to build its request (`exec_causes`).  Of these there is never more than one for a
transaction, so it is prompted for at most once.  A call whose attempt failed takes its mark
with it; one that failed before there was an attempt leaves it behind, and no later call for the
transaction makes an attempt (`one_prompt_per_transaction`).
-/

namespace LunaZTrust.Telegram

open LunaZTrust.Go LunaZTrust.Approval LunaZTrust.Transition

/-! ## The notifier -/

/-- `telegramAPIBase`. -/
def telegramAPIBase : GoString := str "https://api.telegram.org"

/-- `NotifierConfig`, without the HTTP client. -/
structure NotifierConfig where
  botToken : GoString
  chatID : GoString
  allowedTTLSeconds : List Int
  baseURL : GoString

/-- `Notifier`, without the HTTP client and the marks. -/
structure Notifier where
  token : GoString
  chatID : GoString
  allowedTTLs : List Int
  baseURL : GoString

/-- `NewNotifier`. -/
def newNotifier (cfg : NotifierConfig) : Notifier where
  token := cfg.botToken
  chatID := cfg.chatID
  allowedTTLs := cfg.allowedTTLSeconds
  baseURL := if cfg.baseURL = [] then telegramAPIBase else cfg.baseURL

namespace Notifier

/-- `Configured`. -/
def configured (n : Notifier) : Bool := n.token ≠ [] && n.chatID ≠ []

/-- The body of a `sendMessage`. -/
structure Message where
  chatID : GoString
  text : GoString
  inlineKeyboard : List (List Button)

/-- The functions of the standard library a call uses before it sends. -/
structure Library (Context Request : Type) where
  /-- `json.Marshal` of the body. -/
  marshal : Message → Option Bytes
  /-- `http.NewRequestWithContext` for a `POST`, with the URL and the body. -/
  newRequestWithContext : Context → GoString → Bytes → Option Request

/-- The errors of `Notify`. -/
inductive NotifyError
  | marshal
  | newRequest
  | transport
  | status (code : Int)
deriving DecidableEq, Repr

variable {Context Request : Type}

/-- The message for a transaction. -/
def message (n : Notifier) (tx : Transaction) : Message where
  chatID := n.chatID
  text := formatApprovalMessage (some tx)
  inlineKeyboard := approvalKeyboard tx.id n.allowedTTLs

/-- `Notify` from the mark to the request. -/
def build (lib : Library Context Request) (n : Notifier) (ctx : Context) (tx : Transaction) :
    Except NotifyError Request :=
  match lib.marshal (n.message tx) with
  | none => .error .marshal
  | some raw =>
      let url := n.baseURL ++ str "/bot" ++ n.token ++ str "/sendMessage"
      match lib.newRequestWithContext ctx url raw with
      | none => .error .newRequest
      | some req => .ok req

/-- What `client.Do` returns. -/
inductive Reply
  | failed
  | response (statusCode : Int)
deriving DecidableEq, Repr

/-- The error `Notify` makes of it. -/
def Reply.error : Reply → Option NotifyError
  | .failed => some .transport
  | .response code => if code < 200 ∨ code ≥ 300 then some (.status code) else none

/-! ## Calls side by side -/

/-- How far a call is. -/
inductive Stage (Request : Type)
  /-- Before it asks for the mark. -/
  | entered
  /-- It has set the mark. -/
  | marked
  /-- `client.Do`. -/
  | sending (req : Request)
  /-- Before `forgetSent`. -/
  | failing (e : NotifyError)

/-- The mark is the call's. -/
def Stage.holds : Stage Request → Bool
  | .entered => false
  | .marked | .sending _ | .failing _ => true

/-- A call of `Notify` under way. -/
structure Call (Context Request : Type) where
  ctx : Context
  tx : Transaction
  stage : Stage Request

/-- The map `sent`, and the calls under way. -/
structure System (Context Request : Type) where
  sent : Map GoString Unit
  calls : Map Nat (Call Context Request)

/-- What happens next: a call comes in, or one goes on. -/
inductive Action (Context : Type)
  | notify (c : Nat) (ctx : Context) (tx : Option Transaction)
  | check (c : Nat)
  | build (c : Nat)
  | answer (c : Nat) (reply : Reply)
  | forget (c : Nat)

/-- What can be seen of a call.  All but `answered` are its end, and `answered` is if the attempt
was a success. -/
inductive Event
  /-- There is nothing to send, or nothing to send it with: no error. -/
  | ignored (c : Nat)
  /-- The transaction was marked: no error. -/
  | skipped (c : Nat) (txID : GoString)
  /-- The request could not be built: the error is returned. -/
  | unbuilt (c : Nat) (txID : GoString) (e : NotifyError)
  /-- An attempt was made. -/
  | answered (c : Nat) (txID : GoString) (reply : Reply)
  /-- `forgetSent`, and the error is returned. -/
  | forgot (c : Nat) (txID : GoString) (e : NotifyError)
deriving DecidableEq, Repr

/-- One part of a call. -/
def step (lib : Library Context Request) (n : Notifier) (s : System Context Request) :
    Action Context → Option (System Context Request × List Event)
  | .notify c ctx tx =>
      match AList.lookup c s.calls with
      | some _ => none
      | none =>
          match tx with
          | none => some (s, [.ignored c])
          | some tx =>
              if n.configured then
                some ({ s with calls := s.calls.insert c ⟨ctx, tx, .entered⟩ }, [])
              else some (s, [.ignored c])
  | .check c =>
      match AList.lookup c s.calls with
      | some ⟨ctx, tx, .entered⟩ =>
          match AList.lookup tx.id s.sent with
          | some () => some ({ s with calls := s.calls.erase c }, [.skipped c tx.id])
          | none =>
              some (⟨s.sent.insert tx.id (), s.calls.insert c ⟨ctx, tx, .marked⟩⟩, [])
      | _ => none
  | .build c =>
      match AList.lookup c s.calls with
      | some ⟨ctx, tx, .marked⟩ =>
          match n.build lib ctx tx with
          | .error e => some ({ s with calls := s.calls.erase c }, [.unbuilt c tx.id e])
          | .ok req =>
              some ({ s with calls := s.calls.insert c ⟨ctx, tx, .sending req⟩ }, [])
      | _ => none
  | .answer c reply =>
      match AList.lookup c s.calls with
      | some ⟨ctx, tx, .sending _⟩ =>
          match reply.error with
          | none => some ({ s with calls := s.calls.erase c }, [.answered c tx.id reply])
          | some e =>
              some ({ s with calls := s.calls.insert c ⟨ctx, tx, .failing e⟩ },
                [.answered c tx.id reply])
      | _ => none
  | .forget c =>
      match AList.lookup c s.calls with
      | some ⟨_, tx, .failing e⟩ =>
          some (⟨s.sent.erase tx.id, s.calls.erase c⟩, [.forgot c tx.id e])
      | _ => none

/-- The calls on one notifier, interleaved in any way. -/
def machine (lib : Library Context Request) (n : Notifier) :
    Machine (System Context Request) (Action Context) Event where
  start := ⟨∅, ∅⟩
  step := step lib n

/-- The call that goes on. -/
def Action.call : Action Context → Nat
  | .notify c _ _ | .check c | .build c | .answer c _ | .forget c => c

/-- What a step can do. -/
inductive Step (lib : Library Context Request) (n : Notifier) (s : System Context Request) :
    Action Context → System Context Request → List Event → Prop
  | ignored {c : Nat} {ctx : Context} {tx : Option Transaction} :
      Step lib n s (.notify c ctx tx) s [.ignored c]
  | entered {c : Nat} {ctx : Context} {tx : Transaction} (hc : AList.lookup c s.calls = none) :
      Step lib n s (.notify c ctx (some tx))
        { s with calls := s.calls.insert c ⟨ctx, tx, .entered⟩ } []
  | skipped {c : Nat} {ctx : Context} {tx : Transaction}
      (hc : AList.lookup c s.calls = some ⟨ctx, tx, .entered⟩)
      (hsent : AList.lookup tx.id s.sent = some ()) :
      Step lib n s (.check c) { s with calls := s.calls.erase c } [.skipped c tx.id]
  | marked {c : Nat} {ctx : Context} {tx : Transaction}
      (hc : AList.lookup c s.calls = some ⟨ctx, tx, .entered⟩)
      (hsent : AList.lookup tx.id s.sent = none) :
      Step lib n s (.check c) ⟨s.sent.insert tx.id (), s.calls.insert c ⟨ctx, tx, .marked⟩⟩ []
  | unbuilt {c : Nat} {ctx : Context} {tx : Transaction} {e : NotifyError}
      (hc : AList.lookup c s.calls = some ⟨ctx, tx, .marked⟩)
      (he : n.build lib ctx tx = .error e) :
      Step lib n s (.build c) { s with calls := s.calls.erase c } [.unbuilt c tx.id e]
  | built {c : Nat} {ctx : Context} {tx : Transaction} {req : Request}
      (hc : AList.lookup c s.calls = some ⟨ctx, tx, .marked⟩)
      (hreq : n.build lib ctx tx = .ok req) :
      Step lib n s (.build c) { s with calls := s.calls.insert c ⟨ctx, tx, .sending req⟩ } []
  | delivered {c : Nat} {ctx : Context} {tx : Transaction} {req : Request} {reply : Reply}
      (hc : AList.lookup c s.calls = some ⟨ctx, tx, .sending req⟩) (hreply : reply.error = none) :
      Step lib n s (.answer c reply) { s with calls := s.calls.erase c }
        [.answered c tx.id reply]
  | failed {c : Nat} {ctx : Context} {tx : Transaction} {req : Request} {reply : Reply}
      {e : NotifyError} (hc : AList.lookup c s.calls = some ⟨ctx, tx, .sending req⟩)
      (hreply : reply.error = some e) :
      Step lib n s (.answer c reply)
        { s with calls := s.calls.insert c ⟨ctx, tx, .failing e⟩ } [.answered c tx.id reply]
  | forgot {c : Nat} {ctx : Context} {tx : Transaction} {e : NotifyError}
      (hc : AList.lookup c s.calls = some ⟨ctx, tx, .failing e⟩) :
      Step lib n s (.forget c) ⟨s.sent.erase tx.id, s.calls.erase c⟩ [.forgot c tx.id e]

section Runs

variable {lib : Library Context Request} {n : Notifier} {s s' : System Context Request}
  {a : Action Context} {es log : List Event}

theorem Step.of_step (h : step lib n s a = some (s', es)) : Step lib n s a s' es := by
  cases a with
  | notify c ctx tx =>
      rw [step.eq_def] at h
      dsimp only at h
      split at h
      · cases h
      · next hc =>
          split at h
          · cases h
            exact .ignored
          · split at h
            · cases h
              exact .entered hc
            · cases h
              exact .ignored
  | check c =>
      rw [step] at h
      split at h
      · next hc =>
          split at h
          · next hsent =>
              cases h
              exact .skipped hc hsent
          · next hsent =>
              cases h
              exact .marked hc hsent
      · cases h
  | build c =>
      rw [step] at h
      split at h
      · next hc =>
          split at h
          · next he =>
              cases h
              exact .unbuilt hc he
          · next hreq =>
              cases h
              exact .built hc hreq
      · cases h
  | answer c reply =>
      rw [step] at h
      split at h
      · next hc =>
          split at h
          · next hreply =>
              cases h
              exact .delivered hc hreply
          · next hreply =>
              cases h
              exact .failed hc hreply
      · cases h
  | forget c =>
      rw [step] at h
      split at h
      · next hc =>
          cases h
          exact .forgot hc
      · cases h

/-- The other calls stay where they are. -/
theorem Step.lookup_calls {c : Nat} (h : Step lib n s a s' es) (hc : c ≠ a.call) :
    AList.lookup c s'.calls = AList.lookup c s.calls := by
  cases h with
  | ignored => rfl
  | entered | marked | built | failed => exact AList.lookup_insert_ne hc
  | skipped | unbuilt | delivered | forgot => exact AList.lookup_erase_ne hc

/-! ## The causes of a mark -/

/-- The call holds the mark of the transaction. -/
def Call.holds (txID : GoString) (c : Call Context Request) : Bool :=
  c.tx.id = txID && c.stage.holds

/-- The number of calls that hold the mark of the transaction. -/
def System.holders (s : System Context Request) (txID : GoString) : Nat :=
  Map.count s.calls (Call.holds txID)

/-- Whether the transaction is marked, as a number. -/
def System.marks (s : System Context Request) (txID : GoString) : Nat :=
  if AList.lookup txID s.sent = some () then 1 else 0

/-- A prompt for the transaction was delivered: an attempt got a response in the 200s. -/
def Event.delivers (txID : GoString) : Event → Bool
  | .answered _ txID' reply => txID' = txID && reply.error.isNone
  | _ => false

/-- A call for the transaction failed before it made an attempt. -/
def Event.strands (txID : GoString) : Event → Bool
  | .unbuilt _ txID' _ => txID' = txID
  | _ => false

/-- Every mark has one cause. -/
def Causes (txID : GoString) (s : System Context Request) (log : List Event) : Prop :=
  s.holders txID + log.countP (Event.delivers txID) + log.countP (Event.strands txID) =
    s.marks txID

theorem marks_insert (s : System Context Request) (calls : Map Nat (Call Context Request))
    (txID txID' : GoString) :
    (System.mk (s.sent.insert txID' ()) calls).marks txID =
      if txID' = txID then 1 else s.marks txID := by
  rw [System.marks, Map.lookup_insert_eq]
  by_cases h : txID' = txID
  · rw [if_pos h, if_pos h.symm, if_pos rfl]
  · rw [if_neg h, if_neg (Ne.symm h), System.marks]

theorem marks_erase (s : System Context Request) (calls : Map Nat (Call Context Request))
    (txID txID' : GoString) :
    (System.mk (s.sent.erase txID') calls).marks txID =
      if txID' = txID then 0 else s.marks txID := by
  rw [System.marks, Map.lookup_erase_eq]
  by_cases h : txID' = txID
  · rw [if_pos h, if_pos h.symm, if_neg (by decide)]
  · rw [if_neg h, if_neg (Ne.symm h), System.marks]

theorem marks_le_one (s : System Context Request) (txID : GoString) : s.marks txID ≤ 1 := by
  rw [System.marks]
  split <;> decide

/-- What the call counts for among the holders. -/
def Call.weight (txID : GoString) (call : Call Context Request) : Nat :=
  if Call.holds txID call then 1 else 0

theorem weight_entered (txID : GoString) (ctx : Context) (tx : Transaction) :
    Call.weight txID (⟨ctx, tx, .entered⟩ : Call Context Request) = 0 := by
  rw [Call.weight, Call.holds, Stage.holds, Bool.and_false]
  rfl

theorem weight_of_holds (txID : GoString) {ctx : Context} {tx : Transaction}
    {stage : Stage Request} (h : stage.holds = true) :
    Call.weight txID ⟨ctx, tx, stage⟩ = if tx.id = txID then 1 else 0 := by
  rw [Call.weight, Call.holds, h, Bool.and_true]
  exact if_congr decide_eq_true_iff rfl rfl

section Events

variable (txID txID' : GoString) (c : Nat) (e : NotifyError)

theorem countP_answered (reply : Reply) :
    [Event.answered c txID' reply].countP (Event.delivers txID) =
        (if txID' = txID ∧ reply.error = none then 1 else 0) ∧
      [Event.answered c txID' reply].countP (Event.strands txID) = 0 := by
  refine ⟨?_, rfl⟩
  rw [List.countP_singleton]
  refine if_congr ?_ rfl rfl
  rw [Event.delivers, Bool.and_eq_true, decide_eq_true_iff, Option.isNone_iff_eq_none]

theorem countP_unbuilt :
    [Event.unbuilt c txID' e].countP (Event.delivers txID) = 0 ∧
      [Event.unbuilt c txID' e].countP (Event.strands txID) = if txID' = txID then 1 else 0 := by
  refine ⟨rfl, ?_⟩
  rw [List.countP_singleton]
  exact if_congr decide_eq_true_iff rfl rfl

end Events

section Holders

variable {c : Nat} {call : Call Context Request} (txID : GoString) (sent : Map GoString Unit)
  (call' : Call Context Request)

theorem holders_enter (hc : AList.lookup c s.calls = none) :
    (System.mk sent (s.calls.insert c call')).holders txID =
      s.holders txID + call'.weight txID :=
  Map.count_insert_of_lookup_eq_none _ hc

theorem holders_advance (hc : AList.lookup c s.calls = some call) :
    (System.mk sent (s.calls.insert c call')).holders txID + call.weight txID =
      s.holders txID + call'.weight txID :=
  Map.count_insert_add _ hc

theorem holders_return (hc : AList.lookup c s.calls = some call) :
    s.holders txID = (System.mk sent (s.calls.erase c)).holders txID + call.weight txID :=
  Map.count_erase _ hc

end Holders

/-- **Step.** -/
theorem Step.causes {txID : GoString} (hs : Causes txID s log) (h : Step lib n s a s' es) :
    Causes txID s' (log ++ es) := by
  rw [Causes] at hs ⊢
  rw [List.countP_append, List.countP_append]
  cases h with
  | ignored => exact hs
  | @entered c ctx tx hc =>
      have hcount := holders_enter txID s.sent ⟨ctx, tx, .entered⟩ hc
      rw [weight_entered] at hcount
      rw [hcount]
      exact hs
  | @skipped c ctx tx hc hsent =>
      have hcount := holders_return txID s.sent hc
      rw [weight_entered] at hcount
      rw [hcount] at hs
      exact hs
  | @marked c ctx tx hc hsent =>
      have hcount := holders_advance txID (s.sent.insert tx.id ()) ⟨ctx, tx, .marked⟩ hc
      rw [weight_entered, weight_of_holds txID rfl, Nat.add_zero] at hcount
      rw [marks_insert, hcount]
      by_cases htx : tx.id = txID
      · -- nothing had caused a mark
        have hmarks : s.marks txID = 0 := if_neg (by rw [← htx, hsent]; exact nofun)
        rw [hmarks] at hs
        rw [if_pos htx, if_pos htx]
        simp only [List.countP_nil]
        omega
      · rw [if_neg htx, if_neg htx]
        exact hs
  | @unbuilt c ctx tx e hc he =>
      have hcount := holders_return txID s.sent hc
      rw [weight_of_holds txID rfl] at hcount
      obtain ⟨hdelivers, hstrands⟩ := countP_unbuilt txID tx.id c e
      change _ = s.marks txID
      omega
  | @built c ctx tx req hc hreq =>
      have hcount := holders_advance txID s.sent ⟨ctx, tx, .sending req⟩ hc
      rw [weight_of_holds txID rfl, weight_of_holds txID rfl] at hcount
      rw [Nat.add_right_cancel hcount]
      exact hs
  | @delivered c ctx tx req reply hc hreply =>
      have hcount := holders_return txID s.sent hc
      rw [weight_of_holds txID rfl] at hcount
      obtain ⟨hdelivers, hstrands⟩ := countP_answered txID tx.id c reply
      rw [hreply, if_congr (and_iff_left rfl) rfl rfl] at hdelivers
      change _ = s.marks txID
      omega
  | @failed c ctx tx req reply e hc hreply =>
      have hcount := holders_advance txID s.sent ⟨ctx, tx, .failing e⟩ hc
      rw [weight_of_holds txID rfl, weight_of_holds txID rfl] at hcount
      obtain ⟨hdelivers, hstrands⟩ := countP_answered txID tx.id c reply
      rw [hreply, if_neg fun h ↦ by cases h.2] at hdelivers
      rw [Nat.add_right_cancel hcount, hdelivers, hstrands]
      exact hs
  | @forgot c ctx tx e hc =>
      have hcount := holders_return txID (s.sent.erase tx.id) hc
      rw [weight_of_holds txID rfl] at hcount
      have hle := marks_le_one s txID
      have hdelivers : [Event.forgot c tx.id e].countP (Event.delivers txID) = 0 := rfl
      have hstrands : [Event.forgot c tx.id e].countP (Event.strands txID) = 0 := rfl
      rw [marks_erase]
      by_cases htx : tx.id = txID
      · -- the mark was the call's own: there is only one
        rw [if_pos htx] at hcount ⊢
        omega
      · rw [if_neg htx] at hcount ⊢
        omega

/-- **Run.**  A mark has one cause: a call that holds it, a prompt that was delivered, or a
request that could not be built. -/
theorem exec_causes {as : List (Action Context)} (h : (machine lib n).exec as = some (s, log))
    (txID : GoString) : Causes txID s log :=
  (machine lib n).exec_induction (P := Causes txID) rfl
    (fun _ _ _ _ _ hs hstep ↦ Step.causes hs (.of_step hstep)) h

theorem holders_pos {c : Nat} {ctx : Context} {tx : Transaction} {stage : Stage Request}
    (hc : AList.lookup c s.calls = some ⟨ctx, tx, stage⟩) (hstage : stage.holds = true) :
    0 < s.holders tx.id := by
  refine (Map.count_pos_iff _).mpr ⟨c, _, hc, ?_⟩
  rw [Call.holds, hstage, decide_eq_true rfl]
  rfl

/-- A call that holds a mark has set it. -/
theorem sent_of_holds {as : List (Action Context)} {c : Nat} {ctx : Context} {tx : Transaction}
    {stage : Stage Request} (h : (machine lib n).exec as = some (s, log))
    (hc : AList.lookup c s.calls = some ⟨ctx, tx, stage⟩) (hstage : stage.holds = true) :
    AList.lookup tx.id s.sent = some () := by
  have hpos := holders_pos hc hstage
  have hcauses := exec_causes h tx.id
  rw [Causes, System.marks] at hcauses
  by_contra hnone
  rw [if_neg hnone] at hcauses
  omega

/-- An attempt for the transaction is made only if all requests for it could be built. -/
def AfterBuilds (txID : GoString) (pre : List Event) (ev : Event) : Prop :=
  ∀ c reply, ev = .answered c txID reply → ∀ ev' ∈ pre, Event.strands txID ev' = false

/-- A transaction for which a request could not be built is never attempted again. -/
theorem exec_stranded {as : List (Action Context)} (h : (machine lib n).exec as = some (s, log))
    (txID : GoString) : Along (AfterBuilds txID) log := by
  refine (machine lib n).exec_along (P := Causes txID) rfl
    (fun _ _ _ _ _ hs hstep ↦ Step.causes hs (.of_step hstep)) ?_ h
  intro s log a t es hs hstep
  -- an attempt is made by a call that holds the mark
  have hone : ∀ {c ctx tx stage}, AList.lookup c s.calls = some ⟨ctx, tx, stage⟩ →
      stage.holds = true → tx.id = txID → ∀ ev' ∈ log, Event.strands txID ev' = false := by
    intro c ctx tx stage hc hstage htx ev' hev'
    have hpos := holders_pos hc hstage
    rw [htx] at hpos
    have hle := marks_le_one s txID
    rw [Causes] at hs
    have hzero : log.countP (Event.strands txID) = 0 := by omega
    exact Bool.eq_false_iff.mpr (List.countP_eq_zero.mp hzero ev' hev')
  cases Step.of_step hstep with
  | entered | marked | built => exact along_nil _
  | ignored | skipped | unbuilt | forgot =>
      refine along_singleton (Q := AfterBuilds txID) fun _ _ heq ↦ ?_
      cases heq
  | delivered hc hreply | failed hc hreply =>
      refine along_singleton (Q := AfterBuilds txID) fun _ _ heq ↦ ?_
      cases heq
      exact hone hc rfl rfl

/-! ## The next attempt -/

/-- The call makes an attempt or is about to. -/
def Stage.tries : Stage Request → Bool
  | .marked | .sending _ => true
  | .entered | .failing _ => false

/-- An attempt for the transaction: it got an answer, or its request could not be built. -/
def Event.tries (txID : GoString) : Event → Bool
  | .answered _ txID' _ | .unbuilt _ txID' _ => txID' = txID
  | _ => false

/-- The event is one of a call for the transaction. -/
def Event.about (txID : GoString) : Event → Bool
  | .ignored _ => false
  | .skipped _ txID' | .unbuilt _ txID' _ | .answered _ txID' _ | .forgot _ txID' _ =>
      txID' = txID

/-- An attempt for the transaction has been made, or one is under way. -/
def Tried (txID : GoString) (s : System Context Request) (log : List Event) : Prop :=
  (∃ ev ∈ log, Event.tries txID ev = true) ∨
    ∃ c call, AList.lookup c s.calls = some call ∧ call.tx.id = txID ∧ call.stage.tries = true

/-- There is a trace of a call for the transaction: an event, the mark, or a failed attempt. -/
def Touched (txID : GoString) (s : System Context Request) (log : List Event) : Prop :=
  (∃ ev ∈ log, Event.about txID ev = true) ∨ AList.lookup txID s.sent = some () ∨
    ∃ c ctx tx e, AList.lookup c s.calls = some ⟨ctx, tx, .failing e⟩ ∧ tx.id = txID

theorem Tried.of_event {txID : GoString} {ev : Event} (h : Event.tries txID ev = true) :
    Tried txID s (log ++ [ev]) :=
  .inl ⟨ev, List.mem_append_right _ List.mem_cons_self, h⟩

/-- An attempt that is under way goes on, or is made. -/
theorem Step.tried {txID : GoString} (hs : Tried txID s log) (h : Step lib n s a s' es) :
    Tried txID s' (log ++ es) := by
  rcases hs with ⟨ev, hev, htries⟩ | ⟨c, call, hc, htx, htries⟩
  · exact .inl ⟨ev, List.mem_append_left _ hev, htries⟩
  by_cases hne : c ≠ a.call
  · exact .inr ⟨c, call, (h.lookup_calls hne).trans hc, htx, htries⟩
  obtain rfl := not_not.mp hne
  cases h with
  | ignored => exact .inr ⟨_, call, hc, htx, htries⟩
  | entered hc' => cases hc'.symm.trans hc
  | skipped hc' | marked hc' | forgot hc' =>
      -- such a call is not trying
      cases hc'.symm.trans hc
      cases htries
  | unbuilt hc' | delivered hc' | failed hc' =>
      cases hc'.symm.trans hc
      exact .of_event (decide_eq_true htx)
  | built hc' =>
      cases hc'.symm.trans hc
      exact .inr ⟨_, _, AList.lookup_insert _, htx, rfl⟩

theorem Step.touched_event {txID : GoString} {ev : Event} (h : Step lib n s a s' es)
    (hev : ev ∈ es) (habout : Event.about txID ev = true) :
    Touched txID s log ∨ Tried txID s' (log ++ es) := by
  cases h with
  | entered | marked | built => cases hev
  | ignored =>
      cases List.mem_singleton.mp hev
      cases habout
  | skipped hc hsent =>
      cases List.mem_singleton.mp hev
      exact .inl (.inr (.inl (of_decide_eq_true habout ▸ hsent)))
  | unbuilt | delivered | failed =>
      cases List.mem_singleton.mp hev
      exact .inr (.of_event habout)
  | forgot hc =>
      cases List.mem_singleton.mp hev
      exact .inl (.inr (.inr ⟨_, _, _, _, hc, of_decide_eq_true habout⟩))

theorem Step.touched_sent {txID : GoString} (h : Step lib n s a s' es)
    (hsent : AList.lookup txID s'.sent = some ()) :
    Touched txID s log ∨ Tried txID s' (log ++ es) := by
  cases h with
  | ignored | entered | skipped | unbuilt | built | delivered | failed =>
      exact .inl (.inr (.inl hsent))
  | marked =>
      rcases Map.lookup_insert_eq_some_iff.mp hsent with ⟨htx, -⟩ | ⟨-, hsent⟩
      · exact .inr (.inr ⟨_, _, AList.lookup_insert _, htx.symm, rfl⟩)
      · exact .inl (.inr (.inl hsent))
  | forgot => exact .inl (.inr (.inl (Map.lookup_erase_eq_some_iff.mp hsent).2))

theorem Step.touched_failing {txID : GoString} {c : Nat} {ctx : Context} {tx : Transaction}
    {e : NotifyError} (h : Step lib n s a s' es)
    (hc : AList.lookup c s'.calls = some ⟨ctx, tx, .failing e⟩) (htx : tx.id = txID) :
    Touched txID s log ∨ Tried txID s' (log ++ es) := by
  by_cases hne : c ≠ a.call
  · rw [h.lookup_calls hne] at hc
    exact .inl (.inr (.inr ⟨c, ctx, tx, e, hc, htx⟩))
  obtain rfl := not_not.mp hne
  cases h with
  | ignored => exact .inl (.inr (.inr ⟨_, ctx, tx, e, hc, htx⟩))
  | entered | marked | built => cases (AList.lookup_insert _).symm.trans hc
  | skipped | unbuilt | delivered | forgot => cases (AList.lookup_erase _ _).symm.trans hc
  | failed =>
      cases (AList.lookup_insert _).symm.trans hc
      exact .inr (.of_event (decide_eq_true htx))

/-- What leaves a trace is an attempt, or follows one. -/
theorem Step.touched {txID : GoString} (h : Step lib n s a s' es)
    (ht : Touched txID s' (log ++ es)) : Touched txID s log ∨ Tried txID s' (log ++ es) := by
  rcases ht with ⟨ev, hev, habout⟩ | hsent | ⟨c, ctx, tx, e, hc, htx⟩
  · rcases List.mem_append.mp hev with hev | hev
    · exact .inl (.inl ⟨ev, hev, habout⟩)
    · exact h.touched_event hev habout
  · exact h.touched_sent hsent
  · exact h.touched_failing hc htx

/-- **Run.**  Where no trace of a transaction is left, the next call for it makes an attempt. -/
theorem execFrom_tried {t u : System Context Request} {bs : List (Action Context)}
    {post : List Event} {txID : GoString} (ht : ¬Touched txID t [])
    (h : (machine lib n).execFrom t bs = some (u, post)) (hu : Touched txID u post) :
    Tried txID u post := by
  refine (machine lib n).execFrom_induction
    (P := fun u post ↦ Touched txID u post → Tried txID u post) ?_ (fun h ↦ absurd h ht) h hu
  intro s log a s' es hs hstep htouched
  have hstep := Step.of_step hstep
  rcases hstep.touched htouched with h | h
  · exact hstep.tried (hs h)
  · exact h

/-! ## What an error leaves behind -/

/-- A call for the transaction returns an error. -/
def Event.returnsError (txID : GoString) : Event → Bool
  | .unbuilt _ txID' _ | .forgot _ txID' _ => txID' = txID
  | _ => false

/-- A failed attempt leaves no trace: the mark it takes back was the only one. -/
theorem not_touched_of_forget {as : List (Action Context)} {c : Nat} {ctx : Context}
    {tx : Transaction} {e : NotifyError} (h : (machine lib n).exec as = some (s, log))
    (hc : AList.lookup c s.calls = some ⟨ctx, tx, .failing e⟩) :
    ¬Touched tx.id (⟨s.sent.erase tx.id, s.calls.erase c⟩ : System Context Request) [] := by
  have hunmarked : AList.lookup tx.id (s.sent.erase tx.id) = none := AList.lookup_erase _ _
  have hstep : Step lib n s (.forget c) ⟨s.sent.erase tx.id, s.calls.erase c⟩ _ := .forgot hc
  have hcauses := hstep.causes (exec_causes h tx.id)
  rintro (⟨ev, hev, -⟩ | hsent | ⟨c', ctx', tx', e', hc', htx⟩)
  · cases hev
  · cases hunmarked.symm.trans hsent
  · have hpos := holders_pos hc' rfl
    rw [Causes, marks_erase, if_pos rfl] at hcauses
    rw [htx] at hpos
    omega

/-- The whole run, from its parts. -/
theorem exec_step_execFrom {as bs : List (Action Context)} {t u : System Context Request}
    {post : List Event} (h : (machine lib n).exec as = some (s, log))
    (hstep : (machine lib n).step s a = some (t, es))
    (hrest : (machine lib n).execFrom t bs = some (u, post)) :
    (machine lib n).exec (as ++ a :: bs) = some (u, log ++ (es ++ post)) :=
  (machine lib n).exec_append_iff.mpr
    ⟨s, log, es ++ post, h,
      (machine lib n).execFrom_cons_iff.mpr ⟨t, es, post, hstep, hrest, rfl⟩, rfl⟩

/-- After a request could not be built, there is no attempt. -/
theorem not_answered_of_strands {as bs : List (Action Context)} {t u : System Context Request}
    {post : List Event} {ev : Event} {txID : GoString}
    (h : (machine lib n).exec as = some (s, log))
    (hstep : (machine lib n).step s a = some (t, es)) (hev : ev ∈ es)
    (hstrands : Event.strands txID ev = true)
    (hrest : (machine lib n).execFrom t bs = some (u, post)) (c : Nat) (reply : Reply) :
    Event.answered c txID reply ∉ post := by
  intro hmem
  obtain ⟨pre, rest, rfl⟩ := List.append_of_mem hmem
  have hlog : log ++ (es ++ (pre ++ .answered c txID reply :: rest)) =
      log ++ (es ++ pre) ++ .answered c txID reply :: rest := by
    simp only [List.append_assoc]
  have hclear := exec_stranded (exec_step_execFrom h hstep hrest) txID _ _ _ hlog c reply rfl ev
    (List.mem_append_right _ (List.mem_append_left _ hev))
  exact Bool.false_ne_true (hclear.symm.trans hstrands)

/-- **One prompt per transaction.**  However calls are interleaved, at most one attempt for a
transaction gets a response in the 200s.  A call that returns an error leaves the transaction
unmarked exactly if the error is not one of building the request.  If it is unmarked, then
whatever happens next, the next call for it makes an attempt; if it is marked, then no attempt
for it is made ever after. -/
theorem one_prompt_per_transaction {as : List (Action Context)}
    (h : (machine lib n).exec as = some (s, log)) (txID : GoString) :
    log.countP (Event.delivers txID) ≤ 1 ∧
      ∀ a t es ev, (machine lib n).step s a = some (t, es) → ev ∈ es →
        Event.returnsError txID ev = true →
          (AList.lookup txID t.sent = none ↔ Event.strands txID ev = false) ∧
          (Event.strands txID ev = true ↔
            ∃ c ctx tx e, AList.lookup c s.calls = some ⟨ctx, tx, .marked⟩ ∧ a = .build c ∧
              tx.id = txID ∧ n.build lib ctx tx = .error e) ∧
          ∀ bs u post, (machine lib n).execFrom t bs = some (u, post) →
            (Event.strands txID ev = false →
              (∃ ev' ∈ post, Event.about txID ev' = true) → Tried txID u post) ∧
            (Event.strands txID ev = true → ∀ c reply, Event.answered c txID reply ∉ post) := by
  constructor
  · have hcauses := exec_causes h txID
    have hle := marks_le_one s txID
    rw [Causes] at hcauses
    omega
  intro a t es ev hstep hev herror
  cases Step.of_step hstep with
  | entered | marked | built => cases hev
  | ignored | skipped | delivered | failed =>
      cases List.mem_singleton.mp hev
      cases herror
  | @unbuilt c ctx tx e hc he =>
      cases List.mem_singleton.mp hev
      obtain rfl := of_decide_eq_true herror
      -- the step leaves the mark of the call
      have hmarked := sent_of_holds h hc rfl
      have hstrands : Event.strands tx.id (.unbuilt c tx.id e) = true := herror
      refine ⟨?_, ⟨fun _ ↦ ⟨c, ctx, tx, e, hc, rfl, rfl, he⟩, fun _ ↦ hstrands⟩,
        fun bs u post hrest ↦ ⟨fun hfalse ↦ ?_, fun _ ↦
          not_answered_of_strands h hstep hev hstrands hrest⟩⟩
      · rw [hstrands]
        exact ⟨fun hnone ↦ (by cases hmarked.symm.trans hnone), fun h ↦ (by cases h)⟩
      · cases hstrands.symm.trans hfalse
  | @forgot c ctx tx e hc =>
      cases List.mem_singleton.mp hev
      obtain rfl := of_decide_eq_true herror
      refine ⟨⟨fun _ ↦ rfl, fun _ ↦ AList.lookup_erase _ _⟩, ⟨fun h ↦ (by cases h), ?_⟩,
        fun bs u post hrest ↦ ⟨fun _ hseen ↦ ?_, fun h ↦ (by cases h)⟩⟩
      · rintro ⟨_, _, _, _, _, ha, _⟩
        cases ha
      · exact execFrom_tried (not_touched_of_forget h hc) hrest (.inl hseen)

end Runs

/-! ## Two runs -/

/-- Every percent sign begins an escape of two digits: what `url.Parse` asks of a path. -/
def escapesComplete : Bytes → Bool
  | [] => true
  | b :: rest =>
      (b ≠ 0x25 || (rest.length ≥ 2 && (rest.take 2).all fun c ↦ (Hex.decodeDigit c).isSome)) &&
        escapesComplete rest

/-- Requests to URLs with complete escapes. -/
def escapeLibrary : Library Unit GoString where
  marshal _ := some []
  newRequestWithContext _ url _ := if escapesComplete url then some url else none

/-- A notifier with a token. -/
def tokenNotifier (token : GoString) : Notifier := newNotifier ⟨token, str "1", [], []⟩

/-- The transaction to prompt for. -/
def notifiedTransaction : Transaction := promptedTransaction (str "10.0.0.5") (str "10.0.0.9")

/-- A call up to its request. -/
def buildCall (c : Nat) : List (Action Unit) :=
  [.notify c () (some notifiedTransaction), .check c, .build c]

/-- After a failure in transport, the next call makes an attempt. -/
theorem one_prompt_per_transaction_retried :
    ∃ s t log,
      (machine escapeLibrary (tokenNotifier (str "123:abc"))).exec
          (buildCall 1 ++ [.answer 1 .failed]) = some (s, log) ∧
        (machine escapeLibrary (tokenNotifier (str "123:abc"))).step s (.forget 1) =
          some (t, [.forgot 1 (str "tx_1") .transport]) ∧
        AList.lookup (str "tx_1") t.sent = none ∧
        ∀ bs u post, (machine escapeLibrary (tokenNotifier (str "123:abc"))).execFrom t bs =
            some (u, post) →
          (∃ ev ∈ post, Event.about (str "tx_1") ev = true) → Tried (str "tx_1") u post := by
  refine ⟨_, _, _, rfl, rfl, ?_⟩
  have hrun := one_prompt_per_transaction
    (show (machine escapeLibrary (tokenNotifier (str "123:abc"))).exec
      (buildCall 1 ++ [.answer 1 .failed]) = some (_, _) from rfl) (str "tx_1")
  obtain ⟨hmark, -, hnext⟩ := hrun.2 (.forget 1) _ _ (.forgot 1 (str "tx_1") .transport) rfl
    List.mem_cons_self (by decide)
  exact ⟨hmark.mpr rfl, fun bs u post h ↦ (hnext bs u post h).1 rfl⟩

/-- With a token that makes no URL, the first call returns an error and leaves the transaction
marked; the second one returns no error and makes no attempt. -/
theorem unbuilt_prompt_stays_marked :
    (tokenNotifier (str "123:a%zz")).configured = true ∧
      ((machine escapeLibrary (tokenNotifier (str "123:a%zz"))).exec
          (buildCall 1 ++ [.notify 2 () (some notifiedTransaction), .check 2])).map
        (fun r ↦ (AList.lookup (str "tx_1") r.1.sent, r.2)) =
      some (some (), [.unbuilt 1 (str "tx_1") .newRequest, .skipped 2 (str "tx_1")]) := by
  decide

end Notifier

end LunaZTrust.Telegram
