import LunaZTrust.Approval.Callback
import LunaZTrust.Approval.Provenance

/-!
# The poller and what it reports

`handleUpdate`, `editResolvedMessage` and `answerCallbackQuery` of
`proxy/internal/approval/poller.go`, with the text of `telegram.go`.  The poller takes one
update after the other.  It calls the store, which it gets no answer from, and then writes
a line to the log, edits the message and answers the callback.

`Approval.handleUpdate` is the decision alone (`receive_eq_accepted_iff`).  Here the poller runs
beside the approval system, whose other steps come in between at any time.  The requests that
carry the reports are taken to be sent; that a failed edit is logged is left out, and so is
`getUpdates`.
-/

namespace LunaZTrust.Telegram

open LunaZTrust.Go LunaZTrust.Lease LunaZTrust.Approval LunaZTrust.Transition

/-- `telegramMessage`, with the id of its chat. -/
structure TelegramMessage where
  messageID : Int
  chatID : Int
deriving DecidableEq, Repr

/-- `telegramCallbackQuery`. -/
structure TelegramCallbackQuery where
  id : GoString
  data : GoString
  fromID : Int
  message : Option TelegramMessage
deriving DecidableEq, Repr

/-- What the decision depends on. -/
def TelegramCallbackQuery.brief (cq : TelegramCallbackQuery) : CallbackQuery :=
  ⟨cq.data, cq.fromID, cq.message.map (·.chatID)⟩

/-- The two actions of a callback. -/
inductive Verb
  | approve
  | deny
deriving DecidableEq, Repr

namespace Verb

/-- The state the action leads to. -/
def state : Verb → State
  | approve => .approved
  | deny => .denied

/-- `Resolution.Decision`. -/
def status : Verb → GoString
  | approve => str "APPROVED"
  | deny => str "DENIED"

/-- The toast of the action. -/
def toast : Verb → GoString
  | approve => str "Approved"
  | deny => str "Denied"

end Verb

/-- The transaction and the action of a callback. -/
def target : Callback → TxID × Verb
  | .approve txID _ => (txID, .approve)
  | .deny txID => (txID, .deny)

/-- The transaction and the action of a decision. -/
def goal : Decision → TxID × Verb
  | .approve txID _ _ => (txID, .approve)
  | .deny txID => (txID, .deny)

/-! ## The edited message -/

/-- The formats of `time` that the texts use. -/
structure Formats where
  /-- `Time.Format(time.RFC3339)`, of the instant in UTC. -/
  rfc3339 : Time → GoString
  /-- `Duration.String`. -/
  duration : Duration → GoString

/-- `Resolution`. -/
structure Resolution where
  decision : Verb
  approver : GoString
  time : Time
  ttl : Duration
deriving DecidableEq, Repr

/-- `destinationHostKeyLabel`. -/
def destinationHostKeyLabel (tx : Transaction) : GoString :=
  if tx.destinationHostKeySource = str "client-reported" then str "Client-reported SSH host key"
  else str "Session-bound SSH host key"

/-- `formatApproverDisplay`. -/
def formatApproverDisplay (approver : GoString) : GoString :=
  if Strings.hasPrefix approver (str "telegram:") then
    str "Telegram chat " ++ Strings.trimPrefix approver (str "telegram:")
  else if Strings.hasPrefix approver (str "device:") then
    str "Mobile device " ++ Strings.trimPrefix approver (str "device:")
  else approver

/-- A line of the message. -/
def line (label value : GoString) : GoString := label ++ value ++ [0x0a]

/-- A line that is left out if its value is empty. -/
def lineIf (label value : GoString) : GoString := if value = [] then [] else line label value

/-- The lines about the transaction. -/
def transactionLines (tx : Transaction) : GoString :=
  line (str "Target user: ") tx.targetUser ++ line (str "Target host claim: ") tx.targetIP ++
  lineIf (destinationHostKeyLabel tx ++ str ": ") tx.destinationHostKeyFingerprint ++
  lineIf (str "Source IP: ") tx.sourceIP ++ lineIf (str "Source user: ") tx.sourceUser ++
  (if tx.clientVersion ≠ [] then
      line (str "Client: ") (tx.clientName ++ str " " ++ tx.clientVersion)
    else lineIf (str "Client: ") tx.clientName) ++
  line (str "Tx: ") tx.id

/-- The lines about who decided and when. -/
def resolutionLines (f : Formats) (res : Resolution) : GoString :=
  (if res.approver = [] then [] else line (str "By: ") (formatApproverDisplay res.approver)) ++
  (if res.time.isZero then [] else line (str "At: ") (f.rfc3339 res.time)) ++
  if res.decision = .approve ∧ res.ttl > 0 then str "Lease TTL: " ++ f.duration res.ttl else []

/-- `formatResolvedApprovalMessage`. -/
def formatResolvedApprovalMessage (f : Formats) (res : Resolution) : Option Transaction → GoString
  | none => str "Luna SSH sign request\nStatus: " ++ res.decision.status
  | some tx =>
      Strings.trimRight
        (str "Luna SSH sign request\n" ++ transactionLines tx ++
          line (str "Status: ") res.decision.status ++ resolutionLines f res)
        0x0a

/-- The message says the decision, whether or not there is a transaction. -/
theorem status_infix_formatResolvedApprovalMessage (f : Formats) (res : Resolution)
    (tx : Option Transaction) :
    str "Status: " ++ res.decision.status <:+: formatResolvedApprovalMessage f res tx := by
  cases tx with
  | none =>
      obtain ⟨decision, -, -, -⟩ := res
      exact ⟨str "Luna SSH sign request\n", [], by cases decision <;> rfl⟩
  | some tx =>
      have hlast : (str "Luna SSH sign request\n" ++ transactionLines tx ++ str "Status: " ++
          res.decision.status).getLast? ≠ some 0x0a := by
        cases res.decision <;>
          · rw [List.getLast?_append_of_ne_nil _ (by decide)]
            decide
      obtain ⟨rest, hrest⟩ := Strings.prefix_trimRight hlast ([0x0a] ++ resolutionLines f res)
      refine ⟨str "Luna SSH sign request\n" ++ transactionLines tx, rest, ?_⟩
      rw [formatResolvedApprovalMessage, line]
      simpa only [List.append_assoc] using hrest

/-! ## Reports -/

/-- The outcomes `handleUpdate` logs. -/
inductive Outcome
  | ignoredCallback
  | ignoredChat
  | ignoredUser
  | resolved (verb : Verb)
deriving DecidableEq, Repr

/-- A report, on the transaction the callback names. -/
inductive Report
  /-- `logEvent("poll", txID, outcome, detail)`. -/
  | log (txID : TxID) (outcome : Outcome) (detail : GoString)
  /-- `EditMessageText`, with the message of `formatResolvedApprovalMessage`. -/
  | edit (txID : TxID) (msg : TelegramMessage) (tx : Option Transaction) (res : Resolution)
  /-- `answerCallbackQuery`. -/
  | answer (txID : TxID) (callbackQueryID : GoString) (verb : Verb)
deriving DecidableEq, Repr

/-- What a report says about which transaction. -/
def Report.conveys : Report → Option (TxID × Verb)
  | .log txID (.resolved verb) _ => some (txID, verb)
  | .log _ _ _ => none
  | .edit txID _ _ res => some (txID, res.decision)
  | .answer txID _ verb => some (txID, verb)

/-- `editResolvedMessage`. -/
def editResolvedMessage (txID : TxID) (msg : TelegramMessage) (tx : Option Transaction)
    (res : Resolution) : List Report :=
  if msg.messageID = 0 then [] else [.edit txID msg tx res]

/-- The deferred function, with `answerCallbackQuery`. -/
def answerCallbackQuery (cq : TelegramCallbackQuery) (about : TxID × Verb) : List Report :=
  if cq.id = [] then [] else [.answer about.1 cq.id about.2]

/-- How far `handleUpdate` comes before it looks at the store. -/
inductive Received
  | ignored (reports : List Report)
  | accepted (cq : TelegramCallbackQuery) (msg : TelegramMessage) (d : Decision)
deriving DecidableEq, Repr

/-- `handleUpdate`, up to `Snapshot`.  The answer is deferred as soon as the callback is parsed. -/
def receive (p : Poller) : Option TelegramCallbackQuery → Received
  | none => .ignored []
  | some cq =>
      if cq.data = [] then .ignored []
      else
        match parseCallbackData cq.data p.allowedTTLs with
        | none => .ignored [.log [] .ignoredCallback cq.data]
        | some callback =>
            let answer := answerCallbackQuery cq (target callback)
            match cq.message with
            | none =>
                .ignored (.log (target callback).1 .ignoredChat
                  (str "chat_id=" ++ Strconv.formatInt 0) :: answer)
            | some msg =>
                if !chatAllowed p.chatID msg.chatID then
                  .ignored (.log (target callback).1 .ignoredChat
                    (str "chat_id=" ++ Strconv.formatInt msg.chatID) :: answer)
                else if !telegramUserAllowed p.chatID p.allowedUserIDs cq.fromID then
                  .ignored (.log (target callback).1 .ignoredUser
                    (str "user_id=" ++ Strconv.formatInt cq.fromID) :: answer)
                else .accepted cq msg (callback.decision p msg.chatID)

/-- The reports that follow the call on the store, in their order. -/
def reports (f : Formats) (cq : TelegramCallbackQuery) (msg : TelegramMessage)
    (tx : Option Transaction) (time : Time) : Decision → List Report
  | .approve txID ttl approver =>
      .log txID (.resolved .approve) (str "ttl=" ++ f.duration ttl) ::
        editResolvedMessage txID msg tx ⟨.approve, approver, time, ttl⟩ ++
        answerCallbackQuery cq (txID, .approve)
  | .deny txID =>
      .log txID (.resolved .deny) [] ::
        editResolvedMessage txID msg tx ⟨.deny, formatApproverChatID msg.chatID, time, 0⟩ ++
        answerCallbackQuery cq (txID, .deny)

/-- All of them say that the decision has been taken. -/
theorem conveys_of_mem_reports {f : Formats} {cq : TelegramCallbackQuery} {msg : TelegramMessage}
    {tx : Option Transaction} {time : Time} {d : Decision} {r : Report}
    (h : r ∈ reports f cq msg tx time d) : r.conveys = some (goal d) := by
  cases d <;>
    · rw [reports, List.cons_append, List.mem_cons, List.mem_append, editResolvedMessage,
        answerCallbackQuery] at h
      rcases h with rfl | h | h
      · rfl
      · split at h
        · exact nomatch h
        · exact List.mem_singleton.mp h ▸ rfl
      · split at h
        · exact nomatch h
        · exact List.mem_singleton.mp h ▸ rfl

/-- The poller goes on to decide what `Approval.handleUpdate` decides. -/
theorem receive_eq_accepted_iff {p : Poller} {upd : Option TelegramCallbackQuery} {d : Decision} :
    (∃ cq msg, receive p upd = .accepted cq msg d) ↔
      handleUpdate p ⟨upd.map (·.brief)⟩ = some d := by
  cases upd with
  | none => simp [receive, handleUpdate]
  | some cq =>
      rw [receive, handleUpdate]
      dsimp only [Option.map_some, TelegramCallbackQuery.brief]
      by_cases hdata : cq.data = []
      · simp [hdata]
      · rw [if_neg hdata, if_neg hdata]
        cases parseCallbackData cq.data p.allowedTTLs with
        | none => simp
        | some callback =>
            cases cq.message with
            | none => simp
            | some msg =>
                dsimp only [Option.map_some]
                by_cases hchat : chatAllowed p.chatID msg.chatID
                · by_cases huser : telegramUserAllowed p.chatID p.allowedUserIDs cq.fromID <;>
                    simp [hchat, huser]
                · simp [hchat]

/-! ## The poller beside the approval system -/

/-- A call of the poller on the store: `Approve`, by its number, or `Deny`, by that of the
update. -/
inductive Call
  | approve (c : Nat)
  | deny (n : Nat)
deriving DecidableEq, Repr

/-- How far the poller has got with an update. -/
inductive Progress
  /-- About to take a `Snapshot`. -/
  | accepted (cq : TelegramCallbackQuery) (msg : TelegramMessage) (d : Decision)
  /-- About to call the store. -/
  | snapped (cq : TelegramCallbackQuery) (msg : TelegramMessage) (d : Decision)
      (tx : Option Transaction) (time : Time)
  /-- Inside `Approve`, the call with the given number. -/
  | approving (c : Nat) (reports : List Report)
  /-- What is left to report, after the call on the store, if there was one.  If there is
  nothing left, the poller takes the next update. -/
  | reporting (call : Option Call) (reports : List Report)
deriving DecidableEq, Repr

/-- The approval system and the poller, with the number of updates it has taken. -/
structure System where
  approval : Approval.System
  progress : Progress
  updates : Nat

/-- What can happen. -/
inductive Action
  | store (a : Approval.Action)
  | update (upd : Option TelegramCallbackQuery)
  | snapshot
  | call
  | returned
  | report

/-- What happened. -/
inductive Event
  | store (e : Approval.Event)
  | reported (call : Option Call) (r : Report)
deriving DecidableEq, Repr

/-- The approval system has taken a step, and the poller gets somewhere. -/
def System.advance (s : System) (progress : Progress) (r : Approval.System × List Approval.Event) :
    System × List Event :=
  (⟨r.1, progress, s.updates⟩, r.2.map .store)

/-- One step. -/
def step (cfg : Config) (p : Poller) (f : Formats) (s : System) :
    Action → Option (System × List Event)
  | .store a =>
      (Approval.step cfg s.approval a).map (s.advance s.progress)
  | .update upd =>
      match s.progress with
      | .reporting _ [] =>
          match receive p upd with
          | .ignored rs =>
              some ({ s with progress := .reporting none rs, updates := s.updates + 1 }, [])
          | .accepted cq msg d =>
              some ({ s with progress := .accepted cq msg d, updates := s.updates + 1 }, [])
      | _ => none
  | .snapshot =>
      match s.progress with
      | .accepted cq msg d =>
          let txSnap := s.approval.store.snapshot (goal d).1
          some ({ s with progress := .snapped cq msg d txSnap s.approval.now }, [])
      | _ => none
  | .call =>
      match s.progress with
      | .snapped cq msg d tx time =>
          match d with
          | .approve txID ttl approver =>
              (Approval.step cfg s.approval (.approve txID ttl approver)).map
                (s.advance (.approving s.approval.calls (reports f cq msg tx time d)))
          | .deny txID =>
              (Approval.step cfg s.approval (.deny txID)).map
                (s.advance (.reporting (some (.deny s.updates)) (reports f cq msg tx time d)))
      | _ => none
  | .returned =>
      match s.progress with
      | .approving c rs =>
          if (AList.lookup c s.approval.approves).isNone then
            some ({ s with progress := .reporting (some (.approve c)) rs }, [])
          else none
      | _ => none
  | .report =>
      match s.progress with
      | .reporting call (r :: rs) =>
          some ({ s with progress := .reporting call rs }, [.reported call r])
      | _ => none

/-- The poller beside the approval system, with nothing to report. -/
def machine (cfg : Config) (p : Poller) (f : Formats) (now : Time) (withLeases : Bool) :
    Machine System Action Event where
  start := ⟨.start now withLeases, .reporting none [], 0⟩
  step := step cfg p f

/-- The steps, one by one. -/
inductive Step (cfg : Config) (p : Poller) (f : Formats) (s : System) :
    Action → System → List Event → Prop
  | store {a : Approval.Action} {approval : Approval.System} {es : List Approval.Event}
      (h : Approval.step cfg s.approval a = some (approval, es)) :
      Step cfg p f s (.store a) { s with approval := approval } (es.map .store)
  | ignored {upd : Option TelegramCallbackQuery} {call : Option Call} {rs : List Report}
      (hp : s.progress = .reporting call []) (hr : receive p upd = .ignored rs) :
      Step cfg p f s (.update upd)
        { s with progress := .reporting none rs, updates := s.updates + 1 } []
  | accepted {upd : Option TelegramCallbackQuery} {call : Option Call}
      {cq : TelegramCallbackQuery} {msg : TelegramMessage} {d : Decision}
      (hp : s.progress = .reporting call []) (hr : receive p upd = .accepted cq msg d) :
      Step cfg p f s (.update upd)
        { s with progress := .accepted cq msg d, updates := s.updates + 1 } []
  | snapshot {cq : TelegramCallbackQuery} {msg : TelegramMessage} {d : Decision}
      (hp : s.progress = .accepted cq msg d) :
      Step cfg p f s .snapshot
        { s with progress :=
          .snapped cq msg d (s.approval.store.snapshot (goal d).1) s.approval.now } []
  | approve {cq : TelegramCallbackQuery} {msg : TelegramMessage} {txID : TxID} {ttl : Duration}
      {approver : GoString} {tx : Option Transaction} {time : Time}
      (hp : s.progress = .snapped cq msg (.approve txID ttl approver) tx time) :
      Step cfg p f s .call
        ⟨s.approval.spawnApprove txID (approveTTL ttl) approver,
          .approving s.approval.calls (reports f cq msg tx time (.approve txID ttl approver)),
          s.updates⟩
        [.store (.approveCalled s.approval.calls txID (approveTTL ttl) approver)]
  | deny {cq : TelegramCallbackQuery} {msg : TelegramMessage} {txID : TxID}
      {tx : Option Transaction} {time : Time} {approval : Approval.System}
      {es : List Approval.Event}
      (hp : s.progress = .snapped cq msg (.deny txID) tx time)
      (h : Approval.step cfg s.approval (.deny txID) = some (approval, es)) :
      Step cfg p f s .call
        ⟨approval, .reporting (some (.deny s.updates)) (reports f cq msg tx time (.deny txID)),
          s.updates⟩
        (es.map .store)
  | returned {c : Nat} {rs : List Report} (hp : s.progress = .approving c rs)
      (hc : AList.lookup c s.approval.approves = none) :
      Step cfg p f s .returned { s with progress := .reporting (some (.approve c)) rs } []
  | report {call : Option Call} {r : Report} {rs : List Report}
      (hp : s.progress = .reporting call (r :: rs)) :
      Step cfg p f s .report { s with progress := .reporting call rs } [.reported call r]

theorem Step.of_step {cfg : Config} {p : Poller} {f : Formats} {s s' : System} {a : Action}
    {es : List Event} (h : step cfg p f s a = some (s', es)) : Step cfg p f s a s' es := by
  cases a with
  | store a =>
      obtain ⟨⟨approval, es'⟩, hst, heq⟩ := Option.map_eq_some_iff.mp h
      cases heq
      exact .store hst
  | update upd =>
      rw [step] at h
      split at h
      · next hp =>
          split at h
          · next hr => cases h; exact .ignored hp hr
          · next hr => cases h; exact .accepted hp hr
      · exact nomatch h
  | snapshot =>
      rw [step] at h
      split at h
      · next hp => cases h; exact .snapshot hp
      · exact nomatch h
  | call =>
      rw [step] at h
      split at h
      · next d _ _ hp =>
          cases d with
          | approve txID ttl approver => cases h; exact .approve hp
          | deny txID =>
              obtain ⟨⟨approval, es'⟩, hst, heq⟩ := Option.map_eq_some_iff.mp h
              cases heq
              exact .deny hp hst
      · exact nomatch h
  | returned =>
      rw [step] at h
      split at h
      · next hp =>
          obtain ⟨hc, heq⟩ := Option.ite_none_right_eq_some.mp h
          cases heq
          exact .returned hp (Option.isNone_iff_eq_none.mp hc)
      · exact nomatch h
  | report =>
      rw [step] at h
      split at h
      · next hp => cases h; exact .report hp
      · exact nomatch h

end LunaZTrust.Telegram
