import LunaZTrust.Lease.Store

/-!
# Decisions by chat

`proxy/internal/approval/callback.go` and `handleUpdate` of `poller.go`: a button
under an approval message sends back a callback, which names the transaction and
the decision.  It counts only if it comes from the configured chat and from a user
who may decide.

What `handleUpdate` tells the chat about the decision, and what it logs, is left
out.
-/

namespace LunaZTrust.Approval

open LunaZTrust.Go LunaZTrust.Lease

/-- A parsed callback: an approval, with a ttl or zero, or a denial. -/
inductive Callback
  | approve (txID : GoString) (ttl : Duration)
  | deny (txID : GoString)
deriving DecidableEq, Repr

/-- `TTLAllowed`. -/
def ttlAllowed (sec : Int) (allowed : List Int) : Bool := allowed.any (· == sec)

/-- `DefaultTTLFromAllowed`. -/
def defaultTTLFromAllowed : List Int → Duration
  | [] => 5 * Time.minute
  | sec :: _ => Time.ofSeconds sec

/-- `ParseCallbackData`: `deny:tx_…`, `approve:tx_…` or `approve:tx_…:ttl_seconds`. -/
def parseCallbackData (data : GoString) (allowedTTLs : List Int) : Option Callback :=
  match Strings.split data 0x3a with
  | action :: txID :: rest =>
      if action = str "deny" then
        if rest ≠ [] ∨ !Strings.hasPrefix txID (str "tx_") then none else some (.deny txID)
      else if action = str "approve" then
        if !Strings.hasPrefix txID (str "tx_") then none
        else
          match rest with
          | [] => some (.approve txID 0)
          | sec :: _ =>
              match Strconv.parseInt sec with
              | none => none
              | some sec =>
                  if ttlAllowed sec allowedTTLs then some (.approve txID (Time.ofSeconds sec))
                  else none
      else none
  | _ => none

/-- `ChatAllowed`. -/
def chatAllowed (configuredChatID : GoString) (chatID : Int) : Bool :=
  let configuredChatID := Strings.trimSpace configuredChatID
  if configuredChatID = [] then false
  else
    match Strconv.parseInt configuredChatID with
    | none => false
    | some allowed => chatID == allowed

/-- `TelegramUserAllowed`. -/
def telegramUserAllowed (configuredChatID configuredUserIDs : GoString) (userID : Int) : Bool :=
  (Strings.split configuredUserIDs 0x2c).any
    (fun raw ↦ Strconv.parseInt (Strings.trimSpace raw) == some userID) ||
  match Strconv.parseInt (Strings.trimSpace configuredChatID) with
  | none => false
  | some chatID => decide (chatID > 0) && chatID == userID

/-- The configuration of the `Poller`, as far as decisions depend on it. -/
structure Poller where
  chatID : GoString
  allowedUserIDs : GoString
  allowedTTLs : List Int
deriving DecidableEq, Repr

/-- `telegramCallbackQuery`: its data, the user it is from, and the chat of the
message it belongs to, if there is one. -/
structure CallbackQuery where
  data : GoString
  fromID : Int
  chatID : Option Int
deriving DecidableEq, Repr

/-- `telegramUpdate`. -/
structure TelegramUpdate where
  callbackQuery : Option CallbackQuery
deriving DecidableEq, Repr

/-- The call `handleUpdate` makes. -/
inductive Decision
  | approve (txID : GoString) (ttl : Duration) (approver : GoString)
  | deny (txID : GoString)
deriving DecidableEq, Repr

/-- The decision of a callback from a chat. -/
def Callback.decision (p : Poller) (chatID : Int) : Callback → Decision
  | .approve txID ttl =>
      .approve txID (if ttl ≤ 0 then defaultTTLFromAllowed p.allowedTTLs else ttl)
        (formatApproverChatID chatID)
  | .deny txID => .deny txID

/-- `handleUpdate`: the call it makes on the store, if any. -/
def handleUpdate (p : Poller) (upd : TelegramUpdate) : Option Decision :=
  match upd.callbackQuery with
  | none => none
  | some cq =>
      if cq.data = [] then none
      else
        match parseCallbackData cq.data p.allowedTTLs with
        | none => none
        | some callback =>
            match cq.chatID with
            | none => none
            | some chatID =>
                if !chatAllowed p.chatID chatID then none
                else if !telegramUserAllowed p.chatID p.allowedUserIDs cq.fromID then none
                else some (callback.decision p chatID)

/-- The update is a callback that approves the transaction, from the configured chat
and from a user who may decide. -/
structure AuthorizedCallback (p : Poller) (upd : TelegramUpdate) (txID approver : GoString)
    (cq : CallbackQuery) (chatID : Int) : Prop where
  query : upd.callbackQuery = some cq
  names : ∃ ttl, parseCallbackData cq.data p.allowedTTLs = some (.approve txID ttl)
  chat : cq.chatID = some chatID
  chatAllowed : chatAllowed p.chatID chatID = true
  userAllowed : telegramUserAllowed p.chatID p.allowedUserIDs cq.fromID = true
  approver_eq : approver = formatApproverChatID chatID

/-- What `handleUpdate` has checked when it makes a call. -/
theorem handleUpdate_eq_some {p : Poller} {upd : TelegramUpdate} {d : Decision}
    (h : handleUpdate p upd = some d) :
    ∃ cq callback chatID, upd.callbackQuery = some cq ∧
      parseCallbackData cq.data p.allowedTTLs = some callback ∧ cq.chatID = some chatID ∧
      chatAllowed p.chatID chatID = true ∧
      telegramUserAllowed p.chatID p.allowedUserIDs cq.fromID = true ∧
      callback.decision p chatID = d := by
  rw [handleUpdate] at h
  split at h
  · exact nomatch h
  · next cq hcq =>
      split at h
      · exact nomatch h
      · split at h
        · exact nomatch h
        · next callback hparse =>
            split at h
            · exact nomatch h
            · next chatID hchat =>
                split at h
                · exact nomatch h
                · next hallowed =>
                    split at h
                    · exact nomatch h
                    · next huser =>
                        rw [Bool.not_eq_true', Bool.not_eq_false] at hallowed huser
                        exact ⟨cq, callback, chatID, hcq, hparse, hchat, hallowed, huser,
                          Option.some.inj h⟩

/-- A decision to approve comes from an approving callback. -/
theorem Callback.decision_eq_approve {p : Poller} {chatID : Int} {callback : Callback}
    {txID approver : GoString} {ttl : Duration}
    (h : callback.decision p chatID = .approve txID ttl approver) :
    approver = formatApproverChatID chatID ∧ ∃ asked, callback = .approve txID asked ∧
      ttl = if asked ≤ 0 then defaultTTLFromAllowed p.allowedTTLs else asked := by
  cases callback with
  | deny => exact nomatch h
  | approve txID' asked =>
      cases h
      exact ⟨rfl, asked, rfl, rfl⟩

/-- `handleUpdate` approves only on such a callback. -/
theorem handleUpdate_approve {p : Poller} {upd : TelegramUpdate} {txID approver : GoString}
    {ttl : Duration} (h : handleUpdate p upd = some (.approve txID ttl approver)) :
    ∃ cq chatID, AuthorizedCallback p upd txID approver cq chatID := by
  obtain ⟨cq, callback, chatID, hcq, hparse, hchat, hallowed, huser, hd⟩ := handleUpdate_eq_some h
  obtain ⟨happrover, asked, rfl, -⟩ := Callback.decision_eq_approve hd
  exact ⟨cq, chatID, hcq, ⟨asked, hparse⟩, hchat, hallowed, huser, happrover⟩

end LunaZTrust.Approval
