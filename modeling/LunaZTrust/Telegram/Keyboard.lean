import LunaZTrust.Approval.CallbackGrammar

/-!
# The buttons under a prompt

`approvalKeyboard` of `proxy/internal/approval/telegram.go` offers an approval for each of the
configured ttls, and a denial.  What a button sends back is read by `ParseCallbackData` against the
same list.  If the list is empty the keyboard offers ttls of its own, which the parser
then refuses; otherwise every button is read as what it stands for
(`approvalKeyboard_works_iff`).
-/

namespace LunaZTrust.Telegram

open LunaZTrust.Go LunaZTrust.Approval

/-- A button: its text and its `callback_data`. -/
structure Button where
  text : GoString
  callbackData : GoString
deriving DecidableEq, Repr

/-- `formatTTLLabel`. -/
def formatTTLLabel (sec : Int) : GoString :=
  if sec % 60 = 0 ∧ sec ≥ 60 then str "Approve " ++ Strconv.formatInt (sec / 60) ++ str "m"
  else str "Approve " ++ Strconv.formatInt sec ++ str "s"

/-- The button that approves for a number of seconds. -/
def approveButton (txID : GoString) (sec : Int) : Button where
  text := formatTTLLabel sec
  callbackData := str "approve:" ++ txID ++ str ":" ++ Strconv.formatInt sec

/-- The button that denies. -/
def denyButton (txID : GoString) : Button where
  text := str "Deny"
  callbackData := str "deny:" ++ txID

/-- `approvalKeyboard`: its one row. -/
def approvalKeyboard (txID : GoString) (allowedTTLs : List Int) : List (List Button) :=
  let ttls := if allowedTTLs = [] then [180, 300, 900] else allowedTTLs
  [ttls.map (approveButton txID) ++ [denyButton txID]]

/-- What a button stands for. -/
inductive StandsFor (txID : GoString) : Button → Callback → Prop
  | approve (sec : Int) :
      StandsFor txID (approveButton txID sec) (.approve txID (sec * Time.second))
  | deny : StandsFor txID (denyButton txID) (.deny txID)

variable {txID : GoString} {allowed : List Int}

theorem callbackData_approveButton (txID : GoString) (sec : Int) :
    (approveButton txID sec).callbackData =
      joined [str "approve", txID, Strconv.formatInt sec] := by
  have happrove : str "approve:" = str "approve" ++ [0x3a] := by decide
  have hcolon : str ":" = [0x3a] := by decide
  rw [approveButton, joined, happrove, hcolon]
  simp only [List.intercalate_cons_cons, List.intercalate_singleton, List.append_assoc]

theorem callbackData_denyButton (txID : GoString) :
    (denyButton txID).callbackData = joined [str "deny", txID] := by
  have hdeny : str "deny:" = str "deny" ++ [0x3a] := by decide
  rw [denyButton, joined, hdeny]
  simp only [List.intercalate_cons_cons, List.intercalate_singleton, List.append_assoc]

/-- The number of a button for an allowed ttl is read as that ttl. -/
theorem parseCallbackData_approveButton {sec : Int} (htx : IsTxID txID) (hsec : sec ∈ allowed)
    (hfits : IsInt64 (sec * Time.second)) :
    parseCallbackData (approveButton txID sec).callbackData allowed =
      some (.approve txID (sec * Time.second)) := by
  have hsec64 : IsInt64 sec := by
    rw [IsInt64, Time.second] at *
    omega
  have hnumber : Strconv.parseInt (Strconv.formatInt sec) = some sec := by
    rw [Strconv.parseInt_formatInt, if_pos hsec64]
  have hsep : ∀ segment ∈ [Strconv.formatInt sec], 0x3a ∉ segment := by
    rw [List.forall_mem_singleton]
    exact Strconv.colon_notMem_formatInt sec
  have h := Accepted.approveFor htx hsep hnumber hsec
  rw [Time.ofSeconds, wrap64_of_small hfits.1 hfits.2] at h
  rw [callbackData_approveButton]
  exact h.parseCallbackData

theorem parseCallbackData_denyButton (htx : IsTxID txID) :
    parseCallbackData (denyButton txID).callbackData allowed = some (.deny txID) := by
  rw [callbackData_denyButton]
  exact (Accepted.deny htx).parseCallbackData

/-- With no ttl allowed, no button that approves is read. -/
theorem parseCallbackData_approveButton_nil (htx : IsTxID txID) (sec : Int) :
    parseCallbackData (approveButton txID sec).callbackData [] = none := by
  have hsep : ∀ segment ∈ [Strconv.formatInt sec], 0x3a ∉ segment := by
    rw [List.forall_mem_singleton]
    exact Strconv.colon_notMem_formatInt sec
  rw [callbackData_approveButton, parseCallbackData, split_joined_approve htx hsep]
  dsimp only
  rw [if_neg (by decide), if_pos rfl, if_neg htx.not_refused]
  cases Strconv.parseInt (Strconv.formatInt sec) with
  | none => rfl
  | some n => rfl

/-- **Every button works** just if the list is not empty: it is read as what it stands for. -/
theorem approvalKeyboard_works_iff (htx : IsTxID txID)
    (hfits : ∀ sec ∈ allowed, IsInt64 (sec * Time.second)) :
    (∀ row ∈ approvalKeyboard txID allowed, ∀ button ∈ row, ∃ callback,
        StandsFor txID button callback ∧
          parseCallbackData button.callbackData allowed = some callback) ↔
      allowed ≠ [] := by
  constructor
  · rintro h rfl
    -- the first of the buttons it offers of its own
    obtain ⟨callback, -, hparse⟩ := h _ List.mem_cons_self (approveButton txID 180)
      List.mem_cons_self
    rw [parseCallbackData_approveButton_nil htx] at hparse
    cases hparse
  · intro hne row hrow button hbutton
    rw [approvalKeyboard, if_neg hne] at hrow
    cases List.mem_singleton.mp hrow
    rcases List.mem_append.mp hbutton with happrove | hdeny
    · obtain ⟨sec, hsec, rfl⟩ := List.mem_map.mp happrove
      exact ⟨_, .approve sec, parseCallbackData_approveButton htx hsec (hfits sec hsec)⟩
    · cases List.mem_singleton.mp hdeny
      exact ⟨_, .deny, parseCallbackData_denyButton htx⟩

/-- The keyboard of the default configuration. -/
theorem approvalKeyboard_works_default :
    (approvalKeyboard (str "tx_1") [180, 300, 900]).map List.length = [4] ∧
      ∀ row ∈ approvalKeyboard (str "tx_1") [180, 300, 900], ∀ button ∈ row, ∃ callback,
        StandsFor (str "tx_1") button callback ∧
          parseCallbackData button.callbackData [180, 300, 900] = some callback :=
  ⟨by decide +kernel, (approvalKeyboard_works_iff (by decide) (by decide)).mpr (by decide)⟩

/-- Without a list, none of the approvals that are offered is accepted. -/
theorem approvalKeyboard_of_nil :
    (approvalKeyboard (str "tx_1") []).map (·.map Button.callbackData) =
        [[str "approve:tx_1:180", str "approve:tx_1:300", str "approve:tx_1:900",
          str "deny:tx_1"]] ∧
      parseCallbackData (str "approve:tx_1:180") [] = none ∧
      parseCallbackData (str "approve:tx_1:300") [] = none ∧
      parseCallbackData (str "approve:tx_1:900") [] = none := by
  decide +kernel

end LunaZTrust.Telegram
