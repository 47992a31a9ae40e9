import LunaZTrust.Api.FailClosed
import LunaZTrust.Go.Separators
import LunaZTrust.Telegram.Poller

/-!
# The text of a prompt

`formatApprovalMessage` of `proxy/internal/approval/telegram.go`: what the approver reads
about a request.  It has a line for each field, with a label, and some lines are left out if
their field is empty.  A request is free of control characters in the fields that the client
chooses (`ValidateDisplayFields`), so no field can hold a line of its own, and no label begins with
another one.  So the text says what the fields are (`formatApprovalMessage_determines`).  The
client's name and version are not among them, as they share a line.
-/

namespace LunaZTrust.Telegram

open LunaZTrust.Go LunaZTrust.Go.Separators LunaZTrust.Ssh LunaZTrust.Auth LunaZTrust.Approval
open LunaZTrust.Api

/-! ## The text -/

/-- The client's name and version. -/
def clientText (tx : Transaction) : GoString :=
  if tx.clientVersion ≠ [] then tx.clientName ++ str " " ++ tx.clientVersion else tx.clientName

/-- The lines that come before the id of the transaction. -/
def detailLines (tx : Transaction) : GoString :=
  line (str "Target user: ") tx.targetUser ++ line (str "Target host claim: ") tx.targetIP ++
  lineIf (destinationHostKeyLabel tx ++ str ": ") tx.destinationHostKeyFingerprint ++
  lineIf (str "Source IP: ") tx.sourceIP ++ lineIf (str "Source user: ") tx.sourceUser ++
  (if tx.clientName ≠ [] ∨ tx.clientVersion ≠ [] then line (str "Client: ") (clientText tx) else [])

/-- `formatApprovalMessage`. -/
def formatApprovalMessage : Option Transaction → GoString
  | none => str "Luna SSH sign request"
  | some tx => str "Luna SSH sign request\n" ++ detailLines tx ++ (str "Tx: " ++ tx.id)

/-! ## Its entries -/

/-- The labels of the lines.  The first line is a label without a value. -/
inductive Label
  | title
  | targetUser
  | targetHost
  | sessionBound
  | clientReported
  | sourceIP
  | sourceUser
  | client
  | tx
deriving DecidableEq, Repr

/-- The text of a label. -/
def Label.text : Label → GoString
  | title => str "Luna SSH sign request"
  | targetUser => str "Target user: "
  | targetHost => str "Target host claim: "
  | sessionBound => str "Session-bound SSH host key: "
  | clientReported => str "Client-reported SSH host key: "
  | sourceIP => str "Source IP: "
  | sourceUser => str "Source user: "
  | client => str "Client: "
  | tx => str "Tx: "

/-- No label begins with another one. -/
theorem Label.eq_of_prefix (l l' : Label) (h : l.text <+: l'.text) : l = l' := by
  revert h
  cases l <;> cases l' <;> decide

theorem Label.newline_notMem (l : Label) : 0x0a ∉ l.text := by
  cases l <;> decide

/-- The label of the host key. -/
def hostKeyLabel (tx : Transaction) : Label :=
  if tx.destinationHostKeySource = str "client-reported" then .clientReported else .sessionBound

theorem text_hostKeyLabel (tx : Transaction) :
    (hostKeyLabel tx).text = destinationHostKeyLabel tx ++ str ": " := by
  rw [hostKeyLabel, destinationHostKeyLabel]
  split <;> decide

/-- What the text has before the id of the transaction. -/
def details (tx : Transaction) : List (Label × GoString) :=
  [(.title, []), (.targetUser, tx.targetUser), (.targetHost, tx.targetIP)] ++
  entryIf (hostKeyLabel tx) tx.destinationHostKeyFingerprint ++
  entryIf .sourceIP tx.sourceIP ++ entryIf .sourceUser tx.sourceUser ++
  entryIf .client (clientText tx)

/-- The entries of the text. -/
def entries (tx : Transaction) : List (Label × GoString) := details tx ++ [(.tx, tx.id)]

theorem lineIf_eq (l : Label) (v : GoString) :
    lineIf l.text v = (entryIf l v).flatMap fun e ↦ e.1.text ++ e.2 ++ [0x0a] := by
  rw [lineIf, entryIf]
  split
  · rfl
  · rw [List.flatMap_singleton, line]

theorem clientText_eq_nil_iff (tx : Transaction) :
    clientText tx = [] ↔ ¬(tx.clientName ≠ [] ∨ tx.clientVersion ≠ []) := by
  rw [clientText, not_or, not_not, not_not]
  split
  · next hversion =>
      refine iff_of_false (fun h ↦ ?_) fun h ↦ hversion h.2
      exact hversion (List.append_eq_nil_iff.mp h).2
  · next hversion => rw [and_iff_left (not_not.mp hversion)]

theorem lineIf_client (tx : Transaction) :
    lineIf Label.client.text (clientText tx) =
      if tx.clientName ≠ [] ∨ tx.clientVersion ≠ [] then line (str "Client: ") (clientText tx)
      else [] := by
  rw [lineIf]
  split
  · next h => rw [if_neg ((clientText_eq_nil_iff tx).mp h)]
  · next h => rw [if_pos (not_not.mp (mt (clientText_eq_nil_iff tx).mpr h)), Label.text]

theorem flatMap_details (tx : Transaction) :
    (details tx).flatMap (fun e ↦ e.1.text ++ e.2 ++ [0x0a]) =
      str "Luna SSH sign request\n" ++ detailLines tx := by
  have htitle : Label.title.text ++ [] ++ [0x0a] = str "Luna SSH sign request\n" := by decide
  rw [details, detailLines, ← text_hostKeyLabel, ← lineIf_client]
  simp only [List.flatMap_append, ← lineIf_eq]
  rw [List.flatMap_cons, htitle, List.flatMap_cons, List.flatMap_singleton]
  simp only [line, Label.text, List.append_assoc]

/-- The text is that of its entries. -/
theorem formatApprovalMessage_eq_render (tx : Transaction) :
    formatApprovalMessage (some tx) = render Label.text 0x0a (entries tx) := by
  rw [render, entries, List.map_append, List.map_singleton, intercalate_concat, List.flatMap_map,
    flatMap_details]
  rfl

/-! ## Reading it -/

/-- What `handleSign` lets through: the fields a client chooses have been validated, and the others
are on one line. -/
structure Displayable (tx : Transaction) : Prop where
  valid : validateDisplayFields tx.targetUser tx.targetIP
    ⟨tx.sourceUser, tx.clientName, tx.clientVersion⟩ = .ok ()
  id : 0x0a ∉ tx.id
  sourceIP : 0x0a ∉ tx.sourceIP
  fingerprint : 0x0a ∉ tx.destinationHostKeyFingerprint

variable {tx tx' : Transaction}

theorem newline_notMem_of_checkDisplayField {field : GoString}
    (h : checkDisplayField field = .ok ()) : 0x0a ∉ field := by
  rw [checkDisplayField] at h
  split at h
  · cases h
  · next hclean =>
      intro hmem
      exact hclean (List.any_eq_true.mpr ⟨0x0a, hmem, by decide⟩)

theorem Displayable.newline_notMem (h : Displayable tx) : ∀ e ∈ entries tx, 0x0a ∉ e.2 := by
  obtain ⟨_, huser, hrest⟩ := bind_eq_ok_iff.mp h.valid
  obtain ⟨_, hip, hrest⟩ := bind_eq_ok_iff.mp hrest
  obtain ⟨_, hsource, hrest⟩ := bind_eq_ok_iff.mp hrest
  obtain ⟨_, hname, hversion⟩ := bind_eq_ok_iff.mp hrest
  have hclient : 0x0a ∉ clientText tx := by
    have hname := newline_notMem_of_checkDisplayField hname
    have hversion := newline_notMem_of_checkDisplayField hversion
    rw [clientText]
    split
    · exact List.not_mem_append (List.not_mem_append hname (by decide)) hversion
    · exact hname
  intro e he
  simp only [entries, details, List.mem_append, List.mem_cons, List.not_mem_nil, or_false] at he
  rcases he with (((((rfl | rfl | rfl) | he) | he) | he) | he) | rfl
  · exact List.not_mem_nil
  · exact newline_notMem_of_checkDisplayField huser
  · exact newline_notMem_of_checkDisplayField hip
  · cases mem_entryIf he
    exact h.fingerprint
  · cases mem_entryIf he
    exact h.sourceIP
  · cases mem_entryIf he
    exact newline_notMem_of_checkDisplayField hsource
  · cases mem_entryIf he
    exact hclient
  · exact h.id

theorem entries_ne_nil (tx : Transaction) : entries tx ≠ [] :=
  List.append_ne_nil_of_right_ne_nil _ (List.cons_ne_nil _ _)

/-- The text says what the entries are. -/
theorem entries_eq_of_formatApprovalMessage_eq (h : Displayable tx) (h' : Displayable tx')
    (heq : formatApprovalMessage (some tx) = formatApprovalMessage (some tx')) :
    entries tx = entries tx' := by
  rw [formatApprovalMessage_eq_render, formatApprovalMessage_eq_render] at heq
  exact render_inj Label.eq_of_prefix Label.newline_notMem (entries_ne_nil tx) (entries_ne_nil tx')
    h.newline_notMem h'.newline_notMem heq

theorem hostKeyLabel_cases (tx : Transaction) :
    hostKeyLabel tx = .clientReported ∨ hostKeyLabel tx = .sessionBound := by
  rw [hostKeyLabel]
  split
  · exact .inl rfl
  · exact .inr rfl

/-- The entries say what the fields are, whichever lines are left out. -/
theorem value_entries (tx : Transaction) :
    value .targetUser (entries tx) = tx.targetUser ∧ value .targetHost (entries tx) = tx.targetIP ∧
      value .sourceIP (entries tx) = tx.sourceIP ∧
      value .sourceUser (entries tx) = tx.sourceUser ∧ value .tx (entries tx) = tx.id := by
  rcases hostKeyLabel_cases tx with h | h <;> simp [entries, details, h]

/-- They say what the host key is, under the label it has. -/
theorem value_hostKey (tx : Transaction) {l : Label}
    (hl : l = .clientReported ∨ l = .sessionBound) :
    value l (entries tx) =
      if hostKeyLabel tx = l then tx.destinationHostKeyFingerprint else [] := by
  rcases hl with rfl | rfl <;> simp [entries, details]

theorem fingerprint_eq_of_entries_eq (h : entries tx = entries tx') :
    tx.destinationHostKeyFingerprint = tx'.destinationHostKeyFingerprint := by
  have hfp : ∀ tx, value .clientReported (entries tx) ++ value .sessionBound (entries tx) =
      tx.destinationHostKeyFingerprint := by
    intro tx
    rw [value_hostKey tx (.inl rfl), value_hostKey tx (.inr rfl)]
    rcases hostKeyLabel_cases tx with hl | hl <;> simp [hl]
  rw [← hfp, ← hfp, h]

theorem hostKeyLabel_eq_of_entries_eq (h : entries tx = entries tx')
    (hne : tx.destinationHostKeyFingerprint ≠ []) : hostKeyLabel tx = hostKeyLabel tx' := by
  have hvalue := value_hostKey tx (hostKeyLabel_cases tx)
  rw [if_pos rfl, h, value_hostKey tx' (hostKeyLabel_cases tx)] at hvalue
  by_contra hdiff
  rw [if_neg (Ne.symm hdiff)] at hvalue
  exact hne hvalue.symm

/-- **The prompt says what is asked for.**  Two requests with the same text agree on
the fields it shows, and on what is said of the host key if there is one. -/
theorem formatApprovalMessage_determines (h : Displayable tx) (h' : Displayable tx')
    (heq : formatApprovalMessage (some tx) = formatApprovalMessage (some tx')) :
    tx.id = tx'.id ∧ tx.targetUser = tx'.targetUser ∧ tx.targetIP = tx'.targetIP ∧
      tx.sourceIP = tx'.sourceIP ∧ tx.sourceUser = tx'.sourceUser ∧
      tx.destinationHostKeyFingerprint = tx'.destinationHostKeyFingerprint ∧
      (tx.destinationHostKeyFingerprint ≠ [] →
        destinationHostKeyLabel tx = destinationHostKeyLabel tx') := by
  have hentries := entries_eq_of_formatApprovalMessage_eq h h' heq
  obtain ⟨huser, hip, hsource, hsourceUser, hid⟩ := value_entries tx
  obtain ⟨huser', hip', hsource', hsourceUser', hid'⟩ := value_entries tx'
  rw [hentries] at huser hip hsource hsourceUser hid
  refine ⟨hid.symm.trans hid', huser.symm.trans huser', hip.symm.trans hip',
    hsource.symm.trans hsource', hsourceUser.symm.trans hsourceUser',
    fingerprint_eq_of_entries_eq hentries, fun hne ↦ ?_⟩
  have hlabel := congrArg Label.text (hostKeyLabel_eq_of_entries_eq hentries hne)
  rw [text_hostKeyLabel, text_hostKeyLabel] at hlabel
  exact List.append_cancel_right hlabel

/-- A request to log in from `10.0.0.9`. -/
def promptedTransaction (targetIP sourceIP : GoString) : Transaction where
  id := str "tx_1"
  targetUser := str "deploy"
  targetIP := targetIP
  publicKey := []
  sourceIP := sourceIP
  sourceUser := str "alice"
  clientName := []
  clientVersion := []
  clientCertFP := []
  agentSignData := []
  hostKeyFingerprint := []
  destinationHostKeyFingerprint := str "AAAA"
  destinationHostKeySource := str "session-bound"
  disableLease := false
  state := .pending
  createdAt := 0

/-- The line of the source address is not imitated by the target address. -/
theorem formatApprovalMessage_determines_sourceIP :
    formatApprovalMessage (some (promptedTransaction (str "10.0.0.5") (str "10.0.0.9"))) ≠
      formatApprovalMessage
        (some (promptedTransaction (str "10.0.0.5 Source IP: 10.0.0.9") [])) := by
  have h : Displayable (promptedTransaction (str "10.0.0.5") (str "10.0.0.9")) :=
    ⟨by decide +kernel, by decide, by decide, by decide⟩
  have h' : Displayable (promptedTransaction (str "10.0.0.5 Source IP: 10.0.0.9") []) :=
    ⟨by decide +kernel, by decide, by decide, by decide⟩
  intro heq
  exact absurd (formatApprovalMessage_determines h h' heq).2.2.2.1 (by decide)

/-! ## Whose prompts are sent -/

section Sent

variable {Key Signer : Type} {crypto : Crypto} {ssh : Package Key Signer} {lib : Library}
  {cfg : Approval.Config} {telegramConfigured : Bool} {signers : Signers} {t : Readings} {id : TxID}
  {srv : Server Signer} {r : HttpRequest} {req : SignRequest} {hostKeyFP : GoString}
  {input : SignInput} {allowLease : Bool}

/-- A request that passed validation is free of control characters. -/
theorem validateDisplayFields_of_passed
    (h : Passed crypto ssh lib cfg t srv r req hostKeyFP input allowLease) :
    validateDisplayFields req.targetUser req.targetIP
      (normalizeSignClientMeta req.sourceUser req.clientName req.clientVersion) = .ok () := by
  obtain ⟨rawBody, conn, -, hvalid⟩ := h.valid
  rw [validateSignRequest] at hvalid
  split at hvalid
  · cases hvalid
  · dsimp only at hvalid
    rw [checkRequest] at hvalid
    split at hvalid
    · cases hvalid
    · split at hvalid
      · cases hvalid
      · exact hvalid

theorem fingerprint_of_validateSignData {signData : Bytes} {hostedPub : Key}
    {binding : ValidatedSessionBinding}
    (h : validateSignData crypto ssh req signData hostedPub = .ok binding) :
    0x0a ∉ binding.hostKeyFingerprint := by
  have hfp : ∃ hostKey, binding.hostKeyFingerprint = Keystore.fingerprint crypto ssh hostKey := by
    rw [validateSignData] at h
    split at h
    · exact fingerprint_of_validateLocalKeySignData h
    · exact fingerprint_of_validateDirectLocalKeySignData h
  obtain ⟨hostKey, hfp⟩ := hfp
  rw [hfp, Keystore.fingerprint]
  exact Base64.newline_notMem_rawStdEncode _

/-- The arguments for the store have the fields of the request. -/
theorem bindRequest_fields
    (h : bindRequest crypto ssh lib cfg srv.keystore r req hostKeyFP = .ok (input, allowLease)) :
    input.targetUser = req.targetUser ∧ input.targetIP = req.targetIP ∧
      input.sourceIP = clientIPFromRemoteAddr lib r.remoteAddr ∧
      (⟨input.client.sourceUser, input.client.clientName, input.client.clientVersion⟩ :
        SignClientMeta) = normalizeSignClientMeta req.sourceUser req.clientName req.clientVersion ∧
      0x0a ∉ input.destinationHostKeyFP := by
  rw [bindRequest] at h
  split at h
  · split at h
    · cases h
    · split at h
      · cases h
      · split at h
        · cases h
        · next binding hbinding =>
            cases h
            refine ⟨rfl, rfl, rfl, ?_, fingerprint_of_validateSignData hbinding⟩
            dsimp only [signInput]
            split <;> rfl
  · cases h
    exact ⟨rfl, rfl, rfl, rfl, List.not_mem_nil⟩

/-- What waits for an approval can be displayed. -/
theorem displayable_pending (h : Passed crypto ssh lib cfg t srv r req hostKeyFP input allowLease)
    (hid : 0x0a ∉ id) (hip : 0x0a ∉ clientIPFromRemoteAddr lib r.remoteAddr) :
    Displayable (input.pending id t.createdAt) := by
  obtain ⟨huser, htarget, hsource, hclient, hfp⟩ := bindRequest_fields h.bound
  rw [← hsource] at hip
  refine ⟨?_, hid, hip, hfp⟩
  have hvalid := validateDisplayFields_of_passed h
  rw [← huser, ← htarget, ← hclient] at hvalid
  exact hvalid

theorem telegram_notMem_issueFromLease {leases : Option Lease.Store} :
    Effect.telegram tx ∉ (issueFromLease cfg leases signers t input).2 := by
  rw [issueFromLease]
  split
  · exact List.not_mem_nil
  · dsimp only
    split
    · exact List.not_mem_nil
    · split <;>
        · intro h
          cases List.mem_singleton.mp h

/-- A prompt is sent for the transaction that waits for an approval. -/
theorem telegram_of_answerSign
    (h : Effect.telegram tx ∈
      (answerSign cfg telegramConfigured signers t id srv input allowLease).2.2) :
    tx = input.pending id t.createdAt := by
  have hstarted : Effect.telegram tx ∉ (if (!cfg.isDev && allowLease) = true then
      issueFromLease cfg srv.leases signers t input else (none, [])).2 := by
    split
    · exact telegram_notMem_issueFromLease
    · exact List.not_mem_nil
  rw [answerSign] at h
  rcases hissue : (if (!cfg.isDev && allowLease) = true then
      issueFromLease cfg srv.leases signers t input else (none, [])) with ⟨leased, started⟩
  rw [hissue] at h hstarted
  cases leased with
  | some res => exact absurd h hstarted
  | none =>
      rcases List.mem_append.mp h with h | h
      · rcases List.mem_append.mp h with h | h
        · exact absurd h hstarted
        · rw [createBound] at h
          dsimp only at h
          split at h
          · cases List.mem_singleton.mp h
          · cases h
      · rw [notifyPending] at h
        split at h
        · cases h
        · rcases List.mem_append.mp h with h | h
          · split at h
            · cases List.mem_singleton.mp h
              rfl
            · cases h
          · cases List.mem_singleton.mp h

/-- **Prompts of the handler.**  The transaction of each prompt can be displayed. -/
theorem displayable_of_handleSign (hid : 0x0a ∉ id)
    (hip : 0x0a ∉ clientIPFromRemoteAddr lib r.remoteAddr)
    (h : Effect.telegram tx ∈
      (handleSign crypto ssh lib cfg telegramConfigured signers t id srv r).2.2) :
    Displayable tx := by
  rcases @handleSign_cases _ _ crypto ssh lib cfg telegramConfigured signers t id srv r with
    ⟨e, replay, heq⟩ | ⟨req, hostKeyFP, input, allowLease, replay, hpassed, heq⟩
  · rw [heq] at h
    cases h
  · rw [heq] at h
    rw [telegram_of_answerSign h]
    exact displayable_pending hpassed hid hip

end Sent

end LunaZTrust.Telegram
