import LunaZTrust.Api.CliHandler
import LunaZTrust.Api.MobileHandler
import LunaZTrust.Go.Json
import LunaZTrust.Keystore.Pending

/-!
# Keys uploaded by device

`proxy/internal/api/keys_pending_handler.go`: an enrolled device uploads an encrypted key, which
waits in the queue until an operator confirms it.  The request is signed like an approval: over
the canonical JSON of its fields.

A signature is one of bytes, and the handlers rebuild the bytes from the fields they have read.
Two requests have the same bytes only if they ask for the same (`DeviceRequest.bytes_injective`),
so a signature of one message is accepted for one request (`device_signature_one_meaning`).
-/

namespace LunaZTrust.Api

open LunaZTrust.Go LunaZTrust.Cli LunaZTrust.Config LunaZTrust.Keystore

/-- `maxPendingKeyBody`. -/
def maxPendingKeyBody : Nat := 64 * 1024

/-- `mobileKeysPendingSignPayload`. -/
structure MobileKeysPendingSignPayload where
  deviceID : GoString
  encryptedPEM : GoString
  label : GoString
  comment : GoString
  timestamp : Int
deriving DecidableEq, Repr

/-- `mobileKeysPendingRequest`. -/
structure MobileKeysPendingRequest extends MobileKeysPendingSignPayload where
  signature : GoString
deriving DecidableEq, Repr

/-! ## What a device signs -/

/-- The fields of a `mobileApproveSignPayload`, under their JSON names. -/
def MobileApproveSignPayload.members (p : MobileApproveSignPayload) :
    List (GoString × Json.Value) :=
  [(str "tx_id", .string p.txID),
    (str "action", .string p.action),
    (str "ttl_seconds", .int p.ttlSeconds),
    (str "device_id", .string p.deviceID),
    (str "timestamp", .int p.timestamp)]

/-- `json.Marshal` of a `mobileApproveSignPayload`. -/
def MobileApproveSignPayload.marshal (p : MobileApproveSignPayload) : Bytes :=
  Json.object p.members

/-- The fields of a `mobileKeysPendingSignPayload`; an empty comment is omitted. -/
def MobileKeysPendingSignPayload.members (p : MobileKeysPendingSignPayload) :
    List (GoString × Json.Value) :=
  [(str "device_id", .string p.deviceID),
    (str "encrypted_pem", .string p.encryptedPEM),
    (str "label", .string p.label)] ++
  (if p.comment = [] then [] else [(str "comment", .string p.comment)]) ++
  [(str "timestamp", .int p.timestamp)]

/-- `json.Marshal` of a `mobileKeysPendingSignPayload`. -/
def MobileKeysPendingSignPayload.marshal (p : MobileKeysPendingSignPayload) : Bytes :=
  Json.object p.members

/-! ## The handler -/

section Handler

variable {PublicKey PrivateKey : Type} (crypto : Crypto) (x509 : X509 PublicKey PrivateKey)
  (unmarshal : Bytes → Option MobileKeysPendingRequest)

/-- The check of the peer: a connection without a certificate passes it. -/
def checkUploader (cfg : Config) (r : HttpRequest) : Except HttpError Unit :=
  match r.peerCertificates with
  | [] => .ok ()
  | raw :: _ =>
      if adminClientAllowed cfg.adminClientOU (peerCertificate x509 raw) then
        .error (.mk "automation/admin cert cannot upload keys" Http.statusForbidden)
      else .ok ()

/-- Read the body and check its fields. -/
def readMobileKeysPending (cfg : Config) (r : HttpRequest) :
    Except HttpError MobileKeysPendingRequest :=
  match checkUploader x509 cfg r with
  | .error e => .error e
  | .ok () =>
      match r.readAll maxPendingKeyBody with
      | .error _ => .error (.mk "read body" Http.statusBadRequest)
      | .ok raw =>
          match unmarshal raw with
          | none => .error (.mk "invalid json" Http.statusBadRequest)
          | some req =>
              if req.deviceID = [] ∨ req.encryptedPEM = [] ∨ req.label = [] ∨
                  req.signature = [] then
                .error (.mk "device_id, encrypted_pem, label, and signature required"
                  Http.statusBadRequest)
              else if req.timestamp = 0 then
                .error (.mk "timestamp required" Http.statusBadRequest)
              else .ok req

/-- The first part of `handleMobileKeysPending`: the request, and the device it names. -/
def findUploader (cfg : Config) (devices : Mobile.Store) (r : HttpRequest) :
    Except HttpError (MobileKeysPendingRequest × Mobile.Device) :=
  match readMobileKeysPending x509 unmarshal cfg r with
  | .error e => .error e
  | .ok req =>
      match devices.get req.deviceID with
      | none => .error (.mk "unknown device" Http.statusForbidden)
      | some dev =>
          if clientCertFPFromRequest crypto r ≠ dev.certFingerprint then
            .error (.mk "mobile client certificate mismatch" Http.statusForbidden)
          else .ok (req, dev)

/-- The rest of `handleMobileKeysPending`: the id under which the key is queued.  The clock is
read for the signature and, with a new id, for the queue. -/
def uploadByDevice (req : MobileKeysPendingRequest) (dev : Mobile.Device) (now : Time)
    (pending : PendingStore) (id : GoString) (addedAt : Time) :
    Except HttpError GoString × PendingStore :=
  let payload := req.toMobileKeysPendingSignPayload.marshal
  match verifyDeviceSignature crypto dev.pubKey payload req.signature now req.timestamp with
  | .error e => (.error (writeDeviceAuthError e), pending)
  | .ok () =>
      match Base64.stdDecode req.encryptedPEM with
      | none => (.error (.mk "invalid encrypted_pem" Http.statusBadRequest), pending)
      | some blob =>
          match pending.add req.deviceID req.label req.comment blob id addedAt with
          | (.error .full, pending) =>
              (.error (.mk "pending queue full" Http.statusTooManyRequests), pending)
          | (.error _, pending) =>
              (.error (.mk "upload failed" Http.statusInternalServerError), pending)
          | (.ok id, pending) => (.ok id, pending)

end Handler

/-! ## One signature, one request -/

/-- The values `json.Unmarshal` can give: valid UTF-8, and integers of 64 bits. -/
structure MobileApproveSignPayload.Valid (p : MobileApproveSignPayload) : Prop where
  txID : Utf8.valid p.txID = true
  action : Utf8.valid p.action = true
  ttlSeconds : IsInt64 p.ttlSeconds
  deviceID : Utf8.valid p.deviceID = true
  timestamp : IsInt64 p.timestamp

/-- The values `json.Unmarshal` can give. -/
structure MobileKeysPendingSignPayload.Valid (p : MobileKeysPendingSignPayload) : Prop where
  deviceID : Utf8.valid p.deviceID = true
  encryptedPEM : Utf8.valid p.encryptedPEM = true
  label : Utf8.valid p.label = true
  comment : Utf8.valid p.comment = true
  timestamp : IsInt64 p.timestamp

theorem MobileApproveSignPayload.Valid.members {p : MobileApproveSignPayload} (h : p.Valid) :
    ∀ m ∈ p.members, Json.Member.valid m = true := by
  simp only [MobileApproveSignPayload.members, List.forall_mem_cons]
  refine ⟨?_, ?_, ?_, ?_, ?_, List.forall_mem_nil _⟩
  · exact Json.Member.valid_string (by decide) h.txID
  · exact Json.Member.valid_string (by decide) h.action
  · exact Json.Member.valid_int (by decide)
  · exact Json.Member.valid_string (by decide) h.deviceID
  · exact Json.Member.valid_int (by decide)

theorem MobileKeysPendingSignPayload.Valid.members {p : MobileKeysPendingSignPayload}
    (h : p.Valid) : ∀ m ∈ p.members, Json.Member.valid m = true := by
  have hcomment : Json.Member.valid (str "comment", .string p.comment) = true :=
    Json.Member.valid_string (by decide) h.comment
  simp only [MobileKeysPendingSignPayload.members, List.forall_mem_append, List.forall_mem_cons]
  refine ⟨⟨⟨?_, ?_, ?_, List.forall_mem_nil _⟩, ?_⟩, ?_, List.forall_mem_nil _⟩
  · exact Json.Member.valid_string (by decide) h.deviceID
  · exact Json.Member.valid_string (by decide) h.encryptedPEM
  · exact Json.Member.valid_string (by decide) h.label
  · split
    · exact List.forall_mem_nil _
    · exact List.forall_mem_singleton.mpr hcomment
  · exact Json.Member.valid_int (by decide)

theorem MobileApproveSignPayload.members_injective :
    Function.Injective MobileApproveSignPayload.members := by
  rintro ⟨⟩ ⟨⟩ h
  simpa only [MobileApproveSignPayload.members, List.cons.injEq, Prod.mk.injEq,
    Json.Value.string.injEq, Json.Value.int.injEq, true_and, and_true,
    MobileApproveSignPayload.mk.injEq] using h

/-- Whether there is a comment can be seen from the fields: an empty one is never written. -/
theorem MobileKeysPendingSignPayload.members_injective :
    Function.Injective MobileKeysPendingSignPayload.members := by
  rintro ⟨_, _, _, comment, _⟩ ⟨_, _, _, comment', _⟩ h
  obtain ⟨hfront, htimestamp⟩ := List.append_inj' h rfl
  obtain ⟨hfields, hcomment⟩ := List.append_inj hfront rfl
  have heq : comment = comment' := by
    dsimp only at hcomment
    split at hcomment
    · next hnil =>
        split at hcomment
        · next hnil' => rw [hnil, hnil']
        · cases hcomment
    · split at hcomment
      · cases hcomment
      · cases hcomment
        rfl
  cases htimestamp
  cases hfields
  rw [heq]

/-- What a device can ask for. -/
inductive DeviceRequest
  | approve (p : MobileApproveSignPayload)
  | upload (p : MobileKeysPendingSignPayload)
deriving DecidableEq, Repr

namespace DeviceRequest

/-- The canonical bytes of a request. -/
def bytes : DeviceRequest → Bytes
  | .approve p => p.marshal
  | .upload p => p.marshal

/-- The values are ones `json.Unmarshal` can give. -/
def Valid : DeviceRequest → Prop
  | .approve p => p.Valid
  | .upload p => p.Valid

/-- The two kinds differ in the name of the first field. -/
theorem marshal_approve_ne_upload (p : MobileApproveSignPayload)
    (q : MobileKeysPendingSignPayload) : p.marshal ≠ q.marshal := by
  have hp : p.marshal.take 3 = str "\x7b\"t" := rfl
  have hq : q.marshal.take 3 = str "\x7b\"d" := rfl
  intro h
  rw [h, hq] at hp
  exact absurd hp (by decide)

/-- Requests with the same bytes ask for the same. -/
theorem bytes_injective {a b : DeviceRequest} (ha : a.Valid) (hb : b.Valid)
    (h : a.bytes = b.bytes) : a = b := by
  cases a with
  | approve p =>
      cases b with
      | approve q =>
          have hmembers := Json.object_injective ha.members hb.members h
          rw [MobileApproveSignPayload.members_injective hmembers]
      | upload q => exact absurd h (marshal_approve_ne_upload p q)
  | upload p =>
      cases b with
      | approve q => exact absurd h.symm (marshal_approve_ne_upload q p)
      | upload q =>
          have hmembers := Json.object_injective ha.members hb.members h
          rw [MobileKeysPendingSignPayload.members_injective hmembers]

end DeviceRequest

/-- `encoding/json` on the two payloads, as it is documented: the encoder is that of `Json`, and
the strings and integers that have been decoded are valid. -/
structure JsonAsDocumented (lib : Library) (unmarshal : Bytes → Option MobileKeysPendingRequest) :
    Prop where
  marshal : ∀ p, lib.marshalMobileApproveSignPayload p = p.marshal
  approve : ∀ {raw req}, lib.unmarshalMobileApproveRequest raw = some req →
    req.toMobileApproveSignPayload.Valid
  upload : ∀ {raw req}, unmarshal raw = some req → req.toMobileKeysPendingSignPayload.Valid

section Accepted

variable {PublicKey PrivateKey : Type} (crypto : Crypto) (x509 : X509 PublicKey PrivateKey)
  (lib : Library) (unmarshal : Bytes → Option MobileKeysPendingRequest) (cfg : Config)

/-- A handler has accepted a request of the device with the key, under the signature: whatever
devices are enrolled, whatever the clock reads and the queue holds. -/
inductive Accepted : DeviceRequest → (pub sig : Bytes) → Prop
  | approve {devices : Mobile.Store} {r : HttpRequest} {req : MobileApproveRequest}
      {dev : Mobile.Device} {now : Time} {decision : GoString × Duration × GoString} {sig : Bytes}
      (find : findDevice crypto lib devices r = .ok (req, dev))
      (approved : approveByDevice crypto lib cfg.allowedTTLSeconds req dev now = .ok decision)
      (signature : Hex.decode req.signature = some sig) :
      Accepted (.approve req.toMobileApproveSignPayload) dev.pubKey sig
  | upload {devices : Mobile.Store} {r : HttpRequest} {req : MobileKeysPendingRequest}
      {dev : Mobile.Device} {now addedAt : Time} {pending pending' : PendingStore}
      {drawn id : GoString} {sig : Bytes}
      (find : findUploader crypto x509 unmarshal cfg devices r = .ok (req, dev))
      (add : uploadByDevice crypto req dev now pending drawn addedAt = (.ok id, pending'))
      (signature : Hex.decode req.signature = some sig) :
      Accepted (.upload req.toMobileKeysPendingSignPayload) dev.pubKey sig

end Accepted

section Meaning

variable {PublicKey PrivateKey : Type} {crypto : Crypto} {x509 : X509 PublicKey PrivateKey}
  {lib : Library} {unmarshal : Bytes → Option MobileKeysPendingRequest} {cfg : Config}

theorem readMobileKeysPending_eq_ok {r : HttpRequest} {req : MobileKeysPendingRequest}
    (h : readMobileKeysPending x509 unmarshal cfg r = .ok req) :
    ∃ raw, unmarshal raw = some req := by
  rw [readMobileKeysPending] at h
  split at h
  · cases h
  split at h
  · cases h
  next raw _ =>
  split at h
  · cases h
  next hraw =>
  split at h
  · cases h
  split at h
  · cases h
  · cases h
    exact ⟨raw, hraw⟩

/-- What the first part of `handleMobileKeysPending` has checked. -/
theorem findUploader_cases {devices : Mobile.Store} {r : HttpRequest}
    {req : MobileKeysPendingRequest} {dev : Mobile.Device}
    (h : findUploader crypto x509 unmarshal cfg devices r = .ok (req, dev)) :
    readMobileKeysPending x509 unmarshal cfg r = .ok req ∧
      AList.lookup req.deviceID devices = some dev ∧
      clientCertFPFromRequest crypto r = dev.certFingerprint := by
  rw [findUploader] at h
  split at h
  · cases h
  next hread =>
  split at h
  · cases h
  next hget =>
  split at h
  · cases h
  next hfp =>
  cases h
  exact ⟨hread, hget, not_not.mp hfp⟩

/-- A key is queued only with a valid signature of the device over the canonical bytes. -/
theorem uploadByDevice_eq_ok {req : MobileKeysPendingRequest} {dev : Mobile.Device}
    {now addedAt : Time} {pending pending' : PendingStore} {drawn id : GoString}
    (h : uploadByDevice crypto req dev now pending drawn addedAt = (.ok id, pending')) :
    verifyDeviceSignature crypto dev.pubKey req.toMobileKeysPendingSignPayload.marshal
      req.signature now req.timestamp = .ok () := by
  rw [uploadByDevice] at h
  split at h
  · cases h
  · next hverify => exact hverify

/-- The request is valid, and the signature is one of its canonical bytes. -/
theorem Accepted.verified (hjson : JsonAsDocumented lib unmarshal) {a : DeviceRequest}
    {pub sig : Bytes} (h : Accepted crypto x509 lib unmarshal cfg a pub sig) :
    a.Valid ∧ crypto.ed25519Verify pub a.bytes sig = true := by
  cases h with
  | approve find approved signature =>
      obtain ⟨raw, hraw⟩ := readMobileApprove_eq_ok (findDevice_cases find).1
      have hverify := (approveByDevice_cases approved).1
      rw [hjson.marshal] at hverify
      obtain ⟨-, sig, hdecode, -, hsigned⟩ := verifyDeviceSignature_eq_ok_iff.mp hverify
      cases hdecode.symm.trans signature
      exact ⟨hjson.approve hraw, hsigned⟩
  | upload find add signature =>
      obtain ⟨raw, hraw⟩ := readMobileKeysPending_eq_ok (findUploader_cases find).1
      obtain ⟨-, sig, hdecode, -, hsigned⟩ :=
        verifyDeviceSignature_eq_ok_iff.mp (uploadByDevice_eq_ok add)
      cases hdecode.symm.trans signature
      exact ⟨hjson.upload hraw, hsigned⟩

/-- **A device signature authorises one meaning only.**  The bytes an approval is verified over
determine its fields, those of an upload determine its fields, and the two kinds have no bytes in
common.  So the requests accepted under one signature, by either handler and at any time, are one
request, if under the keys of the two devices, or the one device, the signature verifies for no
two messages. -/
theorem device_signature_one_meaning (hjson : JsonAsDocumented lib unmarshal) :
    (∀ p q : MobileApproveSignPayload, p.Valid → q.Valid → p.marshal = q.marshal → p = q) ∧
      (∀ p q : MobileKeysPendingSignPayload, p.Valid → q.Valid → p.marshal = q.marshal → p = q) ∧
      (∀ (p : MobileApproveSignPayload) (q : MobileKeysPendingSignPayload),
        p.marshal ≠ q.marshal) ∧
      (∀ a pub sig, Accepted crypto x509 lib unmarshal cfg a pub sig →
        a.Valid ∧ crypto.ed25519Verify pub a.bytes sig = true) ∧
      ∀ pub pub' sig,
        (∀ message message', crypto.ed25519Verify pub message sig = true →
          crypto.ed25519Verify pub' message' sig = true → message = message') →
        ∀ a b, Accepted crypto x509 lib unmarshal cfg a pub sig →
          Accepted crypto x509 lib unmarshal cfg b pub' sig → a = b := by
  refine ⟨?_, ?_, DeviceRequest.marshal_approve_ne_upload, fun _ _ _ h ↦ h.verified hjson, ?_⟩
  · intro p q hp hq h
    exact DeviceRequest.approve.inj (DeviceRequest.bytes_injective hp hq h)
  · intro p q hp hq h
    exact DeviceRequest.upload.inj (DeviceRequest.bytes_injective hp hq h)
  · intro pub pub' sig hone a b ha hb
    obtain ⟨hvalid, hverify⟩ := ha.verified hjson
    obtain ⟨hvalid', hverify'⟩ := hb.verified hjson
    exact DeviceRequest.bytes_injective hvalid hvalid' (hone _ _ hverify hverify')

end Meaning

/-- An approval, with a signature of 64 zero bytes. -/
def signedApproval : MobileApproveRequest where
  txID := str "tx_1"
  action := str "approve"
  ttlSeconds := 0
  deviceID := str "dev_1"
  timestamp := 1000
  signature := Hex.encode (List.replicate 64 0)

/-- A body is that approval, and it is no upload. -/
def approvalLibrary : Library where
  unmarshalSignRequest _ := none
  unmarshalMobileApproveRequest _ := some signedApproval
  marshalMobileApproveSignPayload p := p.marshal
  splitHostPort addr := some (addr, [])

/-- The one signature there is is that of the approval. -/
def approvalCrypto : Crypto :=
  { Crypto.plain with
    ed25519Verify := fun _ message sig ↦
      message = signedApproval.toMobileApproveSignPayload.marshal ∧ sig = List.replicate 64 0 }

/-- The device that has signed. -/
def signingDevice : Mobile.Device := ⟨str "dev_1", str "phone", [1], Hex.encode [3], 0⟩

/-- The request over the device's connection. -/
def approvalHttpRequest : HttpRequest := ⟨[1], false, [], none, [[3]], []⟩

theorem approvalLibrary_documented : JsonAsDocumented approvalLibrary (fun _ ↦ none) where
  marshal _ := rfl
  approve h := by
    cases h
    exact ⟨by decide, by decide, by decide, by decide, by decide⟩
  upload h := by cases h

theorem approveByDevice_signedApproval (allowedTTLs : List Int) :
    approveByDevice approvalCrypto approvalLibrary allowedTTLs signedApproval signingDevice
        (1000 * Time.second) =
      .ok (str "tx_1", Approval.defaultTTLFromAllowed allowedTTLs, str "device:dev_1") := by
  have hsigned : approvalCrypto.ed25519Verify signingDevice.pubKey
      signedApproval.toMobileApproveSignPayload.marshal (List.replicate 64 0) = true := by
    simp [approvalCrypto]
  have hverify : verifyDeviceSignature approvalCrypto signingDevice.pubKey
      (approvalLibrary.marshalMobileApproveSignPayload signedApproval.toMobileApproveSignPayload)
      signedApproval.signature (1000 * Time.second) signedApproval.timestamp = .ok () :=
    verifyDeviceSignature_eq_ok_iff.mpr
      ⟨by decide, List.replicate 64 0, Hex.decode_encode _, by decide, hsigned⟩
  rw [approveByDevice, hverify]
  exact if_pos (by decide)

/-- The approval is accepted, and its signature for nothing else. -/
theorem device_signature_one_meaning_approval :
    ∃ cfg : Config,
      Accepted approvalCrypto X509.plain approvalLibrary (fun _ ↦ none) cfg
          (.approve signedApproval.toMobileApproveSignPayload) [1] (List.replicate 64 0) ∧
        ∀ a pub, Accepted approvalCrypto X509.plain approvalLibrary (fun _ ↦ none) cfg a pub
            (List.replicate 64 0) → a = .approve signedApproval.toMobileApproveSignPayload := by
  refine ⟨readConfig (fun _ ↦ []) (2 * Time.minute), ?_⟩
  have haccepted : Accepted approvalCrypto X509.plain approvalLibrary (fun _ ↦ none)
      (readConfig (fun _ ↦ []) (2 * Time.minute))
      (.approve signedApproval.toMobileApproveSignPayload) signingDevice.pubKey
      (List.replicate 64 0) :=
    .approve (r := approvalHttpRequest)
      (show findDevice approvalCrypto approvalLibrary
        (AList.insert (str "dev_1") signingDevice ∅) approvalHttpRequest =
          .ok (signedApproval, signingDevice) by rfl)
      (approveByDevice_signedApproval _)
      (Hex.decode_encode _)
  refine ⟨haccepted, fun a pub ha ↦ ?_⟩
  have hone : ∀ message message',
      approvalCrypto.ed25519Verify pub message (List.replicate 64 0) = true →
      approvalCrypto.ed25519Verify signingDevice.pubKey message' (List.replicate 64 0) = true →
      message = message' := by
    intro _ _ h h'
    exact (of_decide_eq_true h).1.trans (of_decide_eq_true h').1.symm
  exact (device_signature_one_meaning approvalLibrary_documented).2.2.2.2 _ _ _ hone _ _ ha
    haccepted

end LunaZTrust.Api
