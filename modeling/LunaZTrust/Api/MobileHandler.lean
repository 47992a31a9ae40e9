import LunaZTrust.Api.Request
import LunaZTrust.Approval.Callback
import LunaZTrust.Mobile.Store

/-!
# Decisions by device

`handleMobileApprove` of `proxy/internal/api/mobile_handler.go` and
`device_auth.go`: an enrolled device approves a transaction with a signed request
over a connection with its own client certificate.

The handler looks the device up, then reads the clock; between the two the device
may be deleted.  `findDevice` and `approveByDevice` are the two parts.
-/

namespace LunaZTrust.Api

open LunaZTrust.Go LunaZTrust.Approval LunaZTrust.Lease LunaZTrust.Mobile

variable (crypto : Crypto) (lib : Library)

/-- `maxMobileBody`. -/
def maxMobileBody : Nat := 64 * 1024

/-- `ed25519.SignatureSize`. -/
def signatureSize : Nat := 64

/-- `errDeviceAuth`. -/
inductive DeviceAuthError
  | timestampOutOfRange
  | invalidDeviceSignature
deriving DecidableEq, Repr

/-- The texts of the errors. -/
def DeviceAuthError.message : DeviceAuthError → String
  | .timestampOutOfRange => "timestamp out of range"
  | .invalidDeviceSignature => "signature verification failed"

/-- `verifyDeviceSignature`, the timestamp in `int64` arithmetic. -/
def verifyDeviceSignature (pub payload : Bytes) (sigHex : GoString) (now : Time) (ts : Int) :
    Except DeviceAuthError Unit :=
  if ts < wrap64 (Time.unix now - 30) ∨ ts > wrap64 (Time.unix now + 30) then
    .error .timestampOutOfRange
  else
    match Hex.decode sigHex with
    | none => .error .invalidDeviceSignature
    | some sig =>
        if sig.length ≠ signatureSize then .error .invalidDeviceSignature
        else if !crypto.ed25519Verify pub payload sig then .error .invalidDeviceSignature
        else .ok ()

/-- `writeDeviceAuthError`. -/
def writeDeviceAuthError : DeviceAuthError → HttpError
  | .timestampOutOfRange => .mk DeviceAuthError.timestampOutOfRange.message Http.statusBadRequest
  | .invalidDeviceSignature => .mk "forbidden" Http.statusForbidden

/-- Read the body and check its fields. -/
def readMobileApprove (r : HttpRequest) : Except HttpError MobileApproveRequest :=
  match r.readAll maxMobileBody with
  | .error _ => .error (.mk "read body" Http.statusBadRequest)
  | .ok raw =>
      match lib.unmarshalMobileApproveRequest raw with
      | none => .error (.mk "invalid json" Http.statusBadRequest)
      | some req =>
          if req.action ≠ str "approve" then
            .error (.mk "unsupported action" Http.statusBadRequest)
          else if req.txID = [] ∨ req.deviceID = [] ∨ req.signature = [] then
            .error (.mk "missing fields" Http.statusBadRequest)
          else .ok req

/-- The first part of `handleMobileApprove`: the request, and the device it names. -/
def findDevice (devices : Mobile.Store) (r : HttpRequest) :
    Except HttpError (MobileApproveRequest × Device) :=
  match readMobileApprove lib r with
  | .error e => .error e
  | .ok req =>
      match devices.get req.deviceID with
      | none => .error (.mk "unknown device" Http.statusForbidden)
      | some dev =>
          if clientCertFPFromRequest crypto r ≠ dev.certFingerprint then
            .error (.mk "mobile client certificate mismatch" Http.statusForbidden)
          else .ok (req, dev)

/-- The rest of `handleMobileApprove`: the transaction, the ttl and the approver with
which it calls `Approve`. -/
def approveByDevice (allowedTTLs : List Int) (req : MobileApproveRequest) (dev : Device)
    (now : Time) : Except HttpError (GoString × Duration × GoString) :=
  let payload := lib.marshalMobileApproveSignPayload req.toMobileApproveSignPayload
  match verifyDeviceSignature crypto dev.pubKey payload req.signature now req.timestamp with
  | .error e => .error (writeDeviceAuthError e)
  | .ok () =>
      let ttl := Time.ofSeconds req.ttlSeconds
      if ttl ≤ 0 then
        .ok (req.txID, defaultTTLFromAllowed allowedTTLs, formatApproverDeviceID req.deviceID)
      else if !ttlAllowed req.ttlSeconds allowedTTLs then
        .error (.mk "ttl not allowed" Http.statusBadRequest)
      else .ok (req.txID, ttl, formatApproverDeviceID req.deviceID)

variable {crypto lib}

theorem readMobileApprove_eq_ok {r : HttpRequest} {req : MobileApproveRequest}
    (h : readMobileApprove lib r = .ok req) :
    ∃ raw, lib.unmarshalMobileApproveRequest raw = some req := by
  rw [readMobileApprove] at h
  split at h
  · cases h
  next raw _ =>
  split at h
  · cases h
  next hraw =>
  split at h
  · cases h
  split at h
  · cases h
  · cases h
    exact ⟨raw, hraw⟩

/-- What the first part of `handleMobileApprove` has checked. -/
theorem findDevice_cases {devices : Mobile.Store} {r : HttpRequest} {req : MobileApproveRequest}
    {dev : Device} (h : findDevice crypto lib devices r = .ok (req, dev)) :
    readMobileApprove lib r = .ok req ∧ AList.lookup req.deviceID devices = some dev ∧
      clientCertFPFromRequest crypto r = dev.certFingerprint := by
  rw [findDevice] at h
  split at h
  · cases h
  next hread =>
  split at h
  · cases h
  next hget =>
  split at h
  · cases h
  next hfp =>
  cases h
  exact ⟨hread, hget, not_not.mp hfp⟩

/-- The device was registered under the id the request gives, and the request came
over a connection with its certificate. -/
theorem findDevice_eq_ok {devices : Mobile.Store} {r : HttpRequest} {req : MobileApproveRequest}
    {dev : Device} (h : findDevice crypto lib devices r = .ok (req, dev)) :
    AList.lookup req.deviceID devices = some dev ∧
      clientCertFPFromRequest crypto r = dev.certFingerprint :=
  (findDevice_cases h).2

/-- What `verifyDeviceSignature` verifies. -/
theorem verifyDeviceSignature_eq_ok_iff {pub payload : Bytes} {sigHex : GoString} {now : Time}
    {ts : Int} : verifyDeviceSignature crypto pub payload sigHex now ts = .ok () ↔
      (wrap64 (Time.unix now - 30) ≤ ts ∧ ts ≤ wrap64 (Time.unix now + 30)) ∧
        ∃ sig, Hex.decode sigHex = some sig ∧ sig.length = signatureSize ∧
          crypto.ed25519Verify pub payload sig = true := by
  rw [verifyDeviceSignature]
  split
  · exact iff_of_false (fun h ↦ by cases h) fun h ↦ absurd h.1 (by omega)
  refine Iff.trans ?_ (and_iff_right (by omega)).symm
  split
  · next hdecode =>
      refine iff_of_false (fun h ↦ by cases h) ?_
      rintro ⟨sig, h, -⟩
      cases hdecode.symm.trans h
  · next sig hdecode =>
      split
      · next hlength =>
          refine iff_of_false (fun h ↦ by cases h) ?_
          rintro ⟨sig', h, hsize, -⟩
          cases hdecode.symm.trans h
          exact hlength hsize
      · next hlength =>
          split
          · next hverify =>
              refine iff_of_false (fun h ↦ by cases h) ?_
              rintro ⟨sig', h, -, hok⟩
              cases hdecode.symm.trans h
              rw [hok] at hverify
              cases hverify
          · next hverify =>
              rw [Bool.not_eq_true', Bool.not_eq_false] at hverify
              exact iff_of_true rfl ⟨sig, hdecode, not_not.mp hlength, hverify⟩

/-- What `handleMobileApprove` has checked when it calls `Approve`: the signature, and the ttl
unless it takes the default. -/
theorem approveByDevice_cases {allowedTTLs : List Int} {req : MobileApproveRequest} {dev : Device}
    {now : Time} {txID approver : GoString} {ttl : Duration}
    (h : approveByDevice crypto lib allowedTTLs req dev now = .ok (txID, ttl, approver)) :
    verifyDeviceSignature crypto dev.pubKey
        (lib.marshalMobileApproveSignPayload req.toMobileApproveSignPayload) req.signature now
        req.timestamp = .ok () ∧
      req.txID = txID ∧ approver = formatApproverDeviceID req.deviceID ∧
      (ttl = defaultTTLFromAllowed allowedTTLs ∨
        ttlAllowed req.ttlSeconds allowedTTLs = true ∧ ttl = Time.ofSeconds req.ttlSeconds) := by
  rw [approveByDevice] at h
  dsimp only at h
  split at h
  · exact nomatch h
  · next hverify =>
      split at h
      · cases h
        exact ⟨hverify, rfl, rfl, Or.inl rfl⟩
      · split at h
        · exact nomatch h
        · next hallowed =>
            cases h
            rw [Bool.not_eq_true', Bool.not_eq_false] at hallowed
            exact ⟨hverify, rfl, rfl, Or.inr ⟨hallowed, rfl⟩⟩

/-- `Approve` is called only with a valid signature of the device over a payload that
names the transaction. -/
theorem approveByDevice_eq_ok {allowedTTLs : List Int} {req : MobileApproveRequest} {dev : Device}
    {now : Time} {txID approver : GoString} {ttl : Duration}
    (h : approveByDevice crypto lib allowedTTLs req dev now = .ok (txID, ttl, approver)) :
    req.txID = txID ∧ approver = formatApproverDeviceID req.deviceID ∧
      verifyDeviceSignature crypto dev.pubKey
        (lib.marshalMobileApproveSignPayload req.toMobileApproveSignPayload) req.signature now
        req.timestamp = .ok () := by
  obtain ⟨hverify, hnames, happrover, -⟩ := approveByDevice_cases h
  exact ⟨hnames, happrover, hverify⟩

end LunaZTrust.Api
