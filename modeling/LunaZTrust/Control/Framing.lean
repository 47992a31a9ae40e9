import LunaZTrust.Control.Confirm
import LunaZTrust.Go.Bufio

/-!
# Requests and responses on the socket

`serveConn` and `writeResponse` of `proxy/internal/control/server.go`, and `Call` of
`proxy/internal/control/client/client.go`.  Either side writes one line of JSON and reads one with
a `bufio.Scanner`.  What comes through is what was sent exactly if both lines are shorter
than the scanner's limit (`call_lossless_iff`), which neither side sees to.

Whether the peer may connect is left out, and so are time limits.  That the server
closes the connection shows in the client as the end of what it reads; if it has not been able to
write all of its request by then, it may report that instead.
-/

namespace LunaZTrust.Control

open LunaZTrust.Go LunaZTrust.Go.Bufio LunaZTrust.Keystore LunaZTrust.Cli

variable {Key Signer PublicKey PrivateKey : Type}

/-! ## The two ends -/

/-- JSON lines for requests and responses. -/
structure Codecs where
  request : LineCodec Request
  response : LineCodec Response

/-- How much either side gets of what it reads, read by read. -/
structure Reads where
  server : Nat → Nat
  client : Nat → Nat

/-- The errors of `Call`. -/
inductive CallError
  /-- `no response`. -/
  | noResponse
  /-- That of `json.Unmarshal`. -/
  | invalidResponse
  /-- The error text of the response. -/
  | control (msg : GoString)
deriving DecidableEq, Repr

/-- `serveConn`: what it writes, and the server it leaves. -/
def serveConn (pf : Platform Key Signer PublicKey PrivateKey) (codecs : Codecs) (reads : Nat → Nat)
    (s : ServerDeps Signer PrivateKey) (env : Env) (input : Bytes) :
    Bytes × ServerDeps Signer PrivateKey :=
  match scan reads input with
  | none => ([], s)
  | some line =>
      match codecs.request.decode line with
      | none => (codecs.response.frame (fail [] "invalid json" "BAD_REQUEST"), s)
      | some req => (codecs.response.frame (s.handle pf req env).1, (s.handle pf req env).2)

/-- `Call`, from `Scan` on. -/
def readResponse (codecs : Codecs) (reads : Nat → Nat) (input : Bytes) : Except CallError Bytes :=
  match scan reads input with
  | none => .error .noResponse
  | some line =>
      match codecs.response.decode line with
      | none => .error .invalidResponse
      | some resp =>
          if !resp.ok then
            if resp.error ≠ [] then .error (.control resp.error)
            else .error (.control (str "control error"))
          else .ok resp.data

/-- The request of `Call`. -/
def callRequest (op : GoString) (data : Bytes) : Request := ⟨op, [], data⟩

/-- `Call`, on a server. -/
def call (pf : Platform Key Signer PublicKey PrivateKey) (codecs : Codecs) (reads : Reads)
    (s : ServerDeps Signer PrivateKey) (env : Env) (op : GoString) (data : Bytes) :
    Except CallError Bytes × ServerDeps Signer PrivateKey :=
  let (output, s) :=
    serveConn pf codecs reads.server s env (codecs.request.frame (callRequest op data))
  (readResponse codecs reads.client output, s)

/-- The result of an operation: the data of the response, or its error. -/
def Response.outcome (resp : Response) : Except CallError Bytes :=
  if resp.ok then .ok resp.data else .error (.control resp.error)

/-! ## Failures are explained -/

/-- A response that is not ok has an error text. -/
def Response.Explains (resp : Response) : Prop := resp.ok = false → resp.error ≠ []

theorem explains_ok (id : GoString) (data : Bytes) : (ok id data).Explains :=
  fun h ↦ nomatch h

theorem explains_fail (id : GoString) {msg : String} (code : String) (h : str msg ≠ []) :
    (fail id msg code).Explains :=
  fun _ ↦ h

theorem explains_labelError {id : GoString} {e : CliError} {msg : String} (code : String)
    (h : str msg ≠ []) : ((ServerDeps.labelError id e).getD (fail id msg code)).Explains := by
  rw [ServerDeps.labelError]
  split
  · exact explains_fail _ _ (by cases e <;> decide)
  · exact explains_fail _ _ h

section Handlers

variable {pf : Platform Key Signer PublicKey PrivateKey} (s : ServerDeps Signer PrivateKey)
  (req : Request) (env : Env)

theorem explains_handleKeyLoad : (s.handleKeyLoad pf req env).1.Explains := by
  rw [ServerDeps.handleKeyLoad]
  split
  · exact explains_fail _ _ (by decide)
  · split
    · exact explains_fail _ _ (by decide)
    · split
      · exact explains_fail _ _ (by decide)
      · split
        · exact explains_fail _ _ (by decide)
        · exact explains_fail _ _ (by decide)
        · exact explains_ok _ _

theorem explains_handleKeyRemove : (s.handleKeyRemove pf req).1.Explains := by
  rw [ServerDeps.handleKeyRemove]
  split
  · exact explains_fail _ _ (by decide)
  · split
    · next e keystore h =>
        obtain rfl := Keystore.removeSigner_error _ _ h
        exact explains_fail _ _ (by decide)
    · exact explains_ok _ _

theorem explains_handleKeyConfirm : (s.handleKeyConfirm pf req env).1.Explains := by
  have hget : ∀ resp s', s.confirmGet pf req env.now = (.error resp, s') → resp.Explains := by
    intro resp s' h
    rw [ServerDeps.confirmGet] at h
    split at h
    · cases h
      exact explains_fail _ _ (by decide)
    · split at h
      · cases h
        exact explains_fail _ _ (by decide)
      · split at h
        · next e _ _ =>
            cases h
            exact explains_fail _ _ (by cases e <;> decide)
        · cases (Prod.mk.inj h).1
  have hload : ∀ c (s s' : ServerDeps Signer PrivateKey) resp,
      s.confirmLoad pf c env.mlock env.loadAt env.failedAt = (.error resp, s') →
        resp.Explains := by
    intro c s s' resp h
    rw [ServerDeps.confirmLoad] at h
    split at h
    split at h
    · cases h
      exact explains_fail _ _ (by decide)
    · cases h
      exact explains_fail _ _ (by decide)
    · cases (Prod.mk.inj h).1
  rw [ServerDeps.handleKeyConfirm]
  split
  · next resp s' h => exact hget resp s' h
  · split
    · next resp s' h => exact hload _ _ s' resp h
    · exact explains_ok _ _

theorem explains_handleKeyReject : (s.handleKeyReject pf req).1.Explains := by
  rw [ServerDeps.handleKeyReject]
  split
  · exact explains_fail _ _ (by decide)
  · split
    · next e _ _ => exact explains_fail _ _ (by cases e <;> decide)
    · exact explains_ok _ _

theorem explains_handleMobileEnroll : (s.handleMobileEnroll pf req env).1.Explains := by
  rw [ServerDeps.handleMobileEnroll]
  split
  · exact explains_fail _ _ (by decide)
  · split
    · exact explains_fail _ _ (by decide)
    · split
      · next e _ _ => exact explains_fail _ _ (by cases e <;> decide)
      · exact explains_ok _ _

theorem explains_handleMobileDelete : (s.handleMobileDelete pf req).1.Explains := by
  rw [ServerDeps.handleMobileDelete]
  split
  · exact explains_fail _ _ (by decide)
  · split
    · next e _ _ => exact explains_fail _ _ (by cases e <;> decide)
    · exact explains_ok _ _

theorem explains_handleCLIEnroll : (s.handleCLIEnroll pf req env).1.Explains := by
  rw [ServerDeps.handleCLIEnroll]
  split
  · exact explains_fail _ _ (by decide)
  · split
    · exact explains_fail _ _ (by decide)
    · split
      · exact explains_fail _ _ (by decide)
      · split
        · exact explains_labelError _ (by decide)
        · split
          · exact explains_fail _ _ (by decide)
          · exact explains_fail _ _ (by decide)
          · split
            · exact explains_fail _ _ (by decide)
            · exact explains_labelError _ (by decide)
            · exact explains_ok _ _

theorem explains_handleCLIDelete : (s.handleCLIDelete pf req).1.Explains := by
  rw [ServerDeps.handleCLIDelete]
  split
  · exact explains_fail _ _ (by decide)
  · split
    · next e _ _ => exact explains_fail _ _ (by cases e <;> decide)
    · exact explains_ok _ _

theorem explains_handle : (s.handle pf req env).1.Explains := by
  rw [ServerDeps.handle]
  split
  · exact explains_ok _ _
  · exact explains_handleKeyLoad s req env
  · exact explains_ok _ _
  · exact explains_handleKeyRemove s req
  · exact explains_handleKeyConfirm s req env
  · exact explains_handleKeyReject s req
  · exact explains_ok _ _
  · exact explains_handleMobileEnroll s req env
  · exact explains_ok _ _
  · exact explains_handleMobileDelete s req
  · exact explains_handleCLIEnroll s req env
  · exact explains_ok _ _
  · exact explains_handleCLIDelete s req
  · exact explains_fail _ _ (by decide)

end Handlers

/-! ## Calls -/

section Calls

variable {pf : Platform Key Signer PublicKey PrivateKey} {codecs : Codecs} {reads : Reads}
  {s : ServerDeps Signer PrivateKey} {env : Env} {op : GoString} {data : Bytes}

/-- A response that fits is read as what it says. -/
theorem readResponse_frame (reads : Nat → Nat) {resp : Response} (h : resp.Explains) :
    readResponse codecs reads (codecs.response.frame resp) =
      if codecs.response.Fits resp then resp.outcome else .error .noResponse := by
  rw [readResponse, codecs.response.scan_frame]
  by_cases hfits : codecs.response.Fits resp
  · rw [if_pos hfits, if_pos hfits]
    dsimp only
    rw [codecs.response.decode_encode, Response.outcome]
    dsimp only
    cases hok : resp.ok with
    | true => rfl
    | false => exact if_pos (h hok)
  · rw [if_neg hfits, if_neg hfits]

/-- There is no response in what a closed connection gives. -/
theorem readResponse_nil (reads : Nat → Nat) :
    readResponse codecs reads [] = .error .noResponse := by
  rw [readResponse, scan_eq]
  rfl

/-- A request that is too long is not answered, and changes nothing. -/
theorem call_of_not_fits (h : ¬codecs.request.Fits (callRequest op data)) :
    call pf codecs reads s env op data = (.error .noResponse, s) := by
  rw [call, serveConn, codecs.request.scan_frame, if_neg h]
  dsimp only
  rw [readResponse_nil]

/-- A request that fits is handled, and its response read if that fits. -/
theorem call_of_fits (h : codecs.request.Fits (callRequest op data)) :
    call pf codecs reads s env op data =
      (if codecs.response.Fits (s.handle pf (callRequest op data) env).1 then
          (s.handle pf (callRequest op data) env).1.outcome
        else .error .noResponse, (s.handle pf (callRequest op data) env).2) := by
  rw [call, serveConn, codecs.request.scan_frame, if_pos h]
  dsimp only
  rw [codecs.request.decode_encode]
  dsimp only
  rw [readResponse_frame _ (explains_handle s _ env)]

theorem outcome_ne_noResponse (resp : Response) : resp.outcome ≠ .error .noResponse := by
  rw [Response.outcome]
  split <;> nofun

/-- `Call` returns what the server has answered exactly if the request and the response both fit in
a scanner's buffer.  The server has done what was asked as soon as the request does. -/
theorem call_lossless_iff :
    ((call pf codecs reads s env op data).1 =
        (s.handle pf (callRequest op data) env).1.outcome ↔
      codecs.request.Fits (callRequest op data) ∧
        codecs.response.Fits (s.handle pf (callRequest op data) env).1) ∧
    (call pf codecs reads s env op data).2 =
      if codecs.request.Fits (callRequest op data) then (s.handle pf (callRequest op data) env).2
      else s := by
  by_cases hreq : codecs.request.Fits (callRequest op data)
  · rw [call_of_fits hreq, if_pos hreq]
    refine ⟨?_, rfl⟩
    by_cases hresp : codecs.response.Fits (s.handle pf (callRequest op data) env).1
    · rw [if_pos hresp]
      exact iff_of_true rfl ⟨hreq, hresp⟩
    · rw [if_neg hresp]
      exact iff_of_false (outcome_ne_noResponse _).symm fun h ↦ hresp h.2
  · rw [call_of_not_fits hreq, if_neg hreq]
    exact ⟨iff_of_false (outcome_ne_noResponse _).symm fun h ↦ hreq h.1, rfl⟩

end Calls

/-! ## A toy encoding -/

/-- A byte in two letters from `a` to `p`. -/
def letters (b : UInt8) : Bytes :=
  [UInt8.ofNat (0x61 + b.toNat / 16), UInt8.ofNat (0x61 + b.toNat % 16)]

/-- Fields in letters, each with a comma behind it. -/
def encodeFields (fields : List Bytes) : Bytes :=
  fields.flatMap fun field ↦ field.flatMap letters ++ [0x2c]

/-- What has been read: whole fields, the bytes of the next, and the first letter of a byte. -/
structure Fields where
  fields : List Bytes := []
  bytes : Bytes := []
  letter : Option UInt8 := none

/-- One more letter or comma. -/
def Fields.next (r : Fields) (c : UInt8) : Fields :=
  if c = 0x2c then { fields := r.fields ++ [r.bytes] }
  else
    match r.letter with
    | none => { r with letter := some c }
    | some d =>
        { r with bytes := r.bytes ++ [UInt8.ofNat ((d.toNat - 0x61) * 16 + (c.toNat - 0x61))],
                 letter := none }

/-- The fields again. -/
def decodeFields (b : Bytes) : List Bytes := (b.foldl Fields.next {}).fields

theorem toNat_letter {n : Nat} (h : n < 16) : (UInt8.ofNat (0x61 + n)).toNat = 0x61 + n := by
  rw [UInt8.toNat_ofNat']
  omega

theorem letter_ne_comma {n : Nat} (h : n < 16) : UInt8.ofNat (0x61 + n) ≠ 0x2c := by
  intro heq
  have := toNat_letter h
  rw [heq] at this
  exact absurd this (by change 44 ≠ _; omega)

theorem foldl_next_letters (fields : List Bytes) (bytes : Bytes) (b : UInt8) :
    (letters b).foldl Fields.next ⟨fields, bytes, none⟩ = ⟨fields, bytes ++ [b], none⟩ := by
  have hb := b.toNat_lt
  have hhi : b.toNat / 16 < 16 := by omega
  have hlo : b.toNat % 16 < 16 := by omega
  have hfirst : Fields.next ⟨fields, bytes, none⟩ (UInt8.ofNat (0x61 + b.toNat / 16)) =
      ⟨fields, bytes, some (UInt8.ofNat (0x61 + b.toNat / 16))⟩ := if_neg (letter_ne_comma hhi)
  have hbyte : (0x61 + b.toNat / 16 - 0x61) * 16 + (0x61 + b.toNat % 16 - 0x61) = b.toNat := by
    omega
  rw [letters, List.foldl_cons, hfirst, List.foldl_cons, List.foldl_nil, Fields.next,
    if_neg (letter_ne_comma hlo)]
  dsimp only
  rw [toNat_letter hhi, toNat_letter hlo, hbyte, UInt8.ofNat_toNat]

theorem foldl_next_field (fields : List Bytes) (bytes field : Bytes) :
    (field.flatMap letters).foldl Fields.next ⟨fields, bytes, none⟩ =
      ⟨fields, bytes ++ field, none⟩ := by
  induction field generalizing bytes with
  | nil => rw [List.append_nil]; rfl
  | cons b field ih =>
      rw [List.flatMap_cons, List.foldl_append, foldl_next_letters, ih, List.append_assoc,
        List.singleton_append]

theorem decodeFields_encodeFields (fields : List Bytes) :
    decodeFields (encodeFields fields) = fields := by
  have hfold : ∀ done, (encodeFields fields).foldl Fields.next ⟨done, [], none⟩ =
      ⟨done ++ fields, [], none⟩ := by
    induction fields with
    | nil => intro done; rw [List.append_nil]; rfl
    | cons field fields ih =>
        intro done
        rw [encodeFields, List.flatMap_cons, List.foldl_append, List.foldl_append,
          foldl_next_field, List.nil_append]
        refine (ih (done ++ [field])).trans ?_
        rw [List.append_assoc, List.singleton_append]
  rw [decodeFields, hfold []]
  rfl

theorem mem_encodeFields {fields : List Bytes} {c : UInt8} (h : c ∈ encodeFields fields) :
    c = 0x2c ∨ 0x61 ≤ c.toNat := by
  obtain ⟨field, -, hc⟩ := List.mem_flatMap.mp h
  rcases List.mem_append.mp hc with hc | hc
  · obtain ⟨b, -, hb⟩ := List.mem_flatMap.mp hc
    have hlt := b.toNat_lt
    rcases List.mem_cons.mp hb with rfl | hb
    · rw [toNat_letter (by omega)]
      exact .inr (Nat.le_add_right _ _)
    · rw [List.mem_singleton.mp hb, toNat_letter (by omega)]
      exact .inr (Nat.le_add_right _ _)
  · exact .inl (List.mem_singleton.mp hc)

theorem length_encodeFields (fields : List Bytes) :
    (encodeFields fields).length = (fields.map fun field ↦ 2 * field.length + 1).sum := by
  have hfield : ∀ field : Bytes, (field.flatMap letters).length = 2 * field.length := by
    intro field
    induction field with
    | nil => rfl
    | cons b field ih =>
        rw [List.flatMap_cons, List.length_append, ih, List.length_cons]
        change 2 + _ = _
        omega
  rw [encodeFields, List.length_flatMap]
  refine congrArg List.sum (List.map_congr_left fun field _ ↦ ?_)
  rw [List.length_append, hfield]
  rfl

/-- Values with fields, from which they can be made again. -/
def fieldCodec {α : Type} (fields : α → List Bytes) (make : List Bytes → Option α)
    (h : ∀ a, make (fields a) = some a) : LineCodec α where
  encode a := encodeFields (fields a)
  decode b := make (decodeFields b)
  decode_encode a := by rw [decodeFields_encodeFields, h]
  newline_notMem a ha := by
    rcases mem_encodeFields ha with h | h
    · exact absurd h (by decide)
    · exact absurd h (by decide)
  getLast?_ne a ha := by
    rcases mem_encodeFields (List.mem_of_getLast? ha) with h | h
    · exact absurd h (by decide)
    · exact absurd h (by decide)

/-- Toy encodings of requests and responses. -/
def plainCodecs : Codecs where
  request := fieldCodec (fun req ↦ [req.op, req.id, req.data])
    (fun
      | [op, id, data] => some ⟨op, id, data⟩
      | _ => none)
    fun _ ↦ rfl
  response := fieldCodec
    (fun resp ↦ [if resp.ok then [1] else [], resp.id, resp.data, resp.error, resp.code])
    (fun
      | [isOk, id, data, error, code] => some ⟨isOk != [], id, data, error, code⟩
      | _ => none)
    fun resp ↦ by obtain ⟨_ | _, _, _, _, _⟩ := resp <;> rfl

/-! ## Three devices with long labels -/

/-- The libraries of a server that takes the data of an enrolment for the label, and lists the
labels of its devices. -/
def labelPlatform : Platform Bytes Bytes Unit Unit :=
  { plainPlatform with
    lib := { Library.plain with
      unmarshalMobileEnroll := fun b ↦
        some ⟨b, str "AAAAAAAAAAAAAAAAAAAAAAAAAAAAAAAAAAAAAAAAAAA=", str "fp"⟩
      marshal := fun
        | .devices devices => devices.flatMap (·.label)
        | _ => [] } }

/-- Reads that give all there is. -/
def wholeReads : Reads := ⟨fun _ ↦ maxScanTokenSize, fun _ ↦ maxScanTokenSize⟩

theorem handleMobileEnroll_eq {pf : Platform Key Signer PublicKey PrivateKey}
    {s : ServerDeps Signer PrivateKey} {req : Request} {env : Env} {inp : MobileEnrollData}
    {dev : Mobile.Device} {mobile : Mobile.Store}
    (hinp : pf.lib.unmarshalMobileEnroll req.data = some inp) (hcert : inp.certFingerprint ≠ [])
    (henroll : s.mobile.enrollBound inp.label inp.devicePubKey inp.certFingerprint env.id env.now =
      (.ok dev, mobile)) :
    s.handleMobileEnroll pf req env =
      (ok req.id (pf.lib.marshal (.deviceID dev.id)), { s with mobile := mobile }) := by
  rw [ServerDeps.handleMobileEnroll, hinp]
  dsimp only
  rw [if_neg hcert, henroll]

section Devices

variable (label : GoString)

/-- A device with the label. -/
def labelledDevice (id : GoString) : Mobile.Device := ⟨id, label, List.replicate 32 0, str "fp", 0⟩

/-- Its enrolment, under an id. -/
def enrollCall (s : ServerDeps Bytes Unit) (id : GoString) :
    Except CallError Bytes × ServerDeps Bytes Unit :=
  call labelPlatform plainCodecs wholeReads s { envAt 0 with id := id } (str "mobile.enroll") label

/-- The server after three enrolments. -/
def threeDevices : ServerDeps Bytes Unit :=
  (enrollCall label (enrollCall label (enrollCall label localKeyServer (str "m1")).2
    (str "m2")).2 (str "m3")).2

variable {label}

theorem handle_enroll (hlabel : label ≠ []) (s : ServerDeps Bytes Unit) (id : GoString) :
    s.handle labelPlatform (callRequest (str "mobile.enroll") label) { envAt 0 with id := id } =
      (ok [] [], { s with mobile := s.mobile.insert id (labelledDevice label id) }) := by
  have hop : (callRequest (str "mobile.enroll") label).op? = some .mobileEnroll := by
    change Op.all.find? (fun op ↦ str op.name == str "mobile.enroll") = _
    decide +kernel
  have hkey : Base64.stdDecode (str "AAAAAAAAAAAAAAAAAAAAAAAAAAAAAAAAAAAAAAAAAAA=") =
      some (List.replicate 32 0) := by decide +kernel
  have henroll : s.mobile.enrollBound label
      (str "AAAAAAAAAAAAAAAAAAAAAAAAAAAAAAAAAAAAAAAAAAA=") (str "fp") id 0 =
        (.ok (labelledDevice label id), s.mobile.insert id (labelledDevice label id)) := by
    rw [Mobile.Store.enrollBound, if_neg hlabel, hkey]
    rfl
  rw [ServerDeps.handle, hop]
  exact handleMobileEnroll_eq rfl (by decide : str "fp" ≠ []) henroll

theorem enrollCall_eq (hlabel : label.length = 30000) (s : ServerDeps Bytes Unit) (id : GoString) :
    enrollCall label s id =
      (.ok [], { s with mobile := s.mobile.insert id (labelledDevice label id) }) := by
  have hne : label ≠ [] := by
    rintro rfl
    exact nomatch hlabel
  have hreq : plainCodecs.request.Fits (callRequest (str "mobile.enroll") label) := by
    change (encodeFields [str "mobile.enroll", [], label]).length < _
    rw [length_encodeFields]
    simp only [List.map_cons, List.map_nil, hlabel]
    decide +kernel
  have hresp : plainCodecs.response.Fits (ok [] []) := by decide +kernel
  rw [enrollCall, call_of_fits hreq, handle_enroll hne, if_pos hresp]
  rfl

theorem handle_list (s : ServerDeps Bytes Unit) :
    (s.handle labelPlatform (callRequest (str "mobile.list") []) (envAt 0)).1 =
      ok [] ((s.mobile.entries.map Sigma.snd).flatMap (·.label)) := by
  have hop : (callRequest (str "mobile.list") []).op? = some .mobileList := by decide +kernel
  rw [ServerDeps.handle, hop]
  rfl

theorem threeDevices_list (hlabel : label.length = 30000) :
    ((threeDevices label).handle labelPlatform (callRequest (str "mobile.list") [])
      (envAt 0)).1 = ok [] (label ++ label ++ label) := by
  have hdevices : (threeDevices label).mobile.entries.map Sigma.snd =
      [labelledDevice label (str "m3"), labelledDevice label (str "m2"),
        labelledDevice label (str "m1")] := by
    rw [threeDevices, enrollCall_eq hlabel, enrollCall_eq hlabel, enrollCall_eq hlabel]
    rfl
  rw [handle_list, hdevices]
  simp only [List.flatMap_cons, List.flatMap_nil, labelledDevice, List.append_nil,
    List.append_assoc]

/-- With such a label, the list of the three devices is too long for a line. -/
theorem threeDevices_list_lost (hlabel : label.length = 30000) :
    (call labelPlatform plainCodecs wholeReads (threeDevices label) (envAt 0) (str "mobile.list")
      []).1 = .error .noResponse := by
  have hreq : plainCodecs.request.Fits (callRequest (str "mobile.list") []) := by decide +kernel
  have hresp : ¬plainCodecs.response.Fits (ok [] (label ++ label ++ label)) := by
    change ¬(encodeFields [[1], [], label ++ label ++ label, [], []]).length < _
    rw [length_encodeFields]
    simp only [List.map_cons, List.map_nil, List.length_append, hlabel]
    decide +kernel
  rw [call_of_fits hreq, threeDevices_list hlabel, if_neg hresp]

end Devices

/-- A label is 30000 bytes long. -/
def longLabel : GoString := List.replicate 30000 0x61

/-- Each enrolment is answered, and the server has the devices to list.  But who asks for the
list gets no response. -/
theorem device_list_lost :
    (enrollCall longLabel localKeyServer (str "m1")).1 = .ok [] ∧
    (enrollCall longLabel (enrollCall longLabel localKeyServer (str "m1")).2 (str "m2")).1 =
      .ok [] ∧
    (enrollCall longLabel (enrollCall longLabel (enrollCall longLabel localKeyServer
      (str "m1")).2 (str "m2")).2 (str "m3")).1 = .ok [] ∧
    ((threeDevices longLabel).handle labelPlatform (callRequest (str "mobile.list") [])
      (envAt 0)).1.outcome = .ok (longLabel ++ longLabel ++ longLabel) ∧
    (call labelPlatform plainCodecs wholeReads (threeDevices longLabel) (envAt 0)
      (str "mobile.list") []).1 = .error .noResponse := by
  have hlabel : longLabel.length = 30000 := List.length_replicate
  refine ⟨?_, ?_, ?_, ?_, threeDevices_list_lost hlabel⟩
  · rw [enrollCall_eq hlabel]
  · rw [enrollCall_eq hlabel]
  · rw [enrollCall_eq hlabel]
  · rw [threeDevices_list hlabel]
    rfl

end LunaZTrust.Control
