import LunaZTrust.Api.MobileHandler
import LunaZTrust.Api.SignHandler
import LunaZTrust.Approval.System

/-!
# The proxy

All parts of the proxy at work together, as `runServe` of
`proxy/cmd/luna-proxy/serve.go` puts them together: the handlers of sign requests,
of waits and of approvals by device, the poller for decisions by chat, the loading
and removing of keys, the enrolment of devices, and the approval store with its
calls, timers and leases.

A handler visits shared state several times, and between two visits anything can
happen, so each visit is a step of its own.  From `IssueFromLease`, `Approve` or
`Wait` on, the steps are those of the approval system, which the proxy contains.

A transaction id is fresh when it is drawn: nobody can have asked for it before.
-/

namespace LunaZTrust.Proxy

open LunaZTrust.Go LunaZTrust.Ssh LunaZTrust.Auth LunaZTrust.Keystore LunaZTrust.Approval
open LunaZTrust.Api LunaZTrust.Mobile LunaZTrust.Transition

variable {Key Signer : Type}

/-- The configuration. -/
structure Config where
  approval : Approval.Config
  poller : Poller
  /-- `telegram.Configured`. -/
  telegramConfigured : Bool

/-- How far a sign handler has got on its way to the store. -/
inductive SignHandler
  /-- About to call `ValidateSignRequest`, with the clock read. -/
  | validating (r : HttpRequest) (rawBody : Bytes) (req : SignRequest) (conn : TLSConn) (now : Time)
  /-- About to ask whether the keystore is available. -/
  | checking (r : HttpRequest) (req : SignRequest)
  /-- About to resolve the hosted key. -/
  | resolving (r : HttpRequest) (req : SignRequest)
  /-- About to look up the hosted key. -/
  | binding (r : HttpRequest) (req : SignRequest) (hostKeyFP : GoString)

/-- A handler of an approval by device that has found the device. -/
structure MobileHandler where
  r : HttpRequest
  req : MobileApproveRequest
  dev : Device

/-- A wait handler that has passed the check of the client certificate. -/
structure WaitHandler where
  r : HttpRequest
  id : TxID

/-- The state of the proxy: the approval system, the other stores, the number of
handlers started so far, and the handlers in progress. -/
structure System (Signer : Type) where
  approval : Approval.System
  keystore : Keystore Signer
  replay : ReplayLRU
  devices : Mobile.Store
  handlers : Nat
  signs : Map Nat SignHandler
  mobiles : Map Nat MobileHandler
  waits : Map Nat WaitHandler

/-- What can happen next. -/
inductive Action
  /-- A step of the approval system that needs nothing from outside of it. -/
  | store (a : Approval.Action)
  /-- `issueForTransaction` of an approval, with the random bytes drawn. -/
  | issue (c : Nat) (rand : Bytes)
  /-- `issueForTransaction` for a lease. -/
  | issueLeased (c : Nat) (rand : Bytes)
  /-- `POST /api/v1/ssh/sign`. -/
  | sign (r : HttpRequest)
  | validate (h : Nat)
  | checkSealed (h : Nat)
  | resolve (h : Nat)
  | bind (h : Nat)
  /-- `GET /api/v1/ssh/sign/{tx_id}/wait`. -/
  | wait (r : HttpRequest) (id : TxID)
  | startWait (h : Nat)
  /-- `POST /api/v1/mobile/approve`. -/
  | mobileApprove (r : HttpRequest)
  | verifyDevice (h : Nat)
  /-- The poller gets an update. -/
  | update (upd : TelegramUpdate)
  /-- `LoadPEMBytes`, by whichever way, and how long it takes to fail. -/
  | loadPEM (pemBytes passphrase : Bytes) (comment : GoString) (mlock : Keystore.Mlock)
      (elapsed : Nat)
  | removeSigner (fp : GoString)
  /-- `EnrollBound`, by whichever way. -/
  | enrollBound (label devicePubKeyB64 certFingerprint id : GoString)
  | deleteDevice (id : GoString)

/-- What happened. -/
inductive Event
  /-- In the approval system. -/
  | store (e : Approval.Event)
  /-- A sign handler comes to the store as the sign call `c`. -/
  | submitted (c : Nat) (r : HttpRequest) (req : SignRequest) (input : SignInput)
  /-- The wait call `c` is that of the request. -/
  | waited (c : Nat) (r : HttpRequest) (id : TxID)
  /-- The approval call `c` is made by `handleUpdate`. -/
  | callback (c : Nat) (upd : TelegramUpdate)
  /-- The approval call `c` is made by `handleMobileApprove`, at an instant. -/
  | device (c : Nat) (r : HttpRequest) (req : MobileApproveRequest) (dev : Device) (now : Time)

/-- The event of the approval system, if it is one. -/
def Event.store? : Event → Option Approval.Event
  | .store e => some e
  | _ => none

/-- Whether an action of the approval system is one that happens by itself: calls come
from the handlers, and signing needs the keystore.  A new id must not be one that a
wait handler has. -/
def System.allows (s : System Signer) : Approval.Action → Bool
  | .createBound _ id => s.waits.entries.all fun w ↦ w.2.id != id
  | .createInstantApproved _ id => s.waits.entries.all fun w ↦ w.2.id != id
  | .sign _ _ => false
  | .issueLeased _ _ => false
  | .issue _ _ => false
  | .approve _ _ _ => false
  | .deny _ => false
  | .wait _ => false
  | _ => true

/-- The keystore's mode for a signer mode. -/
def keystoreMode : SignerMode → Mode
  | .localCA => .localCA
  | .localKey => .localKey

namespace System

/-- The proxy when it starts. -/
def start (cfg : Config) (now : Time) : System Signer where
  approval := .start now true
  keystore := .newWithMode (keystoreMode cfg.approval.signerMode)
  replay := .new (60 * Time.second) 1000
  devices := ∅
  handlers := 0
  signs := ∅
  mobiles := ∅
  waits := ∅

/-- The signers the store is configured with. -/
def signers (ssh : Package Key Signer) (cfg : Config) (s : System Signer) (rand : Bytes) :
    Signers :=
  match cfg.approval.signerMode with
  | .localKey => ⟨none, some (Signing.signAgent ssh s.keystore rand)⟩
  | .localCA => ⟨some (Signing.issueCert ssh s.keystore s.approval.now rand), none⟩

/-- A step of the approval system. -/
def lift (cfg : Config) (s : System Signer) (a : Approval.Action) :
    Option (System Signer × List Event) :=
  (Approval.step cfg.approval s.approval a).map fun (approval, es) ↦
    ({ s with approval := approval }, es.map .store)

/-- A sign handler moves on. -/
def setSign (s : System Signer) (h : Nat) (handler : SignHandler) : System Signer :=
  { s with signs := s.signs.insert h handler }

/-- A sign handler is through. -/
def endSign (s : System Signer) (h : Nat) : System Signer := { s with signs := s.signs.erase h }

end System

variable (crypto : Crypto) (ssh : Package Key Signer) (lib : Library) (cfg : Config)

/-- The check of `handleWait`: whether the request may wait for the transaction. -/
def mayWait (s : System Signer) (r : HttpRequest) (id : TxID) : Bool :=
  match s.approval.store.clientCertFP id with
  | none => true
  | some bound => bound == [] || clientCertFPFromRequest crypto r == bound

/-- One step of the proxy.  A handler that answers with an error is through. -/
def step (s : System Signer) : Action → Option (System Signer × List Event)
  | .store a => if s.allows a then s.lift cfg a else none
  | .issue c rand => s.lift cfg (.issue c (s.signers ssh cfg rand))
  | .issueLeased c rand => s.lift cfg (.issueLeased c (s.signers ssh cfg rand))
  | .sign r =>
      match withMTLS r, readSignRequest lib r with
      | .ok (), .ok (rawBody, req, conn) =>
          some ({ s.setSign s.handlers (.validating r rawBody req conn s.approval.now) with
            handlers := s.handlers + 1 }, [])
      | _, _ => some (s, [])
  | .validate h =>
      match AList.lookup h s.signs with
      | some (.validating r rawBody req conn now) =>
          match validateSignRequest crypto ssh conn rawBody req now s.approval.now s.replay with
          | (.error _, replay) => some ({ s.endSign h with replay := replay }, [])
          | (.ok (), replay) => some ({ s.setSign h (.checking r req) with replay := replay }, [])
      | _ => none
  | .checkSealed h =>
      match AList.lookup h s.signs with
      | some (.checking r req) =>
          match Api.checkSealed cfg.approval s.keystore req with
          | .error _ => some (s.endSign h, [])
          | .ok () => some (s.setSign h (.resolving r req), [])
      | _ => none
  | .resolve h =>
      match AList.lookup h s.signs with
      | some (.resolving r req) =>
          match resolveHostKey crypto ssh cfg.approval s.keystore req with
          | none => some (s.endSign h, [])
          | some hostKeyFP => some (s.setSign h (.binding r req hostKeyFP), [])
      | _ => none
  | .bind h =>
      match AList.lookup h s.signs with
      | some (.binding r req hostKeyFP) =>
          match bindRequest crypto ssh lib cfg.approval s.keystore r req hostKeyFP with
          | .error _ => some (s.endSign h, [])
          | .ok (input, allowLease) =>
              ((s.endSign h).lift cfg (.sign input allowLease)).map fun (s', es) ↦
                (s', .submitted s.approval.calls r req input :: es)
      | _ => none
  | .wait r id =>
      match withMTLS r with
      | .ok () =>
          if mayWait crypto s r id then
            some ({ s with
              waits := s.waits.insert s.handlers ⟨r, id⟩, handlers := s.handlers + 1 }, [])
          else some (s, [])
      | .error _ => some (s, [])
  | .startWait h =>
      match AList.lookup h s.waits with
      | some ⟨r, id⟩ =>
          (System.lift cfg { s with waits := s.waits.erase h } (.wait id)).map fun (s', es) ↦
            (s', .waited s.approval.calls r id :: es)
      | none => none
  | .mobileApprove r =>
      match withMTLS r, findDevice crypto lib s.devices r with
      | .ok (), .ok (req, dev) =>
          some ({ s with
            mobiles := s.mobiles.insert s.handlers ⟨r, req, dev⟩, handlers := s.handlers + 1 }, [])
      | _, _ => some (s, [])
  | .verifyDevice h =>
      match AList.lookup h s.mobiles with
      | some ⟨r, req, dev⟩ =>
          match approveByDevice crypto lib cfg.poller.allowedTTLs req dev s.approval.now with
          | .error _ => some ({ s with mobiles := s.mobiles.erase h }, [])
          | .ok (id, ttl, approver) =>
              (System.lift cfg { s with mobiles := s.mobiles.erase h }
                (.approve id ttl approver)).map fun (s', es) ↦
                  (s', .device s.approval.calls r req dev s.approval.now :: es)
      | none => none
  | .update upd =>
      if cfg.approval.isDev || !cfg.telegramConfigured then none
      else
        match handleUpdate cfg.poller upd with
        | none => some (s, [])
        | some (.approve id ttl approver) =>
            (s.lift cfg (.approve id ttl approver)).map fun (s', es) ↦
              (s', .callback s.approval.calls upd :: es)
        | some (.deny id) => s.lift cfg (.deny id)
  | .loadPEM pemBytes passphrase comment mlock elapsed =>
      let (_, keystore, _) := s.keystore.loadPEMBytes crypto ssh pemBytes passphrase comment mlock
        s.approval.now (s.approval.now + elapsed)
      some ({ s with keystore := keystore }, [])
  | .removeSigner fp => some ({ s with keystore := (s.keystore.removeSigner crypto ssh fp).2 }, [])
  | .enrollBound label devicePubKeyB64 certFingerprint id =>
      let (_, devices) :=
        s.devices.enrollBound label devicePubKeyB64 certFingerprint id s.approval.now
      some ({ s with devices := devices }, [])
  | .deleteDevice id => some ({ s with devices := (s.devices.delete id).2 }, [])

/-- The proxy as a machine, started at an instant. -/
def machine (now : Time) : Machine (System Signer) Action Event where
  start := .start cfg now
  step := step crypto ssh lib cfg

/-! ## What a step can do -/

/-- The steps of the proxy, one by one, with the step of the approval system inside, if
there is one. -/
inductive Step (s : System Signer) : Action → System Signer → List Event → Prop
  | store {a : Approval.Action} {approval : Approval.System} {es : List Approval.Event}
      (ha : s.allows a = true) (hs : Approval.step cfg.approval s.approval a =
        some (approval, es)) :
      Step s (.store a) { s with approval := approval } (es.map .store)
  | issue {c : Nat} {rand : Bytes} {approval : Approval.System} {es : List Approval.Event}
      (hs : Approval.step cfg.approval s.approval (.issue c (s.signers ssh cfg rand)) =
        some (approval, es)) :
      Step s (.issue c rand) { s with approval := approval } (es.map .store)
  | issueLeased {c : Nat} {rand : Bytes} {approval : Approval.System} {es : List Approval.Event}
      (hs : Approval.step cfg.approval s.approval (.issueLeased c (s.signers ssh cfg rand)) =
        some (approval, es)) :
      Step s (.issueLeased c rand) { s with approval := approval } (es.map .store)
  | signRefused (r : HttpRequest) : Step s (.sign r) s []
  | sign {r : HttpRequest} {rawBody : Bytes} {req : SignRequest} {conn : TLSConn}
      (hm : withMTLS r = .ok ()) (hr : readSignRequest lib r = .ok (rawBody, req, conn)) :
      Step s (.sign r)
        { s.setSign s.handlers (.validating r rawBody req conn s.approval.now) with
          handlers := s.handlers + 1 } []
  | validateRefused {h : Nat} (replay : ReplayLRU) :
      Step s (.validate h) { s.endSign h with replay := replay } []
  | validate {h : Nat} {r : HttpRequest} {rawBody : Bytes} {req : SignRequest} {conn : TLSConn}
      {now : Time} {replay : ReplayLRU}
      (hh : AList.lookup h s.signs = some (.validating r rawBody req conn now))
      (hv : validateSignRequest crypto ssh conn rawBody req now s.approval.now s.replay =
        (.ok (), replay)) :
      Step s (.validate h) { s.setSign h (.checking r req) with replay := replay } []
  | checkSealedRefused {h : Nat} : Step s (.checkSealed h) (s.endSign h) []
  | checkSealed {h : Nat} {r : HttpRequest} {req : SignRequest}
      (hh : AList.lookup h s.signs = some (.checking r req))
      (hc : Api.checkSealed cfg.approval s.keystore req = .ok ()) :
      Step s (.checkSealed h) (s.setSign h (.resolving r req)) []
  | resolveRefused {h : Nat} : Step s (.resolve h) (s.endSign h) []
  | resolve {h : Nat} {r : HttpRequest} {req : SignRequest} {hostKeyFP : GoString}
      (hh : AList.lookup h s.signs = some (.resolving r req))
      (hr : resolveHostKey crypto ssh cfg.approval s.keystore req = some hostKeyFP) :
      Step s (.resolve h) (s.setSign h (.binding r req hostKeyFP)) []
  | bindRefused {h : Nat} : Step s (.bind h) (s.endSign h) []
  | bind {h : Nat} {r : HttpRequest} {req : SignRequest} {hostKeyFP : GoString}
      {input : SignInput} {allowLease : Bool} {approval : Approval.System}
      {es : List Approval.Event}
      (hh : AList.lookup h s.signs = some (.binding r req hostKeyFP))
      (hb : bindRequest crypto ssh lib cfg.approval s.keystore r req hostKeyFP =
        .ok (input, allowLease))
      (hs : Approval.step cfg.approval s.approval (.sign input allowLease) =
        some (approval, es)) :
      Step s (.bind h) { s.endSign h with approval := approval }
        (.submitted s.approval.calls r req input :: es.map .store)
  | waitRefused (r : HttpRequest) (id : TxID) : Step s (.wait r id) s []
  | wait {r : HttpRequest} {id : TxID} (hm : withMTLS r = .ok ())
      (hw : mayWait crypto s r id = true) :
      Step s (.wait r id)
        { s with waits := s.waits.insert s.handlers ⟨r, id⟩, handlers := s.handlers + 1 } []
  | startWait {h : Nat} {r : HttpRequest} {id : TxID} {approval : Approval.System}
      {es : List Approval.Event} (hh : AList.lookup h s.waits = some ⟨r, id⟩)
      (hs : Approval.step cfg.approval s.approval (.wait id) =
        some (approval, es)) :
      Step s (.startWait h) { s with waits := s.waits.erase h, approval := approval }
        (.waited s.approval.calls r id :: es.map .store)
  | mobileRefused (r : HttpRequest) : Step s (.mobileApprove r) s []
  | mobileApprove {r : HttpRequest} {req : MobileApproveRequest} {dev : Device}
      (hm : withMTLS r = .ok ()) (hf : findDevice crypto lib s.devices r = .ok (req, dev)) :
      Step s (.mobileApprove r)
        { s with
          mobiles := s.mobiles.insert s.handlers ⟨r, req, dev⟩, handlers := s.handlers + 1 } []
  | verifyRefused {h : Nat} :
      Step s (.verifyDevice h) { s with mobiles := s.mobiles.erase h } []
  | verifyDevice {h : Nat} {r : HttpRequest} {req : MobileApproveRequest} {dev : Device}
      {id : TxID} {ttl : Duration} {approver : GoString} {approval : Approval.System}
      {es : List Approval.Event} (hh : AList.lookup h s.mobiles = some ⟨r, req, dev⟩)
      (ha : approveByDevice crypto lib cfg.poller.allowedTTLs req dev s.approval.now =
        .ok (id, ttl, approver))
      (hs : Approval.step cfg.approval s.approval (.approve id ttl approver) =
        some (approval, es)) :
      Step s (.verifyDevice h) { s with mobiles := s.mobiles.erase h, approval := approval }
        (.device s.approval.calls r req dev s.approval.now :: es.map .store)
  | updateIgnored (upd : TelegramUpdate) : Step s (.update upd) s []
  | updateApprove {upd : TelegramUpdate} {id : TxID} {ttl : Duration} {approver : GoString}
      {approval : Approval.System} {es : List Approval.Event}
      (hu : handleUpdate cfg.poller upd = some (.approve id ttl approver))
      (hs : Approval.step cfg.approval s.approval (.approve id ttl approver) =
        some (approval, es)) :
      Step s (.update upd) { s with approval := approval }
        (.callback s.approval.calls upd :: es.map .store)
  | updateDeny {upd : TelegramUpdate} {id : TxID} {approval : Approval.System}
      {es : List Approval.Event} (hu : handleUpdate cfg.poller upd = some (.deny id))
      (hs : Approval.step cfg.approval s.approval (.deny id) =
        some (approval, es)) :
      Step s (.update upd) { s with approval := approval } (es.map .store)
  | loadPEM (pemBytes passphrase : Bytes) (comment : GoString) (mlock : Keystore.Mlock)
      (elapsed : Nat) :
      Step s (.loadPEM pemBytes passphrase comment mlock elapsed)
        { s with
          keystore := (s.keystore.loadPEMBytes crypto ssh pemBytes passphrase comment mlock
            s.approval.now (s.approval.now + elapsed)).2.1 } []
  | removeSigner (fp : GoString) :
      Step s (.removeSigner fp)
        { s with keystore := (s.keystore.removeSigner crypto ssh fp).2 } []
  | enrollBound (label devicePubKeyB64 certFingerprint id : GoString) :
      Step s (.enrollBound label devicePubKeyB64 certFingerprint id)
        { s with
          devices := (s.devices.enrollBound label devicePubKeyB64 certFingerprint id
            s.approval.now).2 } []
  | deleteDevice (id : GoString) :
      Step s (.deleteDevice id) { s with devices := (s.devices.delete id).2 } []

section Inversion

variable {crypto ssh lib cfg} {s s' : System Signer} {a : Action} {es : List Event}

theorem System.lift_eq_some {a : Approval.Action}
    (h : s.lift cfg a = some (s', es)) :
    ∃ approval es', Approval.step cfg.approval s.approval a = some (approval, es') ∧
      s' = { s with approval := approval } ∧ es = es'.map .store := by
  obtain ⟨⟨approval, es'⟩, hs, heq⟩ := Option.map_eq_some_iff.mp h
  cases heq
  exact ⟨approval, es', hs, rfl, rfl⟩

/-- **Inversion.**  A step of the machine is one of these. -/
theorem Step.of_step (h : step crypto ssh lib cfg s a = some (s', es)) :
    Step crypto ssh lib cfg s a s' es := by
  cases a with
  | store a =>
      obtain ⟨ha, hl⟩ := Option.ite_none_right_eq_some.mp h
      obtain ⟨approval, es', hs, rfl, rfl⟩ := System.lift_eq_some hl
      exact .store ha hs
  | issue c rand =>
      obtain ⟨approval, es', hs, rfl, rfl⟩ := System.lift_eq_some h
      exact .issue hs
  | issueLeased c rand =>
      obtain ⟨approval, es', hs, rfl, rfl⟩ := System.lift_eq_some h
      exact .issueLeased hs
  | sign r =>
      simp only [step] at h
      split at h
      · next hm hr =>
          cases h
          exact .sign hm hr
      · cases h
        exact .signRefused r
  | validate n =>
      simp only [step] at h
      split at h
      · next hh =>
          split at h
          · cases h
            exact .validateRefused _
          · next hv =>
              cases h
              exact .validate hh hv
      · exact nomatch h
  | checkSealed n =>
      simp only [step] at h
      split at h
      · next hh =>
          split at h
          · cases h
            exact .checkSealedRefused
          · next hc =>
              cases h
              exact .checkSealed hh hc
      · exact nomatch h
  | resolve n =>
      simp only [step] at h
      split at h
      · next hh =>
          split at h
          · cases h
            exact .resolveRefused
          · next hr =>
              cases h
              exact .resolve hh hr
      · exact nomatch h
  | bind n =>
      simp only [step] at h
      split at h
      · next hh =>
          split at h
          · cases h
            exact .bindRefused
          · next hb =>
              obtain ⟨⟨s₁, es₁⟩, hl, heq⟩ := Option.map_eq_some_iff.mp h
              obtain ⟨approval, es', hs, rfl, rfl⟩ := System.lift_eq_some hl
              cases heq
              exact .bind hh hb hs
      · exact nomatch h
  | wait r id =>
      simp only [step] at h
      split at h
      · next hm =>
          split at h
          · next hw =>
              cases h
              exact .wait hm hw
          · cases h
            exact .waitRefused r id
      · cases h
        exact .waitRefused r id
  | startWait n =>
      simp only [step] at h
      split at h
      · next hh =>
          obtain ⟨⟨s₁, es₁⟩, hl, heq⟩ := Option.map_eq_some_iff.mp h
          obtain ⟨approval, es', hs, rfl, rfl⟩ := System.lift_eq_some hl
          cases heq
          exact .startWait hh hs
      · exact nomatch h
  | mobileApprove r =>
      simp only [step] at h
      split at h
      · next hm hf =>
          cases h
          exact .mobileApprove hm hf
      · cases h
        exact .mobileRefused r
  | verifyDevice n =>
      simp only [step] at h
      split at h
      · next hh =>
          split at h
          · cases h
            exact .verifyRefused
          · next ha =>
              obtain ⟨⟨s₁, es₁⟩, hl, heq⟩ := Option.map_eq_some_iff.mp h
              obtain ⟨approval, es', hs, rfl, rfl⟩ := System.lift_eq_some hl
              cases heq
              exact .verifyDevice hh ha hs
      · exact nomatch h
  | update upd =>
      simp only [step] at h
      split at h
      · exact nomatch h
      · split at h
        · cases h
          exact .updateIgnored upd
        · next hu =>
            obtain ⟨⟨s₁, es₁⟩, hl, heq⟩ := Option.map_eq_some_iff.mp h
            obtain ⟨approval, es', hs, rfl, rfl⟩ := System.lift_eq_some hl
            cases heq
            exact .updateApprove hu hs
        · next hu =>
            obtain ⟨approval, es', hs, rfl, rfl⟩ := System.lift_eq_some h
            exact .updateDeny hu hs
  | loadPEM pemBytes passphrase comment mlock elapsed =>
      cases h
      exact .loadPEM pemBytes passphrase comment mlock elapsed
  | removeSigner fp =>
      cases h
      exact .removeSigner fp
  | enrollBound label devicePubKeyB64 certFingerprint id =>
      cases h
      exact .enrollBound label devicePubKeyB64 certFingerprint id
  | deleteDevice id =>
      cases h
      exact .deleteDevice id

end Inversion

end LunaZTrust.Proxy
