import LunaZTrust.Api.AdminHandler
import LunaZTrust.Api.LoadQuota
import LunaZTrust.Cli.StoreHistory
import LunaZTrust.Control.Devices
import LunaZTrust.Control.System
import LunaZTrust.Transition.Simulation

/-!
# Who decides about devices

`runServe` gives the registries of devices and workstations to two servers.  Over the network
`withAdminMTLS` stands in front of the handlers that change them; on the control socket
`peerAllowed` of `proxy/internal/control/peer_linux.go` stands in front of all operations.

Here both servers are at work on the same stores, with any clients and peers, while
workstations load keys (`LunaZTrust.Api.LoadQuota`), devices upload keys and machines ask for their
first certificate.  The other routes write neither registry.

The registries, and what administrators are answered, are as if only administrators and the
allowed peers had asked for anything (`registries_of_administrators`).
-/

namespace LunaZTrust.Proxy.Administration

open LunaZTrust.Go LunaZTrust.Api LunaZTrust.Cli LunaZTrust.Keystore LunaZTrust.Transition

/-! ## The control socket -/

/-- `syscall.Ucred`. -/
structure Ucred where
  uid : Nat
  gid : Nat
deriving DecidableEq, Repr

/-- What `credAllowed` asks the operating system. -/
structure SocketHost where
  /-- `os.Geteuid`. -/
  euid : Nat
  /-- `user.LookupGroup`: the id of the group, if it is a number. -/
  lookupGroup : GoString → Option (Option Nat)

/-- The errors of `credAllowed`. -/
inductive PeerError
  | notAllowed (uid : Nat)
  | lookupGroup
  | parseGid
  | notInGroup (uid gid : Nat)
deriving DecidableEq, Repr

/-- `credAllowed`. -/
def credAllowed (host : SocketHost) (peer : Ucred) (groupName : GoString) : Except PeerError Unit :=
  if peer.uid = 0 then .ok ()
  else if peer.uid = host.euid then .ok ()
  else if groupName = [] then .error (.notAllowed peer.uid)
  else
    match host.lookupGroup groupName with
    | none => .error .lookupGroup
    | some none => .error .parseGid
    | some (some wantGID) =>
        if peer.gid = wantGID then .ok () else .error (.notInGroup peer.uid peer.gid)

/-! ## Both servers -/

/-- What does not change: the libraries, the configuration, and the signer it gives. -/
structure Server (Key Signer PublicKey PrivateKey : Type) where
  pf : Control.Platform Key Signer PublicKey PrivateKey
  lib : AdminLibrary
  loadLib : KeysLoadLibrary
  readFile : GoString → Option Bytes
  host : SocketHost
  cfg : Config.Config
  csrSigner : Option (CSRSigner PrivateKey)

/-- The state: the stores the loads of keys go to, with the clock, the registry of
workstations and the limiter among them; the registry of devices; and the keys that are pending. -/
structure System (Signer : Type) where
  quota : LoadQuota.System Signer
  mobile : Mobile.Store
  pending : PendingStore

/-- What a request draws, and how long before it has the limiter's lock it has read the clock. -/
structure Input where
  ulid : GoString
  draw : Draw
  lag : Nat

/-- What can happen next. -/
inductive Action
  /-- A request to one of the routes of `LunaZTrust.Api.AdminHandler`. -/
  | http (route : Route) (r : AdminRequest) (inp : Input)
  /-- A connection to the control socket. -/
  | control (peer : Ucred) (req : Control.Request) (inp : Control.Input)
  /-- A device uploads a key: `Pending.Add`. -/
  | upload (deviceID label comment : GoString) (blob : Bytes) (id : GoString)
  /-- A step of a load of a key over the network, or of the clock. -/
  | serve (a : LoadQuota.Action)

/-- What can be seen of it. -/
inductive Event
  /-- The check in front of a handler refuses a request. -/
  | refused (route : Route) (e : HttpError)
  | answered (route : Route) (reply : Reply)
  /-- `handleMTLSEnroll` compares a token, in a request that read the clock before. -/
  | compared (sourceIP token : GoString) (startedAt comparedAt : Time)
  /-- A certificate is issued for automation. -/
  | issued (cert : Certificate)
  | denied (peer : Ucred)
  | controlled (resp : Control.Response)
  | load (e : LoadQuota.Event)
deriving DecidableEq, Repr

/-- The steps of a load, of the clock, and of the forgetting of a deleted device. -/
def serving : LoadQuota.Action → Bool
  | .tick _ | .forget _ | .request _ | .validate _ | .allow _ | .load _ _ _ | .record _ _ => true
  | .enroll _ _ _ | .delete _ | .bootstrap _ _ | .operatorLoad _ _ _ _ _ | .operatorRemove _ =>
      false

/-- How long a step takes. -/
def duration : LoadQuota.Action → Nat
  | .tick d => d
  | .load _ _ elapsed => elapsed
  | _ => 0

section

variable {Key Signer PublicKey PrivateKey : Type} (srv : Server Key Signer PublicKey PrivateKey)

/-- The stores as the control server has them. -/
def System.deps (s : System Signer) : Control.ServerDeps Signer PrivateKey where
  config := srv.cfg
  keystore := s.quota.keystore
  mobile := s.mobile
  pending := s.pending
  cli := s.quota.cli
  csrSigner := srv.csrSigner
  loadLimiter := some s.quota.limiter

/-- What an operation reads, at an instant.  The ids of devices and of workstations differ. -/
def env (req : Control.Request) (inp : Control.Input) (now : Time) : Control.Env :=
  { inp.env now with
    id := (if req.op? = some .mobileEnroll then str "dev_" else str "cli_") ++ inp.id
    draw := { inp.draw with now := now } }

/-- `handleMTLSEnroll`, with the instant it has read before `TryRecordSuccess` has its lock. -/
def handleMTLSEnroll (limiter : LoadRateLimiter) (now : Time) (r : AdminRequest) (inp : Input) :
    LoadRateLimiter × List Event :=
  let sourceIP := clientIPFromRemoteAddr srv.lib.toLibrary r.remoteAddr
  let startedAt := now - inp.lag
  match limiter.tryRecordSuccess (LoadQuota.bootstrapKey sourceIP) startedAt with
  | (false, limiter) =>
      (limiter, [.answered .mtlsEnroll
        (.error (.mk "rate limit exceeded" Http.statusTooManyRequests))])
  | (true, limiter) =>
      match expectedToken srv.csrSigner srv.cfg with
      | .error e => (limiter, [.answered .mtlsEnroll (.error e)])
      | .ok (csrSigner, expected) =>
          if Strings.trimSpace r.enrollToken ≠ expected then
            (limiter, [.compared sourceIP r.enrollToken startedAt now, .answered .mtlsEnroll
              (.error (.mk "invalid enroll token" Http.statusUnauthorized))])
          else
            match issueAutomation srv.pf srv.lib csrSigner r { inp.draw with now := now } with
            | .error e =>
                (limiter, [.compared sourceIP r.enrollToken startedAt now,
                  .answered .mtlsEnroll (.error e)])
            | .ok (cert, certPEM) =>
                (limiter, [.compared sourceIP r.enrollToken startedAt now, .issued cert,
                  .answered .mtlsEnroll (.certificate certPEM)])

/-- The handlers behind the gates. -/
def handle (s : System Signer) (r : AdminRequest) (inp : Input) :
    Route → Option (System Signer × List Event)
  | .healthz => some (s, [.answered .healthz .healthy])
  | .mtlsCA => some (s, [.answered .mtlsCA (handleMTLSCA srv.readFile srv.cfg)])
  | .mtlsEnroll =>
      let (limiter, es) := handleMTLSEnroll srv s.quota.limiter s.quota.now r inp
      some ({ s with quota := { s.quota with limiter := limiter } }, es)
  | .adminUnseal => some (s, [.answered .adminUnseal handleUnseal])
  | .adminSealStatus => some (s, [.answered .adminSealStatus handleSealStatus])
  | .mobileEnroll =>
      let (reply, mobile) :=
        handleMobileEnroll srv.lib s.mobile r (str "dev_" ++ inp.ulid) s.quota.now
      some ({ s with mobile := mobile }, [.answered .mobileEnroll reply])
  | .mobileDeleteDevice =>
      let (reply, mobile) := handleMobileDeleteDevice s.mobile r
      some ({ s with mobile := mobile }, [.answered .mobileDeleteDevice reply])
  | .cliEnroll =>
      let (reply, cli) := handleCLIEnroll srv.pf srv.lib srv.csrSigner s.quota.cli r
        { inp.draw with now := s.quota.now } (str "cli_" ++ inp.ulid) s.quota.now
      some ({ s with quota := { s.quota with cli := cli } }, [.answered .cliEnroll reply])
  | .cliListDevices =>
      some (s, [.answered .cliListDevices (handleCLIListDevices srv.pf s.quota.cli)])
  | .cliDeleteDevice =>
      let (reply, cli) := handleCLIDeleteDevice s.quota.cli r
      let forgetting :=
        if reply = .noContent then r.deviceID :: s.quota.forgetting else s.quota.forgetting
      some ({ s with quota := { s.quota with cli := cli, forgetting := forgetting } },
        [.answered .cliDeleteDevice reply])
  | .capabilities | .sign | .wait | .mobileApprove | .mobileKeysPending | .cliKeysLoad => none

/-- One step. -/
def step (s : System Signer) : Action → Option (System Signer × List Event)
  | .http route r inp =>
      match route.gate.check srv.pf.x509 srv.cfg r.toHttpRequest with
      | .error e => some (s, [.refused route e])
      | .ok () => handle srv s r inp route
  | .control peer req inp =>
      match credAllowed srv.host peer srv.cfg.controlSocketGroup with
      | .error _ => some (s, [.denied peer])
      | .ok () =>
          let (resp, deps) := (s.deps srv).handle srv.pf req (env req inp s.quota.now)
          some (
            { quota := { s.quota with
                keystore := deps.keystore
                cli := deps.cli
                limiter := deps.loadLimiter.getD s.quota.limiter
                now := s.quota.now + inp.elapsed }
              mobile := deps.mobile
              pending := deps.pending }, [.controlled resp])
  | .upload deviceID label comment blob id =>
      some ({ s with pending := (s.pending.add deviceID label comment blob id s.quota.now).2 }, [])
  | .serve a =>
      if serving a then
        (LoadQuota.step srv.pf srv.loadLib srv.cfg s.quota a).map fun (quota, es) ↦
          ({ s with quota := quota }, es.map .load)
      else none

/-- The proxy from its start. -/
def machine (keystore : Keystore Signer) : Machine (System Signer) Action Event where
  start := ⟨(LoadQuota.machine srv.pf srv.loadLib srv.cfg keystore).start, ∅, .new⟩
  step := step srv

/-- The action is of an administrator, or of a peer that is allowed. -/
def Action.authorised : Action → Bool
  | .http route r _ =>
      route.gate == .administrator && (withAdminMTLS srv.pf.x509 srv.cfg r.toHttpRequest).isOk
  | .control peer _ _ => (credAllowed srv.host peer srv.cfg.controlSocketGroup).isOk
  | _ => false

/-! ## What a load does -/

/-- The device of a request to load a key. -/
def callDevice : LoadQuota.KeysLoadCall → GoString
  | .validating _ _ _ _ dev _ | .asking _ dev | .loading _ dev _ | .recording dev _ _ => dev

/-- What a step of a load does. -/
structure Served (q : LoadQuota.System Signer) (a : LoadQuota.Action)
    (q' : LoadQuota.System Signer) (es : List LoadQuota.Event) : Prop where
  cli : q'.cli = q.cli
  now : q'.now = q.now + duration a
  /-- A request in progress was so before, or has just been admitted. -/
  loads : ∀ n call', AList.lookup n q'.loads = some call' →
    (∃ call, AList.lookup n q.loads = some call ∧ callDevice call = callDevice call') ∨
      ∃ r dev body parsed conn, a = .request r ∧
        readCLIKeysLoad srv.pf.crypto srv.pf.x509 srv.loadLib srv.cfg q.cli r =
          .ok (dev, body, parsed, conn) ∧ callDevice call' = dev.id
  /-- A load that is answered has been in progress. -/
  answered : ∀ n d fp loadedAt answeredAt recorded,
    .answered n d fp loadedAt answeredAt recorded ∈ es →
      ∃ call, AList.lookup n q.loads = some call ∧ callDevice call = d
  forgetting : ∀ id ∈ q'.forgetting, id ∈ q.forgetting
  /-- The limiter keeps what it has under the key of no device. -/
  limiter : ∀ k, (∀ id ∈ q.forgetting, id ≠ k) →
    (∀ n call, AList.lookup n q.loads = some call → callDevice call ≠ k) →
      ∀ b, q'.now - loadRateLimitWindow < b →
        (q'.limiter.times k).countP (fun ts ↦ decide (b ≤ ts)) =
          (q.limiter.times k).countP fun ts ↦ decide (b ≤ ts)

variable {srv} {q q' : LoadQuota.System Signer} {es : List LoadQuota.Event}

/-- A request that goes away. -/
theorem loads_erase {loads : Map Nat LoadQuota.KeysLoadCall} {n n' : Nat}
    {call' : LoadQuota.KeysLoadCall} (h : AList.lookup n' (loads.erase n) = some call') :
    ∃ call, AList.lookup n' loads = some call ∧ callDevice call = callDevice call' :=
  ⟨call', (Map.lookup_erase_eq_some_iff.mp h).2, rfl⟩

/-- A request that goes on. -/
theorem loads_insert {loads : Map Nat LoadQuota.KeysLoadCall} {n n' : Nat}
    {new call call' : LoadQuota.KeysLoadCall}
    (h : AList.lookup n' (loads.insert n new) = some call')
    (hcall : AList.lookup n loads = some call) (hdev : callDevice call = callDevice new) :
    ∃ call, AList.lookup n' loads = some call ∧ callDevice call = callDevice call' := by
  rcases Map.lookup_insert_eq_some_iff.mp h with ⟨rfl, rfl⟩ | ⟨-, h⟩
  · exact ⟨call, hcall, hdev⟩
  · exact ⟨call', h, rfl⟩

theorem served_of_step {a : LoadQuota.Action} (ha : serving a = true)
    (h : LoadQuota.step srv.pf srv.loadLib srv.cfg q a = some (q', es)) :
    Served srv q a q' es := by
  have hsame : ∀ n call', AList.lookup n q.loads = some call' →
      ∃ call, AList.lookup n q.loads = some call ∧ callDevice call = callDevice call' :=
    fun _ call' hn ↦ ⟨call', hn, rfl⟩
  have hzero : q.now = q.now + (0 : Nat) := (Int.add_zero q.now).symm
  cases a with
  | tick d =>
      cases h
      exact ⟨rfl, rfl, fun n c hn ↦ .inl (hsame n c hn), by simp, fun _ ↦ id, fun _ _ _ _ _ ↦ rfl⟩
  | forget id =>
      rw [LoadQuota.step] at h
      split at h
      · next hid =>
          cases h
          refine ⟨rfl, hzero, fun n c hn ↦ .inl (hsame n c hn), by simp,
            fun _ ↦ List.mem_of_mem_erase, fun k hk _ b _ ↦ ?_⟩
          dsimp only
          rw [LoadRateLimiter.times_forget_of_ne (hk id hid).symm]
      · cases h
  | request r =>
      rw [LoadQuota.step] at h
      split at h
      · cases h
        exact ⟨rfl, hzero, fun n c hn ↦ .inl (hsame n c hn), by simp, fun _ ↦ id,
          fun _ _ _ _ _ ↦ rfl⟩
      · next dev body parsed conn hr =>
          cases h
          refine ⟨rfl, hzero, fun n call' hn ↦ ?_, by simp, fun _ ↦ id, fun _ _ _ _ _ ↦ rfl⟩
          rcases Map.lookup_insert_eq_some_iff.mp hn with ⟨rfl, rfl⟩ | ⟨-, hn⟩
          · exact .inr ⟨r, dev, body, parsed, conn, rfl, hr, rfl⟩
          · exact .inl (hsame n call' hn)
  | validate n =>
      rw [LoadQuota.step] at h
      split at h
      · next hn =>
          split at h
          · cases h
            exact ⟨rfl, hzero, fun _ _ hn' ↦ .inl (loads_erase hn'), by simp, fun _ ↦ id,
              fun _ _ _ _ _ ↦ rfl⟩
          · cases h
            exact ⟨rfl, hzero, fun _ _ hn' ↦ .inl (loads_insert hn' hn rfl), by simp, fun _ ↦ id,
              fun _ _ _ _ _ ↦ rfl⟩
      · cases h
  | allow n =>
      rw [LoadQuota.step] at h
      split at h
      · next parsed dev hn =>
          have hkeeps : ∀ k b, q.now - loadRateLimitWindow < b →
              ((q.limiter.allowed dev q.now).2.times k).countP (fun ts ↦ decide (b ≤ ts)) =
                (q.limiter.times k).countP fun ts ↦ decide (b ≤ ts) :=
            fun k b hb ↦ (LoadRateLimiter.keeps_allowed hb).countP k
          split at h
          · next limiter heq =>
              rw [heq] at hkeeps
              cases h
              exact ⟨rfl, hzero, fun _ _ hn' ↦ .inl (loads_erase hn'), by simp, fun _ ↦ id,
                fun k _ _ b hb ↦ hkeeps k b hb⟩
          · next limiter heq =>
              rw [heq] at hkeeps
              split at h
              · cases h
                exact ⟨rfl, hzero, fun _ _ hn' ↦ .inl (loads_erase hn'), by simp, fun _ ↦ id,
                  fun k _ _ b hb ↦ hkeeps k b hb⟩
              · cases h
                exact ⟨rfl, hzero, fun _ _ hn' ↦ .inl (loads_insert hn' hn rfl), by simp,
                  fun _ ↦ id, fun k _ _ b hb ↦ hkeeps k b hb⟩
      · cases h
  | load n mlock elapsed =>
      rw [LoadQuota.step] at h
      split at h
      · next parsed dev blob hn =>
          split at h
          · cases h
            exact ⟨rfl, rfl, fun _ _ hn' ↦ .inl (loads_erase hn'), by simp, fun _ ↦ id,
              fun _ _ _ _ _ ↦ rfl⟩
          · cases h
            exact ⟨rfl, rfl, fun _ _ hn' ↦ .inl (loads_insert hn' hn rfl), by simp, fun _ ↦ id,
              fun _ _ _ _ _ ↦ rfl⟩
      · cases h
  | record n lag =>
      rw [LoadQuota.step] at h
      split at h
      · next dev fp loadedAt hn =>
          split at h
          · cases h
          · obtain ⟨l, hkeeps, hrec⟩ := q.limiter.tryRecordSuccess_cases dev (q.now - lag)
            have hlimiter : ∀ k, k ≠ dev → ∀ b, q.now - loadRateLimitWindow < b →
                ((q.limiter.tryRecordSuccess dev (q.now - lag)).2.times k).countP
                    (fun ts ↦ decide (b ≤ ts)) =
                  (q.limiter.times k).countP fun ts ↦ decide (b ≤ ts) := by
              intro k hk b hb
              rcases hrec with ⟨hrec, -⟩ | ⟨-, hrec⟩
              · rw [hrec]
                exact (LoadQuota.keeps_of_lag hkeeps hb).countP k
              · rw [hrec, LoadRateLimiter.times_insert, if_neg hk]
                exact (LoadQuota.keeps_of_lag hkeeps hb).countP k
            generalize q.limiter.tryRecordSuccess dev (q.now - lag) = res at h hlimiter
            cases h
            refine ⟨rfl, hzero, fun _ _ hn' ↦ .inl (loads_erase hn'), ?_, fun _ ↦ id,
              fun k _ hk ↦ hlimiter k fun heq ↦ hk n _ hn heq.symm⟩
            intro n' d' fp' loadedAt' answeredAt recorded hmem
            cases List.mem_singleton.mp hmem
            exact ⟨_, hn, rfl⟩
      · cases h
  | _ => cases ha

/-! ## First certificates -/

variable (srv) in
/-- The ways `handleMTLSEnroll` can end, with what it leaves in the limiter. -/
inductive Bootstrapped (limiter : LoadRateLimiter) (now : Time) (r : AdminRequest) (inp : Input) :
    LoadRateLimiter × List Event → Prop
  /-- No token is compared. -/
  | refused {limiter' : LoadRateLimiter} {e : HttpError}
      (hlimiter : ∀ k b, now - loadRateLimitWindow < b →
        (limiter.times k).countP (fun ts ↦ decide (b ≤ ts)) ≤
          (limiter'.times k).countP fun ts ↦ decide (b ≤ ts)) :
      Bootstrapped limiter now r inp (limiter', [.answered .mtlsEnroll (.error e)])
  /-- There was room for one more, and a token is compared. -/
  | compared {sourceIP : GoString} {kept : LoadRateLimiter} {es : List Event}
      (hkept : ∀ b, now - loadRateLimitWindow < b → limiter.Keeps b kept)
      (hroom : (kept.times (LoadQuota.bootstrapKey sourceIP)).length < loadRateLimitCount)
      (hes : (∃ e, es = [.answered .mtlsEnroll (.error e)]) ∨
        ∃ cert certPEM, es = [.issued cert, .answered .mtlsEnroll (.certificate certPEM)] ∧
          Strings.trimSpace r.enrollToken = Strings.trimSpace srv.cfg.mtlsEnrollToken ∧
          Strings.trimSpace r.enrollToken ≠ [] ∧ cert.subject.organizationalUnit = []) :
      Bootstrapped limiter now r inp
        (kept.insert (LoadQuota.bootstrapKey sourceIP)
            (kept.times (LoadQuota.bootstrapKey sourceIP) ++ [now - inp.lag]),
          .compared sourceIP r.enrollToken (now - inp.lag) now :: es)

theorem issueAutomation_eq_ok {csrSigner : CSRSigner PrivateKey} {r : AdminRequest} {draw : Draw}
    {cert : Certificate} {certPEM : Bytes}
    (h : issueAutomation srv.pf srv.lib csrSigner r draw = .ok (cert, certPEM)) :
    cert.subject.organizationalUnit = [] := by
  rw [issueAutomation] at h
  split at h
  · cases h
  · split at h
    · cases h
    · split at h
      · cases h
      · split at h
        · cases h
        · next hsign =>
            cases h
            exact organizationalUnit_of_signAutomation hsign

theorem expectedToken_eq_ok {csrSigner : Option (CSRSigner PrivateKey)} {cfg : Config.Config}
    {signer : CSRSigner PrivateKey} {expected : GoString}
    (h : expectedToken csrSigner cfg = .ok (signer, expected)) :
    expected = Strings.trimSpace cfg.mtlsEnrollToken ∧ expected ≠ [] := by
  rw [expectedToken.eq_def] at h
  split at h
  · cases h
  · dsimp only at h
    split at h
    · cases h
    · next hne =>
        cases h
        exact ⟨rfl, hne⟩

variable (srv) in
theorem bootstrapped_handle (limiter : LoadRateLimiter) (now : Time) (r : AdminRequest)
    (inp : Input) :
    Bootstrapped srv limiter now r inp (handleMTLSEnroll srv limiter now r inp) := by
  rw [handleMTLSEnroll]
  dsimp only
  generalize clientIPFromRemoteAddr srv.lib.toLibrary r.remoteAddr = sourceIP
  obtain ⟨kept, hkeeps, ⟨hrec, -⟩ | ⟨hroom, hrec⟩⟩ :=
    limiter.tryRecordSuccess_cases (LoadQuota.bootstrapKey sourceIP) (now - inp.lag)
  · rw [hrec]
    refine .refused fun k b hb ↦ Nat.le_of_eq ?_
    exact ((LoadQuota.keeps_of_lag hkeeps hb).countP k).symm
  · rw [hrec]
    dsimp only
    have hkept : ∀ b, now - loadRateLimitWindow < b → limiter.Keeps b kept :=
      fun b ↦ LoadQuota.keeps_of_lag hkeeps
    split
    · -- it counts although nothing is compared
      refine .refused fun k b hb ↦ ?_
      rw [(hkept b hb).countP_insert]
      exact Nat.le_add_right _ _
    · next csrSigner expected hexpected =>
        obtain ⟨rfl, hne⟩ := expectedToken_eq_ok hexpected
        split
        · exact .compared hkept hroom (.inl ⟨_, rfl⟩)
        · next htoken =>
            have htoken := not_not.mp htoken
            split
            · exact .compared hkept hroom (.inl ⟨_, rfl⟩)
            · next cert certPEM hissue =>
                refine .compared hkept hroom (.inr ⟨cert, certPEM, rfl, htoken, ?_, ?_⟩)
                · rw [htoken]
                  exact hne
                · exact issueAutomation_eq_ok hissue

/-! ## What outsiders cannot change -/

/-- What administrators are answered. -/
def Event.administration : Event → Option (Route × Reply)
  | .answered route reply => if route.gate = .administrator then some (route, reply) else none
  | _ => none

/-- How long an action takes that is not authorised. -/
def Action.duration : Action → Nat
  | .serve a => Administration.duration a
  | _ => 0

variable (srv) in
/-- The action, or the time it takes if it is not authorised. -/
def Action.kept (a : Action) : Action :=
  if a.authorised srv then a else .serve (.tick a.duration)

/-- The clock and the registries are the same. -/
structure Alike (s s' : System Signer) : Prop where
  now : s.quota.now = s'.quota.now
  cli : s.quota.cli = s'.quota.cli
  mobile : s.mobile = s'.mobile

variable {s s' t : System Signer} {r : AdminRequest} {inp : Input} {route : Route}
  {log evs : List Event} {as : List Action} {keystore : Keystore Signer}

/-- An administrator is answered from the registries alone, which then are the same. -/
theorem Alike.handle (h : Alike s s') (hgate : route.gate = .administrator)
    (hs : handle srv s r inp route = some (t, evs)) :
    ∃ t', Administration.handle srv s' r inp route = some (t', evs) ∧ Alike t t' := by
  obtain ⟨hnow, hcli, hmobile⟩ := h
  cases route with
  | adminUnseal | adminSealStatus =>
      cases hs
      exact ⟨s', rfl, hnow, hcli, hmobile⟩
  | mobileEnroll =>
      cases hs
      rw [Administration.handle, hmobile, hnow]
      exact ⟨_, rfl, hnow, hcli, rfl⟩
  | mobileDeleteDevice =>
      cases hs
      rw [Administration.handle, hmobile]
      exact ⟨_, rfl, hnow, hcli, rfl⟩
  | cliEnroll =>
      cases hs
      rw [Administration.handle, hcli, hnow]
      exact ⟨_, rfl, hnow, rfl, hmobile⟩
  | cliListDevices =>
      cases hs
      rw [Administration.handle, hcli]
      exact ⟨_, rfl, hnow, hcli, hmobile⟩
  | cliDeleteDevice =>
      cases hs
      rw [Administration.handle, hcli]
      exact ⟨_, rfl, hnow, rfl, hmobile⟩
  | _ => cases hgate

/-- What anyone may ask for changes neither registry, and no administrator is answered. -/
theorem alike_handle (hgate : route.gate ≠ .administrator)
    (hs : handle srv s r inp route = some (t, evs)) :
    Alike s t ∧ evs.filterMap Event.administration = [] := by
  cases route with
  | healthz | mtlsCA =>
      cases hs
      exact ⟨⟨rfl, rfl, rfl⟩, rfl⟩
  | mtlsEnroll =>
      have hboot := bootstrapped_handle srv s.quota.limiter s.quota.now r inp
      rw [Administration.handle] at hs
      generalize handleMTLSEnroll srv s.quota.limiter s.quota.now r inp = res at hs hboot
      cases hs
      refine ⟨⟨rfl, rfl, rfl⟩, ?_⟩
      cases hboot with
      | refused => rfl
      | compared _ _ hes =>
          rcases hes with ⟨e, rfl⟩ | ⟨cert, certPEM, rfl, -⟩ <;> rfl
  | capabilities | sign | wait | mobileApprove | mobileKeysPending | cliKeysLoad => cases hs
  | _ => exact absurd rfl hgate

/-- What an operation does to the registries rests on them alone. -/
theorem Alike.control (h : Alike s s') {peer : Ucred} {req : Control.Request} {inp : Control.Input}
    (hpeer : credAllowed srv.host peer srv.cfg.controlSocketGroup = .ok ())
    (hs : step srv s (.control peer req inp) = some (t, evs)) :
    ∃ t' evs', step srv s' (.control peer req inp) = some (t', evs') ∧ Alike t t' ∧
      evs'.filterMap Event.administration = evs.filterMap Event.administration := by
  obtain ⟨hnow, hcli, hmobile⟩ := h
  rw [step, hpeer] at hs
  rw [step, hpeer]
  have hd := Control.handled_handle srv.pf (s.deps srv) req (env req inp s.quota.now)
  have hd' := Control.handled_handle srv.pf (s'.deps srv) req (env req inp s'.quota.now)
  cases hs
  refine ⟨_, _, rfl, ⟨?_, ?_, ?_⟩, rfl⟩
  · dsimp only
    rw [hnow]
  · refine hd.cli.trans (Eq.trans ?_ hd'.cli.symm)
    rw [← hnow]
    exact congrArg (Control.cliAfter srv.pf srv.csrSigner · req (env req inp s.quota.now)) hcli
  · refine hd.mobile.trans (Eq.trans ?_ hd'.mobile.symm)
    rw [← hnow]
    exact congrArg (Control.mobileAfter srv.pf · req (env req inp s.quota.now)) hmobile

/-- An action that is not authorised takes time, changes neither registry, and answers no
administrator. -/
theorem alike_of_not_authorised {a : Action} (ha : a.authorised srv = false)
    (hs : step srv s a = some (t, evs)) :
    t.quota.now = s.quota.now + a.duration ∧ t.quota.cli = s.quota.cli ∧ t.mobile = s.mobile ∧
      evs.filterMap Event.administration = [] := by
  have hzero : s.quota.now = s.quota.now + (0 : Nat) := (Int.add_zero _).symm
  cases a with
  | http route r inp =>
      rw [step] at hs
      split at hs
      · cases hs
        exact ⟨hzero, rfl, rfl, rfl⟩
      · next hcheck =>
          have hgate : route.gate ≠ .administrator := by
            intro hgate
            rw [hgate, Gate.check] at hcheck
            rw [Action.authorised, hgate, hcheck] at ha
            cases ha
          obtain ⟨halike, hevs⟩ := alike_handle hgate hs
          exact ⟨halike.now.symm.trans hzero, halike.cli.symm, halike.mobile.symm, hevs⟩
  | control peer req inp =>
      rw [step] at hs
      split at hs
      · cases hs
        exact ⟨hzero, rfl, rfl, rfl⟩
      · next hpeer =>
          rw [Action.authorised, hpeer] at ha
          cases ha
  | upload =>
      cases hs
      exact ⟨hzero, rfl, rfl, rfl⟩
  | serve a =>
      rw [step] at hs
      split at hs
      · next hserving =>
          obtain ⟨⟨quota, es⟩, hquota, heq⟩ := Option.map_eq_some_iff.mp hs
          cases heq
          have hserved := served_of_step hserving hquota
          refine ⟨hserved.now, hserved.cli, rfl, ?_⟩
          rw [List.filterMap_map, List.filterMap_eq_nil_iff]
          exact fun _ _ ↦ rfl
      · cases hs

/-- **Step.** -/
theorem Alike.step (h : Alike s s') {a : Action} (hs : step srv s a = some (t, evs)) :
    ∃ t' evs', Administration.step srv s' (a.kept srv) = some (t', evs') ∧ Alike t t' ∧
      evs'.filterMap Event.administration = evs.filterMap Event.administration := by
  rw [Action.kept]
  split
  · next ha =>
      cases a with
      | http route r inp =>
          obtain ⟨hgate, hcheck⟩ := Bool.and_eq_true_iff.mp ha
          have hgate := eq_of_beq hgate
          have hok : route.gate.check srv.pf.x509 srv.cfg r.toHttpRequest = .ok () := by
            rw [hgate, Gate.check]
            cases hres : withAdminMTLS srv.pf.x509 srv.cfg r.toHttpRequest with
            | error e => rw [hres] at hcheck; cases hcheck
            | ok => rfl
          rw [Administration.step, hok] at hs
          obtain ⟨t', ht', halike⟩ := h.handle hgate hs
          refine ⟨t', evs, ?_, halike, rfl⟩
          rw [Administration.step, hok]
          exact ht'
      | control peer req inp =>
          refine h.control ?_ hs
          cases hres : credAllowed srv.host peer srv.cfg.controlSocketGroup with
          | error e => rw [Action.authorised, hres] at ha; cases ha
          | ok => rfl
      | upload | serve => cases ha
  · next ha =>
      obtain ⟨hnow, hcli, hmobile, hevs⟩ := alike_of_not_authorised (Bool.not_eq_true _ ▸ ha) hs
      refine ⟨{ s' with quota := { s'.quota with now := s'.quota.now + a.duration } }, [], rfl,
        ⟨?_, hcli.trans h.cli, hmobile.trans h.mobile⟩, hevs.symm⟩
      rw [hnow, h.now]

/-- **Outsiders do not count.**  In every run, both registries and all that administrators are
answered are what they would be if every action that is neither of an administrator nor of an
allowed peer were left out, and nothing but the time it takes had passed. -/
theorem registries_of_administrators (h : (machine srv keystore).exec as = some (s, log)) :
    ∃ s' log', (machine srv keystore).exec (as.map (Action.kept srv)) = some (s', log') ∧
      s'.mobile = s.mobile ∧ s'.quota.cli = s.quota.cli ∧
      log'.filterMap Event.administration = log.filterMap Event.administration := by
  obtain ⟨s', log', hexec, halike, hlog⟩ :=
    (machine srv keystore).exec_simulation (machine srv keystore) (R := Alike)
      ⟨rfl, rfl, rfl⟩ (fun s s' a t es hs ↦ hs.step) h
  exact ⟨s', log', hexec, halike.mobile.symm, halike.cli.symm, hlog⟩

end

/-! ## A run -/

/-- Toy JSON: a workstation has one label, and the body is its request. -/
def plainLibrary : AdminLibrary where
  unmarshalSignRequest _ := none
  unmarshalMobileApproveRequest _ := none
  marshalMobileApproveSignPayload _ := []
  splitHostPort addr := some (addr, [])
  unmarshalMobileEnroll b := some ⟨str "phone", b, str "fp"⟩
  unmarshalCLIEnroll b := some ⟨str "ws", b⟩
  unmarshalMTLSEnroll b := some b

/-- A server in local-key mode with a certificate authority and a token, which runs as the user
`1000` and has no group on its socket. -/
def plainServer : Server Bytes Bytes Unit Unit where
  pf := Control.plainPlatform
  lib := plainLibrary
  loadLib := LoadQuota.plainLibrary
  readFile _ := none
  host := ⟨1000, fun _ ↦ none⟩
  cfg := { LoadQuota.plainConfig with mtlsEnrollToken := str "token" }
  csrSigner := some ⟨⟨[], ⟨[], []⟩⟩, (), str "luna-cli", defaultCLIClientCertTTL⟩

/-- It starts without keys. -/
def plainMachine : Machine (System Bytes) Action Event :=
  machine plainServer (.newWithMode .localKey)

/-- A request with a certificate for a unit. -/
def requestAs (unit : String) (body token deviceID : GoString) : AdminRequest where
  body := body
  bodyFails := false
  bodyMAC := []
  conn := some .plain
  peerCertificates := [0 :: str unit]
  remoteAddr := str "10.0.0.7:1"
  enrollToken := token
  deviceID := deviceID

/-- What a request draws. -/
def plainInput : Input := ⟨str "1", ⟨7, [], 0⟩, 0⟩

/-- An administrator enrolls a workstation. -/
def enrollWorkstation : Action :=
  .http .cliEnroll (requestAs "luna-admin" (str "luna-cli") [] []) plainInput

/-- The workstation tries to delete itself, and so does a user of the host.  It takes a second. -/
def attempts : List Action :=
  [.http .cliDeleteDevice (requestAs "luna-cli" [] [] (str "cli_1")) plainInput,
    .control ⟨1001, 100⟩ ⟨str "cli.delete", [], str "cli_1"⟩
      ⟨⟨true, true, true⟩, none, [], ⟨0, [], 0⟩, 0⟩,
    .serve (.tick 1000000000)]

/-- The workstation is there after the attempts as it is without them. -/
theorem registries_of_administrators_attempts :
    ∃ s log, plainMachine.exec (enrollWorkstation :: attempts) = some (s, log) ∧
      s.quota.cli.list.map Device.id = [str "cli_1"] ∧
      ∃ s' log', plainMachine.exec
          ((enrollWorkstation :: attempts).map (Action.kept plainServer)) = some (s', log') ∧
        s'.quota.cli = s.quota.cli := by
  have hrun : (plainMachine.exec (enrollWorkstation :: attempts)).map
      (fun r ↦ r.1.quota.cli.list.map Device.id) = some [str "cli_1"] := by
    decide +kernel
  obtain ⟨⟨s, log⟩, hexec, hids⟩ := Option.map_eq_some_iff.mp hrun
  obtain ⟨s', log', hexec', -, hcli, -⟩ := registries_of_administrators hexec
  exact ⟨s, log, hexec, hids, s', log', hexec', hcli⟩

end LunaZTrust.Proxy.Administration
