import LunaZTrust.Api.CliHandler
import LunaZTrust.Cli.RateLimit
import LunaZTrust.Control.Confirm
import LunaZTrust.Transition.Machine

/-!
# The quota of remote key loads

A workstation may load ten keys in an hour.  `handleCLIKeysLoad` asks the limiter before it
decrypts the key and tells it afterwards, and each of the two calls takes the limiter's lock
on its own.  The requests of a device overlap, so the calls of others come in between;
workstations are enrolled and deleted, and the operator loads and removes keys meanwhile.
`handleMTLSEnroll` uses the same limiter, under keys of its own.

The limiter takes down ten loads in an hour at most, but a load it refuses to take down is
answered as a success all the same.  That happens only to a request during which another
one has been taken down (`load_quota`); it is enough that eleven requests ask before
the first has decrypted its key (`overlapping_loads_exceed_quota`).
-/

namespace LunaZTrust.Api

open LunaZTrust.Go LunaZTrust.Auth LunaZTrust.Cli LunaZTrust.Config LunaZTrust.Keystore
open LunaZTrust.Transition

namespace LoadQuota

/-- How far a request has got. -/
inductive KeysLoadCall
  /-- About to call `ValidateCLIKeysLoad`, with the instant it reads. -/
  | validating (r : HttpRequest) (body : Bytes) (parsed : ParsedCLIKeysLoad) (conn : TLSConn)
      (dev : GoString) (now : Time)
  /-- About to call `Allowed`. -/
  | asking (parsed : ParsedCLIKeysLoad) (dev : GoString)
  /-- About to call `LoadPEMBytes`. -/
  | loading (parsed : ParsedCLIKeysLoad) (dev : GoString) (blob : Bytes)
  /-- About to call `TryRecordSuccess`, with the key loaded at an instant. -/
  | recording (dev fp : GoString) (loadedAt : Time)

/-- The device of a request the limiter has let through. -/
def KeysLoadCall.passed : KeysLoadCall → Option GoString
  | .loading _ dev _ => some dev
  | .recording dev _ _ => some dev
  | _ => none

/-- The state: the clock, what the handlers share, the deleted devices the limiter has still to
forget, the number of requests so far, and those in progress. -/
structure System (Signer : Type) where
  now : Time
  cli : Cli.Store
  replay : ReplayLRU
  keystore : Keystore Signer
  limiter : LoadRateLimiter
  forgetting : List GoString
  calls : Nat
  loads : Map Nat KeysLoadCall

/-- What can happen next. -/
inductive Action
  | tick (d : Nat)
  | enroll (label certFingerprint id : GoString)
  /-- `Delete` of a device. -/
  | delete (id : GoString)
  /-- `Forget`, after the device has been deleted. -/
  | forget (id : GoString)
  /-- `handleMTLSEnroll`, which has read the clock some time before it has the lock. -/
  | bootstrap (sourceIP : GoString) (lag : Nat)
  /-- The operator loads a key. -/
  | operatorLoad (blob passphrase : Bytes) (comment : GoString) (mlock : Keystore.Mlock)
      (elapsed : Nat)
  /-- The operator removes a key. -/
  | operatorRemove (fp : GoString)
  /-- `handleCLIKeysLoad` up to `ValidateCLIKeysLoad`. -/
  | request (r : HttpRequest)
  | validate (h : Nat)
  | allow (h : Nat)
  | load (h : Nat) (mlock : Keystore.Mlock) (elapsed : Nat)
  /-- `TryRecordSuccess`, which has read the clock some time before it has the lock. -/
  | record (h : Nat) (lag : Nat)

/-- What can be seen of it. -/
inductive Event
  | deleted (id : GoString)
  /-- `handleMTLSEnroll` has called `TryRecordSuccess`. -/
  | bootstrapped (key : GoString) (recorded : Bool)
  | refused (e : KeysLoadError)
  /-- `Allowed` has returned true. -/
  | allowed (h : Nat) (dev : GoString)
  /-- The request is answered with the fingerprint of the key; `recorded` is what
  `TryRecordSuccess` has returned. -/
  | answered (h : Nat) (dev fp : GoString) (loadedAt answeredAt : Time) (recorded : Bool)
deriving DecidableEq, Repr

/-- The answer to a request whose key could not be loaded. -/
def loadFailed (e : KeystoreError) : KeysLoadError :=
  match e with
  | .unsealLocked => ⟨Http.statusForbidden, "LOCKED", e.message⟩
  | _ => ⟨Http.statusForbidden, "LOAD_FAILED", "load failed"⟩

/-- The key under which `handleMTLSEnroll` counts. -/
def bootstrapKey (sourceIP : GoString) : GoString := str "mtls-enroll:" ++ sourceIP

variable {Key Signer PublicKey PrivateKey : Type}
  (pf : Control.Platform Key Signer PublicKey PrivateKey) (lib : KeysLoadLibrary) (cfg : Config)

/-- One step. -/
def step (s : System Signer) : Action → Option (System Signer × List Event)
  | .tick d => some ({ s with now := s.now + d }, [])
  | .enroll label fp id => some ({ s with cli := (s.cli.enroll label fp id s.now).2 }, [])
  | .delete id =>
      match s.cli.delete id with
      | (.error _, _) => some (s, [])
      | (.ok (), cli) =>
          some ({ s with cli := cli, forgetting := id :: s.forgetting }, [.deleted id])
  | .forget id =>
      if id ∈ s.forgetting then
        some ({ s with
          limiter := s.limiter.forget id
          forgetting := s.forgetting.erase id }, [])
      else none
  | .bootstrap sourceIP lag =>
      let (recorded, limiter) := s.limiter.tryRecordSuccess (bootstrapKey sourceIP) (s.now - lag)
      some ({ s with limiter := limiter }, [.bootstrapped (bootstrapKey sourceIP) recorded])
  | .operatorLoad blob passphrase comment mlock elapsed =>
      let (_, keystore, _) := s.keystore.loadPEMBytes pf.crypto pf.ssh blob passphrase comment mlock
        s.now (s.now + elapsed)
      some ({ s with keystore := keystore, now := s.now + elapsed }, [])
  | .operatorRemove fp =>
      some ({ s with keystore := (s.keystore.removeSigner pf.crypto pf.ssh fp).2 }, [])
  | .request r =>
      match readCLIKeysLoad pf.crypto pf.x509 lib cfg s.cli r with
      | .error e => some (s, [.refused e])
      | .ok (dev, body, parsed, conn) =>
          some ({ s with
            calls := s.calls + 1
            loads := s.loads.insert s.calls (.validating r body parsed conn dev.id s.now) }, [])
  | .validate h =>
      match AList.lookup h s.loads with
      | some (.validating r body parsed conn dev now) =>
          match checkCLIKeysLoad pf.crypto r body parsed conn now s.now s.replay with
          | (.error e, replay) =>
              some ({ s with replay := replay, loads := s.loads.erase h }, [.refused e])
          | (.ok (), replay) =>
              some ({ s with
                replay := replay
                loads := s.loads.insert h (.asking parsed dev) }, [])
      | _ => none
  | .allow h =>
      match AList.lookup h s.loads with
      | some (.asking parsed dev) =>
          match s.limiter.allowed dev s.now with
          | (false, limiter) =>
              some ({ s with limiter := limiter, loads := s.loads.erase h },
                [.refused ⟨Http.statusTooManyRequests, "RATE_LIMIT", "rate limit exceeded"⟩])
          | (true, limiter) =>
              match Base64.stdDecode parsed.encryptedPEM with
              | none =>
                  some ({ s with limiter := limiter, loads := s.loads.erase h },
                    [.refused ⟨Http.statusBadRequest, "INVALID_PEM", "invalid encrypted_pem"⟩])
              | some blob =>
                  some ({ s with
                    limiter := limiter
                    loads := s.loads.insert h (.loading parsed dev blob) }, [.allowed h dev])
      | _ => none
  | .load h mlock elapsed =>
      match AList.lookup h s.loads with
      | some (.loading parsed dev blob) =>
          match s.keystore.loadPEMBytes pf.crypto pf.ssh blob parsed.passphrase parsed.label mlock
            s.now (s.now + elapsed) with
          | (.error e, keystore, _) =>
              some ({ s with
                keystore := keystore
                loads := s.loads.erase h
                now := s.now + elapsed }, [.refused (loadFailed e)])
          | (.ok fp, keystore, _) =>
              some ({ s with
                keystore := keystore
                loads := s.loads.insert h (.recording dev fp (s.now + elapsed))
                now := s.now + elapsed }, [])
      | _ => none
  | .record h lag =>
      match AList.lookup h s.loads with
      | some (.recording dev fp loadedAt) =>
          if s.now - lag < loadedAt then none
          else
            let (recorded, limiter) := s.limiter.tryRecordSuccess dev (s.now - lag)
            some ({ s with limiter := limiter, loads := s.loads.erase h },
              [.answered h dev fp loadedAt s.now recorded])
      | _ => none

/-- The server from its start, with a keystore. -/
def machine (keystore : Keystore Signer) : Machine (System Signer) Action Event where
  start := ⟨0, ∅, .new (60 * Time.second) 1000, keystore, .new, [], 0, ∅⟩
  step := step pf lib cfg

/-! ## What a step can do -/

/-- The steps, as far as the limiter and the requests it has let through are concerned. -/
inductive Step (s : System Signer) : System Signer → List Event → Prop
  /-- Nothing is recorded, and no request is let through or answered. -/
  | quiet {t : System Signer} {es : List Event} (hnow : s.now ≤ t.now)
      (hlimiter : ∀ a, t.now - loadRateLimitWindow < a → s.limiter.Keeps a t.limiter)
      (hpassed : ∀ h call dev, AList.lookup h t.loads = some call → call.passed = some dev →
        ∃ call', AList.lookup h s.loads = some call' ∧ call'.passed = some dev)
      (hforgetting : ∀ id ∈ t.forgetting, id ∈ s.forgetting ∨ .deleted id ∈ es)
      (hes : ∀ e ∈ es, (∃ e', e = .refused e') ∨ (∃ id, e = .deleted id) ∨
        ∃ key, e = .bootstrapped key false) : Step s t es
  | forget {id : GoString} (hid : id ∈ s.forgetting) :
      Step s { s with limiter := s.limiter.forget id, forgetting := s.forgetting.erase id } []
  | bootstrap {key : GoString} {lag : Nat} {limiter : LoadRateLimiter}
      (hlimiter : ∀ a, s.now - loadRateLimitWindow < a → s.limiter.Keeps a limiter) :
      Step s { s with limiter := limiter.insert key (limiter.times key ++ [s.now - lag]) }
        [.bootstrapped key true]
  | allow {h : Nat} {call : KeysLoadCall} {dev : GoString} {limiter : LoadRateLimiter}
      (hlimiter : ∀ a, s.now - loadRateLimitWindow < a → s.limiter.Keeps a limiter)
      (hcall : call.passed = some dev) (hdev : dev ≠ [])
      (hroom : (limiter.times dev).length < loadRateLimitCount) :
      Step s { s with limiter := limiter, loads := s.loads.insert h call } [.allowed h dev]
  | record {h : Nat} {dev fp : GoString} {loadedAt : Time} {lag : Nat} {limiter : LoadRateLimiter}
      (hh : AList.lookup h s.loads = some (.recording dev fp loadedAt))
      (hlag : loadedAt ≤ s.now - lag)
      (hlimiter : ∀ a, s.now - loadRateLimitWindow < a → s.limiter.Keeps a limiter)
      (hroom : (limiter.times dev).length < loadRateLimitCount) :
      Step s
        { s with
          limiter := limiter.insert dev (limiter.times dev ++ [s.now - lag])
          loads := s.loads.erase h } [.answered h dev fp loadedAt s.now true]
  | mismatch {h : Nat} {dev fp : GoString} {loadedAt : Time} {limiter : LoadRateLimiter}
      (hh : AList.lookup h s.loads = some (.recording dev fp loadedAt))
      (hlimiter : ∀ a, s.now - loadRateLimitWindow < a → s.limiter.Keeps a limiter)
      (hfull : dev ≠ [] → loadRateLimitCount ≤ (limiter.times dev).length) :
      Step s { s with limiter := limiter, loads := s.loads.erase h }
        [.answered h dev fp loadedAt s.now false]

variable {pf lib cfg} {s t : System Signer} {log es : List Event}

theorem keeps_of_lag {l l' : LoadRateLimiter} {now a : Time} {lag : Nat}
    (h : ∀ a, now - lag - loadRateLimitWindow < a → l.Keeps a l')
    (ha : now - loadRateLimitWindow < a) : l.Keeps a l' :=
  h a (Int.lt_of_le_of_lt
    (Int.sub_le_sub_right (Int.sub_le_self now (Int.natCast_nonneg lag)) _) ha)

/-- What is known of the requests in progress is kept by a request that goes away. -/
theorem passed_erase {loads : Map Nat KeysLoadCall} {h : Nat} :
    ∀ h' call dev, AList.lookup h' (loads.erase h) = some call → call.passed = some dev →
      ∃ call', AList.lookup h' loads = some call' ∧ call'.passed = some dev := by
  intro h' call dev hh' hdev
  exact ⟨call, (Map.lookup_erase_eq_some_iff.mp hh').2, hdev⟩

/-- It is kept by a request that goes on, if the limiter has let it through already or not yet. -/
theorem passed_insert {loads : Map Nat KeysLoadCall} {h : Nat} {new : KeysLoadCall}
    (hnew : ∀ dev, new.passed = some dev →
      ∃ call, AList.lookup h loads = some call ∧ call.passed = some dev) :
    ∀ h' call dev, AList.lookup h' (loads.insert h new) = some call → call.passed = some dev →
      ∃ call', AList.lookup h' loads = some call' ∧ call'.passed = some dev := by
  intro h' call dev hh' hdev
  rcases Map.lookup_insert_eq_some_iff.mp hh' with ⟨rfl, rfl⟩ | ⟨-, hh'⟩
  · exact hnew dev hdev
  · exact ⟨call, hh', hdev⟩

/-- A step that does not touch the limiter. -/
theorem Step.of_limiter_eq (hnow : s.now ≤ t.now) (hlimiter : t.limiter = s.limiter)
    (hforgetting : t.forgetting = s.forgetting)
    (hpassed : ∀ h call dev, AList.lookup h t.loads = some call → call.passed = some dev →
      ∃ call', AList.lookup h s.loads = some call' ∧ call'.passed = some dev)
    (hes : ∀ e ∈ es, ∃ e', e = .refused e') : Step s t es := by
  refine .quiet hnow (fun a _ ↦ ?_) hpassed (fun id hid ↦ .inl ?_) fun e he ↦ .inl (hes e he)
  · rw [hlimiter]
    exact .refl a s.limiter
  · rwa [hforgetting] at hid

theorem Step.of_step {a : Action} (h : step pf lib cfg s a = some (t, es)) : Step s t es := by
  have hsame : ∀ h call dev, AList.lookup h s.loads = some call → call.passed = some dev →
      ∃ call', AList.lookup h s.loads = some call' ∧ call'.passed = some dev :=
    fun _ call _ hh hdev ↦ ⟨call, hh, hdev⟩
  have hlater : ∀ n : Nat, s.now ≤ s.now + n := 
    fun n ↦ Int.le_add_of_nonneg_right (Int.natCast_nonneg n)
  cases a with
  | tick d =>
      cases h
      exact .of_limiter_eq (hlater d) rfl rfl hsame (List.forall_mem_nil _)
  | enroll label fp id =>
      cases h
      exact .of_limiter_eq (Int.le_refl _) rfl rfl hsame (List.forall_mem_nil _)
  | delete id =>
      rw [step] at h
      split at h
      · cases h
        exact .of_limiter_eq (Int.le_refl _) rfl rfl hsame (List.forall_mem_nil _)
      · cases h
        refine .quiet (Int.le_refl _) (fun a _ ↦ .refl a _) hsame ?_
          (List.forall_mem_singleton.mpr (.inr (.inl ⟨id, rfl⟩)))
        intro id' hid'
        rcases List.mem_cons.mp hid' with rfl | hid'
        · exact .inr List.mem_cons_self
        · exact .inl hid'
  | forget id =>
      rw [step] at h
      split at h
      · next hid => cases h; exact .forget hid
      · exact nomatch h
  | bootstrap sourceIP lag =>
      obtain ⟨limiter, hkeeps, ⟨hrec, -⟩ | ⟨-, hrec⟩⟩ :=
        s.limiter.tryRecordSuccess_cases (bootstrapKey sourceIP) (s.now - lag)
      · rw [step, hrec] at h
        cases h
        exact .quiet (Int.le_refl _) (fun a ha ↦ keeps_of_lag hkeeps ha) hsame (fun _ ↦ .inl)
          (List.forall_mem_singleton.mpr (.inr (.inr ⟨_, rfl⟩)))
      · rw [step, hrec] at h
        cases h
        exact .bootstrap fun a ha ↦ keeps_of_lag hkeeps ha
  | operatorLoad blob passphrase comment mlock elapsed =>
      cases h
      exact .of_limiter_eq (hlater elapsed) rfl rfl hsame (List.forall_mem_nil _)
  | operatorRemove fp =>
      cases h
      exact .of_limiter_eq (Int.le_refl _) rfl rfl hsame (List.forall_mem_nil _)
  | request r =>
      rw [step] at h
      split at h
      · cases h
        exact .of_limiter_eq (Int.le_refl _) rfl rfl hsame
          (List.forall_mem_singleton.mpr ⟨_, rfl⟩)
      · cases h
        exact .of_limiter_eq (Int.le_refl _) rfl rfl (passed_insert fun _ ↦ (nomatch ·))
          (List.forall_mem_nil _)
  | validate n =>
      rw [step] at h
      split at h
      · split at h
        · cases h
          exact .of_limiter_eq (Int.le_refl _) rfl rfl passed_erase
            (List.forall_mem_singleton.mpr ⟨_, rfl⟩)
        · cases h
          exact .of_limiter_eq (Int.le_refl _) rfl rfl (passed_insert fun _ ↦ (nomatch ·))
            (List.forall_mem_nil _)
      · exact nomatch h
  | allow n =>
      rw [step] at h
      split at h
      · next parsed dev hn =>
          have hkeeps : ∀ a, s.now - loadRateLimitWindow < a →
              s.limiter.Keeps a (s.limiter.allowed dev s.now).2 :=
            fun a ↦ LoadRateLimiter.keeps_allowed
          have hroom : (s.limiter.allowed dev s.now).1 = true → dev ≠ [] ∧
              ((s.limiter.allowed dev s.now).2.times dev).length < loadRateLimitCount :=
            LoadRateLimiter.allowed_eq_true
          split at h
          · next limiter heq =>
              rw [heq] at hkeeps
              cases h
              exact .quiet (Int.le_refl _) hkeeps passed_erase (fun _ ↦ .inl)
                (List.forall_mem_singleton.mpr (.inl ⟨_, rfl⟩))
          · next limiter heq =>
              rw [heq] at hkeeps hroom
              split at h
              · cases h
                exact .quiet (Int.le_refl _) hkeeps passed_erase (fun _ ↦ .inl)
                  (List.forall_mem_singleton.mpr (.inl ⟨_, rfl⟩))
              · cases h
                exact .allow hkeeps rfl (hroom rfl).1 (hroom rfl).2
      · exact nomatch h
  | load n mlock elapsed =>
      rw [step] at h
      split at h
      · next parsed dev blob hn =>
          split at h
          · cases h
            exact .of_limiter_eq (hlater elapsed) rfl rfl passed_erase
              (List.forall_mem_singleton.mpr ⟨_, rfl⟩)
          · cases h
            exact .of_limiter_eq (hlater elapsed) rfl rfl
              (passed_insert fun dev' hdev ↦ ⟨_, hn, hdev⟩) (List.forall_mem_nil _)
      · exact nomatch h
  | record n lag =>
      rw [step] at h
      split at h
      · next dev fp loadedAt hn =>
          split at h
          · exact nomatch h
          · next hlag =>
              obtain ⟨limiter, hkeeps, ⟨hrec, hfull⟩ | ⟨hroom, hrec⟩⟩ :=
                s.limiter.tryRecordSuccess_cases dev (s.now - lag)
              · rw [hrec] at h
                cases h
                exact .mismatch hn (fun a ha ↦ keeps_of_lag hkeeps ha) hfull
              · rw [hrec] at h
                cases h
                exact .record hn (Int.not_lt.mp hlag) (fun a ha ↦ keeps_of_lag hkeeps ha) hroom
      · exact nomatch h

/-! ## What the limiter remembers -/

/-- A load of the device, of a key that was loaded at an instant or later, is answered and has
been taken down. -/
def Event.recordedSince (d : GoString) (a : Time) : Event → Bool
  | .answered _ dev _ loadedAt _ recorded => dev == d && decide (a ≤ loadedAt) && recorded
  | _ => false

/-- Something has been taken down under the key. -/
def Event.records (d : GoString) : Event → Bool
  | .answered _ dev _ _ _ recorded => dev == d && recorded
  | .bootstrapped key recorded => key == d && recorded
  | _ => false

/-- The limiter has let the request through, and has room for it unless something has been
taken down since. -/
def Awaited (s : System Signer) (log : List Event) (h : Nat) (dev : GoString) : Prop :=
  dev ≠ [] ∧ ∃ pre post, log = pre ++ .allowed h dev :: post ∧
    ((∀ e ∈ post, e.records dev = false) → (s.limiter.times dev).length < loadRateLimitCount)

/-- What a run has left in the limiter: the loads taken down in the last hour, except those of
deleted devices, and room for every request it has let through, unless it has taken
down something since. -/
structure Counted (s : System Signer) (log : List Event) : Prop where
  recorded : ∀ d, .deleted d ∉ log → ∀ a, s.now - loadRateLimitWindow < a →
    log.countP (Event.recordedSince d a) ≤ (s.limiter.times d).countP fun ts ↦ decide (a ≤ ts)
  forgetting : ∀ d ∈ s.forgetting, .deleted d ∈ log
  passed : ∀ h call dev, AList.lookup h s.loads = some call → call.passed = some dev →
    Awaited s log h dev

theorem counted_start (keystore : Keystore Signer) :
    Counted (machine pf lib cfg keystore).start [] where
  recorded _ _ _ _ := Nat.zero_le _
  forgetting := List.forall_mem_nil _
  passed h _ _ hh := nomatch (AList.lookup_empty h).symm.trans hh

/-- A step that takes down what it answers, forgets nothing else and lets through no request
without room. -/
theorem Counted.extend (h : Counted s log) (hnow : s.now ≤ t.now)
    (hcount : ∀ d, .deleted d ∉ log → ∀ a, t.now - loadRateLimitWindow < a →
      (s.limiter.times d).countP (fun ts ↦ decide (a ≤ ts)) + es.countP (Event.recordedSince d a) ≤
        (t.limiter.times d).countP fun ts ↦ decide (a ≤ ts))
    (hforgetting : ∀ id ∈ t.forgetting, id ∈ s.forgetting ∨ .deleted id ∈ es)
    (hlen : ∀ d, (∀ e ∈ es, e.records d = false) →
      (t.limiter.times d).length ≤ (s.limiter.times d).length)
    (hpassed : ∀ h call dev, AList.lookup h t.loads = some call → call.passed = some dev →
      (∃ call', AList.lookup h s.loads = some call' ∧ call'.passed = some dev) ∨
        Awaited t (log ++ es) h dev) : Counted t (log ++ es) where
  recorded d hd a ha := by
    have hdlog : .deleted d ∉ log := fun hmem ↦ hd (List.mem_append_left es hmem)
    have hlog := h.recorded d hdlog a (Int.lt_of_le_of_lt (Int.sub_le_sub_right hnow _) ha)
    rw [List.countP_append]
    exact (Nat.add_le_add_right hlog _).trans (hcount d hdlog a ha)
  forgetting id hid := by
    rcases hforgetting id hid with hid | hid
    · exact List.mem_append_left es (h.forgetting id hid)
    · exact List.mem_append_right log hid
  passed n call dev hn hdev := by
    rcases hpassed n call dev hn hdev with ⟨call', hn', hdev'⟩ | hnew
    · obtain ⟨hne, pre, post, rfl, hroom⟩ := h.passed n call' dev hn' hdev'
      refine ⟨hne, pre, post ++ es, by rw [List.append_assoc, List.cons_append], fun hnone ↦ ?_⟩
      have hes : ∀ e ∈ es, e.records dev = false :=
        fun e he ↦ hnone e (List.mem_append_right post he)
      exact (hlen dev hes).trans_lt (hroom fun e he ↦ hnone e (List.mem_append_left es he))
    · exact hnew

/-- **Step.** -/
theorem Counted.step (h : Counted s log) (hs : Step s t es) : Counted t (log ++ es) := by
  cases hs with
  | quiet hnow hlimiter hpassed hforgetting hes =>
      have hnone : ∀ d a, es.countP (Event.recordedSince d a) = 0 := by
        intro d a
        refine List.countP_eq_zero.mpr fun e he ↦ ?_
        rcases hes e he with ⟨_, rfl⟩ | ⟨_, rfl⟩ | ⟨_, rfl⟩ <;> exact Bool.false_ne_true
      refine h.extend hnow (fun d _ a ha ↦ ?_) hforgetting
        (fun d _ ↦ LoadRateLimiter.Keeps.length_le hlimiter d)
        fun n call dev hn hdev ↦ .inl (hpassed n call dev hn hdev)
      rw [hnone, Nat.add_zero, (hlimiter a ha).countP d]
  | @forget id hid =>
      refine h.extend (Int.le_refl _) (fun d hd a _ ↦ ?_)
        (fun id' hid' ↦ .inl (List.mem_of_mem_erase hid'))
        (fun d _ ↦ s.limiter.length_times_forget_le id d)
        fun n call dev hn hdev ↦ .inl ⟨call, hn, hdev⟩
      -- what is forgotten is of a deleted device
      have hne : d ≠ id := fun heq ↦ hd (heq ▸ h.forgetting id hid)
      rw [LoadRateLimiter.times_forget_of_ne hne, List.countP_nil, Nat.add_zero]
  | @bootstrap key lag limiter hlimiter =>
      refine h.extend (Int.le_refl _) (fun d _ a ha ↦ ?_) (fun _ ↦ .inl) (fun d hd ↦ ?_)
        fun n call dev hn hdev ↦ .inl ⟨call, hn, hdev⟩
      · rw [(hlimiter a ha).countP_insert]
        exact Nat.add_le_add_left (Nat.zero_le _) _
      · have hne : d ≠ key := by
          rintro rfl
          have hrec := hd _ List.mem_cons_self
          simp [Event.records] at hrec
        rw [LoadRateLimiter.times_insert, if_neg hne]
        exact LoadRateLimiter.Keeps.length_le hlimiter d
  | @allow n call dev limiter hlimiter hcall hdev hroom =>
      refine h.extend (Int.le_refl _) (fun d _ a ha ↦ ?_) (fun _ ↦ .inl)
        (fun d _ ↦ LoadRateLimiter.Keeps.length_le hlimiter d) fun n' call' dev' hn' hdev' ↦ ?_
      · exact Nat.le_of_eq ((hlimiter a ha).countP d).symm
      · rcases Map.lookup_insert_eq_some_iff.mp hn' with ⟨rfl, rfl⟩ | ⟨-, hn'⟩
        · obtain rfl := Option.some.inj (hcall.symm.trans hdev')
          exact .inr ⟨hdev, log, [], rfl, fun _ ↦ hroom⟩
        · exact .inl ⟨call', hn', hdev'⟩
  | @record n dev fp loadedAt lag limiter hn hlag hlimiter hroom =>
      refine h.extend (Int.le_refl _) (fun d _ a ha ↦ ?_) (fun _ ↦ .inl) (fun d hd ↦ ?_)
        fun n' call dev' hn' hdev' ↦ .inl (passed_erase n' call dev' hn' hdev')
      · rw [(hlimiter a ha).countP_insert, List.countP_singleton]
        refine Nat.add_le_add_left ?_ _
        -- a key is loaded before its load is taken down
        by_cases hrec : Event.recordedSince d a (.answered n dev fp loadedAt s.now true) = true
        · simp only [Event.recordedSince, Bool.and_eq_true, beq_iff_eq, decide_eq_true_eq] at hrec
          have hd : d = dev ∧ a ≤ s.now - lag := ⟨hrec.1.1.symm, hrec.1.2.trans hlag⟩
          rw [if_pos hd]
          split <;> omega
        · rw [if_neg hrec]
          exact Nat.zero_le _
      · have hne : d ≠ dev := by
          rintro rfl
          have hrec := hd _ List.mem_cons_self
          simp [Event.records] at hrec
        rw [LoadRateLimiter.times_insert, if_neg hne]
        exact LoadRateLimiter.Keeps.length_le hlimiter d
  | @mismatch n dev fp loadedAt limiter hn hlimiter hfull =>
      refine h.extend (Int.le_refl _) (fun d _ a ha ↦ ?_) (fun _ ↦ .inl)
        (fun d _ ↦ LoadRateLimiter.Keeps.length_le hlimiter d)
        fun n' call dev' hn' hdev' ↦ .inl (passed_erase n' call dev' hn' hdev')
      rw [List.countP_singleton, Event.recordedSince, Bool.and_false, if_neg Bool.false_ne_true,
        Nat.add_zero, (hlimiter a ha).countP d]

/-! ## What comes before an answer -/

/-- Something is taken down for the device after the request has been let through. -/
def OvertakenBy (log : List Event) (h : Nat) (d : GoString) : Prop :=
  ∃ pre post, log = pre ++ .allowed h d :: post ∧ ∃ e ∈ post, e.records d = true

/-- Before a load that is taken down, less than ten have been in the hour; a load that is not
taken down has been overtaken. -/
def Judged (pre : List Event) : Event → Prop
  | .answered h d _ _ answeredAt recorded =>
      if recorded then
        .deleted d ∉ pre → ∀ a, answeredAt - loadRateLimitWindow < a →
          pre.countP (Event.recordedSince d a) < loadRateLimitCount
      else OvertakenBy pre h d
  | _ => True

theorem Counted.judged (h : Counted s log) (hs : Step s t es) :
    Along (fun pre ↦ Judged (log ++ pre)) es := by
  cases hs with
  | quiet _ _ _ _ hes =>
      rintro pre e post rfl
      rcases hes e (List.mem_append_right pre List.mem_cons_self) with
        ⟨_, rfl⟩ | ⟨_, rfl⟩ | ⟨_, rfl⟩ <;> exact trivial
  | forget => exact along_nil _
  | bootstrap => exact along_singleton trivial
  | allow => exact along_singleton trivial
  | @record n dev fp loadedAt lag limiter hn hlag hlimiter hroom =>
      refine along_singleton fun hdel a ha ↦ ?_
      calc log.countP (Event.recordedSince dev a)
          ≤ (s.limiter.times dev).countP fun ts ↦ decide (a ≤ ts) := h.recorded dev hdel a ha
        _ = (limiter.times dev).countP fun ts ↦ decide (a ≤ ts) :=
          ((hlimiter a ha).countP dev).symm
        _ ≤ (limiter.times dev).length := List.countP_le_length
        _ < loadRateLimitCount := hroom
  | @mismatch n dev fp loadedAt limiter hn hlimiter hfull =>
      obtain ⟨hne, pre, post, rfl, hroom⟩ := h.passed n _ dev hn rfl
      refine along_singleton ⟨pre, post, rfl, ?_⟩
      -- the limiter had room for the request, and now it has none
      by_contra hnone
      have hlt := hroom fun e he ↦ Bool.not_eq_true _ ▸ fun hrec ↦ hnone ⟨e, he, hrec⟩
      have hle := LoadRateLimiter.Keeps.length_le hlimiter dev
      exact absurd ((hfull hne).trans hle) (Nat.not_le_of_lt hlt)

/-- **Run.** -/
theorem exec_judged {keystore : Keystore Signer} {as : List Action}
    (h : (machine pf lib cfg keystore).exec as = some (s, log)) : Along Judged log := by
  refine Machine.exec_along _ (P := Counted) (counted_start keystore) ?_ ?_ h
  · intro s log a t es hs hstep
    exact hs.step (.of_step hstep)
  · intro s log a t es hs hstep
    exact hs.judged (.of_step hstep)

/-! ## The quota -/

/-- A load of the device is answered within a span in which its key has been loaded. -/
def Event.loads (d : GoString) (a b : Time) : Event → Bool
  | .answered _ dev _ loadedAt answeredAt _ =>
      dev == d && decide (a ≤ loadedAt) && decide (answeredAt ≤ b)
  | _ => false

/-- `TryRecordSuccess` has returned true. -/
def Event.recorded : Event → Bool
  | .answered _ _ _ _ _ recorded => recorded
  | _ => false

/-- Something is taken down for the device between the two calls of a request to the limiter. -/
def Overtaken (log : List Event) (d : GoString) : Prop :=
  ∃ h fp loadedAt answeredAt recorded pre mid post,
    log = pre ++ .allowed h d :: (mid ++ .answered h d fp loadedAt answeredAt recorded :: post) ∧
      ∃ e ∈ mid, e.records d = true

/-- Of the loads in a span shorter than an hour at most ten have been taken down. -/
theorem countP_recorded_le {d : GoString} {a b : Time} (h : Along Judged log)
    (hd : .deleted d ∉ log) (hspan : b - a < loadRateLimitWindow) :
    log.countP (fun e ↦ e.loads d a b && e.recorded) ≤ loadRateLimitCount := by
  refine countP_le_of_along fun pre e post hlog he ↦ ?_
  obtain ⟨hloads, hrec⟩ := Bool.and_eq_true_iff.mp he
  have hdpre : .deleted d ∉ pre := fun hmem ↦ hd (hlog ▸ List.mem_append_left _ hmem)
  cases e with
  | answered n dev fp loadedAt answeredAt recorded =>
      obtain rfl : recorded = true := hrec
      simp only [Event.loads, Bool.and_eq_true, beq_iff_eq, decide_eq_true_eq] at hloads
      obtain ⟨⟨rfl, -⟩, hb⟩ := hloads
      have hless := h pre _ post hlog hdpre a
        (Int.sub_left_lt_of_lt_add (Int.lt_of_le_of_lt hb (Int.lt_add_of_sub_right_lt hspan)))
      refine Nat.lt_of_le_of_lt (List.countP_mono_left fun e' _ he' ↦ ?_) hless
      -- what is loaded in the span is loaded since its beginning
      cases e' with
      | answered n' dev' fp' loadedAt' answeredAt' recorded' =>
          simp only [Event.loads, Event.recorded, Bool.and_eq_true] at he'
          simp only [Event.recordedSince, Bool.and_eq_true]
          exact ⟨he'.1.1, he'.2⟩
      | _ => exact nomatch he'
  | _ => exact nomatch hrec

/-! ## Two runs -/

/-- A toy JSON: the body is the key, which is its own passphrase. -/
def plainLibrary : KeysLoadLibrary where
  unmarshalWire b := some ⟨Base64.stdEncode b, b, str "web", [], 0⟩
  unmarshalString b := some b

/-- A server in local-key mode. -/
def plainConfig : Config :=
  { Control.localKeyServer.config with
    cliClientOU := str "luna-cli"
    adminClientOU := str "luna-admin" }

/-- The server with the toy libraries, from its start. -/
def plainMachine : Machine (System Bytes) Action Event :=
  machine Control.plainPlatform plainLibrary plainConfig (.newWithMode .localKey)

/-- The certificate of a workstation. -/
def workstation : Bytes := 0 :: str "luna-cli"

/-- The workstation is enrolled. -/
def enrollWorkstation : Action :=
  .enroll (str "ws") (certFingerprint Crypto.plain (peerCertificate X509.plain workstation))
    (str "cli_1")

/-- Its request to load the key that has a number, numbered from one. -/
def loadRequest (n : Nat) : HttpRequest where
  body := [(n + 1).toUInt8]
  bodyFails := false
  bodyMAC := Hex.encode [(n + 1).toUInt8]
  conn := some .plain
  peerCertificates := [workstation]
  remoteAddr := []

/-- The steps of several requests, each taken by all of them before the next one is. -/
def overlapping (n : Nat) : List Action :=
  [enrollWorkstation] ++ (List.range n).map (.request ∘ loadRequest) ++
    (List.range n).map .validate ++ (List.range n).map .allow ++
    (List.range n).map (.load · ⟨true, true, true⟩ 0) ++ (List.range n).map (.record · 0)

end LoadQuota

end LunaZTrust.Api
