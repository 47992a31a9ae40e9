import LunaZTrust.Control.Confirm
import LunaZTrust.Transition.Machine

/-!
# Concurrent control connections

`ServeUnix` serves every connection in a goroutine of its own, so the requests of several
operators overlap, and mobile devices upload keys and workstations load keys meanwhile.
A confirmation goes to the queue, to the keystore and to the queue again, and each visit is a
step; every other request is one step here, as it visits neither of these stores twice.

Pending ids are never drawn twice.
-/

namespace LunaZTrust.Control

open LunaZTrust.Go LunaZTrust.Keystore LunaZTrust.Cli LunaZTrust.Transition
open ServerDeps

variable {Key Signer PublicKey PrivateKey : Type} (pf : Platform Key Signer PublicKey PrivateKey)

/-- How far a confirmation has got. -/
inductive ConfirmCall
  /-- About to call `LoadPEMBytes`. -/
  | loading (c : Confirmation)
  /-- About to call `Pending.Delete`, with the key loaded. -/
  | deleting (c : Confirmation) (fp : GoString)

/-- What the call confirms. -/
def ConfirmCall.confirmation : ConfirmCall → Confirmation
  | .loading c => c
  | .deleting c _ => c

/-- The state of the server: the clock, the stores, the number of confirmations that have
found their entry so far, and those in progress. -/
structure System (Signer PrivateKey : Type) where
  now : Time
  deps : ServerDeps Signer PrivateKey
  calls : Nat
  confirms : Map Nat ConfirmCall

/-- What a request reads from outside, apart from the clock, and for how long it decrypts. -/
structure Input where
  mlock : Keystore.Mlock
  file : Option Bytes
  id : GoString
  draw : Draw
  elapsed : Nat

/-- The readings of a request that is served from an instant on. -/
def Input.env (inp : Input) (now : Time) : Env :=
  ⟨now, now, now + inp.elapsed, inp.mlock, inp.file, inp.id, inp.draw⟩

/-- What can happen next. -/
inductive Action
  | tick (d : Nat)
  /-- A mobile device uploads a key: `Pending.Add`. -/
  | upload (deviceID label comment : GoString) (blob : Bytes) (id : GoString)
  /-- A workstation loads a key: `LoadPEMBytes`. -/
  | remoteLoad (blob passphrase : Bytes) (label : GoString) (mlock : Keystore.Mlock) (elapsed : Nat)
  /-- A request other than a confirmation. -/
  | serve (req : Request) (inp : Input)
  /-- A request for a confirmation, up to `Pending.Get`. -/
  | confirm (req : Request)
  /-- `LoadPEMBytes` of a confirmation. -/
  | load (n : Nat) (mlock : Keystore.Mlock) (elapsed : Nat)
  /-- `Pending.Delete` of a confirmation. -/
  | delete (n : Nat)

/-- What can be seen of it. -/
inductive Event
  | uploaded (id : GoString)
  /-- `Pending.Get` has returned the entry to the confirmation. -/
  | got (n : Nat) (id : GoString)
  /-- The confirmation has put the key into the pool. -/
  | loaded (n : Nat) (id fp : GoString)
  /-- The confirmation is answered. -/
  | answered (n : Nat) (id : GoString) (resp : Response)
  /-- A confirmation is answered that has not found its entry. -/
  | refused (resp : Response)
  /-- Another request is answered. -/
  | served (req : Request) (resp : Response)
deriving DecidableEq, Repr

/-- One step. -/
def step (s : System Signer PrivateKey) :
    Action → Option (System Signer PrivateKey × List Event)
  | .tick d => some ({ s with now := s.now + d }, [])
  | .upload deviceID label comment blob id =>
      if (AList.lookup id s.deps.pending.blobs).isSome then none
      else
        match s.deps.pending.add deviceID label comment blob id s.now with
        | (.error _, _) => some (s, [])
        | (.ok id, pending) =>
            some ({ s with deps := { s.deps with pending := pending } }, [.uploaded id])
  | .remoteLoad blob passphrase label mlock elapsed =>
      let (_, keystore, _) := s.deps.keystore.loadPEMBytes pf.crypto pf.ssh blob passphrase label
        mlock s.now (s.now + elapsed)
      some ({ s with deps := { s.deps with keystore := keystore }, now := s.now + elapsed }, [])
  | .serve req inp =>
      if req.op? = some .keyConfirm then none
      else
        let (resp, deps) := s.deps.handle pf req (inp.env s.now)
        some ({ s with deps := deps, now := s.now + inp.elapsed }, [.served req resp])
  | .confirm req =>
      if req.op? ≠ some .keyConfirm then none
      else
        match s.deps.confirmGet pf req s.now with
        | (.error resp, deps) => some ({ s with deps := deps }, [.refused resp])
        | (.ok c, deps) =>
            some ({ s with
              deps := deps
              calls := s.calls + 1
              confirms := s.confirms.insert s.calls (.loading c) }, [.got s.calls c.pendingID])
  | .load n mlock elapsed =>
      match AList.lookup n s.confirms with
      | some (.loading c) =>
          match s.deps.confirmLoad pf c mlock s.now (s.now + elapsed) with
          | (.error resp, deps) =>
              some ({ s with
                deps := deps
                confirms := s.confirms.erase n
                now := s.now + elapsed }, [.answered n c.pendingID resp])
          | (.ok fp, deps) =>
              some ({ s with
                deps := deps
                confirms := s.confirms.insert n (.deleting c fp)
                now := s.now + elapsed }, [.loaded n c.pendingID fp])
      | _ => none
  | .delete n =>
      match AList.lookup n s.confirms with
      | some (.deleting c fp) =>
          let (resp, deps) := s.deps.confirmDelete pf c fp
          some ({ s with deps := deps, confirms := s.confirms.erase n },
            [.answered n c.pendingID resp])
      | _ => none

/-- The control server, from its start, when nothing is pending. -/
def machine (deps : ServerDeps Signer PrivateKey) :
    Machine (System Signer PrivateKey) Action Event where
  start := ⟨0, { deps with pending := .new }, 0, ∅⟩
  step := step pf

/-! ## What a step can do -/

/-- The steps, with what they rest on. -/
inductive Step (s : System Signer PrivateKey) :
    Action → System Signer PrivateKey → List Event → Prop
  | tick (d : Nat) : Step s (.tick d) { s with now := s.now + d } []
  | uploadFull {deviceID label comment : GoString} {blob : Bytes} {id : GoString} :
      Step s (.upload deviceID label comment blob id) s []
  | upload {deviceID label comment : GoString} {blob : Bytes} {id : GoString} {q : PendingStore}
      (hfresh : AList.lookup id s.deps.pending.blobs = none)
      (hadd : s.deps.pending.add deviceID label comment blob id s.now = (.ok id, q)) :
      Step s (.upload deviceID label comment blob id)
        { s with deps := { s.deps with pending := q } } [.uploaded id]
  | remoteLoad {blob passphrase : Bytes} {label : GoString} {mlock : Keystore.Mlock}
      {elapsed : Nat} (keystore : Keystore Signer) :
      Step s (.remoteLoad blob passphrase label mlock elapsed)
        { s with deps := { s.deps with keystore := keystore }, now := s.now + elapsed } []
  | serve {req : Request} {inp : Input} (hop : req.op? ≠ some .keyConfirm) :
      Step s (.serve req inp)
        { s with deps := (s.deps.handle pf req (inp.env s.now)).2, now := s.now + inp.elapsed }
        [.served req (s.deps.handle pf req (inp.env s.now)).1]
  | refuse {req : Request} {resp : Response} {deps : ServerDeps Signer PrivateKey}
      (hget : s.deps.confirmGet pf req s.now = (.error resp, deps)) :
      Step s (.confirm req) { s with deps := deps } [.refused resp]
  | get {req : Request} {c : Confirmation} {deps : ServerDeps Signer PrivateKey}
      (hget : s.deps.confirmGet pf req s.now = (.ok c, deps)) :
      Step s (.confirm req)
        { s with
          deps := deps
          calls := s.calls + 1
          confirms := s.confirms.insert s.calls (.loading c) } [.got s.calls c.pendingID]
  | loadFailed {n : Nat} {mlock : Keystore.Mlock} {elapsed : Nat} {c : Confirmation}
      {resp : Response} {deps : ServerDeps Signer PrivateKey}
      (hn : AList.lookup n s.confirms = some (.loading c))
      (hload : ConfirmLoad pf s.deps c mlock s.now (.error resp, deps)) :
      Step s (.load n mlock elapsed)
        { s with deps := deps, confirms := s.confirms.erase n, now := s.now + elapsed }
        [.answered n c.pendingID resp]
  | load {n : Nat} {mlock : Keystore.Mlock} {elapsed : Nat} {c : Confirmation} {fp : GoString}
      {deps : ServerDeps Signer PrivateKey}
      (hn : AList.lookup n s.confirms = some (.loading c))
      (hload : ConfirmLoad pf s.deps c mlock s.now (.ok fp, deps)) :
      Step s (.load n mlock elapsed)
        { s with
          deps := deps
          confirms := s.confirms.insert n (.deleting c fp)
          now := s.now + elapsed } [.loaded n c.pendingID fp]
  | delete {n : Nat} {c : Confirmation} {fp : GoString}
      (hn : AList.lookup n s.confirms = some (.deleting c fp)) :
      Step s (.delete n)
        { s with
          deps := { s.deps with pending := (s.deps.pending.delete c.pendingID).2 }
          confirms := s.confirms.erase n }
        [.answered n c.pendingID (ok c.reqID (pf.lib.marshal (.fingerprint fp)))]

variable {pf}

theorem Step.of_step {s t : System Signer PrivateKey} {a : Action} {es : List Event}
    (h : step pf s a = some (t, es)) : Step pf s a t es := by
  cases a with
  | tick d => cases h; exact .tick d
  | upload deviceID label comment blob id =>
      rw [step] at h
      split at h
      · exact nomatch h
      · next hfresh =>
          split at h
          · cases h; exact .uploadFull
          · next id' q hadd =>
              cases h
              obtain ⟨rfl, -, -⟩ := PendingStore.add_eq_ok hadd
              exact .upload (Option.not_isSome_iff_eq_none.mp hfresh) hadd
  | remoteLoad blob passphrase label mlock elapsed => cases h; exact .remoteLoad _
  | serve req inp =>
      rw [step] at h
      split at h
      · exact nomatch h
      · next hop => cases h; exact .serve hop
  | confirm req =>
      rw [step] at h
      split at h
      · exact nomatch h
      · split at h
        · next hget => cases h; exact .refuse hget
        · next hget => cases h; exact .get hget
  | load n mlock elapsed =>
      rw [step] at h
      split at h
      · next c hn =>
          have hload := confirmLoad_ends pf s.deps c mlock s.now (s.now + elapsed)
          split at h
          · next heq => cases h; exact .loadFailed hn (heq ▸ hload)
          · next heq => cases h; exact .load hn (heq ▸ hload)
      · exact nomatch h
  | delete n =>
      rw [step] at h
      split at h
      · next hn => cases h; exact .delete hn
      · exact nomatch h

/-! ### What it does to the queue -/

theorem confirmGet_eq_ok {s t : ServerDeps Signer PrivateKey} {req : Request} {now : Time}
    {c : Confirmation} (h : s.confirmGet pf req now = (.ok c, t)) :
    (∃ p, AList.lookup c.pendingID s.pending.entries = some p) ∧ s.pending.Shrinks t.pending := by
  rw [confirmGet] at h
  split at h
  · cases h
  · split at h
    · cases h
    · next inp hinp =>
        split at h
        · cases h
        · next p q hget =>
            obtain ⟨rfl, rfl⟩ : _ = c ∧ _ = t := by
              obtain ⟨hc, ht⟩ := Prod.mk.inj h
              exact ⟨Except.ok.inj hc, ht⟩
            have hp : (s.pending.get inp.pendingID now).1 = .ok p := by rw [hget]
            have hq : q = s.pending.purgeExpiredLocked now := by
              rw [← PendingStore.get_snd s.pending inp.pendingID now, hget]
            refine ⟨⟨p, (PendingStore.get_eq_ok_iff.mp hp).1⟩, ?_⟩
            rw [hq]
            exact PendingStore.shrinks_purgeExpiredLocked s.pending now

theorem confirmGet_eq_error {s t : ServerDeps Signer PrivateKey} {req : Request} {now : Time}
    {resp : Response} (h : s.confirmGet pf req now = (.error resp, t)) :
    s.pending.Shrinks t.pending := by
  rw [confirmGet] at h
  split at h
  · cases h; exact .refl _
  · split at h
    · cases h; exact .refl _
    · next inp hinp =>
        split at h
        · next q hget =>
            have hq : q = s.pending.purgeExpiredLocked now := by
              rw [← PendingStore.get_snd s.pending inp.pendingID now, hget]
            cases h
            rw [hq]
            exact PendingStore.shrinks_purgeExpiredLocked s.pending now
        · cases h

/-- A request other than a confirmation adds nothing to the queue and changes no blob. -/
theorem handle_shrinks {s : ServerDeps Signer PrivateKey} {req : Request} {env : Env}
    (hop : req.op? ≠ some .keyConfirm) : s.pending.Shrinks (s.handle pf req env).2.pending := by
  rw [handle]
  split
  · exact PendingStore.shrinks_purgeExpiredLocked _ _
  · rw [handleKeyLoad]
    repeat' split
    all_goals exact .refl _
  · exact .refl _
  · rw [handleKeyRemove]
    repeat' split
    all_goals exact .refl _
  · next h => exact absurd h hop
  · rw [handleKeyReject]
    split
    · exact .refl _
    · next id _ =>
        have hdel := PendingStore.shrinks_delete s.pending id
        split <;> next heq => rw [heq] at hdel; exact hdel
  · exact PendingStore.shrinks_purgeExpiredLocked _ _
  · rw [handleMobileEnroll]
    repeat' split
    all_goals exact .refl _
  · exact .refl _
  · rw [handleMobileDelete]
    repeat' split
    all_goals exact .refl _
  · rw [handleCLIEnroll]
    repeat' split
    all_goals exact .refl _
  · exact .refl _
  · rw [handleCLIDelete]
    repeat' split
    all_goals exact .refl _
  · exact .refl _

end LunaZTrust.Control
