import LunaZTrust.Api.LoadQuota
import LunaZTrust.Keystore.Lockout

/-!
# One lock for all sources

A key comes from a file (`key.load`), from the queue of pending uploads (`key.confirm`) or with
the request itself (`handleCLIKeysLoad`).  All three end in `LoadPEMBytes` of the one keystore
(`handle_attempt`, `lockedAnswers_eq`), and its lock does not look at where the key comes from.

So the attempts on one source are not independent of those on another (`shared_lockout`).  They
are where the attempts on the other decrypt nothing, or succeed while no failure is counted
(`answers_without`); a failed decryption can always be told from the answers to another
source (`failure_shows`).
-/

namespace LunaZTrust.Api

open LunaZTrust.Go LunaZTrust.Ssh LunaZTrust.Keystore LunaZTrust.Control

/-- Where an encrypted key comes from. -/
inductive Source
  | path (path : GoString)
  | pendingID (id : GoString)
  | upload (blob : Bytes)
deriving DecidableEq, Repr

/-- `errors.Is(err, keystore.ErrUnsealLocked)`. -/
def isUnsealLocked : Except KeystoreError GoString → Bool
  | .error .unsealLocked => true
  | _ => false

theorem isUnsealLocked_iff {res : Except KeystoreError GoString} :
    isUnsealLocked res = true ↔ res = .error .unsealLocked := by
  cases res with
  | ok fp => exact iff_of_false Bool.false_ne_true fun h ↦ by cases h
  | error e => cases e <;> decide

/-! ## The three ways to load a key -/

section Requests

variable {Key Signer PublicKey PrivateKey : Type}
  (pf : Control.Platform Key Signer PublicKey PrivateKey)

/-- A request to load a key.  That of a workstation is taken where `handleCLIKeysLoad` has the
blob. -/
inductive LoadRequest
  | keyLoad (req : Control.Request) (env : Control.Env)
  | keyConfirm (req : Control.Request) (env : Control.Env)
  | keysLoad (parsed : ParsedCLIKeysLoad) (blob : Bytes) (mlock : Keystore.Mlock)
      (now failedAt : Time)

namespace LoadRequest

/-- The call of `LoadPEMBytes` a request makes, if it makes one, and the source of the key. -/
def attempt? (s : ServerDeps Signer PrivateKey) : LoadRequest → Option (Source × Attempt)
  | .keyLoad req env => do
      let inp ← pf.lib.unmarshalKeyLoad req.data
      if inp.path = [] ∨ inp.passphrase = [] then none
      else
        let pem ← env.file
        return (.path inp.path,
          ⟨pem, inp.passphrase, inp.comment, env.mlock, env.loadAt, env.failedAt⟩)
  | .keyConfirm req env =>
      match s.confirmGet pf req env.now with
      | (.error _, _) => none
      | (.ok c, s) =>
          some (.pendingID c.pendingID, ⟨s.pending.blob c.pendingID, c.passphrase, c.label,
            env.mlock, env.loadAt, env.failedAt⟩)
  | .keysLoad parsed blob mlock now failedAt =>
      some (.upload blob, ⟨blob, parsed.passphrase, parsed.label, mlock, now, failedAt⟩)

/-- The code a request is answered with, which is empty if the key is loaded, and the server after
it. -/
def handle (s : ServerDeps Signer PrivateKey) :
    LoadRequest → GoString × ServerDeps Signer PrivateKey
  | .keyLoad req env => ((s.handleKeyLoad pf req env).1.code, (s.handleKeyLoad pf req env).2)
  | .keyConfirm req env =>
      ((s.handleKeyConfirm pf req env).1.code, (s.handleKeyConfirm pf req env).2)
  | .keysLoad parsed blob mlock now failedAt =>
      match s.keystore.loadPEMBytes pf.crypto pf.ssh blob parsed.passphrase parsed.label mlock now
          failedAt with
      | (.error e, keystore, _) =>
          (str (LoadQuota.loadFailed e).code, { s with keystore := keystore })
      | (.ok _, keystore, _) => ([], { s with keystore := keystore })

variable {pf} {s : ServerDeps Signer PrivateKey}

variable (pf s) in
/-- The answer to a request and the server after it, against the call of `LoadPEMBytes` it makes.
The request is answered with `LOCKED` just if the call is, and the keystore is as the call
leaves it.  A request that makes none does not touch the keystore. -/
inductive HandledAs : Option (Source × Attempt) → GoString × ServerDeps Signer PrivateKey → Prop
  | nothing {code : GoString} {s' : ServerDeps Signer PrivateKey} (hcode : code ≠ str "LOCKED")
      (hkeystore : s'.keystore = s.keystore) : HandledAs none (code, s')
  | attempt {src : Source} {a : Attempt} {code : GoString} {s' : ServerDeps Signer PrivateKey}
      (hcode : code = str "LOCKED" ↔
        isUnsealLocked (a.load pf.crypto pf.ssh s.keystore).1 = true)
      (hkeystore : s'.keystore = (a.load pf.crypto pf.ssh s.keystore).2.1) :
      HandledAs (some (src, a)) (code, s')

theorem HandledAs.of_load {src : Source} {a : Attempt} {res : Except KeystoreError GoString}
    {k : Keystore Signer} {zeroed : Bytes} {code : GoString} {s' : ServerDeps Signer PrivateKey}
    (hload : a.load pf.crypto pf.ssh s.keystore = (res, k, zeroed))
    (hcode : code = str "LOCKED" ↔ isUnsealLocked res = true) (hkeystore : s'.keystore = k) :
    HandledAs pf s (some (src, a)) (code, s') :=
  .attempt (by rw [hload]; exact hcode) (by rw [hload]; exact hkeystore)

theorem forbidden_ne_locked : str "FORBIDDEN" ≠ str "LOCKED" := by decide

theorem nil_ne_locked : ([] : GoString) ≠ str "LOCKED" := by decide

theorem badRequest_ne_locked : str "BAD_REQUEST" ≠ str "LOCKED" := by decide

theorem handle_keyLoad (req : Control.Request) (env : Control.Env) :
    HandledAs pf s (attempt? pf s (.keyLoad req env)) (handle pf s (.keyLoad req env)) := by
  rw [attempt?, handle, ServerDeps.handleKeyLoad]
  cases hinp : pf.lib.unmarshalKeyLoad req.data with
  | none => exact .nothing badRequest_ne_locked rfl
  | some inp =>
      dsimp only [Option.bind_eq_bind, Option.bind_some]
      by_cases hempty : inp.path = [] ∨ inp.passphrase = []
      · rw [if_pos hempty, if_pos hempty]
        exact .nothing badRequest_ne_locked rfl
      · rw [if_neg hempty, if_neg hempty]
        cases hfile : env.file with
        | none => exact .nothing forbidden_ne_locked rfl
        | some pem =>
            dsimp only [Option.bind_some]
            cases hload : s.keystore.loadPEMBytes pf.crypto pf.ssh pem inp.passphrase inp.comment
              env.mlock env.loadAt env.failedAt with
            | mk res r =>
                cases res with
                | ok fp => exact .of_load hload (iff_of_false nil_ne_locked Bool.false_ne_true) rfl
                | error e =>
                    cases e with
                    | unsealLocked => exact .of_load hload (iff_of_true rfl rfl) rfl
                    | _ =>
                        exact .of_load hload
                          (iff_of_false forbidden_ne_locked Bool.false_ne_true) rfl

variable (pf s) in
/-- `Pending.Get` does not touch the keystore. -/
theorem confirmGet_cases (req : Control.Request) (now : Time) :
    (∃ resp s', s.confirmGet pf req now = (.error resp, s') ∧ resp.code ≠ str "LOCKED" ∧
      s'.keystore = s.keystore) ∨
    ∃ c s', s.confirmGet pf req now = (.ok c, s') ∧ s'.keystore = s.keystore := by
  rw [ServerDeps.confirmGet]
  split
  · exact .inl ⟨_, _, rfl, badRequest_ne_locked, rfl⟩
  · split
    · exact .inl ⟨_, _, rfl, badRequest_ne_locked, rfl⟩
    · split
      · exact .inl ⟨_, _, rfl, (by decide : str "NOT_FOUND" ≠ str "LOCKED"), rfl⟩
      · exact .inr ⟨_, _, rfl, rfl⟩

theorem handle_keyConfirm (req : Control.Request) (env : Control.Env) :
    HandledAs pf s (attempt? pf s (.keyConfirm req env)) (handle pf s (.keyConfirm req env)) := by
  rw [attempt?, handle, ServerDeps.handleKeyConfirm]
  rcases confirmGet_cases pf s req env.now with
    ⟨resp, s', hget, hcode, hkeystore⟩ | ⟨c, s', hget, hkeystore⟩
  · rw [hget]
    exact .nothing hcode hkeystore
  · rw [hget]
    dsimp only
    rw [ServerDeps.confirmLoad]
    cases hload : s'.keystore.loadPEMBytes pf.crypto pf.ssh (s'.pending.blob c.pendingID)
      c.passphrase c.label env.mlock env.loadAt env.failedAt with
    | mk res r =>
        rw [hkeystore] at hload
        cases res with
        | ok fp => exact .of_load hload (iff_of_false nil_ne_locked Bool.false_ne_true) rfl
        | error e =>
            cases e with
            | unsealLocked => exact .of_load hload (iff_of_true rfl rfl) rfl
            | _ => exact .of_load hload (iff_of_false forbidden_ne_locked Bool.false_ne_true) rfl

theorem handle_keysLoad (parsed : ParsedCLIKeysLoad) (blob : Bytes) (mlock : Keystore.Mlock)
    (now failedAt : Time) :
    HandledAs pf s (attempt? pf s (.keysLoad parsed blob mlock now failedAt))
      (handle pf s (.keysLoad parsed blob mlock now failedAt)) := by
  rw [attempt?, handle]
  cases hload : s.keystore.loadPEMBytes pf.crypto pf.ssh blob parsed.passphrase parsed.label mlock
    now failedAt with
  | mk res r =>
      cases res with
      | ok fp => exact .of_load hload (iff_of_false nil_ne_locked Bool.false_ne_true) rfl
      | error e =>
          cases e with
          | unsealLocked => exact .of_load hload (iff_of_true rfl rfl) rfl
          | _ => exact .of_load hload (iff_of_false (by decide) Bool.false_ne_true) rfl

/-- **Every way to load a key is one call of `LoadPEMBytes`.** -/
theorem handle_attempt (r : LoadRequest) : HandledAs pf s (r.attempt? pf s) (r.handle pf s) := by
  cases r with
  | keyLoad req env => exact handle_keyLoad req env
  | keyConfirm req env => exact handle_keyConfirm req env
  | keysLoad parsed blob mlock now failedAt => exact handle_keysLoad parsed blob mlock now failedAt

end LoadRequest

end Requests

/-! ## Answers -/

section Attempts

variable {Key Signer : Type} (crypto : Crypto) (ssh : Package Key Signer)

/-- Whether each attempt is answered with `ErrUnsealLocked`. -/
def answers : Keystore Signer → List (Source × Attempt) → List (Source × Bool)
  | _, [] => []
  | k, (src, a) :: rest =>
      (src, isUnsealLocked (a.load crypto ssh k).1) :: answers (a.load crypto ssh k).2.1 rest

/-- The attempts are made one after the other. -/
def InOrder : Time → List (Source × Attempt) → Prop
  | _, [] => True
  | clock, (_, a) :: rest => clock ≤ a.now ∧ a.now ≤ a.failedAt ∧ InOrder a.failedAt rest

instance decidableInOrder : ∀ clock as, Decidable (InOrder clock as)
  | _, [] => .isTrue trivial
  | clock, (_, a) :: rest =>
      have := decidableInOrder a.failedAt rest
      inferInstanceAs (Decidable (clock ≤ a.now ∧ a.now ≤ a.failedAt ∧ InOrder a.failedAt rest))

/-- An attempt that leaves the lock alone: it is refused, it decrypts nothing, or it succeeds while
no failure is counted. -/
def Unseen (k : Keystore Signer) (a : Attempt) : Prop :=
  k.lock.locked a.now = true ∨ a.decryption ssh = .skipped ∨
    a.decryption ssh = .succeeded ∧ (k.lock.check a.now).fails = 0

instance (k : Keystore Signer) (a : Attempt) : Decidable (Unseen ssh k a) :=
  inferInstanceAs (Decidable (_ ∨ _ ∨ _))

/-- All attempts on a source leave the lock alone. -/
def UnseenAll (A : Source) : Keystore Signer → List (Source × Attempt) → Prop
  | _, [] => True
  | k, (src, a) :: rest =>
      (src = A → Unseen ssh k a) ∧ UnseenAll A (a.load crypto ssh k).2.1 rest

instance decidableUnseenAll (A : Source) :
    ∀ (k : Keystore Signer) (as : List (Source × Attempt)), Decidable (UnseenAll crypto ssh A k as)
  | _, [] => .isTrue trivial
  | k, (src, a) :: rest =>
      have := decidableUnseenAll A (a.load crypto ssh k).2.1 rest
      inferInstanceAs (Decidable ((src = A → Unseen ssh k a) ∧
        UnseenAll crypto ssh A (a.load crypto ssh k).2.1 rest))

variable {crypto ssh} {k k' : Keystore Signer} {clock : Time} {A B : Source}
  {as : List (Source × Attempt)}

theorem isUnsealLocked_load (a : Attempt) (k : Keystore Signer) :
    isUnsealLocked (a.load crypto ssh k).1 = k.lock.locked a.now :=
  Bool.eq_iff_iff.mpr (isUnsealLocked_iff.trans (load_eq_unsealLocked_iff a k))

/-- Keystores with locks that are the same from an instant on answer alike from then on, where one
of them does not see the attempts on a source that leave the lock alone. -/
theorem answers_filter_of_unseen (horder : InOrder clock as) (hunseen : UnseenAll crypto ssh A k as)
    (hlock : k.lock.check clock = k'.lock.check clock) :
    (answers crypto ssh k as).filter (fun r ↦ decide (r.1 ≠ A)) =
      answers crypto ssh k' (as.filter fun r ↦ decide (r.1 ≠ A)) := by
  induction as generalizing k k' clock with
  | nil => rfl
  | cons r rest ih =>
      obtain ⟨src, a⟩ := r
      obtain ⟨hle, hle', horder⟩ := horder
      obtain ⟨hsrc, hunseen⟩ := hunseen
      obtain ⟨hlocked, hattempt⟩ :=
        Lock.check_attempt_congr hlock hle a.failedAt (a.decryption ssh)
      rw [answers, List.filter_cons, List.filter_cons]
      by_cases hA : src = A
      · -- the other keystore has not seen the attempt
        have hdrop : ¬decide (src ≠ A) = true := fun h ↦ absurd hA (of_decide_eq_true h)
        rw [if_neg hdrop, if_neg hdrop]
        refine ih horder hunseen (Lock.check_congr ?_ hle')
        rw [lock_load, Lock.check_attempt_of_unseen (hsrc hA)]
        exact Lock.check_congr hlock hle
      · rw [if_pos (decide_eq_true hA), if_pos (decide_eq_true hA), answers, isUnsealLocked_load,
          isUnsealLocked_load, hlocked]
        refine congrArg _ (ih horder hunseen (Lock.check_congr ?_ hle'))
        rw [lock_load, lock_load]
        exact hattempt

/-- Attempts on one source, answered as if there had been none on another.  The condition is that
the attempts on the other leave the lock alone. -/
theorem answers_without (horder : InOrder clock as) (hAB : A ≠ B)
    (hunseen : UnseenAll crypto ssh A k as) :
    (answers crypto ssh k (as.filter fun r ↦ decide (r.1 ≠ A))).filter
        (fun r ↦ decide (r.1 = B)) =
      (answers crypto ssh k as).filter fun r ↦ decide (r.1 = B) := by
  rw [← answers_filter_of_unseen horder hunseen rfl, List.filter_filter]
  refine List.filter_congr fun r _ ↦ ?_
  rw [← Bool.decide_and, decide_eq_decide, and_iff_left_iff_imp]
  rintro rfl
  exact hAB.symm

/-- A key that could not be locked in memory, one loaded while no failure is counted, and the wrong
passphrases for another source meanwhile. -/
def quietAttempts : List (Source × Attempt) :=
  (.path (str "/a"), { tryAt "wrong" 0 with mlock := ⟨false, true, true⟩ }) ::
    (.path (str "/a"), tryAt "right" 0) ::
      List.replicate 6 (.upload (str "pem"), tryAt "wrong" 0)

/-- The sixth of these is refused, with or without the others. -/
theorem answers_without_quietAttempts :
    (answers Crypto.plain guarded (.newWithMode .localKey) quietAttempts).filter
        (fun r ↦ decide (r.1 = .upload (str "pem"))) =
      List.replicate 5 (.upload (str "pem"), false) ++ [(.upload (str "pem"), true)] ∧
    (answers Crypto.plain guarded (.newWithMode .localKey)
        (quietAttempts.filter fun r ↦ decide (r.1 ≠ .path (str "/a")))).filter
          (fun r ↦ decide (r.1 = .upload (str "pem"))) =
      (answers Crypto.plain guarded (.newWithMode .localKey) quietAttempts).filter
        fun r ↦ decide (r.1 = .upload (str "pem")) :=
  ⟨by decide +kernel, answers_without (by decide +kernel : InOrder 0 quietAttempts) (by decide)
    (by decide +kernel)⟩

/-! ### What shows -/

variable {b : Attempt}

/-- As long as the count is not full, failures are answered as such. -/
theorem answers_replicate_failed (hb : b.decryption ssh = .failed) {n : Nat}
    (hzero : Time.isZero k.lock.lockedUntil = true) (hn : k.lock.fails + n ≤ maxUnsealAttempts) :
    answers crypto ssh k (List.replicate n (B, b)) = List.replicate n (B, false) := by
  induction n generalizing k with
  | zero => rfl
  | succ n ih =>
      have hlocked : k.lock.locked b.now = false := by rw [Lock.locked, hzero]; rfl
      rw [List.replicate_succ, answers, isUnsealLocked_load, hlocked, List.replicate_succ]
      refine congrArg _ ?_
      cases n with
      | zero => rfl
      | succ n =>
          have hload : (b.load crypto ssh k).2.1.lock = _ := lock_load b k
          rw [hb, Lock.attempt_failed hzero (by omega)] at hload
          refine ih (by rw [hload]; exact hzero) ?_
          rw [hload]
          dsimp only
          omega

/-- A failure that fills the count is followed by a cooldown. -/
theorem locked_of_full {a : Attempt} (ha : a.decryption ssh = .failed)
    (hzero : Time.isZero k.lock.lockedUntil = true) (hfull : maxUnsealAttempts ≤ k.lock.fails + 1)
    (hclock : Time.zero ≤ a.failedAt) :
    (a.load crypto ssh k).2.1.lock.locked a.failedAt = true := by
  have hlt : a.failedAt < a.failedAt + unsealCooldown := Int.lt_add_of_pos_right _ (by decide)
  have hne : Time.isZero (a.failedAt + unsealCooldown) = false :=
    beq_false_of_ne (Int.ne_of_gt (Int.lt_of_le_of_lt hclock hlt))
  rw [lock_load, ha, Lock.attempt_failed_full hzero hfull, Lock.locked, hne, decide_eq_true hlt]
  rfl

/-- Once the count is full, the next attempt is refused. -/
theorem mem_answers_replicate (hb : b.decryption ssh = .failed) (hnow : b.now = b.failedAt)
    (hclock : Time.zero ≤ b.failedAt) {n : Nat} (hzero : Time.isZero k.lock.lockedUntil = true)
    (hn : k.lock.fails + (n + 1) = maxUnsealAttempts) :
    (B, true) ∈ answers crypto ssh k (List.replicate (n + 2) (B, b)) := by
  induction n generalizing k with
  | zero =>
      have hlocked : (b.load crypto ssh k).2.1.lock.locked b.failedAt = true :=
        locked_of_full hb hzero hn.ge hclock
      rw [List.replicate_succ, answers, List.replicate_succ, answers, isUnsealLocked_load _
        (b.load crypto ssh k).2.1, hnow, hlocked]
      exact List.mem_cons_of_mem _ List.mem_cons_self
  | succ n ih =>
      have hload : (b.load crypto ssh k).2.1.lock = _ := lock_load b k
      rw [hb, Lock.attempt_failed hzero (by omega)] at hload
      rw [List.replicate_succ, answers]
      refine List.mem_cons_of_mem _ (ih (by rw [hload]; exact hzero) ?_)
      rw [hload]
      dsimp only
      omega

/-- **A failure shows.**  Where no cooldown is on, a failed decryption for one source can be told
from the answers to another: as many wrong passphrases for that as the count still takes are all
answered as such without it, and the last one is refused with it. -/
theorem failure_shows {a : Attempt} (hzero : Time.isZero k.lock.lockedUntil = true)
    (hfails : k.lock.fails < maxUnsealAttempts) (ha : a.decryption ssh = .failed)
    (hb : b.decryption ssh = .failed) (hclock : Time.zero ≤ a.failedAt)
    (hnow : b.now = a.failedAt) (hfailedAt : b.failedAt = a.failedAt) :
    ∃ n, (answers crypto ssh k ((A, a) :: List.replicate n (B, b))).filter
        (fun r ↦ decide (r.1 = B)) ≠
      (answers crypto ssh k (List.replicate n (B, b))).filter fun r ↦ decide (r.1 = B) := by
  refine ⟨maxUnsealAttempts - k.lock.fails, fun h ↦ ?_⟩
  -- without the failure of the one, no failure of the other is refused
  have hfalse : (B, true) ∉ (answers crypto ssh k
      (List.replicate (maxUnsealAttempts - k.lock.fails) (B, b))).filter
        fun r ↦ decide (r.1 = B) := by
    rw [answers_replicate_failed hb hzero (by omega)]
    intro hmem
    cases (List.mem_replicate.mp (List.mem_of_mem_filter hmem)).2
  refine hfalse (h ▸ List.mem_filter.mpr ⟨?_, decide_eq_true rfl⟩)
  obtain ⟨n, hn⟩ := Nat.exists_eq_add_of_lt hfails
  rw [answers]
  refine List.mem_cons_of_mem _ ?_
  cases n with
  | zero =>
      have hlocked : (a.load crypto ssh k).2.1.lock.locked a.failedAt = true :=
        locked_of_full ha hzero hn.le hclock
      rw [hn, Nat.add_zero, Nat.add_sub_cancel_left, List.replicate_succ, answers,
        isUnsealLocked_load, hnow, hlocked]
      exact List.mem_cons_self
  | succ n =>
      have hload : (a.load crypto ssh k).2.1.lock = _ := lock_load a k
      rw [ha, Lock.attempt_failed hzero (by omega)] at hload
      have hlength : maxUnsealAttempts - k.lock.fails = n + 2 := by omega
      rw [hlength]
      refine mem_answers_replicate hb (hnow.trans hfailedAt.symm) (hfailedAt ▸ hclock) ?_ ?_
      · rw [hload]; exact hzero
      · rw [hload]
        dsimp only
        omega

end Attempts

/-- Five wrong passphrases for a file, and the right one for an upload. -/
def pathThenUpload : List (Source × Attempt) :=
  List.replicate 5 (.path (str "/a"), tryAt "wrong" 0) ++
    [(.upload (str "pem"), tryAt "right" 0)]

/-- Wrong passphrases for an upload, with the right one for a file before the last two. -/
def uploadAroundPath : List (Source × Attempt) :=
  List.replicate 4 (.upload (str "pem"), tryAt "wrong" 0) ++
    (.path (str "/a"), tryAt "right" 0) ::
      List.replicate 2 (.upload (str "pem"), tryAt "wrong" 0)

/-- **The lock is shared.**  Wrong passphrases for a file lock out an upload that has not failed
once, and a file that is loaded forgives the failures of an upload. -/
theorem shared_lockout :
    (InOrder 0 pathThenUpload ∧
      (answers Crypto.plain guarded (.newWithMode .localKey) pathThenUpload).filter
          (fun r ↦ decide (r.1 = .upload (str "pem"))) = [(.upload (str "pem"), true)] ∧
      (answers Crypto.plain guarded (.newWithMode .localKey)
        (pathThenUpload.filter fun r ↦ decide (r.1 ≠ .path (str "/a")))).filter
          (fun r ↦ decide (r.1 = .upload (str "pem"))) = [(.upload (str "pem"), false)]) ∧
    InOrder 0 uploadAroundPath ∧
      (answers Crypto.plain guarded (.newWithMode .localKey) uploadAroundPath).filter
          (fun r ↦ decide (r.1 = .upload (str "pem"))) =
        List.replicate 6 (.upload (str "pem"), false) ∧
      (answers Crypto.plain guarded (.newWithMode .localKey)
        (uploadAroundPath.filter fun r ↦ decide (r.1 ≠ .path (str "/a")))).filter
          (fun r ↦ decide (r.1 = .upload (str "pem"))) =
        List.replicate 5 (.upload (str "pem"), false) ++ [(.upload (str "pem"), true)] := by
  decide +kernel

/-! ## Sequences of requests -/

section Sequences

variable {Key Signer PublicKey PrivateKey : Type}
  (pf : Control.Platform Key Signer PublicKey PrivateKey)

/-- The calls of `LoadPEMBytes` some requests make, one after the other. -/
def attempts : ServerDeps Signer PrivateKey → List LoadRequest → List (Source × Attempt)
  | _, [] => []
  | s, r :: rest => (r.attempt? pf s).toList ++ attempts (r.handle pf s).2 rest

/-- Whether each request that makes one is answered with `LOCKED`. -/
def lockedAnswers : ServerDeps Signer PrivateKey → List LoadRequest → List (Source × Bool)
  | _, [] => []
  | s, r :: rest =>
      ((r.attempt? pf s).map fun x ↦ (x.1, decide ((r.handle pf s).1 = str "LOCKED"))).toList ++
        lockedAnswers (r.handle pf s).2 rest

/-- **Run.**  The requests are answered as their calls of `LoadPEMBytes` are. -/
theorem lockedAnswers_eq (s : ServerDeps Signer PrivateKey) (rs : List LoadRequest) :
    lockedAnswers pf s rs = answers pf.crypto pf.ssh s.keystore (attempts pf s rs) := by
  induction rs generalizing s with
  | nil => rfl
  | cons r rest ih =>
      rw [lockedAnswers, attempts, ih]
      have hhandled : LoadRequest.HandledAs pf s (r.attempt? pf s) (r.handle pf s) :=
        r.handle_attempt
      generalize r.attempt? pf s = x at hhandled ⊢
      generalize r.handle pf s = y at hhandled ⊢
      cases hhandled with
      | nothing _ hkeystore => rw [hkeystore]; rfl
      | attempt hcode hkeystore =>
          rw [hkeystore]
          exact congrArg₂ List.cons (Prod.ext rfl (Bool.eq_iff_iff.mpr
            (decide_eq_true_iff.trans hcode))) rfl

end Sequences

end LunaZTrust.Api
