import LunaZTrust.Keystore.Keystore
import LunaZTrust.Transition.Machine

/-!
# The lock of the keystore

After five failed passphrases the keystore refuses to decrypt anything for a quarter of an hour.
The lock is a counter and an instant (`Lock`), and what a call of `LoadPEMBytes` does to
it depends on three things only: when the call comes, when it fails, and what comes of the
decryption (`lock_load`).

A run is a sequence of calls.  Each reads the clock when it starts and, if it fails, once more;
the keystore's mutex keeps the calls apart.  `time.Now` reads instants after the zero time,
which is where the clock of a run starts.
-/

-- package `keystore` has a type `Keystore`
set_option linter.dupNamespace false

namespace LunaZTrust.Keystore

open LunaZTrust.Go LunaZTrust.Ssh LunaZTrust.Transition

variable {Key Signer : Type} (crypto : Crypto) (ssh : Package Key Signer)

/-! ## The lock -/

/-- The failures counted, and the end of the cooldown if there is one. -/
structure Lock where
  fails : Nat
  lockedUntil : Time
deriving DecidableEq, Repr

/-- The lock of a keystore. -/
def Keystore.lock (k : Keystore Signer) : Lock := ⟨k.unsealFails, k.unsealLockedUntil⟩

/-- What comes of the decryption in a call: there is none, it fails, or it gives a key. -/
inductive Decryption
  | skipped
  | failed
  | succeeded
deriving DecidableEq, Repr

namespace Lock

/-- Whether a call is in the cooldown. -/
def locked (l : Lock) (now : Time) : Bool :=
  !Time.isZero l.lockedUntil && decide (now < l.lockedUntil)

/-- The lock after `checkUnsealLock`: a cooldown that is over is forgotten. -/
def check (l : Lock) (now : Time) : Lock :=
  if !Time.isZero l.lockedUntil then if now < l.lockedUntil then l else ⟨0, Time.zero⟩ else l

/-- The lock once the decryption is over. -/
def record (l : Lock) (failedAt : Time) : Decryption → Lock
  | .skipped => l
  | .failed =>
      if l.fails + 1 ≥ maxUnsealAttempts then ⟨0, failedAt + unsealCooldown⟩
      else { l with fails := l.fails + 1 }
  | .succeeded => { l with fails := 0 }

/-- The lock after a call. -/
def attempt (l : Lock) (now failedAt : Time) (d : Decryption) : Lock :=
  if l.locked now then l else (l.check now).record failedAt d

end Lock

/-! ## Calls -/

/-- A call of `LoadPEMBytes`, with the two instants it reads. -/
structure Attempt where
  pemBytes : Bytes
  passphrase : Bytes
  comment : GoString
  mlock : Keystore.Mlock
  now : Time
  failedAt : Time
deriving DecidableEq, Repr

/-- The call, made on a keystore. -/
def Attempt.load (a : Attempt) (k : Keystore Signer) :
    Except KeystoreError GoString × Keystore Signer × Bytes :=
  k.loadPEMBytes crypto ssh a.pemBytes a.passphrase a.comment a.mlock a.now a.failedAt

/-- What comes of the decryption past the lock. -/
def Attempt.decryption (a : Attempt) : Decryption :=
  if !a.mlock.pem || !a.mlock.pass then .skipped
  else
    match Keystore.parseEncryptedPEM ssh a.pemBytes a.passphrase a.mlock.key with
    | .error _ => .failed
    | .ok _ => .succeeded

/-- The keys a keystore holds. -/
def Keystore.signers (k : Keystore Signer) : Option Signer × Option (LocalKeyPool Signer) :=
  (k.caSigner, k.pool)

section Calls

variable {crypto ssh} {k k₁ : Keystore Signer} {a : Attempt}

theorem checkUnsealLock_locked {now : Time} (h : k.lock.locked now = true) :
    k.checkUnsealLock now = (.error .unsealLocked, k) := by
  rw [Lock.locked, Bool.and_eq_true] at h
  rw [Keystore.checkUnsealLock]
  exact (if_pos h.1).trans (if_pos (of_decide_eq_true h.2))

theorem checkUnsealLock_not_locked {now : Time} (h : k.lock.locked now = false) :
    ∃ k₁, k.checkUnsealLock now = (.ok (), k₁) ∧ k₁.lock = k.lock.check now ∧
      k₁.signers = k.signers := by
  rw [Keystore.checkUnsealLock, Lock.check]
  by_cases hzero : (!Time.isZero k.unsealLockedUntil) = true
  · have hover : ¬now < k.unsealLockedUntil := by
      intro hlt
      rw [Lock.locked, Bool.and_eq_false_iff] at h
      rcases h with h | h
      · exact Bool.false_ne_true (h.symm.trans hzero)
      · exact of_decide_eq_false h hlt
    rw [if_pos hzero, if_neg hover, Keystore.lock, if_pos hzero, if_neg hover]
    exact ⟨_, rfl, rfl, rfl⟩
  · rw [if_neg hzero, Keystore.lock, if_neg hzero]
    exact ⟨k, rfl, rfl, rfl⟩

theorem lock_recordUnsealFailure (failedAt : Time) :
    (k.recordUnsealFailure failedAt).lock = k.lock.record failedAt .failed ∧
      (k.recordUnsealFailure failedAt).signers = k.signers := by
  rw [Keystore.recordUnsealFailure]
  by_cases hmax : k.unsealFails + 1 ≥ maxUnsealAttempts
  · rw [if_pos hmax]
    exact ⟨(if_pos hmax).symm, rfl⟩
  · rw [if_neg hmax]
    exact ⟨(if_neg hmax).symm, rfl⟩

variable (crypto ssh k) in
theorem lock_store (signer : Signer) (comment : GoString) :
    (k.store crypto ssh signer comment).lock = k.lock := by
  rw [Keystore.store]
  split <;> rfl

variable (ssh) in
/-- The ways a call can end, with what each leaves of the lock and of the keys. -/
inductive Attempt.Ends (a : Attempt) (k : Keystore Signer) :
    Except KeystoreError GoString × Keystore Signer × Bytes → Prop
  | locked (hlocked : k.lock.locked a.now = true) : Ends a k (.error .unsealLocked, k, a.pemBytes)
  | failed {e : KeystoreError} {k' : Keystore Signer} {zeroed : Bytes}
      (hlocked : k.lock.locked a.now = false) (hd : a.decryption ssh ≠ .succeeded)
      (he : e ≠ .unsealLocked)
      (hlock : k'.lock = (k.lock.check a.now).record a.failedAt (a.decryption ssh))
      (hsigners : k'.signers = k.signers) : Ends a k (.error e, k', zeroed)
  | loaded {fp : GoString} {k' : Keystore Signer} {zeroed : Bytes}
      (hlocked : k.lock.locked a.now = false) (hd : a.decryption ssh = .succeeded)
      (hlock : k'.lock = (k.lock.check a.now).record a.failedAt (a.decryption ssh)) :
      Ends a k (.ok fp, k', zeroed)

theorem Attempt.load_ends (a : Attempt) (k : Keystore Signer) :
    a.Ends ssh k (a.load crypto ssh k) := by
  cases hlocked : k.lock.locked a.now with
  | true =>
      rw [Attempt.load, Keystore.loadPEMBytes, checkUnsealLock_locked hlocked]
      exact .locked hlocked
  | false =>
      obtain ⟨k₁, hcheck, hlock, hsigners⟩ := checkUnsealLock_not_locked hlocked
      rw [Attempt.load, Keystore.loadPEMBytes, hcheck]
      dsimp only
      have hskipped : a.decryption ssh = .skipped → ∀ zeroed : Bytes,
          a.Ends ssh k (.error .mlock, k₁, zeroed) := fun hd zeroed ↦
        .failed hlocked (hd.trans_ne (by decide)) (by decide) (by rw [hd]; exact hlock) hsigners
      cases hpem : a.mlock.pem with
      | false => exact hskipped (by rw [Attempt.decryption, hpem]; rfl) _
      | true =>
          cases hpass : a.mlock.pass with
          | false => exact hskipped (by rw [Attempt.decryption, hpem, hpass]; rfl) _
          | true =>
              cases hparse : Keystore.parseEncryptedPEM ssh a.pemBytes a.passphrase a.mlock.key with
              | error e =>
                  have hd : a.decryption ssh = .failed := by
                    rw [Attempt.decryption, hpem, hpass, hparse]
                    rfl
                  obtain ⟨hl, hs⟩ := lock_recordUnsealFailure (k := k₁) a.failedAt
                  refine .failed hlocked (hd.trans_ne (by decide)) ?_ (by rw [hd, ← hlock, hl])
                    (hs.trans hsigners)
                  rintro rfl
                  exact Keystore.parseEncryptedPEM_ne_unsealLocked hparse
              | ok signer =>
                  have hd : a.decryption ssh = .succeeded := by
                    rw [Attempt.decryption, hpem, hpass, hparse]
                    rfl
                  have hstore := lock_store crypto ssh k₁ signer a.comment
                  refine .loaded hlocked hd ?_
                  rw [hd, ← hlock, ← hstore]
                  rfl

/-- What a call does to the lock. -/
theorem lock_load (a : Attempt) (k : Keystore Signer) :
    (a.load crypto ssh k).2.1.lock = k.lock.attempt a.now a.failedAt (a.decryption ssh) := by
  have hends : a.Ends ssh k (a.load crypto ssh k) := a.load_ends k
  generalize a.load crypto ssh k = r at hends
  rw [Lock.attempt]
  cases hends with
  | locked hlocked => rw [if_pos hlocked]
  | failed hlocked _ _ hlock => rwa [hlocked, if_neg Bool.false_ne_true]
  | loaded hlocked _ hlock => rwa [hlocked, if_neg Bool.false_ne_true]

/-- A call is refused for the lock just if it comes in the cooldown. -/
theorem load_eq_unsealLocked_iff (a : Attempt) (k : Keystore Signer) :
    (a.load crypto ssh k).1 = .error .unsealLocked ↔ k.lock.locked a.now = true := by
  have hends : a.Ends ssh k (a.load crypto ssh k) := a.load_ends k
  generalize a.load crypto ssh k = r at hends
  cases hends with
  | locked hlocked => exact iff_of_true rfl hlocked
  | failed hlocked _ he =>
      exact iff_of_false (fun h ↦ he (Except.error.inj h)) (hlocked.trans_ne Bool.false_ne_true)
  | loaded hlocked =>
      exact iff_of_false (fun h ↦ by cases h) (hlocked.trans_ne Bool.false_ne_true)

/-- A call that fails leaves the keys as they are. -/
theorem signers_load_of_error {e : KeystoreError} (h : (a.load crypto ssh k).1 = .error e) :
    (a.load crypto ssh k).2.1.signers = k.signers := by
  have hends : a.Ends ssh k (a.load crypto ssh k) := a.load_ends k
  generalize a.load crypto ssh k = r at hends h ⊢
  cases hends with
  | locked => rfl
  | failed _ _ _ _ hsigners => exact hsigners
  | loaded => cases h

/-- A call in the cooldown does nothing, whatever the key and the passphrase are: no package gets
to see them, and the caller's bytes stay. -/
theorem load_of_locked (h : k.lock.locked a.now = true) :
    a.load crypto ssh k = (.error .unsealLocked, k, a.pemBytes) := by
  rw [Attempt.load, Keystore.loadPEMBytes, checkUnsealLock_locked h]

end Calls

/-! ### Locks that cannot be told apart

From some instant on, a lock and one that `checkUnsealLock` has left behind are the same. -/

namespace Lock

variable {l l' : Lock} {clock now failedAt : Time} {d : Decryption}

theorem check_eq (l : Lock) (now : Time) :
    l.check now =
      if Time.isZero l.lockedUntil = false ∧ l.lockedUntil ≤ now then ⟨0, Time.zero⟩ else l := by
  rw [check]
  cases hzero : Time.isZero l.lockedUntil with
  | true => exact (if_neg fun h ↦ by cases h.1).symm
  | false =>
      by_cases hlt : now < l.lockedUntil
      · exact (if_pos hlt).trans (if_neg fun h ↦ Int.not_le.mpr hlt h.2).symm
      · exact (if_neg hlt).trans (if_pos ⟨rfl, Int.not_lt.mp hlt⟩).symm

theorem check_zero (now : Time) : (⟨0, Time.zero⟩ : Lock).check now = ⟨0, Time.zero⟩ := rfl

/-- A check makes no difference to a later one. -/
theorem check_check (l : Lock) (h : clock ≤ now) : (l.check clock).check now = l.check now := by
  rw [l.check_eq clock]
  split
  · next hover =>
      rw [check_zero, check_eq, if_pos ⟨hover.1, Int.le_trans hover.2 h⟩]
  · rfl

theorem check_congr (h : l.check clock = l'.check clock) (hle : clock ≤ now) :
    l.check now = l'.check now := by
  rw [← l.check_check hle, ← l'.check_check hle, h]

/-- Nor to a later call. -/
theorem locked_check (l : Lock) (h : clock ≤ now) : (l.check clock).locked now = l.locked now := by
  rw [l.check_eq clock]
  split
  · next hover =>
      rw [locked, locked, decide_eq_false (Int.not_lt.mpr (Int.le_trans hover.2 h)),
        Bool.and_false]
      rfl
  · rfl

/-- Locks that are the same from an instant on are so after the same call. -/
theorem check_attempt_congr (h : l.check clock = l'.check clock) (hle : clock ≤ now)
    (failedAt : Time) (d : Decryption) :
    l.locked now = l'.locked now ∧
      (l.attempt now failedAt d).check now = (l'.attempt now failedAt d).check now := by
  have hlocked : l.locked now = l'.locked now := by
    rw [← l.locked_check hle, ← l'.locked_check hle, h]
  refine ⟨hlocked, ?_⟩
  rw [attempt, attempt, hlocked, check_congr h hle]
  split
  · exact check_congr h hle
  · rfl

/-- A call that decrypts nothing, or loads a key while no failure is counted, leaves the same
lock. -/
theorem check_attempt_of_unseen
    (h : l.locked now = true ∨ d = .skipped ∨ d = .succeeded ∧ (l.check now).fails = 0) :
    (l.attempt now failedAt d).check now = l.check now := by
  rw [attempt]
  split
  · rfl
  · next hlocked =>
      have hrecord : (l.check now).record failedAt d = l.check now := by
        rcases h with h | rfl | ⟨rfl, hfails⟩
        · exact absurd h hlocked
        · rfl
        · rw [record, ← hfails]
      rw [hrecord, check_check l (Int.le_refl now)]

/-- A failure where the lock is open and the count not full. -/
theorem attempt_failed (hzero : Time.isZero l.lockedUntil = true)
    (h : l.fails + 1 < maxUnsealAttempts) :
    l.attempt now failedAt .failed = { l with fails := l.fails + 1 } := by
  rw [attempt, locked, hzero, check, hzero]
  exact if_neg (Nat.not_le.mpr h)

/-- The last failure that is allowed. -/
theorem attempt_failed_full (hzero : Time.isZero l.lockedUntil = true)
    (h : maxUnsealAttempts ≤ l.fails + 1) :
    l.attempt now failedAt .failed = ⟨0, failedAt + unsealCooldown⟩ := by
  rw [attempt, locked, hzero, check, hzero]
  exact if_pos h

end Lock

/-! ## Runs -/

/-- A call that has been made. -/
structure Attempted where
  attempt : Attempt
  result : Except KeystoreError GoString
  decryption : Decryption

/-- The call as a run records it. -/
def Attempt.made (a : Attempt) (k : Keystore Signer) : Attempted where
  attempt := a
  result := (a.load crypto ssh k).1
  decryption := if k.lock.locked a.now then .skipped else a.decryption ssh

/-- Calls one after the other, on a new keystore. -/
def calls (mode : Mode) : Machine (Keystore Signer × Time) Attempt Attempted where
  start := (.newWithMode mode, Time.zero)
  step s a :=
    if s.2 ≤ a.now ∧ a.now ≤ a.failedAt then
      some (((a.load crypto ssh s.1).2.1, a.failedAt), [a.made crypto ssh s.1])
    else none

/-- The failures since the last success, after one more call. -/
def countFailure (fs : List Attempt) (e : Attempted) : List Attempt :=
  match e.decryption with
  | .skipped => fs
  | .failed => fs ++ [e.attempt]
  | .succeeded => []

/-- The failures since the last success. -/
def failures (log : List Attempted) : List Attempt := log.foldl countFailure []

/-- The lock against the failures since the last success.  The last of them are counted; those
before are a cooldown ago, or are so when the lock opens. -/
structure Lock.Counts (l : Lock) (clock : Time) (fs : List Attempt) : Prop where
  zero_le : Time.zero ≤ clock
  fails_lt : l.fails < maxUnsealAttempts
  past : ∀ a ∈ fs, a.failedAt ≤ clock
  cooled : Time.isZero l.lockedUntil = true →
    ∀ a ∈ fs.take (fs.length - l.fails), a.failedAt + unsealCooldown ≤ clock
  cooling : Time.isZero l.lockedUntil = false →
    l.fails = 0 ∧ ∀ a ∈ fs, a.failedAt + unsealCooldown ≤ l.lockedUntil

namespace Lock

variable {l : Lock} {clock now failedAt : Time} {fs : List Attempt}

theorem maxUnsealAttempts_pos : 0 < maxUnsealAttempts := by decide

theorem counts_new : (⟨0, Time.zero⟩ : Lock).Counts Time.zero [] where
  zero_le := Int.le_refl _
  fails_lt := maxUnsealAttempts_pos
  past := List.forall_mem_nil _
  cooled _ := List.forall_mem_nil _
  cooling h := by cases h

theorem Counts.later (h : l.Counts clock fs) (hle : clock ≤ now) : l.Counts now fs where
  zero_le := Int.le_trans h.zero_le hle
  fails_lt := h.fails_lt
  past a ha := Int.le_trans (h.past a ha) hle
  cooled hzero a ha := Int.le_trans (h.cooled hzero a ha) hle
  cooling := h.cooling

/-- Past the lock, no cooldown is left. -/
theorem Counts.check (h : l.Counts now fs) (hlocked : l.locked now = false) :
    (l.check now).Counts now fs ∧ Time.isZero (l.check now).lockedUntil = true := by
  rw [Lock.check]
  cases hzero : Time.isZero l.lockedUntil with
  | true => exact ⟨h, hzero⟩
  | false =>
      obtain ⟨-, hcooling⟩ := h.cooling hzero
      have hover : ¬now < l.lockedUntil := by
        intro hlt
        rw [Lock.locked, hzero, decide_eq_true hlt] at hlocked
        cases hlocked
      rw [if_neg hover]
      refine ⟨⟨h.zero_le, maxUnsealAttempts_pos, h.past, fun _ a ha ↦ ?_, fun hz ↦ by cases hz⟩,
        rfl⟩
      exact Int.le_trans (hcooling a (List.mem_of_mem_take ha)) (Int.not_lt.mp hover)

/-- Where no cooldown is left, all failures but the last four are a cooldown ago. -/
theorem Counts.cooled_take (h : l.Counts now fs) (hzero : Time.isZero l.lockedUntil = true) :
    ∀ a ∈ fs.take (fs.length - (maxUnsealAttempts - 1)), a.failedAt + unsealCooldown ≤ now := by
  intro a ha
  refine h.cooled hzero a ((List.take_sublist_take_left ?_).subset ha)
  exact Nat.sub_le_sub_left (Nat.le_pred_of_lt h.fails_lt) _

/-- A failure is counted, or the count is full and the lock closes. -/
theorem Counts.failed (h : l.Counts now fs) (hzero : Time.isZero l.lockedUntil = true)
    {a : Attempt} (hle : now ≤ a.failedAt) :
    (l.record a.failedAt .failed).Counts a.failedAt (fs ++ [a]) := by
  have hpast : ∀ b ∈ fs ++ [a], b.failedAt ≤ a.failedAt := by
    intro b hb
    rcases List.mem_append.mp hb with hb | hb
    · exact Int.le_trans (h.past b hb) hle
    · rw [List.mem_singleton.mp hb]
  have hzero' := Int.le_trans h.zero_le hle
  rw [Lock.record]
  split
  · refine ⟨hzero', maxUnsealAttempts_pos, hpast, fun hz ↦ ?_, fun _ ↦ ⟨rfl, fun b hb ↦ ?_⟩⟩
    · -- the end of a cooldown is after the zero time
      have hlt : Time.zero < a.failedAt + unsealCooldown :=
        Int.lt_of_le_of_lt hzero' (Int.lt_add_of_pos_right _ (by decide))
      exact absurd (beq_iff_eq.mp hz) (Int.ne_of_gt hlt)
    · exact Int.add_le_add_right (hpast b hb) _
  · next hmax =>
      refine ⟨hzero', Nat.lt_of_not_le hmax, hpast, fun _ b hb ↦ ?_, fun hz ↦ ?_⟩
      · rw [List.length_append, List.length_singleton, Nat.add_sub_add_right,
          List.take_append_of_le_length (Nat.sub_le _ _)] at hb
        exact Int.le_trans (h.cooled hzero b hb) hle
      · exact absurd (hzero.symm.trans hz) (by decide)

/-- A success starts the count again. -/
theorem Counts.succeeded (h : l.Counts now fs) (hzero : Time.isZero l.lockedUntil = true) :
    (l.record failedAt .succeeded).Counts now [] where
  zero_le := h.zero_le
  fails_lt := maxUnsealAttempts_pos
  past := List.forall_mem_nil _
  cooled _ := List.forall_mem_nil _
  cooling hz := absurd (hzero.symm.trans hz) (by decide)

end Lock

section Runs

variable {crypto ssh} {k : Keystore Signer} {a : Attempt} {clock : Time} {fs : List Attempt}
  {mode : Mode} {as : List Attempt} {log : List Attempted}

/-- **Step.**  The count goes on. -/
theorem Lock.Counts.made (h : k.lock.Counts clock fs) (hle : clock ≤ a.now)
    (hle' : a.now ≤ a.failedAt) :
    (a.load crypto ssh k).2.1.lock.Counts a.failedAt
      (countFailure fs (a.made crypto ssh k)) := by
  rw [lock_load, Lock.attempt, countFailure, Attempt.made]
  dsimp only
  cases hlocked : k.lock.locked a.now with
  | true =>
      rw [if_pos rfl, if_pos rfl]
      exact h.later (Int.le_trans hle hle')
  | false =>
      rw [if_neg Bool.false_ne_true, if_neg Bool.false_ne_true]
      obtain ⟨hcounts, hzero⟩ := (h.later hle).check hlocked
      cases a.decryption ssh with
      | skipped => exact hcounts.later hle'
      | failed => exact hcounts.failed hzero hle'
      | succeeded => exact (hcounts.succeeded hzero).later hle'

/-- **Step.**  A decryption that fails has all failures but the last four a cooldown behind it. -/
theorem Lock.Counts.cooled_of_failed (h : k.lock.Counts clock fs) (hle : clock ≤ a.now)
    (hfailed : (a.made crypto ssh k).decryption = .failed) :
    ∀ b ∈ fs.take (fs.length - (maxUnsealAttempts - 1)),
      b.failedAt + unsealCooldown ≤ a.now := by
  rw [Attempt.made] at hfailed
  dsimp only at hfailed
  cases hlocked : k.lock.locked a.now with
  | true =>
      rw [hlocked, if_pos rfl] at hfailed
      cases hfailed
  | false =>
      obtain ⟨hcounts, hzero⟩ := (h.later hle).check hlocked
      exact hcounts.cooled_take hzero

theorem made_succeeded (h : (a.made crypto ssh k).decryption = .succeeded) :
    ∃ fp, (a.made crypto ssh k).result = .ok fp := by
  have hends : a.Ends ssh k (a.load crypto ssh k) := a.load_ends k
  rw [Attempt.made] at h ⊢
  dsimp only at h ⊢
  generalize a.load crypto ssh k = r at hends
  cases hends with
  | locked hlocked =>
      rw [hlocked, if_pos rfl] at h
      cases h
  | failed hlocked hd =>
      rw [hlocked, if_neg Bool.false_ne_true] at h
      exact absurd h hd
  | loaded => exact ⟨_, rfl⟩

theorem calls_step_iff {s t : Keystore Signer × Time} {es : List Attempted} :
    (calls crypto ssh mode).step s a = some (t, es) ↔
      (s.2 ≤ a.now ∧ a.now ≤ a.failedAt) ∧ t = ((a.load crypto ssh s.1).2.1, a.failedAt) ∧
        es = [a.made crypto ssh s.1] := by
  rw [calls, Option.ite_none_right_eq_some, Option.some.injEq, Prod.mk.injEq, @eq_comm _ t,
    @eq_comm _ es]

theorem failures_concat (log : List Attempted) (e : Attempted) :
    failures (log ++ [e]) = countFailure (failures log) e := by
  rw [failures, List.foldl_append]
  rfl

theorem Lock.Counts.step {s t : Keystore Signer × Time} {es : List Attempted}
    (h : s.1.lock.Counts s.2 (failures log))
    (hstep : (calls crypto ssh mode).step s a = some (t, es)) :
    t.1.lock.Counts t.2 (failures (log ++ es)) := by
  obtain ⟨⟨hle, hle'⟩, rfl, rfl⟩ := calls_step_iff.mp hstep
  rw [failures_concat]
  exact h.made hle hle'

/-- What the calls before a call tell about it. -/
structure Cooled (pre : List Attempted) (e : Attempted) : Prop where
  failed : e.decryption = .failed →
    ∀ b ∈ (failures pre).take ((failures pre).length - (maxUnsealAttempts - 1)),
      b.failedAt + unsealCooldown ≤ e.attempt.now
  succeeded : e.decryption = .succeeded → ∃ fp, e.result = .ok fp

/-- **Run.** -/
theorem exec_cooled {t : Keystore Signer × Time}
    (h : (calls crypto ssh mode).exec as = some (t, log)) : Along Cooled log := by
  refine (calls crypto ssh mode).exec_along
    (P := fun s log ↦ s.1.lock.Counts s.2 (failures log)) Lock.counts_new
    (fun s log a t es hcounts hstep ↦ hcounts.step hstep) ?_ h
  intro s log a t es hcounts hstep
  obtain ⟨⟨hle, hle'⟩, rfl, rfl⟩ := calls_step_iff.mp hstep
  exact along_singleton (Q := Cooled) ⟨hcounts.cooled_of_failed hle, made_succeeded⟩

/-- Without a success, failures are only added. -/
theorem failures_append {log' : List Attempted} (h : ∀ e ∈ log', e.decryption ≠ .succeeded) :
    failures (log ++ log') =
      failures log ++ (log'.filter fun e ↦ decide (e.decryption = .failed)).map
        Attempted.attempt := by
  induction log' using List.reverseRecOn with
  | nil => rw [List.append_nil, List.filter_nil, List.map_nil, List.append_nil]
  | append_singleton log' e ih =>
      rw [List.forall_mem_append, List.forall_mem_singleton] at h
      rw [← List.append_assoc, failures_concat, ih h.1, List.filter_append, List.map_append,
        ← List.append_assoc, List.filter_cons, countFailure]
      cases he : e.decryption with
      | skipped => exact (List.append_nil _).symm
      | failed => rfl
      | succeeded => exact absurd he h.2

/-- What has so many after it is not among the last so many. -/
theorem mem_take_of_length_le {xs ys : List Attempt} (x : Attempt) {n : Nat} (h : n ≤ ys.length) :
    x ∈ (xs ++ x :: ys).take ((xs ++ x :: ys).length - n) := by
  have hlength : (xs ++ x :: ys).length - n - xs.length = ys.length - n + 1 := by
    rw [List.length_append, List.length_cons]
    omega
  rw [List.take_append, hlength, List.take_succ_cons]
  exact List.mem_append_right _ List.mem_cons_self

/-- **The lockout.**  Six failed decryptions with no key loaded between them take a quarter of an
hour at least, from when the first has failed to when the last starts.  A call in the cooldown does
nothing at all, whatever package would do the decryption.  A call that fails leaves the
keys as they are. -/
theorem unseal_lockout (h : (calls crypto ssh mode).exec as = some ((k, clock), log)) :
    (∀ pre first inner last post, log = pre ++ first :: (inner ++ last :: post) →
      first.decryption = .failed → last.decryption = .failed →
      maxUnsealAttempts + 1 ≤
        (first :: (inner ++ [last])).countP (fun e ↦ decide (e.decryption = .failed)) →
      (∀ e ∈ inner, ∀ fp, e.result ≠ .ok fp) →
        first.attempt.failedAt + unsealCooldown ≤ last.attempt.now) ∧
    (∀ a : Attempt, Time.isZero k.unsealLockedUntil = false → a.now < k.unsealLockedUntil →
      ∀ ssh' : Package Key Signer,
        a.load crypto ssh' k = (.error .unsealLocked, k, a.pemBytes)) ∧
    ∀ (a : Attempt) (e : KeystoreError), (a.load crypto ssh k).1 = .error e →
      (a.load crypto ssh k).2.1.signers = k.signers := by
  refine ⟨?_, ?_, fun a e he ↦ signers_load_of_error he⟩
  · intro pre first inner last post hlog hfirst hlast hcount hresult
    have halong := exec_cooled h
    have hinner : ∀ e ∈ inner, e.decryption ≠ .succeeded := by
      intro e he hsucceeded
      obtain ⟨before, after, rfl⟩ := List.append_of_mem he
      obtain ⟨fp, hfp⟩ := (halong (pre ++ first :: before) e (after ++ last :: post) (by
        rw [hlog]; simp only [List.append_assoc, List.cons_append])).succeeded hsucceeded
      exact hresult e he fp hfp
    have hcooled := (halong (pre ++ first :: inner) last post (by
      rw [hlog, List.append_assoc, List.cons_append])).failed hlast
    refine hcooled first.attempt ?_
    rw [failures_append (List.forall_mem_cons.mpr ⟨hfirst.trans_ne (by decide), hinner⟩),
      List.filter_cons, if_pos (decide_eq_true hfirst), List.map_cons]
    refine mem_take_of_length_le _ ?_
    rw [List.countP_cons, if_pos (decide_eq_true hfirst), List.countP_append,
      List.countP_singleton, if_pos (decide_eq_true hlast)] at hcount
    rw [List.length_map, ← List.countP_eq_length_filter]
    omega
  · intro a hzero hnow ssh'
    refine load_of_locked ?_
    rw [Lock.locked, Keystore.lock, hzero, decide_eq_true hnow]
    rfl

end Runs

/-- A package that decrypts with the right passphrase only. -/
def guarded : Package Bytes Bytes :=
  { Package.plain with
    parseRawPrivateKeyWithPassphrase := fun pem pass ↦
      if pass = str "right" then some (.ed25519 (some pem)) else none }

/-- A passphrase tried at an instant, which takes no time. -/
def tryAt (pass : String) (now : Time) : Attempt :=
  ⟨str "pem", str pass, [], ⟨true, true, true⟩, now, now⟩

/-- A wrong passphrase tried five times, once more in the cooldown, and when that is over. -/
def sixGuesses : List Attempt :=
  [0, 1, 2, 3, 4, 10, 19].map fun n : Int ↦ tryAt "wrong" (n * Time.minute)

/-- The sixth decryption waits for the end of the cooldown. -/
theorem unseal_lockout_sixGuesses :
    ∃ k clock first inner last,
      (calls Crypto.plain guarded .localKey).exec sixGuesses =
        some ((k, clock), first :: (inner ++ [last])) ∧
      (first :: (inner ++ [last])).map Attempted.decryption =
        .failed :: ([.failed, .failed, .failed, .failed, .skipped] ++ [.failed]) ∧
      first.attempt.failedAt + unsealCooldown ≤ last.attempt.now := by
  have hrun : ((calls Crypto.plain guarded .localKey).exec sixGuesses).map
      (fun t ↦ (t.2.map Attempted.decryption, t.2.all fun e ↦ e.result.toOption.isNone)) =
        some (.failed :: ([.failed, .failed, .failed, .failed, .skipped] ++ [.failed]), true) := by
    decide +kernel
  obtain ⟨⟨⟨k, clock⟩, log⟩, hexec, hlog⟩ := Option.map_eq_some_iff.mp hrun
  obtain ⟨hdecryption, hresult⟩ := Prod.mk.inj hlog
  dsimp only at hdecryption hresult
  cases log with
  | nil => cases hdecryption
  | cons first rest =>
      rcases List.eq_nil_or_concat' rest with rfl | ⟨inner, last, rfl⟩
      · cases (List.cons.inj hdecryption).2
      refine ⟨k, clock, first, inner, last, hexec, hdecryption, ?_⟩
      have hcount : maxUnsealAttempts + 1 ≤ (first :: (inner ++ [last])).countP
          (fun e ↦ decide (e.decryption = .failed)) := by
        have h := congrArg (List.countP fun d ↦ decide (d = Decryption.failed)) hdecryption
        rw [List.countP_map] at h
        exact h.ge
      rw [List.map_cons, List.map_append, List.cons.injEq, List.map_singleton] at hdecryption
      have hlast := (List.append_inj' hdecryption.2 rfl).2
      refine (unseal_lockout hexec).1 [] first inner last [] rfl hdecryption.1
        (List.cons.inj hlast).1 hcount fun e he fp hfp ↦ ?_
      have hnone := List.all_eq_true.mp hresult e
        (List.mem_cons_of_mem _ (List.mem_append_left _ he))
      rw [hfp] at hnone
      cases hnone

end LunaZTrust.Keystore
