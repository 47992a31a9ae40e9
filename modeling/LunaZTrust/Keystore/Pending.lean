import LunaZTrust.Keystore.Keystore

/-!
# Pending keys

`proxy/internal/keystore/pending.go`: the encrypted keys mobile devices have
uploaded, until an operator confirms or rejects them or they expire.

`Get` returns the entry itself, not a copy, and a caller may hold on to it after it
has been deleted.  What can change in an entry is its blob.  The blobs are
therefore kept beside the entries, under the entry's id, which is never used
twice: whoever holds an entry reads and overwrites its blob there.
-/

namespace LunaZTrust.Keystore

open LunaZTrust.Go

/-- The errors of the queue. -/
inductive PendingError
  | notFound
  | full
deriving DecidableEq, Repr

/-- The texts of the errors. -/
def PendingError.message : PendingError → String
  | .notFound => "pending key not found"
  | .full => "pending key queue full"

/-- `defaultPendingTTL`. -/
def defaultPendingTTL : Duration := 15 * Time.minute

/-- `maxPendingGlobal`. -/
def maxPendingGlobal : Nat := 32

/-- `maxPendingPerDevice`. -/
def maxPendingPerDevice : Nat := 4

/-- `PendingKey`, without its blob. -/
structure PendingKey where
  id : GoString
  deviceID : GoString
  label : GoString
  comment : GoString
  expiresAt : Time
deriving DecidableEq, Repr

/-- `PendingStore`, and the blobs of all entries there have been.  A count of `byDev` is
only decremented when it is positive. -/
structure PendingStore where
  entries : Map GoString PendingKey
  byDev : Map GoString Nat
  blobs : Map GoString Bytes

namespace PendingStore

/-- `NewPendingStore`. -/
def new : PendingStore := ⟨∅, ∅, ∅⟩

/-- `s.byDev[deviceID]`. -/
def countOf (s : PendingStore) (deviceID : GoString) : Nat := (AList.lookup deviceID s.byDev).getD 0

/-- The blob of an entry. -/
def blob (s : PendingStore) (id : GoString) : Bytes := (AList.lookup id s.blobs).getD []

/-- Overwrite the blob of an entry. -/
def setBlob (s : PendingStore) (id : GoString) (b : Bytes) : PendingStore :=
  { s with blobs := s.blobs.insert id b }

/-- `Add`, with the id it draws and the instant it reads. -/
def add (s : PendingStore) (deviceID label comment : GoString) (blob : Bytes) (id : GoString)
    (now : Time) : Except PendingError GoString × PendingStore :=
  if s.entries.entries.length ≥ maxPendingGlobal then (.error .full, s)
  else if s.countOf deviceID ≥ maxPendingPerDevice then (.error .full, s)
  else
    (.ok id,
      { entries := s.entries.insert id ⟨id, deviceID, label, comment, now + defaultPendingTTL⟩
        byDev := s.byDev.insert deviceID (s.countOf deviceID + 1)
        blobs := s.blobs.insert id blob })

/-- An entry deleted, and counted as such if its device has a count. -/
def drop (s : PendingStore) (id : GoString) (p : PendingKey) : PendingStore where
  entries := s.entries.erase id
  byDev :=
    if s.countOf p.deviceID > 0 then s.byDev.insert p.deviceID (s.countOf p.deviceID - 1)
    else s.byDev
  blobs := s.blobs

/-- `purgeExpiredLocked`, at the instant it reads. -/
def purgeExpiredLocked (s : PendingStore) (now : Time) : PendingStore :=
  s.entries.entries.foldl (fun s e ↦ if e.2.expiresAt < now then s.drop e.1 e.2 else s) s

/-- `Get`. -/
def get (s : PendingStore) (id : GoString) (now : Time) :
    Except PendingError PendingKey × PendingStore :=
  let s := s.purgeExpiredLocked now
  match AList.lookup id s.entries with
  | none => (.error .notFound, s)
  | some p => (.ok p, s)

/-- `Delete`. -/
def delete (s : PendingStore) (id : GoString) : Except PendingError Unit × PendingStore :=
  match AList.lookup id s.entries with
  | none => (.error .notFound, s)
  | some p => (.ok (), s.drop id p)

/-- `List`. -/
def list (s : PendingStore) (now : Time) : List PendingKey × PendingStore :=
  let s := s.purgeExpiredLocked now
  (s.entries.entries.map Sigma.snd, s)

/-- `Count`. -/
def count (s : PendingStore) (now : Time) : Nat × PendingStore :=
  let s := s.purgeExpiredLocked now
  (s.entries.entries.length, s)

/-! ## What is in the queue -/

variable {s : PendingStore} {id : GoString} {p : PendingKey}

theorem blob_setBlob (s : PendingStore) (id id' : GoString) (b : Bytes) :
    (s.setBlob id b).blob id' = if id' = id then b else s.blob id' := by
  rw [blob, setBlob, Map.lookup_insert_eq]
  split <;> rfl

/-- Purging removes exactly the entries that have expired. -/
theorem lookup_purgeExpiredLocked_eq_some_iff {now : Time} :
    AList.lookup id (s.purgeExpiredLocked now).entries = some p ↔
      AList.lookup id s.entries = some p ∧ now ≤ p.expiresAt := by
  rw [← Int.not_lt]
  refine Map.lookup_range_delete (m := entries) (P := fun e ↦ e.2.expiresAt < now) ?_
  intro s e k v
  split
  · next hexp => rw [drop, Map.lookup_erase_eq_some_iff, and_comm, and_iff_left hexp, ne_comm]
  · next hexp => exact (and_iff_left fun h ↦ hexp h.2).symm

theorem blobs_purgeExpiredLocked (s : PendingStore) (now : Time) :
    (s.purgeExpiredLocked now).blobs = s.blobs := by
  have key : ∀ (es : List (Sigma fun _ : GoString ↦ PendingKey)) (s : PendingStore),
      (es.foldl (fun s e ↦ if e.2.expiresAt < now then s.drop e.1 e.2 else s) s).blobs
        = s.blobs := by
    intro es
    induction es with
    | nil => exact fun _ ↦ rfl
    | cons e es ih =>
        intro s
        rw [List.foldl_cons, ih]
        split <;> rfl
  exact key _ s

theorem blob_purgeExpiredLocked (s : PendingStore) (id : GoString) (now : Time) :
    (s.purgeExpiredLocked now).blob id = s.blob id := by
  rw [blob, blobs_purgeExpiredLocked, blob]

theorem get_snd (s : PendingStore) (id : GoString) (now : Time) :
    (s.get id now).2 = s.purgeExpiredLocked now := by
  rw [get]
  split <;> rfl

theorem get_eq_ok_iff {now : Time} :
    (s.get id now).1 = .ok p ↔ AList.lookup id s.entries = some p ∧ now ≤ p.expiresAt := by
  rw [← lookup_purgeExpiredLocked_eq_some_iff, get]
  split
  · next h => rw [h]; exact ⟨(nomatch ·), (nomatch ·)⟩
  · next h => rw [h, Except.ok.injEq, Option.some.injEq]

theorem delete_eq_ok_iff :
    (s.delete id).1 = .ok () ↔ (AList.lookup id s.entries).isSome := by
  rw [delete]
  split
  · next h => rw [h]; exact ⟨(nomatch ·), (nomatch ·)⟩
  · next h => rw [h]; exact ⟨fun _ ↦ rfl, fun _ ↦ rfl⟩

theorem lookup_delete_eq_some_iff {id' : GoString} :
    AList.lookup id' (s.delete id).2.entries = some p ↔
      id' ≠ id ∧ AList.lookup id' s.entries = some p := by
  rw [delete]
  split
  · next h =>
      refine ⟨fun hp ↦ ⟨?_, hp⟩, And.right⟩
      rintro rfl
      exact nomatch h.symm.trans hp
  · exact Map.lookup_erase_eq_some_iff

theorem blobs_delete (s : PendingStore) (id : GoString) : (s.delete id).2.blobs = s.blobs := by
  rw [delete]
  split <;> rfl

theorem add_eq_ok {deviceID label comment id' : GoString} {b : Bytes} {now : Time}
    {q : PendingStore} (h : s.add deviceID label comment b id now = (.ok id', q)) :
    id' = id ∧
      q.entries = s.entries.insert id ⟨id, deviceID, label, comment, now + defaultPendingTTL⟩ ∧
      q.blobs = s.blobs.insert id b := by
  rw [add] at h
  split at h
  · exact nomatch h
  · split at h
    · exact nomatch h
    · obtain ⟨hid, rfl⟩ := Prod.mk.inj h
      exact ⟨(Except.ok.inj hid).symm, rfl, rfl⟩

/-- What `Add` does to the counts, within the limits. -/
theorem add_counts {deviceID label comment id' : GoString} {b : Bytes} {now : Time}
    {q : PendingStore} (h : s.add deviceID label comment b id now = (.ok id', q)) :
    s.entries.entries.length < maxPendingGlobal ∧ s.countOf deviceID < maxPendingPerDevice ∧
      q.byDev = s.byDev.insert deviceID (s.countOf deviceID + 1) := by
  rw [add] at h
  split at h
  · exact nomatch h
  · next hglobal =>
      split at h
      · exact nomatch h
      · next hdevice =>
          obtain ⟨-, rfl⟩ := Prod.mk.inj h
          exact ⟨Nat.lt_of_not_le hglobal, Nat.lt_of_not_le hdevice, rfl⟩

/-- When `Add` refuses an entry. -/
theorem add_full_iff {deviceID label comment : GoString} {b : Bytes} {now : Time} :
    (s.add deviceID label comment b id now).1 = .error .full ↔
      maxPendingGlobal ≤ s.entries.entries.length ∨ maxPendingPerDevice ≤ s.countOf deviceID := by
  rw [add]
  split
  · next h => exact iff_of_true rfl (.inl h)
  · next h =>
      split
      · next h' => exact iff_of_true rfl (.inr h')
      · next h' => exact iff_of_false (fun he ↦ by cases he) (not_or.mpr ⟨h, h'⟩)

theorem add_eq_error {deviceID label comment : GoString} {b : Bytes} {now : Time}
    {e : PendingError} {q : PendingStore}
    (h : s.add deviceID label comment b id now = (.error e, q)) : q = s := by
  rw [add] at h
  split at h
  · exact (Prod.mk.inj h).2.symm
  · split at h
    · exact (Prod.mk.inj h).2.symm
    · cases h

/-! ## What can only become less -/

/-- Entries may have gone, and that is all. -/
structure Shrinks (s t : PendingStore) : Prop where
  entries : ∀ id p, AList.lookup id t.entries = some p → AList.lookup id s.entries = some p
  blobs : t.blobs = s.blobs

theorem Shrinks.refl (s : PendingStore) : s.Shrinks s := ⟨fun _ _ h ↦ h, rfl⟩

theorem shrinks_purgeExpiredLocked (s : PendingStore) (now : Time) :
    s.Shrinks (s.purgeExpiredLocked now) where
  entries _ _ h := (lookup_purgeExpiredLocked_eq_some_iff.mp h).1
  blobs := s.blobs_purgeExpiredLocked now

theorem shrinks_delete (s : PendingStore) (id : GoString) : s.Shrinks (s.delete id).2 where
  entries _ _ h := (lookup_delete_eq_some_iff.mp h).2
  blobs := s.blobs_delete id

theorem Shrinks.lookup_eq_none {t : PendingStore} (h : s.Shrinks t)
    (hnone : AList.lookup id s.entries = none) : AList.lookup id t.entries = none :=
  Option.eq_none_iff_forall_ne_some.mpr fun p hp ↦ nomatch hnone.symm.trans (h.entries id p hp)

theorem lookup_delete_self (s : PendingStore) (id : GoString) :
    AList.lookup id (s.delete id).2.entries = none :=
  Option.eq_none_iff_forall_ne_some.mpr fun _ hp ↦ (lookup_delete_eq_some_iff.mp hp).1 rfl

end PendingStore

end LunaZTrust.Keystore
