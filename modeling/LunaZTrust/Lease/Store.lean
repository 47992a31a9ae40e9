import LunaZTrust.Go.Map
import LunaZTrust.Go.Strings
import LunaZTrust.Go.Time

/-!
# Session leases

`proxy/internal/lease`: an approval leaves a lease behind, and a later sign
request that agrees with it in six fields is served without asking again.  The
store keeps the leases under their full keys (with the approver) and an index
from lookup keys (without) to full keys.

Go iterates over an index bucket in no particular order.  The order decides
which of two leases that expire at the same instant `FindActive` returns, and
so only the approver in its result, which no caller reads.
-/

namespace LunaZTrust.Lease

open LunaZTrust.Go

/-- `LookupKey`: the six fields a sign request has to share with a lease. -/
structure LookupKey where
  clientCertFP : GoString
  targetUser : GoString
  targetIP : GoString
  sourceIP : GoString
  hostKeyFingerprint : GoString
  destinationHostKeyFingerprint : GoString
deriving DecidableEq, Repr

/-- `FullKey`. -/
structure FullKey extends LookupKey where
  approver : GoString
deriving DecidableEq, Repr

/-- `NewFullKey`. -/
def newFullKey (lookup : LookupKey) (approver : GoString) : FullKey := ⟨lookup, approver⟩

/-- `FormatApproverChatID`. -/
def formatApproverChatID (chatID : Int) : GoString := str "telegram:" ++ Strconv.formatInt chatID

/-- `FormatApproverDeviceID`. -/
def formatApproverDeviceID (deviceID : GoString) : GoString := str "device:" ++ deviceID

/-- `ActiveLease`. -/
structure ActiveLease where
  approver : GoString
  expiresAt : Time
deriving DecidableEq, Repr

/-- `Remaining`, at the instant `time.Until` reads. -/
def ActiveLease.remaining (l : ActiveLease) (now : Time) : Duration :=
  if l.expiresAt - now < 0 then 0 else l.expiresAt - now

/-- `Store`.  A bucket of the index is a set of full keys. -/
structure Store where
  leases : Map FullKey ActiveLease
  byLookup : Map LookupKey (List FullKey)

namespace Store

/-- `NewStore`. -/
def new : Store := ⟨∅, ∅⟩

/-- The bucket of a lookup key; a missing one is empty. -/
def bucket (s : Store) (lookup : LookupKey) : List FullKey :=
  (AList.lookup lookup s.byLookup).getD []

/-- `deleteLocked`. -/
def deleteLocked (s : Store) (full : FullKey) : Store where
  leases := s.leases.erase full
  byLookup :=
    match AList.lookup full.toLookupKey s.byLookup with
    | none => s.byLookup
    | some bucket =>
        if bucket.erase full = [] then s.byLookup.erase full.toLookupKey
        else s.byLookup.insert full.toLookupKey (bucket.erase full)

/-- The loop of `purgeExpired`, over some of the leases. -/
def purge (now : Time) (s : Store) (ls : List (Sigma fun _ : FullKey ↦ ActiveLease)) : Store :=
  ls.foldl (fun s l ↦ if l.2.expiresAt < now then s.deleteLocked l.1 else s) s

/-- `purgeExpired`, at the instant it reads. -/
def purgeExpired (s : Store) (now : Time) : Store := s.purge now s.leases.entries

/-- `Put`. -/
def put (s : Store) (key : FullKey) (expiresAt : Time) : Store where
  leases := s.leases.insert key ⟨key.approver, expiresAt⟩
  byLookup := s.byLookup.insert key.toLookupKey ((s.bucket key.toLookupKey).insert key)

/-- One round of the loop of `FindActive`. -/
def consider (s : Store) (now : Time) (best : Option ActiveLease) (full : FullKey) :
    Option ActiveLease :=
  match AList.lookup full s.leases with
  | none => best
  | some l =>
      if l.expiresAt < now then best
      else
        match best with
        | none => some l
        | some b => if b.expiresAt < l.expiresAt then some l else some b

/-- `FindActive`, at the instant it reads. -/
def findActive (s : Store) (now : Time) (lookup : LookupKey) : Option ActiveLease :=
  (s.bucket lookup).foldl (s.consider now) none

/-! ## What the store holds -/

@[simp] theorem lookup_put (s : Store) (key full : FullKey) (expiresAt : Time) :
    AList.lookup full (s.put key expiresAt).leases =
      if full = key then some ⟨key.approver, expiresAt⟩ else AList.lookup full s.leases :=
  Map.lookup_insert_eq _ _ _ _

@[simp] theorem lookup_deleteLocked (s : Store) (key full : FullKey) :
    AList.lookup full (s.deleteLocked key).leases =
      if full = key then none else AList.lookup full s.leases :=
  Map.lookup_erase_eq _ _ _

theorem bucket_put (s : Store) (key : FullKey) (expiresAt : Time) (lookup : LookupKey) :
    (s.put key expiresAt).bucket lookup =
      if lookup = key.toLookupKey then (s.bucket lookup).insert key else s.bucket lookup := by
  rw [bucket, put, Map.lookup_insert_eq]
  by_cases h : lookup = key.toLookupKey
  · rw [if_pos h, if_pos h, h]
    rfl
  · rw [if_neg h, if_neg h, bucket]

theorem bucket_deleteLocked (s : Store) (full : FullKey) (lookup : LookupKey) :
    (s.deleteLocked full).bucket lookup =
      if lookup = full.toLookupKey then (s.bucket lookup).erase full else s.bucket lookup := by
  rw [bucket, bucket, deleteLocked]
  cases hb : AList.lookup full.toLookupKey s.byLookup with
  | none =>
      by_cases h : lookup = full.toLookupKey
      · rw [if_pos h, h, hb]
        rfl
      · rw [if_neg h]
  | some bucket =>
      by_cases hnil : bucket.erase full = []
      · simp only [hnil, if_true, Map.lookup_erase_eq]
        by_cases h : lookup = full.toLookupKey
        · rw [if_pos h, if_pos h, h, hb, Option.getD_some, hnil, Option.getD_none]
        · rw [if_neg h, if_neg h]
      · simp only [hnil, if_false, Map.lookup_insert_eq]
        by_cases h : lookup = full.toLookupKey
        · rw [if_pos h, if_pos h, h, hb, Option.getD_some, Option.getD_some]
        · rw [if_neg h, if_neg h]

/-- The index is one: a bucket holds exactly the full keys of its lookup key that
have a lease. -/
structure Indexed (s : Store) : Prop where
  mem_bucket_iff : ∀ lookup full, full ∈ s.bucket lookup ↔
    full.toLookupKey = lookup ∧ (AList.lookup full s.leases).isSome
  nodup : ∀ lookup, (s.bucket lookup).Nodup

theorem indexed_new : new.Indexed := by
  refine ⟨fun lookup full ↦ ⟨(nomatch ·), fun h ↦ nomatch h.2⟩, fun lookup ↦ List.nodup_nil⟩

theorem Indexed.put {s : Store} (h : s.Indexed) (key : FullKey) (expiresAt : Time) :
    (s.put key expiresAt).Indexed := by
  constructor
  · intro lookup full
    rw [bucket_put, lookup_put]
    by_cases hl : lookup = key.toLookupKey
    · rw [if_pos hl, List.mem_insert_iff, h.mem_bucket_iff]
      by_cases hf : full = key
      · rw [if_pos hf]
        exact ⟨fun _ ↦ ⟨hf ▸ hl.symm, rfl⟩, fun _ ↦ Or.inl hf⟩
      · rw [if_neg hf]
        exact ⟨fun h ↦ h.resolve_left hf, Or.inr⟩
    · rw [if_neg hl, h.mem_bucket_iff]
      refine and_congr_right fun hlookup ↦ ?_
      have hf : full ≠ key := fun hf ↦ hl (hf ▸ hlookup.symm)
      rw [if_neg hf]
  · intro lookup
    rw [bucket_put]
    split
    · exact (h.nodup lookup).insert
    · exact h.nodup lookup

theorem Indexed.deleteLocked {s : Store} (h : s.Indexed) (key : FullKey) :
    (s.deleteLocked key).Indexed := by
  constructor
  · intro lookup full
    rw [bucket_deleteLocked, lookup_deleteLocked]
    by_cases hf : full = key
    · rw [if_pos hf]
      refine ⟨fun hmem ↦ ?_, fun h ↦ nomatch h.2⟩
      by_cases hl : lookup = key.toLookupKey
      · rw [if_pos hl, hf] at hmem
        exact absurd hmem (h.nodup lookup).not_mem_erase
      · rw [if_neg hl, h.mem_bucket_iff] at hmem
        exact absurd (hf ▸ hmem.1.symm) hl
    · rw [if_neg hf]
      by_cases hl : lookup = key.toLookupKey
      · rw [if_pos hl, List.mem_erase_of_ne hf, h.mem_bucket_iff]
      · rw [if_neg hl, h.mem_bucket_iff]
  · intro lookup
    rw [bucket_deleteLocked]
    split
    · exact (h.nodup lookup).erase key
    · exact h.nodup lookup

/-! ### Purging -/

theorem Indexed.purge {s : Store} (h : s.Indexed) (now : Time)
    (ls : List (Sigma fun _ : FullKey ↦ ActiveLease)) : (s.purge now ls).Indexed := by
  induction ls generalizing s with
  | nil => exact h
  | cons l ls ih =>
      rw [Store.purge, List.foldl_cons]
      split
      · exact ih (h.deleteLocked l.1)
      · exact ih h

theorem Indexed.purgeExpired {s : Store} (h : s.Indexed) (now : Time) :
    (s.purgeExpired now).Indexed := h.purge now _

/-- Purging removes exactly the leases that have expired. -/
theorem lookup_purgeExpired_eq_some_iff {s : Store} {now : Time} {full : FullKey}
    {l : ActiveLease} :
    AList.lookup full (s.purgeExpired now).leases = some l ↔
      AList.lookup full s.leases = some l ∧ now ≤ l.expiresAt := by
  rw [← Int.not_lt]
  refine Map.lookup_range_delete (m := leases) (P := fun l ↦ l.2.expiresAt < now) ?_
  intro s l k v
  split
  · next hexp =>
      rw [deleteLocked, Map.lookup_erase_eq_some_iff, and_comm, and_iff_left hexp, ne_comm]
  · next hexp => exact (and_iff_left fun h ↦ hexp h.2).symm

/-! ### Looking up -/

theorem consider_eq_some {s : Store} {now : Time} {best : Option ActiveLease} {full : FullKey}
    {l : ActiveLease} (h : s.consider now best full = some l) :
    best = some l ∨ AList.lookup full s.leases = some l ∧ now ≤ l.expiresAt := by
  rw [consider] at h
  split at h
  · exact Or.inl h
  · next l' hl' =>
      split at h
      · exact Or.inl h
      · next hexp =>
          split at h
          · obtain rfl := Option.some.inj h
            exact Or.inr ⟨hl', Int.not_lt.mp hexp⟩
          · split at h
            · obtain rfl := Option.some.inj h
              exact Or.inr ⟨hl', Int.not_lt.mp hexp⟩
            · exact Or.inl h

/-- What is found comes from the full keys that have been searched. -/
theorem foldl_consider_eq_some {s : Store} {now : Time} {fulls : List FullKey}
    {best : Option ActiveLease} {l : ActiveLease}
    (h : fulls.foldl (s.consider now) best = some l) :
    best = some l ∨ ∃ full ∈ fulls, AList.lookup full s.leases = some l ∧ now ≤ l.expiresAt := by
  induction fulls generalizing best with
  | nil => exact Or.inl h
  | cons full fulls ih =>
      rcases ih h with hc | ⟨full', hmem, hfull'⟩
      · rcases consider_eq_some hc with hbest | hfull
        · exact Or.inl hbest
        · exact Or.inr ⟨full, List.mem_cons_self, hfull⟩
      · exact Or.inr ⟨full', List.mem_cons_of_mem _ hmem, hfull'⟩

/-- What `FindActive` returns is an unexpired lease under a full key with the
lookup key it was asked for. -/
theorem Indexed.findActive_eq_some {s : Store} (h : s.Indexed) {now : Time} {lookup : LookupKey}
    {l : ActiveLease} (hl : s.findActive now lookup = some l) :
    ∃ full : FullKey, full.toLookupKey = lookup ∧ AList.lookup full s.leases = some l ∧
      now ≤ l.expiresAt := by
  rcases foldl_consider_eq_some hl with hnone | ⟨full, hmem, hfull⟩
  · cases hnone
  · exact ⟨full, ((h.mem_bucket_iff lookup full).mp hmem).1, hfull⟩

end Store

end LunaZTrust.Lease
