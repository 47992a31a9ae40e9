import LunaZTrust.Keystore.Pending
import LunaZTrust.Transition.Object

/-!
# The counts of the pending queue

`PendingStore` of `proxy/internal/keystore/pending.go` counts the entries of each device beside the
entries, and keeps the counts by hand: `Add` increments one, `Delete` and each round of
`purgeExpiredLocked` decrement one, if it is positive.  In every run they are right
(`pending_bookkeeping`), so the decrements are never left out.

Go iterates over the entries in any order, so what is said of a purge is said for every
order of them.
-/

namespace LunaZTrust.Keystore.PendingStore

open LunaZTrust.Go LunaZTrust.Transition

/-! ## The queue and its calls -/

/-- The calls of the queue.  `Add` is given the id it draws. -/
inductive Call
  | add (deviceID label comment : GoString) (blob : Bytes) (id : GoString)
  | get (id : GoString)
  | delete (id : GoString)
  | list
  | count
deriving DecidableEq, Repr

/-- What the calls return. -/
inductive Reply
  | added (id : Except PendingError GoString)
  | got (p : Except PendingError PendingKey)
  | deleted (r : Except PendingError Unit)
  | listed (ps : List PendingKey)
  | counted (n : Nat)
deriving DecidableEq

/-- The queue and its calls.  An id is fresh when it is drawn: there has been no entry with it,
and so no blob. -/
def object : Object PendingStore Time Call Reply where
  start := .new
  enabled s
    | .add _ _ _ _ id => (AList.lookup id s.blobs).isNone
    | _ => true
  perform s now
    | .add deviceID label comment blob id =>
        ((s.add deviceID label comment blob id now).2,
          .added (s.add deviceID label comment blob id now).1)
    | .get id => ((s.get id now).2, .got (s.get id now).1)
    | .delete id => ((s.delete id).2, .deleted (s.delete id).1)
    | .list => ((s.list now).2, .listed (s.list now).1)
    | .count => ((s.count now).2, .counted (s.count now).1)

/-! ## The counts -/

/-- The number of entries of a device. -/
def entriesOf (s : PendingStore) (deviceID : GoString) : Nat :=
  Map.count s.entries fun p ↦ p.deviceID == deviceID

/-- The counts are right, and within the limits. -/
structure Balanced (s : PendingStore) : Prop where
  countOf_eq : ∀ deviceID, s.countOf deviceID = s.entriesOf deviceID
  length_le : s.entries.entries.length ≤ maxPendingGlobal
  countOf_le : ∀ deviceID, s.countOf deviceID ≤ maxPendingPerDevice

variable {s : PendingStore} {id : GoString} {p : PendingKey} {now : Time}

theorem length_entries (s : PendingStore) :
    s.entries.entries.length = Map.count s.entries fun _ ↦ true := by
  rw [Map.count, List.countP_true]

/-- A device with an entry has a count, which a decrement will find. -/
theorem Balanced.countOf_pos (h : s.Balanced) (hp : AList.lookup id s.entries = some p) :
    0 < s.countOf p.deviceID := by
  rw [h.countOf_eq, entriesOf, Map.count_pos_iff]
  exact ⟨id, p, hp, beq_self_eq_true _⟩

/-- The counts after one of them has been set. -/
theorem countOf_of_byDev {t : PendingStore} {deviceID : GoString} {n : Nat}
    (h : t.byDev = s.byDev.insert deviceID n) (d : GoString) :
    t.countOf d = if deviceID == d then n else s.countOf d := by
  rw [countOf, h, Map.lookup_insert_eq]
  by_cases hd : d = deviceID
  · rw [if_pos hd, hd, beq_self_eq_true]
    rfl
  · rw [if_neg hd, beq_false_of_ne (Ne.symm hd)]
    rfl

theorem countOf_drop (id : GoString) (hpos : 0 < s.countOf p.deviceID) (deviceID : GoString) :
    (s.drop id p).countOf deviceID =
      s.countOf deviceID - if p.deviceID == deviceID then 1 else 0 := by
  rw [countOf_of_byDev (if_pos hpos)]
  split
  · next heq => rw [beq_iff_eq.mp heq]
  · rfl

theorem countOf_add {t : PendingStore} {deviceID : GoString}
    (h : t.byDev = s.byDev.insert deviceID (s.countOf deviceID + 1)) (d : GoString) :
    t.countOf d = s.countOf d + if deviceID == d then 1 else 0 := by
  rw [countOf_of_byDev h]
  split
  · next heq => rw [beq_iff_eq.mp heq]
  · rfl

/-- **Step.**  To delete an entry. -/
theorem Balanced.drop (h : s.Balanced) (hp : AList.lookup id s.entries = some p) :
    (s.drop id p).Balanced := by
  have hcount := countOf_drop id (h.countOf_pos hp)
  refine ⟨fun deviceID ↦ ?_, ?_, fun deviceID ↦ ?_⟩
  · rw [hcount, h.countOf_eq, entriesOf, Map.count_erase _ hp, Nat.add_sub_cancel_right]
    rfl
  · have hle := h.length_le
    rw [length_entries, Map.count_erase _ hp] at hle
    rw [length_entries]
    exact (Nat.le_add_right _ _).trans hle
  · rw [hcount]
    exact (Nat.sub_le _ _).trans (h.countOf_le deviceID)

/-- **Step.**  `Add`, under an id without an entry. -/
theorem Balanced.add (h : s.Balanced) (hid : AList.lookup id s.entries = none)
    (deviceID label comment : GoString) (blob : Bytes) (now : Time) :
    (s.add deviceID label comment blob id now).2.Balanced := by
  rcases hadd : s.add deviceID label comment blob id now with ⟨r, t⟩
  cases r with
  | error _ =>
      rw [add_eq_error hadd]
      exact h
  | ok id' =>
      obtain ⟨hglobal, hdevice, hbyDev⟩ := add_counts hadd
      obtain ⟨-, hentries, -⟩ := add_eq_ok hadd
      refine ⟨fun d ↦ ?_, ?_, fun d ↦ ?_⟩
      · rw [countOf_add hbyDev, h.countOf_eq, entriesOf, entriesOf, hentries,
          Map.count_insert_of_lookup_eq_none _ hid]
      · rw [length_entries, hentries, Map.count_insert_of_lookup_eq_none _ hid, ← length_entries,
          if_pos rfl]
        exact hglobal
      · rw [countOf_add hbyDev]
        split
        · next heq =>
            cases beq_iff_eq.mp heq
            exact hdevice
        · exact h.countOf_le d

/-! ### Purging -/

/-- The loop of `purgeExpiredLocked`, over some of the entries. -/
def purge (now : Time) (es : List (Sigma fun _ : GoString ↦ PendingKey)) (s : PendingStore) :
    PendingStore :=
  es.foldl (fun s e ↦ if e.2.expiresAt < now then s.drop e.1 e.2 else s) s

/-- The entries are in the queue, each once. -/
structure Held (es : List (Sigma fun _ : GoString ↦ PendingKey)) (s : PendingStore) : Prop where
  nodup : es.NodupKeys
  lookup : ∀ e ∈ es, AList.lookup e.1 s.entries = some e.2

theorem held_of_perm {es : List (Sigma fun _ : GoString ↦ PendingKey)}
    (h : es.Perm s.entries.entries) : Held es s where
  nodup := (List.perm_nodupKeys h).mpr s.entries.nodupKeys
  lookup _ he := AList.mem_lookup_iff.mpr (h.mem_iff.mp he)

/-- **Run.**  Each round of the loop leaves the counts right and the entries to come in the
queue. -/
theorem Balanced.purge {done rest : List (Sigma fun _ : GoString ↦ PendingKey)} (h : s.Balanced)
    (hheld : Held (done ++ rest) s) (now : Time) :
    (purge now done s).Balanced ∧ Held rest (purge now done s) := by
  induction done generalizing s with
  | nil => exact ⟨h, hheld⟩
  | cons e done ih =>
      have he := hheld.lookup e List.mem_cons_self
      have htail : Held (done ++ rest) s :=
        ⟨(List.nodupKeys_cons.mp hheld.nodup).2,
          fun e' he' ↦ hheld.lookup e' (List.mem_cons_of_mem _ he')⟩
      rw [PendingStore.purge, List.foldl_cons]
      split
      · refine ih (h.drop he) ⟨htail.nodup, fun e' he' ↦ ?_⟩
        have hne : e'.1 ≠ e.1 := by
          intro heq
          exact (List.nodupKeys_cons.mp hheld.nodup).1
            (heq ▸ List.mem_map_of_mem (f := Sigma.fst) he')
        rw [PendingStore.drop, Map.lookup_erase_eq, if_neg hne]
        exact htail.lookup e' he'
      · exact ih h htail

theorem Balanced.purgeExpiredLocked (h : s.Balanced) (now : Time) :
    (s.purgeExpiredLocked now).Balanced := by
  have hheld : Held (s.entries.entries ++ []) s := by
    rw [List.append_nil]
    exact held_of_perm (List.Perm.refl _)
  exact (h.purge hheld now).1

/-! ## Runs -/

/-- The queue in a run: the counts are right, and every entry has a blob. -/
structure Sound (s : PendingStore) : Prop where
  balanced : s.Balanced
  blob : ∀ id p, AList.lookup id s.entries = some p → (AList.lookup id s.blobs).isSome = true

theorem sound_new : new.Sound where
  balanced := ⟨fun _ ↦ rfl, Nat.zero_le _, fun _ ↦ Nat.zero_le _⟩
  blob id p h := by cases h

theorem Sound.shrink {t : PendingStore} (h : s.Sound) (hbalanced : t.Balanced) (ht : s.Shrinks t) :
    t.Sound where
  balanced := hbalanced
  blob id p hp := by
    rw [ht.blobs]
    exact h.blob id p (ht.entries id p hp)

theorem Sound.add (h : s.Sound) (hfresh : AList.lookup id s.blobs = none)
    (deviceID label comment : GoString) (blob : Bytes) (now : Time) :
    (s.add deviceID label comment blob id now).2.Sound where
  balanced := by
    refine h.balanced.add ?_ deviceID label comment blob now
    refine Option.eq_none_iff_forall_ne_some.mpr fun p hp ↦ ?_
    have hblob := h.blob id p hp
    rw [hfresh] at hblob
    cases hblob
  blob id' p hp := by
    rcases hadd : s.add deviceID label comment blob id now with ⟨r, t⟩
    rw [hadd] at hp
    cases r with
    | error _ =>
        rw [add_eq_error hadd] at hp ⊢
        exact h.blob id' p hp
    | ok id'' =>
        obtain ⟨-, hentries, hblobs⟩ := add_eq_ok hadd
        rw [hentries, Map.lookup_insert_eq] at hp
        show (AList.lookup id' t.blobs).isSome = true
        rw [hblobs, Map.lookup_insert_eq]
        split at hp
        · next heq =>
            rw [if_pos heq]
            rfl
        · next hne =>
            rw [if_neg hne]
            exact h.blob id' p hp

theorem Sound.purgeExpiredLocked (h : s.Sound) (now : Time) : (s.purgeExpiredLocked now).Sound :=
  h.shrink (h.balanced.purgeExpiredLocked now) (s.shrinks_purgeExpiredLocked now)

theorem Sound.delete (h : s.Sound) (id : GoString) : (s.delete id).2.Sound := by
  refine h.shrink ?_ (s.shrinks_delete id)
  rw [PendingStore.delete]
  split
  · exact h.balanced
  · next hp => exact h.balanced.drop hp

/-- **Step.** -/
theorem Sound.perform (h : s.Sound) {c : Call} (henabled : object.enabled s c = true) (now : Time) :
    (object.perform s now c).1.Sound := by
  cases c with
  | add deviceID label comment blob id =>
      exact h.add (Option.isNone_iff_eq_none.mp henabled) deviceID label comment blob now
  | get id =>
      show (s.get id now).2.Sound
      rw [get_snd]
      exact h.purgeExpiredLocked now
  | delete id => exact h.delete id
  | list => exact h.purgeExpiredLocked now
  | count => exact h.purgeExpiredLocked now

theorem now_le_of_mem_list (hp : p ∈ (s.list now).1) : now ≤ p.expiresAt := by
  obtain ⟨⟨id, p⟩, hmem, rfl⟩ := List.mem_map.mp hp
  exact (lookup_purgeExpiredLocked_eq_some_iff.mp (AList.mem_lookup_iff.mpr hmem)).2

/-- The call returns no entry that has expired. -/
def Fresh (e : Performed Time Call Reply) : Prop :=
  (∀ p, e.result = .got (.ok p) → e.now ≤ p.expiresAt) ∧
    ∀ ps, e.result = .listed ps → ∀ p ∈ ps, e.now ≤ p.expiresAt

theorem fresh_performed (s : PendingStore) (now : Time) (c : Call) :
    Fresh (object.performed s now c) := by
  refine ⟨fun p hp ↦ ?_, fun ps hps p hp ↦ ?_⟩
  · cases c with
    | get id => exact (get_eq_ok_iff.mp (Reply.got.inj hp)).2
    | _ => cases hp
  · cases c with
    | list =>
        cases Reply.listed.inj hps
        exact now_le_of_mem_list hp
    | _ => cases hps

/-- **Run.** -/
theorem exec_sound {now₀ : Time} {as : List (Time × Call)} {t : PendingStore × Time}
    {log : List (Performed Time Call Reply)}
    (h : (object.machine now₀).exec as = some (t, log)) : t.1.Sound ∧ ∀ e ∈ log, Fresh e := by
  refine Object.history_induction (P := fun s _ log ↦ s.Sound ∧ ∀ e ∈ log, Fresh e)
    ⟨sound_new, List.forall_mem_nil _⟩ ?_ h
  rintro s clock now log c ⟨hsound, hfresh⟩ - henabled
  refine ⟨hsound.perform henabled now, ?_⟩
  rw [List.forall_mem_append, List.forall_mem_singleton]
  exact ⟨hfresh, fresh_performed s now c⟩

/-- **Exact bookkeeping.**  After any calls, the count of each device is the number of its entries
and within the limits; the decrement of a `Delete`, and of each round of a purge
in whatever order, finds a positive count; and no call has returned an expired entry. -/
theorem pending_bookkeeping {now₀ clock : Time} {as : List (Time × Call)}
    {log : List (Performed Time Call Reply)}
    (h : (object.machine now₀).exec as = some ((s, clock), log)) :
    (∀ deviceID, s.countOf deviceID = s.entriesOf deviceID) ∧
      s.entries.entries.length ≤ maxPendingGlobal ∧
      (∀ deviceID, s.countOf deviceID ≤ maxPendingPerDevice) ∧
      (∀ id p, AList.lookup id s.entries = some p → 0 < s.countOf p.deviceID) ∧
      (∀ now es done e rest, es.Perm s.entries.entries → es = done ++ e :: rest →
        0 < (purge now done s).countOf e.2.deviceID) ∧
      ∀ e ∈ log, Fresh e := by
  obtain ⟨hsound, hfresh⟩ := exec_sound h
  have hbalanced := hsound.balanced
  refine ⟨hbalanced.countOf_eq, hbalanced.length_le, hbalanced.countOf_le,
    fun id p ↦ hbalanced.countOf_pos, ?_, hfresh⟩
  rintro now es done e rest hperm rfl
  obtain ⟨hbefore, hheld⟩ := hbalanced.purge (held_of_perm hperm) now
  exact hbefore.countOf_pos (hheld.lookup e List.mem_cons_self)

/-- Two devices, one of which has an entry deleted and one expired. -/
def twoDevices : List (Time × Call) :=
  [(0, .add [1] [] [] [] [1]), (1, .add [1] [] [] [] [2]), (2, .add [2] [] [] [] [3]),
    (3, .delete [2]), (defaultPendingTTL + 1, .list)]

/-- The counts after that. -/
theorem pending_bookkeeping_twoDevices :
    ∃ s clock log, (object.machine 0).exec twoDevices = some ((s, clock), log) ∧
      s.countOf [1] = 0 ∧ s.countOf [2] = 1 ∧ s.entriesOf [2] = 1 := by
  obtain ⟨⟨⟨s, clock⟩, log⟩, hrun⟩ := Option.isSome_iff_exists.mp (by decide +kernel :
    ((object.machine 0).exec twoDevices).isSome = true)
  have hend : ((object.machine 0).exec twoDevices).map
      (fun t ↦ (t.1.1.countOf [1], t.1.1.countOf [2])) = some (0, 1) := by decide +kernel
  rw [hrun] at hend
  obtain ⟨hone, htwo⟩ := Prod.mk.inj (Option.some.inj hend)
  refine ⟨s, clock, log, hrun, hone, htwo, ?_⟩
  rw [← (pending_bookkeeping hrun).1]
  exact htwo

end LunaZTrust.Keystore.PendingStore
