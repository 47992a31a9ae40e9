import LunaZTrust.Keystore.PendingBalance

/-!
# When an upload is refused

`Add` of `proxy/internal/keystore/pending.go` refuses an entry when the queue is full, and it does
not purge the queue before it looks.  So an entry counts until a call that does purge, of
`Get`, `List` or `Count`, comes after its expiry (`add_refused_iff`).  An upload can be refused
although everything in the queue has long expired.
-/

namespace LunaZTrust.Keystore.PendingStore

open LunaZTrust.Go LunaZTrust.Transition

/-! ## The history -/

/-- The history of the queue. -/
abbrev History := List (Performed Time Call Reply)

/-- The entry a call adds. -/
def addedBy (e : Performed Time Call Reply) : Option PendingKey :=
  match e.call, e.result with
  | .add deviceID label comment _ id, .added (.ok _) =>
      some ⟨id, deviceID, label, comment, e.now + defaultPendingTTL⟩
  | _, _ => none

/-- The id of the entry a call deletes. -/
def deletedBy (e : Performed Time Call Reply) : Option GoString :=
  match e.call, e.result with
  | .delete id, .deleted (.ok _) => some id
  | _, _ => none

/-- When a call purges the queue. -/
def purgedAt (e : Performed Time Call Reply) : Option Time :=
  match e.call with
  | .get _ => some e.now
  | .list => some e.now
  | .count => some e.now
  | _ => none

/-- What was added and not deleted. -/
def kept (log : History) : List PendingKey :=
  (log.filterMap addedBy).filter fun p ↦ !(log.filterMap deletedBy).contains p.id

/-- What of it is unexpired at an instant. -/
def unexpired (log : History) (now : Time) : List PendingKey :=
  (kept log).filter fun p ↦ decide (now ≤ p.expiresAt)

/-- What of it no purge has found expired. -/
def unpurged (log : History) : List PendingKey :=
  (kept log).filter fun p ↦ decide (∀ u ∈ log.filterMap purgedAt, u ≤ p.expiresAt)

/-- There are too many entries, or too many of a device. -/
def IsFull (ps : List PendingKey) (deviceID : GoString) : Prop :=
  maxPendingGlobal ≤ ps.length ∨ maxPendingPerDevice ≤ ps.countP (·.deviceID == deviceID)

instance (ps : List PendingKey) (deviceID : GoString) : Decidable (IsFull ps deviceID) :=
  inferInstanceAs (Decidable (_ ∨ _))

variable {s : PendingStore} {log : History} {clock now : Time} {p : PendingKey}
  {e : Performed Time Call Reply}

theorem mem_unpurged_iff :
    p ∈ unpurged log ↔ p ∈ log.filterMap addedBy ∧ p.id ∉ log.filterMap deletedBy ∧
      ∀ u ∈ log.filterMap purgedAt, u ≤ p.expiresAt := by
  rw [unpurged, kept, List.mem_filter, List.mem_filter, decide_eq_true_eq, Bool.not_eq_true',
    ← Bool.not_eq_true, List.contains_iff_mem, and_assoc]

theorem filterMap_concat {β : Type} {f : Performed Time Call Reply → Option β} {b : Option β}
    (h : f e = b) : (log ++ [e]).filterMap f = log.filterMap f ++ b.toList := by
  subst h
  rw [List.filterMap_append, List.filterMap_cons, List.filterMap_nil]
  cases f e <;> rfl

theorem forall_mem_filterMap_concat {β : Type} {f : Performed Time Call Reply → Option β}
    {P : β → Prop} :
    (∀ b ∈ (log ++ [e]).filterMap f, P b) ↔
      (∀ b ∈ log.filterMap f, P b) ∧ ∀ b, f e = some b → P b := by
  rw [filterMap_concat rfl, List.forall_mem_append]
  simp only [Option.mem_toList]

/-! ## The ids -/

/-- No id was used twice: every one that was has a blob, and only entries that were added have been
deleted. -/
structure Ledger (blobs : Map GoString Bytes) (log : History) : Prop where
  nodup : ((log.filterMap addedBy).map PendingKey.id).Nodup
  blob : ∀ p ∈ log.filterMap addedBy, (AList.lookup p.id blobs).isSome = true
  deleted : ∀ id ∈ log.filterMap deletedBy, ∃ p ∈ log.filterMap addedBy, p.id = id

variable {blobs : Map GoString Bytes}

theorem ledger_new : Ledger ∅ [] where
  nodup := List.nodup_nil
  blob := List.forall_mem_nil _
  deleted := List.forall_mem_nil _

/-- A call that adds nothing. -/
theorem Ledger.concat (h : Ledger blobs log) (hadd : addedBy e = none)
    (hdelete : ∀ id, deletedBy e = some id → ∃ p ∈ log.filterMap addedBy, p.id = id) :
    Ledger blobs (log ++ [e]) := by
  have hsame : (log ++ [e]).filterMap addedBy = log.filterMap addedBy := by
    rw [filterMap_concat hadd, Option.toList_none, List.append_nil]
  constructor
  · rw [hsame]
    exact h.nodup
  · rw [hsame]
    exact h.blob
  · rw [hsame]
    exact forall_mem_filterMap_concat.mpr ⟨h.deleted, hdelete⟩

/-- A fresh id has not been added before. -/
theorem Ledger.id_ne (h : Ledger blobs log) (hfresh : AList.lookup p.id blobs = none) :
    ∀ q ∈ log.filterMap addedBy, q.id ≠ p.id := by
  intro q hq heq
  have hblob := h.blob q hq
  rw [heq, hfresh] at hblob
  cases hblob

/-- It has not been deleted either. -/
theorem Ledger.notMem_deleted (h : Ledger blobs log) (hfresh : AList.lookup p.id blobs = none) :
    p.id ∉ log.filterMap deletedBy := by
  intro hmem
  obtain ⟨q, hq, hid⟩ := h.deleted p.id hmem
  exact h.id_ne hfresh q hq hid

/-- A call that adds an entry under a fresh id. -/
theorem Ledger.add (h : Ledger blobs log) (hfresh : AList.lookup p.id blobs = none) (b : Bytes)
    (hadd : addedBy e = some p) (hdelete : deletedBy e = none) :
    Ledger (blobs.insert p.id b) (log ++ [e]) := by
  constructor
  · rw [filterMap_concat hadd, Option.toList_some, List.map_append, List.map_singleton,
      List.nodup_append_comm, List.singleton_append, List.nodup_cons]
    refine ⟨fun hmem ↦ ?_, h.nodup⟩
    obtain ⟨q, hq, hid⟩ := List.mem_map.mp hmem
    exact h.id_ne hfresh q hq hid
  · refine forall_mem_filterMap_concat.mpr ⟨fun q hq ↦ ?_, fun q hq ↦ ?_⟩
    · rw [Map.lookup_insert_eq, if_neg (h.id_ne hfresh q hq)]
      exact h.blob q hq
    · cases hadd.symm.trans hq
      rw [Map.lookup_insert_eq, if_pos rfl]
      rfl
  · refine forall_mem_filterMap_concat.mpr ⟨fun id hid ↦ ?_, fun id hid ↦ ?_⟩
    · obtain ⟨q, hq, hqid⟩ := h.deleted id hid
      rw [filterMap_concat hadd]
      exact ⟨q, List.mem_append_left _ hq, hqid⟩
    · rw [hdelete] at hid
      cases hid

/-! ## The queue -/

/-- The queue against its history. -/
structure Follows (s : PendingStore) (clock : Time) (log : History) : Prop where
  lookup_iff : ∀ id p, AList.lookup id s.entries = some p ↔ p ∈ unpurged log ∧ p.id = id
  ledger : Ledger s.blobs log
  purged : ∀ u ∈ log.filterMap purgedAt, u ≤ clock

theorem follows_new (now₀ : Time) : Follows .new now₀ [] where
  lookup_iff id p := iff_of_false (fun h ↦ by cases h) fun h ↦ by cases h.1
  ledger := ledger_new
  purged := List.forall_mem_nil _

theorem Follows.purged_concat (h : Follows s clock log) (hle : clock ≤ now)
    (hpurge : ∀ u, purgedAt e = some u → u ≤ now) :
    ∀ u ∈ (log ++ [e]).filterMap purgedAt, u ≤ now :=
  forall_mem_filterMap_concat.mpr ⟨fun u hu ↦ (h.purged u hu).trans hle, hpurge⟩

/-- **Step.**  A call that does nothing. -/
theorem Follows.quiet (h : Follows s clock log) (hle : clock ≤ now) (hadd : addedBy e = none)
    (hdelete : deletedBy e = none) (hpurge : purgedAt e = none) : Follows s now (log ++ [e]) where
  lookup_iff id p := by
    rw [h.lookup_iff, mem_unpurged_iff, mem_unpurged_iff, filterMap_concat hadd,
      filterMap_concat hdelete, filterMap_concat hpurge]
    simp only [Option.toList_none, List.append_nil]
  ledger := h.ledger.concat hadd (by simp [hdelete])
  purged := h.purged_concat hle (by simp [hpurge])

/-- **Step.**  A call that purges. -/
theorem Follows.purge (h : Follows s clock log) (hle : clock ≤ now) (hadd : addedBy e = none)
    (hdelete : deletedBy e = none) (hpurge : purgedAt e = some now) :
    Follows (s.purgeExpiredLocked now) now (log ++ [e]) where
  lookup_iff id p := by
    rw [lookup_purgeExpiredLocked_eq_some_iff, h.lookup_iff, mem_unpurged_iff, mem_unpurged_iff,
      filterMap_concat hadd, filterMap_concat hdelete, filterMap_concat hpurge]
    simp only [Option.toList_none, Option.toList_some, List.append_nil, List.forall_mem_append,
      List.forall_mem_singleton]
    tauto
  ledger := by
    rw [blobs_purgeExpiredLocked]
    exact h.ledger.concat hadd (by simp [hdelete])
  purged := h.purged_concat hle (by simp [hpurge])

/-- **Step.**  A call that deletes an entry. -/
theorem Follows.delete {id : GoString} (h : Follows s clock log) (hle : clock ≤ now)
    (hp : AList.lookup id s.entries = some p) (hadd : addedBy e = none)
    (hdelete : deletedBy e = some id) (hpurge : purgedAt e = none) :
    Follows (s.drop id p) now (log ++ [e]) where
  lookup_iff id' p' := by
    rw [drop, Map.lookup_erase_eq_some_iff, h.lookup_iff, mem_unpurged_iff, mem_unpurged_iff,
      filterMap_concat hadd, filterMap_concat hdelete, filterMap_concat hpurge]
    simp only [Option.toList_none, Option.toList_some, List.append_nil, List.mem_append,
      List.mem_singleton, not_or]
    constructor
    · rintro ⟨hne, ⟨hadded, hkept, hpurged⟩, rfl⟩
      exact ⟨⟨hadded, ⟨hkept, hne⟩, hpurged⟩, rfl⟩
    · rintro ⟨⟨hadded, ⟨hkept, hne⟩, hpurged⟩, rfl⟩
      exact ⟨hne, ⟨hadded, hkept, hpurged⟩, rfl⟩
  ledger := by
    refine h.ledger.concat hadd fun id' hid' ↦ ?_
    cases hdelete.symm.trans hid'
    obtain ⟨hmem, hid⟩ := (h.lookup_iff id p).mp hp
    exact ⟨p, (mem_unpurged_iff.mp hmem).1, hid⟩
  purged := h.purged_concat hle (by simp [hpurge])

/-- **Step.**  A call that adds an entry under a fresh id. -/
theorem Follows.add {t : PendingStore} {b : Bytes} (h : Follows s clock log) (hle : clock ≤ now)
    (hfresh : AList.lookup p.id s.blobs = none) (hexpires : now ≤ p.expiresAt)
    (hentries : t.entries = s.entries.insert p.id p) (hblobs : t.blobs = s.blobs.insert p.id b)
    (hadd : addedBy e = some p) (hdelete : deletedBy e = none) (hpurge : purgedAt e = none) :
    Follows t now (log ++ [e]) where
  lookup_iff id q := by
    rw [hentries, Map.lookup_insert_eq_some_iff, h.lookup_iff, mem_unpurged_iff, mem_unpurged_iff,
      filterMap_concat hadd, filterMap_concat hdelete, filterMap_concat hpurge]
    simp only [Option.toList_none, Option.toList_some, List.append_nil, List.mem_append,
      List.mem_singleton]
    constructor
    · rintro (⟨rfl, rfl⟩ | ⟨-, ⟨hadded, hrest⟩, hid⟩)
      · exact ⟨⟨.inr rfl, h.ledger.notMem_deleted hfresh,
          fun u hu ↦ (h.purged u hu).trans (hle.trans hexpires)⟩, rfl⟩
      · exact ⟨⟨.inl hadded, hrest⟩, hid⟩
    · rintro ⟨⟨hadded | rfl, hrest⟩, rfl⟩
      · exact .inr ⟨h.ledger.id_ne hfresh q hadded, ⟨hadded, hrest⟩, rfl⟩
      · exact .inl ⟨rfl, rfl⟩
  ledger := by
    rw [hblobs]
    exact h.ledger.add hfresh b hadd hdelete
  purged := h.purged_concat hle (by simp [hpurge])

/-- **Step.** -/
theorem Follows.perform (h : Follows s clock log) (hle : clock ≤ now) {c : Call}
    (henabled : object.enabled s c = true) :
    Follows (object.perform s now c).1 now (log ++ [object.performed s now c]) := by
  cases c with
  | add deviceID label comment blob id =>
      have hfresh : AList.lookup id s.blobs = none := Option.isNone_iff_eq_none.mp henabled
      rcases hadd : s.add deviceID label comment blob id now with ⟨r, t⟩
      have hperform : object.perform s now (.add deviceID label comment blob id) =
          (t, .added r) := congrArg (fun a ↦ (a.2, Reply.added a.1)) hadd
      rw [Object.performed, hperform]
      cases r with
      | error err =>
          rw [add_eq_error hadd]
          exact h.quiet hle rfl rfl rfl
      | ok id' =>
          obtain ⟨-, hentries, hblobs⟩ := add_eq_ok hadd
          refine h.add (p := ⟨id, deviceID, label, comment, now + defaultPendingTTL⟩) hle hfresh
            ?_ hentries hblobs rfl rfl rfl
          exact Int.le_add_of_nonneg_right (by decide)
  | get id =>
      show Follows (s.get id now).2 now _
      rw [get_snd]
      exact h.purge hle rfl rfl rfl
  | delete id =>
      cases hp : AList.lookup id s.entries with
      | none =>
          have hdelete : s.delete id = (.error .notFound, s) := by rw [PendingStore.delete, hp]
          have hperform : object.perform s now (.delete id) =
              (s, .deleted (.error .notFound)) :=
            congrArg (fun a ↦ (a.2, Reply.deleted a.1)) hdelete
          rw [Object.performed, hperform]
          exact h.quiet hle rfl rfl rfl
      | some p =>
          have hdelete : s.delete id = (.ok (), s.drop id p) := by rw [PendingStore.delete, hp]
          have hperform : object.perform s now (.delete id) = (s.drop id p, .deleted (.ok ())) :=
            congrArg (fun a ↦ (a.2, Reply.deleted a.1)) hdelete
          rw [Object.performed, hperform]
          exact h.delete hle hp rfl rfl rfl
  | list => exact h.purge hle rfl rfl rfl
  | count => exact h.purge hle rfl rfl rfl

/-! ## What `Add` counts -/

/-- The entries are those of the history that have not been purged. -/
theorem Follows.perm (h : Follows s clock log) :
    (s.entries.entries.map Sigma.snd).Perm (unpurged log) := by
  have hid : ∀ e ∈ s.entries.entries, e.2.id = e.1 := fun e he ↦
    ((h.lookup_iff e.1 e.2).mp (AList.mem_lookup_iff.mpr he)).2
  have hnodup : (s.entries.entries.map Sigma.snd).Nodup := by
    refine List.Nodup.of_map PendingKey.id ?_
    have hkeys : (s.entries.entries.map Sigma.snd).map PendingKey.id =
        s.entries.entries.map Sigma.fst := by
      rw [List.map_map]
      exact List.map_congr_left hid
    rw [hkeys]
    exact s.entries.nodupKeys
  have hnodup' : (unpurged log).Nodup :=
    (h.ledger.nodup.of_map PendingKey.id).sublist (List.filter_sublist.trans List.filter_sublist)
  refine (List.perm_ext_iff_of_nodup hnodup hnodup').mpr fun p ↦ ?_
  rw [List.mem_map]
  constructor
  · rintro ⟨e, he, rfl⟩
    exact ((h.lookup_iff e.1 e.2).mp (AList.mem_lookup_iff.mpr he)).1
  · intro hp
    exact ⟨⟨p.id, p⟩, AList.mem_lookup_iff.mp ((h.lookup_iff p.id p).mpr ⟨hp, rfl⟩), rfl⟩

/-- `Add` refuses an entry if those that were not purged are too many. -/
theorem Follows.add_full_iff_isFull (h : Follows s clock log) (hbalanced : s.Balanced)
    {deviceID label comment id : GoString} {b : Bytes} :
    (s.add deviceID label comment b id now).1 = .error .full ↔
      IsFull (unpurged log) deviceID := by
  rw [add_full_iff, IsFull, ← h.perm.length_eq, ← h.perm.countP_eq, hbalanced.countOf_eq,
    entriesOf, Map.count, List.length_map, List.countP_map]
  rfl

/-- The entries that count although they have expired are those that no purge has met. -/
theorem Follows.unexpired_eq (h : Follows s clock log) (hle : clock ≤ now) :
    unexpired log now = (unpurged log).filter fun p ↦ decide (now ≤ p.expiresAt) := by
  rw [unexpired, unpurged, List.filter_filter]
  refine List.filter_congr fun p _ ↦ ?_
  rw [Bool.eq_iff_iff, Bool.and_eq_true, decide_eq_true_eq, decide_eq_true_eq]
  exact (and_iff_left_of_imp fun hp u hu ↦ (h.purged u hu).trans (hle.trans hp)).symm

/-- **When an upload is refused.**  In every run, `Add` fails with a full queue just if
the entries that were added, not deleted, and not found expired by a purge are too many.  Of these,
the unexpired ones may be fewer; where all of them are unexpired, the queue is
really full. -/
theorem add_refused_iff {now₀ : Time} {as : List (Time × Call)}
    (h : (object.machine now₀).exec as = some ((s, clock), log)) :
    Along (fun pre e ↦ ∀ deviceID label comment blob id,
      e.call = .add deviceID label comment blob id →
        (e.result = .added (.error .full) ↔ IsFull (unpurged pre) deviceID) ∧
        unexpired pre e.now = (unpurged pre).filter (fun p ↦ decide (e.now ≤ p.expiresAt)) ∧
        ((∀ p ∈ unpurged pre, e.now ≤ p.expiresAt) → e.result = .added (.error .full) →
          IsFull (unexpired pre e.now) deviceID)) log := by
  refine Object.history_along (P := fun s clock log ↦ s.Sound ∧ Follows s clock log)
    ⟨sound_new, follows_new now₀⟩ ?_ ?_ h
  · rintro s clock now log c ⟨hsound, hfollows⟩ hle henabled
    exact ⟨hsound.perform henabled now, hfollows.perform hle henabled⟩
  · rintro s clock now log c ⟨hsound, hfollows⟩ hle - deviceID label comment blob id rfl
    have hfull : Reply.added (s.add deviceID label comment blob id now).1 =
        .added (.error .full) ↔ IsFull (unpurged log) deviceID := by
      rw [Reply.added.injEq]
      exact hfollows.add_full_iff_isFull hsound.balanced
    have hunexpired := hfollows.unexpired_eq hle
    refine ⟨hfull, hunexpired, fun hall hrefused ↦ ?_⟩
    have hsame : unexpired log now = unpurged log := by
      rw [hunexpired, List.filter_eq_self]
      exact fun p hp ↦ decide_eq_true (hall p hp)
    show IsFull (unexpired log now) deviceID
    rw [hsame]
    exact hfull.mp hrefused

/-- Four uploads of a device. -/
def fourUploads : List (Time × Call) :=
  [(0, .add [1] [] [] [] [1]), (0, .add [1] [] [] [] [2]), (0, .add [1] [] [] [] [3]),
    (0, .add [1] [] [] [] [4])]

/-- Their history. -/
def fourUploaded : History :=
  [⟨0, .add [1] [] [] [] [1], .added (.ok [1])⟩, ⟨0, .add [1] [] [] [] [2], .added (.ok [2])⟩,
    ⟨0, .add [1] [] [] [] [3], .added (.ok [3])⟩, ⟨0, .add [1] [] [] [] [4], .added (.ok [4])⟩]

/-- A fifth one, ten minutes later, is refused by a queue that is full. -/
theorem add_refused_fifth :
    ∃ s clock, (object.machine 0).exec
        (fourUploads ++ [(10 * Time.minute, .add [1] [] [] [] [5])]) =
      some ((s, clock), fourUploaded ++
        [⟨10 * Time.minute, .add [1] [] [] [] [5], .added (.error .full)⟩]) ∧
      IsFull (unexpired fourUploaded (10 * Time.minute)) [1] := by
  refine ⟨_, _, rfl, ?_⟩
  refine (add_refused_iff (by rfl : (object.machine 0).exec
    (fourUploads ++ [(10 * Time.minute, .add [1] [] [] [] [5])]) = some ((_, _), _))
    fourUploaded _ [] rfl [1] [] [] [] [5] rfl).2.2 ?_ rfl
  decide +kernel

/-- After the others have expired it is refused just the same. -/
theorem add_refused_by_expired :
    ∃ s clock, (object.machine 0).exec
        (fourUploads ++ [(defaultPendingTTL + 1, .add [1] [] [] [] [5])]) =
      some ((s, clock), fourUploaded ++
        [⟨defaultPendingTTL + 1, .add [1] [] [] [] [5], .added (.error .full)⟩]) ∧
      unexpired fourUploaded (defaultPendingTTL + 1) = [] ∧
      ¬IsFull (unexpired fourUploaded (defaultPendingTTL + 1)) [1] := by
  refine ⟨_, _, rfl, ?_⟩
  decide +kernel

end LunaZTrust.Keystore.PendingStore
