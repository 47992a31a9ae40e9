import Mathlib.Order.Bounds.Basic
import LunaZTrust.Lease.Store
import LunaZTrust.Transition.Object

/-!
# Leases and the history of the store

The store of leases against the list of all leases that were ever put into it.  An index, an
overwritten lease, an expired one that has not been purged yet: none of this shows in what
`FindActive` returns, which is what a scan of the list finds (`findActive_scan`).

Go iterates over a bucket in any order, so the search is stated for every order of
it.
-/

namespace LunaZTrust.Lease

open LunaZTrust.Go LunaZTrust.Transition

/-! ## No empty buckets -/

namespace Store

variable {s : Store}

/-- No bucket is kept that has become empty. -/
def NoEmptyBucket (s : Store) : Prop := ∀ lookup, AList.lookup lookup s.byLookup ≠ some []

theorem noEmptyBucket_new : new.NoEmptyBucket := by
  intro lookup h
  cases h

theorem NoEmptyBucket.put (h : s.NoEmptyBucket) (key : FullKey) (expiresAt : Time) :
    (s.put key expiresAt).NoEmptyBucket := by
  intro lookup
  rw [Store.put, Map.lookup_insert_eq]
  split
  · intro hnil
    exact List.ne_nil_of_mem List.mem_insert_self (Option.some.inj hnil)
  · exact h lookup

theorem NoEmptyBucket.deleteLocked (h : s.NoEmptyBucket) (full : FullKey) :
    (s.deleteLocked full).NoEmptyBucket := by
  intro lookup
  rw [Store.deleteLocked]
  dsimp only
  split
  · exact h lookup
  · next bucket _ =>
      split
      · rw [Map.lookup_erase_eq]
        split
        · exact Option.some_ne_none [] ∘ Eq.symm
        · exact h lookup
      · next hne =>
          rw [Map.lookup_insert_eq]
          split
          · exact fun hnil ↦ hne (Option.some.inj hnil)
          · exact h lookup

theorem NoEmptyBucket.purgeExpired (h : s.NoEmptyBucket) (now : Time) :
    (s.purgeExpired now).NoEmptyBucket := by
  -- the loop, over any of the leases
  have key : ∀ (ls : List (Sigma fun _ : FullKey ↦ ActiveLease)) (s : Store),
      s.NoEmptyBucket → (s.purge now ls).NoEmptyBucket := by
    intro ls
    induction ls with
    | nil => exact fun s h ↦ h
    | cons l ls ih =>
        intro s h
        rw [Store.purge, List.foldl_cons]
        split
        · exact ih _ (h.deleteLocked l.1)
        · exact ih _ h
  exact key _ s h

/-! ## The search -/

/-- The search of `FindActive`, in some order. -/
def search (s : Store) (now : Time) (order : List FullKey) : Option ActiveLease :=
  order.foldl (s.consider now) none

theorem findActive_eq_search (s : Store) (now : Time) (lookup : LookupKey) :
    s.findActive now lookup = s.search now (s.bucket lookup) := rfl

/-- The lease is one the search passes, and has not expired. -/
def Candidate (s : Store) (now : Time) (order : List FullKey) (l : ActiveLease) : Prop :=
  ∃ full ∈ order, AList.lookup full s.leases = some l ∧ now ≤ l.expiresAt

theorem le_consider (s : Store) (now : Time) {best : Option ActiveLease} {b : ActiveLease}
    (full : FullKey) (h : best = some b) :
    ∃ r, s.consider now best full = some r ∧ b.expiresAt ≤ r.expiresAt := by
  subst h
  rw [consider]
  split
  · exact ⟨b, rfl, le_rfl⟩
  · next l _ =>
      split
      · exact ⟨b, rfl, le_rfl⟩
      · dsimp only
        split
        · next hlt => exact ⟨l, rfl, hlt.le⟩
        · exact ⟨b, rfl, le_rfl⟩

theorem le_consider_self {now : Time} (best : Option ActiveLease) {full : FullKey}
    {l : ActiveLease} (hl : AList.lookup full s.leases = some l) (hnow : now ≤ l.expiresAt) :
    ∃ r, s.consider now best full = some r ∧ l.expiresAt ≤ r.expiresAt := by
  rw [consider, hl]
  dsimp only
  rw [if_neg (Int.not_lt.mpr hnow)]
  cases best with
  | none => exact ⟨l, rfl, le_rfl⟩
  | some b =>
      dsimp only
      split
      · exact ⟨l, rfl, le_rfl⟩
      · next hlt => exact ⟨b, rfl, Int.not_lt.mp hlt⟩

/-- What the search has found so far only gets better. -/
theorem le_foldl_consider (s : Store) (now : Time) (order : List FullKey)
    {best : Option ActiveLease} {b : ActiveLease} (h : best = some b) :
    ∃ r, order.foldl (s.consider now) best = some r ∧ b.expiresAt ≤ r.expiresAt := by
  induction order generalizing best b with
  | nil => exact ⟨b, h, le_rfl⟩
  | cons full order ih =>
      obtain ⟨c, hc, hle⟩ := s.le_consider now full h
      obtain ⟨r, hr, hle'⟩ := ih hc
      exact ⟨r, hr, hle.trans hle'⟩

/-- The search finds something that is as good as any candidate. -/
theorem Candidate.le_search {now : Time} {order : List FullKey} {l : ActiveLease}
    (h : s.Candidate now order l) :
    ∃ r, s.search now order = some r ∧ l.expiresAt ≤ r.expiresAt := by
  obtain ⟨full, hmem, hl, hnow⟩ := h
  obtain ⟨before, after, rfl⟩ := List.append_of_mem hmem
  obtain ⟨c, hc, hle⟩ := le_consider_self (before.foldl (s.consider now) none) hl hnow
  obtain ⟨r, hr, hle'⟩ := s.le_foldl_consider now after hc
  refine ⟨r, ?_, hle.trans hle'⟩
  rw [search, List.foldl_append, List.foldl_cons]
  exact hr

theorem candidate_of_search {now : Time} {order : List FullKey} {l : ActiveLease}
    (h : s.search now order = some l) : s.Candidate now order l := by
  rcases foldl_consider_eq_some h with hnone | hcandidate
  · cases hnone
  · exact hcandidate

end Store

/-! ## The history -/

/-- The calls that change the store. -/
inductive Call
  | put (key : FullKey) (expiresAt : Time)
  | purgeExpired
deriving DecidableEq, Repr

/-- The store and its calls. -/
def object : Object Store Time Call Unit where
  start := .new
  enabled _ _ := true
  perform s now
    | .put key expiresAt => (s.put key expiresAt, ())
    | .purgeExpired => (s.purgeExpired now, ())

/-- The history of the store. -/
abbrev History := List (Performed Time Call Unit)

/-- What a call puts into the store. -/
def Call.entry : Call → Option (FullKey × Time)
  | .put key expiresAt => some (key, expiresAt)
  | .purgeExpired => none

/-- What has been put into the store. -/
def puts (log : History) : List (FullKey × Time) := log.filterMap (·.call.entry)

/-- The expiry given by the most recent `Put` of a full key. -/
def lastPut (log : History) (full : FullKey) : Option Time := (puts log).reverse.lookup full

/-- A scan of the history finds a lease with the lookup key and this expiry, which has not
passed. -/
def Unexpired (log : History) (now : Time) (lookup : LookupKey) (expiresAt : Time) : Prop :=
  ∃ full : FullKey, full.toLookupKey = lookup ∧ lastPut log full = some expiresAt ∧ now ≤ expiresAt

theorem lastPut_put (log : History) (now : Time) (key full : FullKey) (expiresAt : Time) :
    lastPut (log ++ [⟨now, .put key expiresAt, ()⟩]) full =
      if full = key then some expiresAt else lastPut log full := by
  rw [lastPut, puts, List.filterMap_append, List.reverse_append]
  show List.lookup full ((key, expiresAt) :: (puts log).reverse) = _
  rw [List.lookup_cons]
  by_cases h : full = key
  · rw [if_pos h, h, beq_self_eq_true]
  · rw [if_neg h, beq_false_of_ne h]
    rfl

theorem lastPut_purgeExpired (log : History) (now : Time) (full : FullKey) :
    lastPut (log ++ [⟨now, .purgeExpired, ()⟩]) full = lastPut log full := by
  rw [lastPut, puts, List.filterMap_append, lastPut, puts]
  exact congrArg (fun l ↦ List.lookup full (List.reverse l)) (List.append_nil _)

/-- The store against its history: what it holds is what was put last, and what it does not hold
has expired. -/
structure Records (s : Store) (clock : Time) (log : History) : Prop where
  indexed : s.Indexed
  noEmptyBucket : s.NoEmptyBucket
  sound : ∀ full l, AList.lookup full s.leases = some l →
    l.approver = full.approver ∧ lastPut log full = some l.expiresAt
  complete : ∀ full expiresAt, lastPut log full = some expiresAt → clock ≤ expiresAt →
    AList.lookup full s.leases = some ⟨full.approver, expiresAt⟩

theorem records_new (now₀ : Time) : Records .new now₀ [] where
  indexed := Store.indexed_new
  noEmptyBucket := Store.noEmptyBucket_new
  sound full l h := by cases h
  complete full expiresAt h := by cases h

variable {s : Store} {clock now now₀ : Time} {log : History}

/-- **Step.**  `Put` keeps the store in step with its history. -/
theorem Records.put (h : Records s clock log) (hle : clock ≤ now) (key : FullKey)
    (expiresAt : Time) :
    Records (s.put key expiresAt) now (log ++ [⟨now, .put key expiresAt, ()⟩]) where
  indexed := h.indexed.put key expiresAt
  noEmptyBucket := h.noEmptyBucket.put key expiresAt
  sound full l hl := by
    rw [lastPut_put]
    rw [Store.lookup_put] at hl
    split at hl
    · next heq =>
        cases hl
        exact ⟨congrArg FullKey.approver heq.symm, if_pos heq⟩
    · next hne =>
        rw [if_neg hne]
        exact h.sound full l hl
  complete full E hE hnow := by
    rw [lastPut_put] at hE
    rw [Store.lookup_put]
    split at hE
    · next heq =>
        cases hE
        rw [if_pos heq, heq]
    · next hne =>
        rw [if_neg hne]
        exact h.complete full E hE (hle.trans hnow)

/-- **Step.**  So does a purge. -/
theorem Records.purgeExpired (h : Records s clock log) (hle : clock ≤ now) :
    Records (s.purgeExpired now) now (log ++ [⟨now, .purgeExpired, ()⟩]) where
  indexed := h.indexed.purgeExpired now
  noEmptyBucket := h.noEmptyBucket.purgeExpired now
  sound full l hl := by
    rw [lastPut_purgeExpired]
    exact h.sound full l (Store.lookup_purgeExpired_eq_some_iff.mp hl).1
  complete full E hE hnow := by
    rw [lastPut_purgeExpired] at hE
    exact Store.lookup_purgeExpired_eq_some_iff.mpr ⟨h.complete full E hE (hle.trans hnow), hnow⟩

/-- **Run.** -/
theorem exec_records {as : List (Time × Call)} {t : Store × Time}
    (h : (object.machine now₀).exec as = some (t, log)) : Records t.1 t.2 log := by
  refine Object.history_induction (P := Records) (records_new now₀) ?_ h
  intro s clock now log c hrec hle _
  cases c with
  | put key expiresAt => exact hrec.put hle key expiresAt
  | purgeExpired => exact hrec.purgeExpired hle

/-! ## What is found -/

/-- The candidates of the search are those of the scan. -/
theorem Records.candidate_iff (h : Records s clock log) (hnow : clock ≤ now) {lookup : LookupKey}
    {order : List FullKey} (horder : order.Perm (s.bucket lookup)) {l : ActiveLease} :
    s.Candidate now order l ↔ ∃ full : FullKey, full.toLookupKey = lookup ∧
      lastPut log full = some l.expiresAt ∧ now ≤ l.expiresAt ∧ l.approver = full.approver := by
  constructor
  · rintro ⟨full, hmem, hl, hactive⟩
    obtain ⟨happrover, hlast⟩ := h.sound full l hl
    rw [horder.mem_iff, h.indexed.mem_bucket_iff] at hmem
    exact ⟨full, hmem.1, hlast, hactive, happrover⟩
  · rintro ⟨full, hlookup, hlast, hactive, happrover⟩
    have hl := h.complete full l.expiresAt hlast (hnow.trans hactive)
    rw [← happrover] at hl
    refine ⟨full, ?_, hl, hactive⟩
    rw [horder.mem_iff, h.indexed.mem_bucket_iff, hl]
    exact ⟨hlookup, rfl⟩

/-- Every expiry the scan finds is that of a candidate. -/
theorem Records.exists_candidate (h : Records s clock log) (hnow : clock ≤ now)
    {lookup : LookupKey} {order : List FullKey} (horder : order.Perm (s.bucket lookup))
    {expiresAt : Time} (hE : Unexpired log now lookup expiresAt) :
    ∃ l, s.Candidate now order l ∧ l.expiresAt = expiresAt := by
  obtain ⟨full, hlookup, hlast, hactive⟩ := hE
  exact ⟨⟨full.approver, expiresAt⟩,
    (h.candidate_iff hnow horder).mpr ⟨full, hlookup, hlast, hactive, rfl⟩, rfl⟩

/-- The search returns the lease that expires last. -/
theorem Records.search_eq_some_iff (h : Records s clock log) (hnow : clock ≤ now)
    {lookup : LookupKey} {order : List FullKey} (horder : order.Perm (s.bucket lookup))
    {expiresAt : Time} :
    (s.search now order).map ActiveLease.expiresAt = some expiresAt ↔
      IsGreatest {E | Unexpired log now lookup E} expiresAt := by
  have hgreatest : ∀ l, s.search now order = some l →
      IsGreatest {E | Unexpired log now lookup E} l.expiresAt := by
    intro l hl
    obtain ⟨full, hlookup, hlast, hactive, -⟩ :=
      (h.candidate_iff hnow horder).mp (Store.candidate_of_search hl)
    refine ⟨⟨full, hlookup, hlast, hactive⟩, fun E hE ↦ ?_⟩
    obtain ⟨l', hcandidate, rfl⟩ := h.exists_candidate hnow horder hE
    obtain ⟨r, hr, hle⟩ := hcandidate.le_search
    cases hl.symm.trans hr
    exact hle
  constructor
  · intro hsome
    obtain ⟨l, hl, rfl⟩ := Option.map_eq_some_iff.mp hsome
    exact hgreatest l hl
  · intro hE
    obtain ⟨l, hcandidate, -⟩ := h.exists_candidate hnow horder hE.1
    obtain ⟨r, hr, -⟩ := hcandidate.le_search
    rw [hr, Option.map_some, (hgreatest r hr).unique hE]

/-- **The indexed lookup is a scan.**  After any calls of `Put` and `purgeExpired`, a search finds a
lease just if the scan does, and then one that expires last.  How often the store was
purged makes no difference; a `Put` leaves the leases under other full keys alone; and
the index holds what it should, without empty buckets. -/
theorem findActive_scan {as : List (Time × Call)}
    (h : (object.machine now₀).exec as = some ((s, clock), log)) (hnow : clock ≤ now) :
    (∀ lookup order, order.Perm (s.bucket lookup) →
      ((s.search now order).isSome = true ↔ ∃ E, Unexpired log now lookup E) ∧
      ∀ l, s.search now order = some l →
        IsGreatest {E | Unexpired log now lookup E} l.expiresAt ∧
        ∃ full : FullKey, full.toLookupKey = lookup ∧ lastPut log full = some l.expiresAt ∧
          l.approver = full.approver) ∧
    (∀ now₀' as' s' clock' log',
      (object.machine now₀').exec as' = some ((s', clock'), log') → clock' ≤ now →
        puts log' = puts log → ∀ lookup order order', order.Perm (s.bucket lookup) →
          order'.Perm (s'.bucket lookup) →
            (s'.search now order').map ActiveLease.expiresAt =
              (s.search now order).map ActiveLease.expiresAt) ∧
    (∀ key expiresAt full, full ≠ key →
      AList.lookup full (s.put key expiresAt).leases = AList.lookup full s.leases) ∧
    (∀ full : FullKey, (AList.lookup full s.leases).isSome = true ↔
      full ∈ s.bucket full.toLookupKey) ∧
    ∀ lookup, AList.lookup lookup s.byLookup ≠ some [] := by
  have hrec := exec_records h
  refine ⟨fun lookup order horder ↦ ⟨⟨fun hsome ↦ ?_, ?_⟩, fun l hl ↦ ⟨?_, ?_⟩⟩, ?_, ?_, ?_,
    hrec.noEmptyBucket⟩
  · obtain ⟨l, hl⟩ := Option.isSome_iff_exists.mp hsome
    exact ⟨l.expiresAt, ((hrec.search_eq_some_iff hnow horder).mp (by rw [hl]; rfl)).1⟩
  · rintro ⟨E, hE⟩
    obtain ⟨l, hcandidate, -⟩ := hrec.exists_candidate hnow horder hE
    obtain ⟨r, hr, -⟩ := hcandidate.le_search
    exact Option.isSome_iff_exists.mpr ⟨r, hr⟩
  · exact (hrec.search_eq_some_iff hnow horder).mp (by rw [hl]; rfl)
  · obtain ⟨full, hlookup, hlast, -, happrover⟩ :=
      (hrec.candidate_iff hnow horder).mp (Store.candidate_of_search hl)
    exact ⟨full, hlookup, hlast, happrover⟩
  · intro now₀' as' s' clock' log' h' hnow' hputs lookup order order' horder horder'
    have hsame : ∀ E, Unexpired log' now lookup E ↔ Unexpired log now lookup E := by
      intro E
      rw [Unexpired, Unexpired]
      simp only [lastPut, hputs]
    refine Option.ext fun E ↦ ?_
    rw [(exec_records h').search_eq_some_iff hnow' horder', hrec.search_eq_some_iff hnow horder]
    simp only [hsame]
  · intro key expiresAt full hne
    rw [Store.lookup_put, if_neg hne]
  · intro full
    rw [hrec.indexed.mem_bucket_iff]
    exact (and_iff_right rfl).symm

/-- The access of one client to one host. -/
def deployLookup : LookupKey := ⟨[1], str "deploy", str "10.0.0.5", str "10.0.0.9", [], []⟩

/-- Two approvers, one of whom approves again after the store was purged. -/
def twoApprovers : List (Time × Call) :=
  [(0, .put (newFullKey deployLookup (str "telegram:1")) 10),
    (5, .put (newFullKey deployLookup (str "device:a")) 20), (12, .purgeExpired),
    (13, .put (newFullKey deployLookup (str "telegram:1")) 15)]

/-- Their leases, looked up at 14. -/
theorem findActive_scan_twoApprovers :
    ∃ s clock log, (object.machine 0).exec twoApprovers = some ((s, clock), log) ∧
      s.findActive 14 deployLookup = some ⟨str "device:a", 20⟩ ∧
      IsGreatest {E | Unexpired log 14 deployLookup E} 20 := by
  obtain ⟨⟨⟨s, clock⟩, log⟩, hrun⟩ :=
    Option.isSome_iff_exists.mp (by decide +kernel :
      ((object.machine 0).exec twoApprovers).isSome = true)
  have hend : ((object.machine 0).exec twoApprovers).map
      (fun t ↦ (t.1.2, t.1.1.findActive 14 deployLookup)) =
        some (13, some ⟨str "device:a", 20⟩) := by decide +kernel
  rw [hrun] at hend
  obtain ⟨hclock, hfind⟩ := Prod.mk.inj (Option.some.inj hend)
  have hnow : clock ≤ 14 := hclock.le.trans (by decide)
  refine ⟨s, clock, log, hrun, hfind, ?_⟩
  rw [Store.findActive_eq_search] at hfind
  exact (((findActive_scan hrun hnow).1 deployLookup _ (List.Perm.refl _)).2 _ hfind).1

end LunaZTrust.Lease
