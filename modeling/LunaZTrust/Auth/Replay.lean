import Mathlib.Data.List.AList
import Mathlib.Data.List.Dedup
import Mathlib.Data.List.Induction
import LunaZTrust.Go.Bytes
import LunaZTrust.Go.Time

/-!
# The replay cache

`proxy/internal/auth/replay.go`: a `ReplayLRU` remembers the hashes of recent
request bodies.  `addIfNew` first drops expired entries from the old end of the
list, refuses a hash that is still there, and otherwise records it, dropping the
oldest entries beyond the maximum size.

`Remembers` relates a cache to the history of everything it ever recorded: the
list is exactly the unexpired part of the newest `max` records.  From it
`addIfNew_eq_false_iff` says which hashes are refused in terms of the history
alone.
-/

namespace LunaZTrust.Auth

open LunaZTrust.Go

/-- `replayEntry`. -/
structure ReplayEntry where
  key : Bytes
  expiresAt : Time
deriving DecidableEq, Repr

/-- `now.Before(ent.expiresAt)`. -/
def ReplayEntry.live (now : Time) (ent : ReplayEntry) : Bool := decide (now < ent.expiresAt)

theorem ReplayEntry.live_iff {now : Time} {ent : ReplayEntry} :
    ent.live now = true ↔ now < ent.expiresAt := decide_eq_true_iff

/-- `ReplayLRU`.  The front of `order` is the newest entry. -/
structure ReplayLRU where
  ttl : Duration
  max : Nat
  byKey : AList fun _ : Bytes ↦ ReplayEntry
  order : List ReplayEntry

namespace ReplayLRU

/-- `NewReplayLRU`. -/
def new (ttl : Duration) (max : Nat) : ReplayLRU := ⟨ttl, max, ∅, []⟩

/-- Drop entries from the back of the list, and from the map, for as long as
the condition on the entry at the back, and on the length, holds.  The list is
given back to front. -/
def dropBack (p : ReplayEntry → Nat → Bool) :
    List ReplayEntry → AList (fun _ : Bytes ↦ ReplayEntry) →
      List ReplayEntry × AList (fun _ : Bytes ↦ ReplayEntry)
  | [], byKey => ([], byKey)
  | ent :: prev, byKey =>
      if p ent (prev.length + 1) then dropBack p prev (byKey.erase ent.key)
      else (ent :: prev, byKey)

/-- The cache after such a loop. -/
def dropBackWhile (p : ReplayEntry → Nat → Bool) (r : ReplayLRU) : ReplayLRU :=
  let (order, byKey) := dropBack p r.order.reverse r.byKey
  { r with order := order.reverse, byKey := byKey }

/-- `evictExpired`. -/
def evictExpired (now : Time) (r : ReplayLRU) : ReplayLRU :=
  r.dropBackWhile fun ent _ ↦ !ent.live now

/-- The loop at the end of `AddIfNew`, that brings the cache back to its
maximum size. -/
def evictOverflow (r : ReplayLRU) : ReplayLRU :=
  r.dropBackWhile fun _ len ↦ decide (len > r.max)

/-- `PushFront` of a new entry, and its map entry. -/
def pushFront (ent : ReplayEntry) (r : ReplayLRU) : ReplayLRU :=
  { r with order := ent :: r.order, byKey := r.byKey.insert ent.key ent }

/-- `order.Remove` of an element, and of its map entry. -/
def remove (ent : ReplayEntry) (r : ReplayLRU) : ReplayLRU :=
  { r with order := r.order.erase ent, byKey := r.byKey.erase ent.key }

/-- `AddIfNew`, at the instant its call of `time.Now` gives. -/
def addIfNew (now : Time) (key : Bytes) (r : ReplayLRU) : Bool × ReplayLRU :=
  let r := r.evictExpired now
  let add (r : ReplayLRU) := (true, (r.pushFront ⟨key, now + r.ttl⟩).evictOverflow)
  match r.byKey.lookup key with
  | some ent => if ent.live now then (false, r) else add (r.remove ent)
  | none => add r

/-! ## The list and the map

`Indexed` says that the map is an index of the list.  Both loops keep it. -/

/-- The map holds exactly the entries of the list, each under its key. -/
structure Indexed (order : List ReplayEntry) (byKey : AList fun _ : Bytes ↦ ReplayEntry) :
    Prop where
  mem_iff : ∀ ent : ReplayEntry, ent ∈ order ↔ byKey.lookup ent.key = some ent
  key_eq : ∀ (key : Bytes) (ent : ReplayEntry), byKey.lookup key = some ent → ent.key = key
  nodup : order.Nodup

theorem Indexed.key_inj {order : List ReplayEntry} {byKey : AList fun _ : Bytes ↦ ReplayEntry}
    (h : Indexed order byKey) {a b : ReplayEntry} (ha : a ∈ order) (hb : b ∈ order)
    (hab : a.key = b.key) : a = b := by
  have ha' := (h.mem_iff a).mp ha
  rw [hab, (h.mem_iff b).mp hb] at ha'
  exact (Option.some.inj ha').symm

theorem Indexed.lookup_eq_none_iff {order : List ReplayEntry}
    {byKey : AList fun _ : Bytes ↦ ReplayEntry} (h : Indexed order byKey) (key : Bytes) :
    byKey.lookup key = none ↔ ∀ ent ∈ order, ent.key ≠ key := by
  constructor
  · rintro hnone ent hent rfl
    rw [(h.mem_iff ent).mp hent] at hnone
    exact nomatch hnone
  · intro hkey
    cases hl : byKey.lookup key with
    | none => rfl
    | some ent =>
        have hk := h.key_eq key ent hl
        exact absurd hk (hkey ent ((h.mem_iff ent).mpr (by rw [hk]; exact hl)))

theorem Indexed.tail {ent : ReplayEntry} {order : List ReplayEntry}
    {byKey : AList fun _ : Bytes ↦ ReplayEntry} (h : Indexed (ent :: order) byKey) :
    Indexed order (byKey.erase ent.key) := by
  have hfresh : ∀ e ∈ order, e.key ≠ ent.key := by
    intro e he heq
    have : e = ent := h.key_inj (List.mem_cons_of_mem _ he) List.mem_cons_self heq
    exact (List.nodup_cons.mp h.nodup).1 (this ▸ he)
  refine ⟨fun e ↦ ⟨fun he ↦ ?_, fun he ↦ ?_⟩, fun key e he ↦ ?_, (List.nodup_cons.mp h.nodup).2⟩
  · rw [AList.lookup_erase_ne (hfresh e he)]
    exact (h.mem_iff e).mp (List.mem_cons_of_mem _ he)
  · by_cases hk : e.key = ent.key
    · rw [hk, AList.lookup_erase] at he
      exact nomatch he
    · rw [AList.lookup_erase_ne hk] at he
      rcases List.mem_cons.mp ((h.mem_iff e).mpr he) with rfl | hmem
      · exact absurd rfl hk
      · exact hmem
  · by_cases hk : key = ent.key
    · rw [hk, AList.lookup_erase] at he
      exact nomatch he
    · rw [AList.lookup_erase_ne hk] at he
      exact h.key_eq key e he

theorem Indexed.cons {ent : ReplayEntry} {order : List ReplayEntry}
    {byKey : AList fun _ : Bytes ↦ ReplayEntry} (h : Indexed order byKey)
    (hfresh : byKey.lookup ent.key = none) :
    Indexed (ent :: order) (byKey.insert ent.key ent) := by
  have hne := (h.lookup_eq_none_iff ent.key).mp hfresh
  refine ⟨fun e ↦ ?_, fun key e he ↦ ?_, List.nodup_cons.mpr ⟨fun hm ↦ hne ent hm rfl, h.nodup⟩⟩
  · by_cases hk : e.key = ent.key
    · rw [hk, AList.lookup_insert, List.mem_cons]
      constructor
      · rintro (rfl | hmem)
        · rfl
        · exact absurd hk (hne e hmem)
      · intro heq
        exact Or.inl (Option.some.inj heq).symm
    · rw [AList.lookup_insert_ne hk, ← h.mem_iff e, List.mem_cons]
      constructor
      · rintro (rfl | hmem)
        · exact absurd rfl hk
        · exact hmem
      · exact Or.inr
  · by_cases hk : key = ent.key
    · rw [hk, AList.lookup_insert] at he
      rw [hk, Option.some.inj he]
    · rw [AList.lookup_insert_ne hk] at he
      exact h.key_eq key e he

theorem Indexed.perm {order order' : List ReplayEntry}
    {byKey : AList fun _ : Bytes ↦ ReplayEntry} (h : Indexed order byKey)
    (hp : order.Perm order') : Indexed order' byKey :=
  ⟨fun ent ↦ by rw [← hp.mem_iff]; exact h.mem_iff ent, h.key_eq, hp.nodup_iff.mp h.nodup⟩

theorem Indexed.dropBack {p : ReplayEntry → Nat → Bool} {order : List ReplayEntry}
    {byKey : AList fun _ : Bytes ↦ ReplayEntry} (h : Indexed order byKey) :
    Indexed (dropBack p order byKey).1 (dropBack p order byKey).2 := by
  induction order generalizing byKey with
  | nil => exact h
  | cons ent prev ih =>
      rw [ReplayLRU.dropBack]
      by_cases hp : p ent (prev.length + 1)
      · rw [if_pos hp]
        exact ih h.tail
      · rw [if_neg hp]
        exact h

theorem Indexed.dropBackWhile {p : ReplayEntry → Nat → Bool} {r : ReplayLRU}
    (h : Indexed r.order r.byKey) :
    Indexed (r.dropBackWhile p).order (r.dropBackWhile p).byKey :=
  (h.perm r.order.reverse_perm.symm).dropBack.perm (List.reverse_perm _).symm

/-! ## What the loops leave -/

theorem dropBack_order_of_entry (q : ReplayEntry → Bool) (order : List ReplayEntry)
    (byKey : AList fun _ : Bytes ↦ ReplayEntry) :
    (dropBack (fun ent _ ↦ q ent) order byKey).1 = order.dropWhile q := by
  induction order generalizing byKey with
  | nil => rfl
  | cons ent prev ih =>
      rw [dropBack, List.dropWhile_cons]
      by_cases hq : q ent
      · rw [if_pos hq, if_pos hq, ih]
      · rw [if_neg hq, if_neg hq]

theorem dropBack_order_of_length (max : Nat) (order : List ReplayEntry)
    (byKey : AList fun _ : Bytes ↦ ReplayEntry) :
    (dropBack (fun _ len ↦ decide (len > max)) order byKey).1 =
      order.drop (order.length - max) := by
  induction order generalizing byKey with
  | nil => exact List.drop_nil.symm
  | cons ent prev ih =>
      rw [dropBack, List.length_cons]
      by_cases hlen : prev.length + 1 > max
      · rw [if_pos (decide_eq_true hlen), ih, Nat.succ_sub (Nat.le_of_lt_succ hlen),
          List.drop_succ_cons]
      · rw [if_neg (by simpa using hlen), Nat.sub_eq_zero_of_le (Nat.not_lt.mp hlen),
          List.drop_zero]

/-- Entries stand in the order they were recorded in, so they expire from the
back. -/
abbrev Sorted (hist : List ReplayEntry) : Prop :=
  hist.Pairwise fun newer older ↦ older.expiresAt ≤ newer.expiresAt

theorem Sorted.filter_eq_nil {now : Time} {ent : ReplayEntry} {hist : List ReplayEntry}
    (h : Sorted (ent :: hist)) (hdead : ¬ent.live now) : hist.filter (·.live now) = [] := by
  refine List.filter_eq_nil_iff.mpr fun e he hlive ↦ hdead ?_
  have hle : e.expiresAt ≤ ent.expiresAt := List.rel_of_pairwise_cons h he
  exact ReplayEntry.live_iff.mpr (Int.lt_of_lt_of_le (ReplayEntry.live_iff.mp hlive) hle)

theorem Sorted.filter_take {hist : List ReplayEntry} (h : Sorted hist) (now : Time) (n : Nat) :
    (hist.take n).filter (·.live now) = (hist.filter (·.live now)).take n := by
  induction hist generalizing n with
  | nil => rw [List.take_nil, List.filter_nil, List.take_nil]
  | cons ent hist ih =>
      cases n with
      | zero => rfl
      | succ n =>
          rw [List.take_succ_cons, List.filter_cons, List.filter_cons]
          by_cases hlive : ent.live now
          · rw [if_pos hlive, if_pos hlive, List.take_succ_cons, ih (List.Pairwise.of_cons h)]
          · rw [if_neg hlive, if_neg hlive, ih (List.Pairwise.of_cons h),
              h.filter_eq_nil hlive, List.take_nil, List.take_nil]

theorem Sorted.rdropWhile_eq_filter {order : List ReplayEntry} (h : Sorted order) (now : Time) :
    (order.reverse.dropWhile fun ent ↦ !ent.live now).reverse = order.filter (·.live now) := by
  induction order using List.reverseRecOn with
  | nil => rfl
  | append_singleton order ent ih =>
      obtain ⟨hs, -, hlast⟩ := List.pairwise_append.mp h
      rw [List.reverse_append, List.reverse_singleton, List.singleton_append, List.dropWhile_cons,
        List.filter_append]
      by_cases hlive : ent.live now
      · -- everything in front of a live entry is live too
        have hall : order.filter (·.live now) = order :=
          List.filter_eq_self.mpr fun e he ↦
            ReplayEntry.live_iff.mpr (Int.lt_of_lt_of_le (ReplayEntry.live_iff.mp hlive)
              (hlast e he ent (List.mem_singleton_self ent)))
        rw [hlive, Bool.not_true, if_neg Bool.false_ne_true, List.reverse_cons,
          List.reverse_reverse, hall, List.filter_singleton, hlive]
        rfl
      · rw [Bool.not_eq_true] at hlive
        rw [hlive, Bool.not_false, if_pos rfl, ih hs, List.filter_singleton, hlive]
        exact (List.append_nil _).symm

/-! ## The cache and its history -/

/-- No entry was recorded while the same hash was unexpired among the newest
`max` records. -/
def Spaced (ttl : Duration) (max : Nat) : List ReplayEntry → Prop
  | [] => True
  | ent :: hist =>
      (∀ e ∈ (hist.filter (·.live (ent.expiresAt - ttl))).take max, e.key ≠ ent.key) ∧
        Spaced ttl max hist

theorem Spaced.of_append {ttl : Duration} {max : Nat} {newer hist : List ReplayEntry}
    (h : Spaced ttl max (newer ++ hist)) : Spaced ttl max hist := by
  induction newer with
  | nil => exact h
  | cons ent newer ih => exact ih h.2

/-- While an entry lives, at most `max` records after it have distinct hashes. -/
theorem Spaced.nodup_keys {ttl : Duration} {max : Nat} {newer older : List ReplayEntry}
    {last : ReplayEntry} {now : Time} (h : Spaced ttl max (newer ++ last :: older))
    (hs : Sorted (newer ++ last :: older)) (hlive : now < last.expiresAt)
    (hrec : ∀ ent ∈ newer, ent.expiresAt ≤ now + ttl) (hlen : newer.length ≤ max) :
    (newer.map ReplayEntry.key).Nodup := by
  induction newer with
  | nil => exact List.nodup_nil
  | cons ent newer ih =>
      have hle : ent.expiresAt - ttl ≤ now :=
        Int.sub_right_le_of_le_add (hrec ent List.mem_cons_self)
      have hs' : Sorted (newer ++ last :: older) := List.Pairwise.of_cons hs
      refine List.nodup_cons.mpr ⟨fun hmem ↦ ?_,
        ih h.2 hs' (fun e he ↦ hrec e (List.mem_cons_of_mem _ he)) (Nat.le_of_succ_le hlen)⟩
      obtain ⟨e, he, hkey⟩ := List.mem_map.mp hmem
      refine h.1 e ?_ hkey
      show e ∈ ((newer ++ last :: older).filter (·.live (ent.expiresAt - ttl))).take max
      -- the records between are live when `ent` is recorded, so they come first
      have hfilter : newer.filter (·.live (ent.expiresAt - ttl)) = newer :=
        List.filter_eq_self.mpr fun e' he' ↦ ReplayEntry.live_iff.mpr
          (Int.lt_of_le_of_lt hle (Int.lt_of_lt_of_le hlive
            ((List.pairwise_append.mp hs').2.2 e' he' last List.mem_cons_self)))
      rw [List.filter_append, hfilter, List.take_append,
        List.take_of_length_le (Nat.le_of_succ_le hlen)]
      exact List.mem_append_left _ he

/-- The cache after everything in `hist` (newest first) was recorded, at the
instant `now`. -/
structure Remembers (r : ReplayLRU) (hist : List ReplayEntry) (now : Time) : Prop where
  indexed : Indexed r.order r.byKey
  order_eq : r.order = (hist.filter (·.live now)).take r.max
  sorted : Sorted hist
  recent : ∀ ent ∈ hist, ent.expiresAt ≤ now + r.ttl
  spaced : Spaced r.ttl r.max hist

theorem remembers_new (ttl : Duration) (max : Nat) (now : Time) :
    (new ttl max).Remembers [] now := by
  refine ⟨⟨fun ent ↦ ?_, fun key ent h ↦ ?_, List.nodup_nil⟩, ?_, List.Pairwise.nil, ?_, trivial⟩
  · constructor <;> intro h <;> exact nomatch h
  · exact nomatch h
  · exact List.take_nil.symm
  · exact fun ent h ↦ nomatch h

theorem Remembers.evictExpired {r : ReplayLRU} {hist : List ReplayEntry} {now now' : Time}
    (h : r.Remembers hist now) (hle : now ≤ now') :
    (r.evictExpired now').Remembers hist now' := by
  have hsub : ∀ ent : ReplayEntry, ent.live now' → ent.live now := fun ent hlive ↦
    ReplayEntry.live_iff.mpr (Int.lt_of_le_of_lt hle (ReplayEntry.live_iff.mp hlive))
  refine ⟨h.indexed.dropBackWhile, ?_, h.sorted, fun ent hent ↦ ?_, h.spaced⟩
  · have hsorted : Sorted (hist.filter (·.live now)) := h.sorted.filter _
    have horder : Sorted r.order := by
      rw [h.order_eq]
      exact hsorted.sublist (List.take_sublist _ _)
    calc (r.evictExpired now').order
        = (r.order.reverse.dropWhile fun ent ↦ !ent.live now').reverse :=
          congrArg List.reverse (dropBack_order_of_entry _ _ _)
      _ = r.order.filter (·.live now') := horder.rdropWhile_eq_filter now'
      _ = ((hist.filter (·.live now)).filter (·.live now')).take r.max := by
          rw [h.order_eq, hsorted.filter_take]
      _ = (hist.filter (·.live now')).take r.max := by
          rw [List.filter_filter]
          congr 1
          refine List.filter_congr fun ent _ ↦ ?_
          cases hl : ent.live now' with
          | true => rw [hsub ent hl, Bool.and_self]
          | false => rw [Bool.false_and]
  · exact Int.le_trans (h.recent ent hent) (Int.add_le_add_right hle r.ttl)

theorem Remembers.add {r : ReplayLRU} {hist : List ReplayEntry} {now : Time} {key : Bytes}
    (h : r.Remembers hist now) (hfresh : r.byKey.lookup key = none) (httl : 0 < r.ttl) :
    (r.pushFront ⟨key, now + r.ttl⟩).evictOverflow.Remembers (⟨key, now + r.ttl⟩ :: hist) now := by
  have hlive : (ReplayEntry.mk key (now + r.ttl)).live now :=
    ReplayEntry.live_iff.mpr (Int.lt_add_of_pos_right now httl)
  refine ⟨(h.indexed.cons hfresh).dropBackWhile, ?_, List.pairwise_cons.mpr ⟨h.recent, h.sorted⟩,
    fun ent hent ↦ ?_, fun ent hent ↦ ?_, h.spaced⟩
  · calc (r.pushFront ⟨key, now + r.ttl⟩).evictOverflow.order
        = ((⟨key, now + r.ttl⟩ :: r.order).reverse.drop
            ((⟨key, now + r.ttl⟩ :: r.order).reverse.length - r.max)).reverse :=
          congrArg List.reverse (dropBack_order_of_length _ _ _)
      _ = (⟨key, now + r.ttl⟩ :: r.order).take r.max := by
          rw [← List.take_reverse, List.reverse_reverse]
      _ = ((⟨key, now + r.ttl⟩ :: hist).filter (·.live now)).take r.max := by
          rw [List.filter_cons, if_pos hlive, h.order_eq]
          cases r.max with
          | zero => rfl
          | succ n => rw [List.take_succ_cons, List.take_succ_cons, List.take_take,
              Nat.min_eq_left (Nat.le_succ n)]
  · rcases List.mem_cons.mp hent with rfl | hmem
    · exact Int.le_refl (now + r.ttl)
    · exact h.recent ent hmem
  · refine (h.indexed.lookup_eq_none_iff key).mp hfresh ent ?_
    have hent' : ent ∈ (hist.filter (·.live (now + r.ttl - r.ttl))).take r.max := hent
    rw [Int.add_sub_cancel, ← h.order_eq] at hent'
    exact hent'

theorem addIfNew_of_lookup_eq_none {r : ReplayLRU} {now : Time} {key : Bytes}
    (h : (r.evictExpired now).byKey.lookup key = none) :
    r.addIfNew now key =
      (true, ((r.evictExpired now).pushFront ⟨key, now + r.ttl⟩).evictOverflow) := by
  rw [addIfNew]
  dsimp only
  rw [h]
  rfl

/-- After the eviction an entry in the map is never stale: the branch of
`AddIfNew` that replaces one is not taken. -/
theorem Remembers.addIfNew_of_lookup_eq_some {r : ReplayLRU} {hist : List ReplayEntry}
    {now now' : Time} {key : Bytes} {ent : ReplayEntry} (h : r.Remembers hist now)
    (hle : now ≤ now') (hent : (r.evictExpired now').byKey.lookup key = some ent) :
    r.addIfNew now' key = (false, r.evictExpired now') := by
  have h' := h.evictExpired hle
  have hlive : ent.live now' := by
    have hmem : ent ∈ (r.evictExpired now').order := by
      rw [h'.indexed.mem_iff, h'.indexed.key_eq key ent hent]
      exact hent
    rw [h'.order_eq] at hmem
    exact List.of_mem_filter (List.mem_of_mem_take hmem)
  rw [addIfNew]
  dsimp only
  rw [hent]
  exact if_pos hlive

/-- The entry `AddIfNew` adds to the history, if it adds one. -/
def recordedBy (r : ReplayLRU) (now : Time) (key : Bytes) : List ReplayEntry :=
  if (r.addIfNew now key).1 then [⟨key, now + r.ttl⟩] else []

/-- **Step.**  `AddIfNew` keeps the cache in step with its history. -/
theorem Remembers.addIfNew {r : ReplayLRU} {hist : List ReplayEntry} {now now' : Time}
    (h : r.Remembers hist now) (hle : now ≤ now') (httl : 0 < r.ttl) (key : Bytes) :
    (r.addIfNew now' key).2.Remembers (r.recordedBy now' key ++ hist) now' := by
  rw [recordedBy]
  cases hl : (r.evictExpired now').byKey.lookup key with
  | none =>
      rw [addIfNew_of_lookup_eq_none hl]
      exact (h.evictExpired hle).add hl httl
  | some ent =>
      rw [h.addIfNew_of_lookup_eq_some hle hl]
      exact h.evictExpired hle

@[simp] theorem addIfNew_ttl (r : ReplayLRU) (now : Time) (key : Bytes) :
    (r.addIfNew now key).2.ttl = r.ttl := by
  rw [addIfNew]
  dsimp only
  split
  · split <;> rfl
  · rfl

@[simp] theorem addIfNew_max (r : ReplayLRU) (now : Time) (key : Bytes) :
    (r.addIfNew now key).2.max = r.max := by
  rw [addIfNew]
  dsimp only
  split
  · split <;> rfl
  · rfl

/-- A hash is refused exactly if it is among the newest `max` records and has
not expired. -/
theorem Remembers.addIfNew_eq_false_iff {r : ReplayLRU} {hist : List ReplayEntry}
    {now now' : Time} (h : r.Remembers hist now) (hle : now ≤ now') (key : Bytes) :
    (r.addIfNew now' key).1 = false ↔
      ∃ ent ∈ (hist.filter (·.live now')).take r.max, ent.key = key := by
  have h' := h.evictExpired hle
  have horder : (r.evictExpired now').order = (hist.filter (·.live now')).take r.max := h'.order_eq
  rw [← horder]
  cases hl : (r.evictExpired now').byKey.lookup key with
  | none =>
      rw [addIfNew_of_lookup_eq_none hl]
      constructor
      · exact fun h ↦ nomatch h
      · rintro ⟨ent, hent, hkey⟩
        exact absurd hkey ((h'.indexed.lookup_eq_none_iff key).mp hl ent hent)
  | some ent =>
      rw [h.addIfNew_of_lookup_eq_some hle hl]
      have hkey := h'.indexed.key_eq key ent hl
      refine ⟨fun _ ↦ ⟨ent, (h'.indexed.mem_iff ent).mpr ?_, hkey⟩, fun _ ↦ rfl⟩
      rw [hkey]
      exact hl

/-- The same, in terms of the last time the hash was recorded: it is refused
exactly if that record has not expired and fewer than `max` records came after
it. -/
theorem Remembers.addIfNew_eq_false_iff_last {r : ReplayLRU} {newer older : List ReplayEntry}
    {last : ReplayEntry} {now now' : Time} (h : r.Remembers (newer ++ last :: older) now)
    (hle : now ≤ now') (hnewer : ∀ ent ∈ newer, ent.key ≠ last.key) :
    (r.addIfNew now' last.key).1 = false ↔ now' < last.expiresAt ∧ newer.length < r.max := by
  obtain ⟨-, hs, hcross⟩ := List.pairwise_append.mp h.sorted
  have holder : ∀ ent ∈ last :: older, ent.expiresAt ≤ last.expiresAt := fun ent hent ↦ by
    rcases List.mem_cons.mp hent with rfl | hmem
    · exact Int.le_refl _
    · exact List.rel_of_pairwise_cons hs hmem
  -- if the last record is live, so is everything recorded after it
  have hfilter : now' < last.expiresAt → (newer ++ last :: older).filter (·.live now') =
      newer ++ last :: older.filter (·.live now') := fun hlive ↦ by
    rw [List.filter_append, List.filter_cons, if_pos (ReplayEntry.live_iff.mpr hlive),
      List.filter_eq_self.mpr fun ent hent ↦ ReplayEntry.live_iff.mpr
        (Int.lt_of_lt_of_le hlive (hcross ent hent last List.mem_cons_self))]
  rw [h.addIfNew_eq_false_iff hle]
  constructor
  · rintro ⟨ent, hent, hkey⟩
    have hlive : ent.live now' := List.of_mem_filter (List.mem_of_mem_take hent)
    have hmem := List.mem_of_mem_filter (List.mem_of_mem_take hent)
    have hlast : now' < last.expiresAt := by
      rcases List.mem_append.mp hmem with hn | ho
      · exact absurd hkey (hnewer ent hn)
      · exact Int.lt_of_lt_of_le (ReplayEntry.live_iff.mp hlive) (holder ent ho)
    refine ⟨hlast, Nat.lt_of_not_le fun hmax ↦ ?_⟩
    rw [hfilter hlast, List.take_append_of_le_length hmax] at hent
    exact hnewer ent (List.mem_of_mem_take hent) hkey
  · rintro ⟨hlast, hmax⟩
    refine ⟨last, ?_, rfl⟩
    rw [hfilter hlast, List.take_append, List.mem_append]
    obtain ⟨n, hn⟩ : ∃ n, r.max - newer.length = n + 1 :=
      ⟨r.max - newer.length - 1, by omega⟩
    rw [hn, List.take_succ_cons]
    exact Or.inr List.mem_cons_self

/-- It is enough to count distinct hashes: the records after an unexpired one
repeat no hash until there are `max` of them. -/
theorem Remembers.length_lt_of_dedup_lt {r : ReplayLRU} {newer older : List ReplayEntry}
    {last : ReplayEntry} {now : Time} (h : r.Remembers (newer ++ last :: older) now)
    (hlive : now < last.expiresAt)
    (hfew : (newer.map ReplayEntry.key).dedup.length < r.max) : newer.length < r.max := by
  by_contra hge
  rw [Nat.not_lt] at hge
  -- the oldest `max` of them
  obtain ⟨latest, first, rfl, hlen⟩ : ∃ latest first, newer = latest ++ first ∧
      first.length = r.max :=
    ⟨newer.take (newer.length - r.max), newer.drop (newer.length - r.max),
      (List.take_append_drop _ _).symm, by rw [List.length_drop]; omega⟩
  have hsuffix := h.spaced
  have hsorted := h.sorted
  rw [List.append_assoc] at hsuffix hsorted
  have hnodup : (first.map ReplayEntry.key).Nodup :=
    hsuffix.of_append.nodup_keys (List.pairwise_append.mp hsorted).2.1 hlive
      (fun ent hent ↦ h.recent ent
        (List.mem_append_left _ (List.mem_append_right _ hent))) (Nat.le_of_eq hlen)
  have hsub : first.map ReplayEntry.key ⊆ ((latest ++ first).map ReplayEntry.key).dedup := by
    intro key hkey
    rw [List.mem_dedup, List.map_append]
    exact List.mem_append_right _ hkey
  have hle := (List.subperm_of_subset hnodup hsub).length_le
  rw [List.length_map, hlen] at hle
  exact Nat.not_lt.mpr hle hfew

end ReplayLRU

end LunaZTrust.Auth
