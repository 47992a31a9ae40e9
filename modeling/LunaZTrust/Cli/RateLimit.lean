import LunaZTrust.Go.Bytes
import LunaZTrust.Go.Map
import LunaZTrust.Go.Time

/-!
# The limit on remote key loads

`proxy/internal/cli/ratelimit.go`: for each device, the instants of the successful
loads of the last hour.  `Allowed` and `TryRecordSuccess` both forget what is older
before they count.
-/

namespace LunaZTrust.Cli

open LunaZTrust.Go

/-- `loadRateLimitCount`. -/
def loadRateLimitCount : Nat := 10

/-- `loadRateLimitWindow`. -/
def loadRateLimitWindow : Duration := 60 * Time.minute

/-- `LoadRateLimiter`. -/
abbrev LoadRateLimiter := Map GoString (List Time)

namespace LoadRateLimiter

/-- `NewLoadRateLimiter`. -/
def new : LoadRateLimiter := ∅

/-- `l.loads[deviceID]`. -/
def times (l : LoadRateLimiter) (deviceID : GoString) : List Time :=
  (AList.lookup deviceID l).getD []

/-- `pruneLocked`: the instants that are kept, and the limiter that keeps them. -/
def pruneLocked (l : LoadRateLimiter) (deviceID : GoString) (cutoff : Time) :
    List Time × LoadRateLimiter :=
  let times := (l.times deviceID).filter fun ts ↦ decide (cutoff < ts)
  (times, if times = [] then l.erase deviceID else l.insert deviceID times)

/-- `Allowed`, at the instant it reads. -/
def allowed (l : LoadRateLimiter) (deviceID : GoString) (now : Time) : Bool × LoadRateLimiter :=
  if deviceID = [] then (false, l)
  else
    let (times, l) := l.pruneLocked deviceID (now - loadRateLimitWindow)
    (decide (times.length < loadRateLimitCount), l)

/-- `TryRecordSuccess`, with the instant it has read before it took the lock. -/
def tryRecordSuccess (l : LoadRateLimiter) (deviceID : GoString) (now : Time) :
    Bool × LoadRateLimiter :=
  if deviceID = [] then (false, l)
  else
    let (times, l) := l.pruneLocked deviceID (now - loadRateLimitWindow)
    if times.length ≥ loadRateLimitCount then (false, l)
    else (true, l.insert deviceID (times ++ [now]))

/-- `Forget`. -/
def forget (l : LoadRateLimiter) (deviceID : GoString) : LoadRateLimiter :=
  if deviceID = [] then l else l.erase deviceID

/-! ## Pruning in place

`pruneLocked` moves what it keeps to the front of the array the map shares, and cuts the slice
there.  It never writes past the place it reads, so what it keeps is what a filter keeps.
-/

/-- The loop of `pruneLocked`: the instants still to be read, the number read and the number kept,
and the array. -/
def pruneLoop (cutoff : Time) : Nat → Nat → Nat → List Time → List Time × Nat
  | 0, _, n, times => (times, n)
  | left + 1, i, n, times =>
      let ts := times.getD i Time.zero
      if cutoff < ts then pruneLoop cutoff left (i + 1) (n + 1) (times.set n ts)
      else pruneLoop cutoff left (i + 1) n times

/-- The instant that is read goes over the first of those left behind, or stays where it is. -/
theorem set_kept (kept stale rest : List Time) (ts : Time) :
    ∃ stale', (kept ++ stale ++ ts :: rest).set kept.length ts = kept ++ [ts] ++ stale' ++ rest ∧
      stale'.length = stale.length := by
  cases stale with
  | nil => exact ⟨[], by simp, rfl⟩
  | cons old stale => exact ⟨stale ++ [ts], by simp, by simp⟩

/-- The loop, where the array starts with what has been kept and ends in what has not been read:
behind what is kept it leaves something. -/
theorem pruneLoop_eq (cutoff : Time) (kept stale rest : List Time) :
    ∃ stale', pruneLoop cutoff rest.length (kept.length + stale.length) kept.length
        (kept ++ stale ++ rest) =
      (kept ++ rest.filter (fun ts ↦ decide (cutoff < ts)) ++ stale',
        (kept ++ rest.filter fun ts ↦ decide (cutoff < ts)).length) := by
  induction rest generalizing kept stale with
  | nil => exact ⟨stale, by rw [List.filter_nil, List.append_nil, List.append_nil]; rfl⟩
  | cons ts rest ih =>
      have hread : (kept ++ stale ++ ts :: rest).getD (kept.length + stale.length) Time.zero =
          ts := by
        rw [← List.length_append, List.getD_eq_getElem?_getD,
          List.getElem?_append_right (Nat.le_refl _), Nat.sub_self]
        rfl
      rw [List.length_cons, pruneLoop, hread]
      split
      · next hts =>
          obtain ⟨stale₁, hset, hlength⟩ := set_kept kept stale rest ts
          obtain ⟨stale', h⟩ := ih (kept ++ [ts]) stale₁
          refine ⟨stale', ?_⟩
          rw [hlength, List.length_append, List.length_singleton, Nat.add_right_comm] at h
          rw [hset, h, List.filter_cons, if_pos (decide_eq_true hts), ← List.append_cons]
      · next hts =>
          obtain ⟨stale', h⟩ := ih kept (stale ++ [ts])
          refine ⟨stale', ?_⟩
          rw [List.length_append, List.length_singleton, ← List.append_assoc,
            ← List.append_cons] at h
          rw [Nat.add_assoc, h, List.filter_cons, if_neg fun h ↦ hts (of_decide_eq_true h)]

/-- The slice the loop ends with holds what `pruneLocked` keeps. -/
theorem pruneLocked_in_place (l : LoadRateLimiter) (deviceID : GoString) (cutoff : Time) :
    let (array, n) := pruneLoop cutoff (l.times deviceID).length 0 0 (l.times deviceID)
    array.take n = (l.pruneLocked deviceID cutoff).1 := by
  obtain ⟨stale, h⟩ := pruneLoop_eq cutoff [] [] (l.times deviceID)
  rw [List.nil_append, List.nil_append, List.length_nil] at h
  rw [h]
  exact List.take_left

/-! ## What is remembered -/

variable (l : LoadRateLimiter) (deviceID d : GoString)

theorem times_insert (ts : List Time) :
    times (AList.insert deviceID ts l) d = if d = deviceID then ts else l.times d := by
  rw [times, Map.lookup_insert_eq]
  split <;> rfl

theorem times_erase :
    times (AList.erase deviceID l) d = if d = deviceID then [] else l.times d := by
  rw [times, Map.lookup_erase_eq]
  split <;> rfl

theorem times_pruneLocked (cutoff : Time) :
    (l.pruneLocked deviceID cutoff).2.times d =
      if d = deviceID then (l.times d).filter fun ts ↦ decide (cutoff < ts) else l.times d := by
  rw [pruneLocked]
  dsimp only
  split
  · next h =>
      rw [times_erase]
      refine ite_congr rfl (fun hd ↦ ?_) fun _ ↦ rfl
      rw [hd, h]
  · rw [times_insert]
    refine ite_congr rfl (fun hd ↦ ?_) fun _ ↦ rfl
    rw [hd]

/-! ## What is forgotten -/

/-- Nothing is added, and nothing is forgotten from an instant on. -/
structure Keeps (a : Time) (l l' : LoadRateLimiter) : Prop where
  sublist : ∀ d, (l'.times d).Sublist (l.times d)
  countP : ∀ d, (l'.times d).countP (fun ts ↦ decide (a ≤ ts)) =
    (l.times d).countP fun ts ↦ decide (a ≤ ts)

variable {l d deviceID} {a cutoff now : Time}

theorem Keeps.refl (a : Time) (l : LoadRateLimiter) : Keeps a l l :=
  ⟨fun _ ↦ List.Sublist.refl _, fun _ ↦ rfl⟩

/-- What is kept of the last hour is no more than there was. -/
theorem Keeps.length_le {l' : LoadRateLimiter}
    (h : ∀ a, now - loadRateLimitWindow < a → Keeps a l l') (d : GoString) :
    (l'.times d).length ≤ (l.times d).length :=
  ((h now (Int.sub_lt_self now (by decide))).sublist d).length_le

theorem keeps_pruneLocked (h : cutoff < a) : Keeps a l (l.pruneLocked deviceID cutoff).2 := by
  constructor
  · intro d
    rw [times_pruneLocked]
    split
    · exact List.filter_sublist
    · exact List.Sublist.refl _
  · intro d
    rw [times_pruneLocked]
    split
    · rw [List.countP_filter]
      refine List.countP_congr fun ts _ ↦ ?_
      rw [Bool.and_eq_true, decide_eq_true_eq, decide_eq_true_eq]
      exact ⟨And.left, fun ha ↦ ⟨ha, Int.lt_of_lt_of_le h ha⟩⟩
    · rfl

theorem keeps_allowed (h : now - loadRateLimitWindow < a) :
    Keeps a l (l.allowed deviceID now).2 := by
  rw [allowed]
  split
  · exact .refl a l
  · exact keeps_pruneLocked h

theorem allowed_eq_true (h : (l.allowed deviceID now).1 = true) :
    deviceID ≠ [] ∧ ((l.allowed deviceID now).2.times deviceID).length < loadRateLimitCount := by
  by_cases hd : deviceID = []
  · rw [allowed, if_pos hd] at h
    exact nomatch h
  · rw [allowed, if_neg hd] at h ⊢
    refine ⟨hd, ?_⟩
    rw [times_pruneLocked, if_pos rfl]
    exact of_decide_eq_true h

/-- The two ways to try to record a success: the limiter is full, or it takes it down. -/
theorem tryRecordSuccess_cases (l : LoadRateLimiter) (deviceID : GoString) (now : Time) :
    ∃ l', (∀ a, now - loadRateLimitWindow < a → Keeps a l l') ∧
      (l.tryRecordSuccess deviceID now = (false, l') ∧
          (deviceID ≠ [] → loadRateLimitCount ≤ (l'.times deviceID).length) ∨
        (l'.times deviceID).length < loadRateLimitCount ∧
          l.tryRecordSuccess deviceID now =
            (true, AList.insert deviceID (l'.times deviceID ++ [now]) l')) := by
  rw [tryRecordSuccess]
  split
  · next hd => exact ⟨l, fun a _ ↦ .refl a l, .inl ⟨rfl, fun hne ↦ absurd hd hne⟩⟩
  · refine ⟨(l.pruneLocked deviceID (now - loadRateLimitWindow)).2,
      fun a ha ↦ keeps_pruneLocked ha, ?_⟩
    rw [times_pruneLocked, if_pos rfl]
    dsimp only
    split
    · next hfull => exact .inl ⟨rfl, fun _ ↦ hfull⟩
    · next hroom => exact .inr ⟨Nat.lt_of_not_le hroom, rfl⟩

theorem Keeps.countP_insert {l' : LoadRateLimiter} (h : Keeps a l l') (deviceID d : GoString)
    (ts : Time) :
    (times (AList.insert deviceID (l'.times deviceID ++ [ts]) l') d).countP
        (fun ts ↦ decide (a ≤ ts)) =
      (l.times d).countP (fun ts ↦ decide (a ≤ ts)) + if d = deviceID ∧ a ≤ ts then 1 else 0 := by
  rw [times_insert, ← h.countP d]
  by_cases hd : d = deviceID
  · rw [if_pos hd, List.countP_append, List.countP_singleton, hd]
    simp only [decide_eq_true_eq, true_and]
  · rw [if_neg hd, if_neg fun hda ↦ hd hda.1, Nat.add_zero]

theorem times_forget_of_ne (h : d ≠ deviceID) : (l.forget deviceID).times d = l.times d := by
  rw [forget]
  split
  · rfl
  · rw [times_erase, if_neg h]

theorem length_times_forget_le (l : LoadRateLimiter) (deviceID d : GoString) :
    ((l.forget deviceID).times d).length ≤ (l.times d).length := by
  rw [forget]
  split
  · exact Nat.le_refl _
  · rw [times_erase]
    split
    · exact Nat.zero_le _
    · exact Nat.le_refl _

end LoadRateLimiter

end LunaZTrust.Cli
