import LunaZTrust.Auth.Replay
import LunaZTrust.Transition.Object

/-!
# The replay cache and its history

What `AddIfNew` of `proxy/internal/auth/replay.go` returns, in terms of the calls before it.  A key
is refused if it was recorded before, the last record of it has not expired, and fewer
records than the cache can hold were made since (`addIfNew_history`).  The cache takes any
positive ttl and any size.
-/

namespace LunaZTrust.Auth

open LunaZTrust.Go LunaZTrust.Transition

namespace ReplayLRU

/-- The cache and its call. -/
def object (ttl : Duration) (max : Nat) : Object ReplayLRU Time Bytes Bool where
  start := .new ttl max
  enabled _ _ := true
  perform r now key := ((r.addIfNew now key).2, (r.addIfNew now key).1)

/-- The history of a cache. -/
abbrev History := List (Performed Time Bytes Bool)

/-- What was recorded, the newest first. -/
def recorded (ttl : Duration) (log : History) : List ReplayEntry :=
  (log.filter (·.result)).reverse.map fun e ↦ ⟨e.call, e.now + ttl⟩

/-- The call is the last one before some others that recorded the key. -/
structure LastRecord (key : Bytes) (log before : History) (e : Performed Time Bytes Bool)
    (between : History) : Prop where
  split : log = before ++ e :: between
  call : e.call = key
  result : e.result = true
  latest : ∀ e' ∈ between, e'.call = key → e'.result = false

variable {ttl : Duration} {max : Nat} {log : History} {key : Bytes}

theorem recorded_append (ttl : Duration) (log log' : History) :
    recorded ttl (log ++ log') = recorded ttl log' ++ recorded ttl log := by
  rw [recorded, List.filter_append, List.reverse_append, List.map_append, recorded, recorded]

theorem recorded_singleton (ttl : Duration) (e : Performed Time Bytes Bool) :
    recorded ttl [e] = if e.result then [⟨e.call, e.now + ttl⟩] else [] := by
  obtain ⟨now, key, result⟩ := e
  cases result <;> rfl

theorem mem_recorded_iff {ent : ReplayEntry} :
    ent ∈ recorded ttl log ↔ ∃ e ∈ log, e.result = true ∧ ⟨e.call, e.now + ttl⟩ = ent := by
  rw [recorded, List.mem_map]
  simp only [List.mem_reverse, List.mem_filter, and_assoc]

theorem length_recorded (ttl : Duration) (log : History) :
    (recorded ttl log).length = log.countP (·.result) := by
  rw [recorded, List.length_map, List.length_reverse, List.countP_eq_length_filter]

/-- What was recorded once was recorded a last time. -/
theorem exists_lastRecord {e : Performed Time Bytes Bool} (hmem : e ∈ log) (hcall : e.call = key)
    (hresult : e.result = true) : ∃ before e' between, LastRecord key log before e' between := by
  have hfind : (log.reverse.find? fun e ↦ e.result && e.call == key).isSome = true := by
    rw [List.find?_isSome]
    exact ⟨e, List.mem_reverse.mpr hmem, by rw [hresult, hcall, beq_self_eq_true, Bool.and_self]⟩
  obtain ⟨e', he'⟩ := Option.isSome_iff_exists.mp hfind
  obtain ⟨hp, after, before, hlog, hafter⟩ := List.find?_eq_some_iff_append.mp he'
  rw [Bool.and_eq_true, beq_iff_eq] at hp
  refine ⟨before.reverse, e', after.reverse, ?_, hp.2, hp.1, ?_⟩
  · rw [← List.reverse_reverse log, hlog, List.reverse_append, List.reverse_cons, List.append_assoc,
      List.singleton_append]
  · intro k hk hkey
    have hnot := hafter k (List.mem_reverse.mp hk)
    rwa [hkey, beq_self_eq_true, Bool.and_true, Bool.not_eq_true'] at hnot

/-- The records, cut at the last one of a key. -/
theorem LastRecord.recorded_eq {before between : History} {e : Performed Time Bytes Bool}
    (h : LastRecord key log before e between) (ttl : Duration) :
    recorded ttl log =
      recorded ttl between ++ ⟨key, e.now + ttl⟩ :: recorded ttl before := by
  rw [h.split, ← List.singleton_append, recorded_append, recorded_append, recorded_singleton,
    if_pos h.result, h.call, List.append_assoc, List.singleton_append]

theorem LastRecord.key_ne {before between : History} {e : Performed Time Bytes Bool}
    (h : LastRecord key log before e between) {ent : ReplayEntry}
    (hent : ent ∈ recorded ttl between) : ent.key ≠ key := by
  obtain ⟨e', he', hresult, rfl⟩ := mem_recorded_iff.mp hent
  intro hcall
  exact Bool.false_ne_true ((h.latest e' he' hcall).symm.trans hresult)

/-! ## The cache -/

/-- The cache against its history. -/
structure Follows (ttl : Duration) (max : Nat) (r : ReplayLRU) (clock : Time) (log : History) :
    Prop where
  remembers : r.Remembers (recorded ttl log) clock
  ttl_eq : r.ttl = ttl
  max_eq : r.max = max

/-- **Step.** -/
theorem Follows.perform {r : ReplayLRU} {clock now : Time} (h : Follows ttl max r clock log)
    (hle : clock ≤ now) (httl : 0 < ttl) (key : Bytes) :
    Follows ttl max ((object ttl max).perform r now key).1 now
      (log ++ [(object ttl max).performed r now key]) where
  remembers := by
    have hadd := h.remembers.addIfNew hle (h.ttl_eq.symm ▸ httl) key
    rw [recordedBy, h.ttl_eq] at hadd
    rw [recorded_append, recorded_singleton]
    exact hadd
  ttl_eq := (addIfNew_ttl r now key).trans h.ttl_eq
  max_eq := (addIfNew_max r now key).trans h.max_eq

theorem follows_new (ttl : Duration) (max : Nat) (now₀ : Time) :
    Follows ttl max (.new ttl max) now₀ [] := ⟨remembers_new ttl max now₀, rfl, rfl⟩

/-- A key is refused if it has a last record that still counts. -/
theorem Follows.addIfNew_eq_false_iff {r : ReplayLRU} {clock now : Time}
    (h : Follows ttl max r clock log) (hle : clock ≤ now) (key : Bytes) :
    (r.addIfNew now key).1 = false ↔ ∃ before e between, LastRecord key log before e between ∧
      now < e.now + ttl ∧ between.countP (·.result) < max := by
  have hlast : ∀ before e between, LastRecord key log before e between →
      ((r.addIfNew now key).1 = false ↔
        now < e.now + ttl ∧ between.countP (·.result) < max) := by
    intro before e between hrec
    have hremembers := h.remembers
    rw [hrec.recorded_eq ttl] at hremembers
    rw [← length_recorded ttl, ← h.max_eq]
    exact hremembers.addIfNew_eq_false_iff_last hle fun ent ↦ hrec.key_ne
  constructor
  · intro hrefused
    obtain ⟨ent, hent, hkey⟩ := (h.remembers.addIfNew_eq_false_iff hle key).mp hrefused
    obtain ⟨e, hmem, hresult, rfl⟩ :=
      mem_recorded_iff.mp (List.mem_of_mem_filter (List.mem_of_mem_take hent))
    obtain ⟨before, e', between, hrec⟩ := exists_lastRecord hmem hkey hresult
    exact ⟨before, e', between, hrec, (hlast before e' between hrec).mp hrefused⟩
  · rintro ⟨before, e, between, hrec, hcounts⟩
    exact (hlast before e between hrec).mpr hcounts

/-- The list and the map hold the same keys, each once, by the time they were inserted, and not
too many. -/
structure WellFormed (ttl : Duration) (max : Nat) (log : History) (r : ReplayLRU) : Prop where
  same_keys : ∀ key, key ∈ r.order.map ReplayEntry.key ↔ (r.byKey.lookup key).isSome = true
  nodup : (r.order.map ReplayEntry.key).Nodup
  /-- The list is a part of the history, the newest first. -/
  sublist : r.order.Sublist (recorded ttl log)
  sorted : r.order.Pairwise fun newer older ↦ older.expiresAt - ttl ≤ newer.expiresAt - ttl
  length_le : r.order.length ≤ max

theorem Follows.wellFormed {r : ReplayLRU} {clock : Time} (h : Follows ttl max r clock log) :
    WellFormed ttl max log r where
  same_keys key := by
    rw [← not_iff_not, Bool.not_eq_true, Option.isSome_eq_false_iff, Option.isNone_iff_eq_none,
      h.remembers.indexed.lookup_eq_none_iff, List.mem_map, not_exists]
    simp only [not_and]
  nodup := by
    refine List.Nodup.map_on (fun a ha b hb ↦ h.remembers.indexed.key_inj ha hb) ?_
    exact h.remembers.indexed.nodup
  sublist := by
    rw [h.remembers.order_eq]
    exact (List.take_sublist _ _).trans List.filter_sublist
  sorted := by
    have hsorted : Sorted r.order := by
      rw [h.remembers.order_eq]
      exact (h.remembers.sorted.filter _).sublist (List.take_sublist _ _)
    exact hsorted.imp fun hle ↦ Int.sub_le_sub_right hle ttl
  length_le := by
    rw [h.remembers.order_eq, ← h.max_eq]
    exact List.length_take_le _ _

/-- **The cache in terms of its history.**  In every run, a call is refused just if the key
was recorded before, the latest record of it is younger than the ttl, and fewer than `max` calls
recorded something since; and the list and the map agree throughout. -/
theorem addIfNew_history (httl : 0 < ttl) {now₀ : Time} {as : List (Time × Bytes)}
    {r : ReplayLRU} {clock : Time}
    (h : ((object ttl max).machine now₀).exec as = some ((r, clock), log)) :
    Along (fun pre e ↦ e.result = false ↔ ∃ before e' between,
      LastRecord e.call pre before e' between ∧ e.now < e'.now + ttl ∧
        between.countP (·.result) < max) log ∧
      WellFormed ttl max log r := by
  have hstep : ∀ r clock now log key, Follows ttl max r clock log → clock ≤ now →
      (object ttl max).enabled r key = true →
        Follows ttl max ((object ttl max).perform r now key).1 now
          (log ++ [(object ttl max).performed r now key]) :=
    fun r clock now log key hf hle _ ↦ hf.perform hle httl key
  constructor
  · refine Object.history_along (P := Follows ttl max) (follows_new ttl max now₀) hstep ?_ h
    intro r clock now log key hf hle _
    exact hf.addIfNew_eq_false_iff hle key
  · exact (Object.history_induction (P := Follows ttl max) (follows_new ttl max now₀) hstep
      h).wellFormed

/-- A cache of one entry, which forgets a key for another one and then takes it again. -/
theorem addIfNew_history_one_entry :
    ∃ r clock log, ((object 10 1).machine 0).exec [(0, [1]), (3, [1]), (4, [2]), (5, [1])] =
        some ((r, clock), log) ∧
      log.map (·.result) = [true, false, true, true] ∧ WellFormed 10 1 log r := by
  obtain ⟨⟨⟨r, clock⟩, log⟩, hrun⟩ := Option.isSome_iff_exists.mp (by decide +kernel :
    (((object 10 1).machine 0).exec [(0, [1]), (3, [1]), (4, [2]), (5, [1])]).isSome = true)
  have hend : (((object 10 1).machine 0).exec [(0, [1]), (3, [1]), (4, [2]), (5, [1])]).map
      (fun t ↦ t.2.map (·.result)) = some [true, false, true, true] := by decide +kernel
  rw [hrun] at hend
  exact ⟨r, clock, log, hrun, Option.some.inj hend, (addIfNew_history (by decide) hrun).2⟩

end ReplayLRU

end LunaZTrust.Auth
