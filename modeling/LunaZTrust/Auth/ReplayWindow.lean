import Mathlib.Data.Finset.Card
import LunaZTrust.Auth.Pipeline
import LunaZTrust.Transition.Machine

/-!
# The replay cache against the timestamp window

The proxy validates sign requests and key-load requests against one replay
cache, which `serve` creates with a time to live of 60 seconds and room for 1000
entries.  A timestamp is good for 30 seconds either way.  The two limits are
compared here over whole runs of validations, with clock readings that never
decrease.

A body is accepted a second time exactly if it passes the other checks once its
last record has expired (`same_body_not_both_accepted_iff`).  The window compares
whole seconds and the cache instants, and the time to live is exactly the width
of the window, so this happens at the very ends of the window
(`both_accepted_at_ends_of_window`).
-/

namespace LunaZTrust.Auth

open LunaZTrust.Go LunaZTrust.Ssh LunaZTrust.Transition

variable {Key Signer : Type} (crypto : Crypto) (ssh : Package Key Signer)

/-- The time to live `serve` gives the cache. -/
def replayTTL : Duration := 60 * Time.second

/-- The size `serve` gives the cache. -/
def replayMax : Nat := 1000

/-- Which of the two validators is called, with what only it takes. -/
inductive ValidationKind
  | signRequest (req : SignRequest)
  | cliKeysLoad (bodyMAC : GoString) (timestamp : Int)

/-- A call of a validator: `now` is the caller's clock reading and `seenAt` the
one `AddIfNew` makes. -/
structure ValidationCall where
  conn : TLSConn
  rawBody : Bytes
  kind : ValidationKind
  now : Time
  seenAt : Time

namespace ValidationCall

/-- The MAC header of the request. -/
def bodyMAC (c : ValidationCall) : GoString :=
  match c.kind with
  | .signRequest req => req.bodyMAC
  | .cliKeysLoad mac _ => mac

/-- The timestamp in the request. -/
def timestamp (c : ValidationCall) : Int :=
  match c.kind with
  | .signRequest req => req.timestamp
  | .cliKeysLoad _ ts => ts

/-- The call. -/
def validate (c : ValidationCall) (replay : ReplayLRU) : Except AuthError Unit × ReplayLRU :=
  match c.kind with
  | .signRequest req => validateSignRequest crypto ssh c.conn c.rawBody req c.now c.seenAt replay
  | .cliKeysLoad mac ts => validateCLIKeysLoad crypto c.conn c.rawBody mac ts c.now c.seenAt replay

/-- The part of the call up to and including the replay cache. -/
def fresh (c : ValidationCall) (replay : ReplayLRU) : Except AuthError Unit × ReplayLRU :=
  checkFresh crypto c.conn c.rawBody c.bodyMAC c.timestamp c.now c.seenAt replay

/-- The checks of the call before the replay cache. -/
def checkBefore (c : ValidationCall) : Except AuthError Unit :=
  checkBody crypto c.conn c.rawBody c.bodyMAC c.timestamp c.now

/-- The checks of the call after the replay cache. -/
def checkAfter (c : ValidationCall) : Except AuthError Unit :=
  match c.kind with
  | .signRequest req => checkRequest ssh req
  | .cliKeysLoad _ _ => .ok ()

/-- The call passes every check other than the replay cache. -/
def PassesOthers (c : ValidationCall) : Prop :=
  c.checkBefore crypto = .ok () ∧ c.checkAfter ssh = .ok ()

variable {crypto ssh}

theorem validate_eq (c : ValidationCall) (replay : ReplayLRU) :
    c.validate crypto ssh replay =
      match c.fresh crypto replay with
      | (.error e, replay) => (.error e, replay)
      | (.ok (), replay) => (c.checkAfter ssh, replay) := by
  obtain ⟨conn, rawBody, kind, now, seenAt⟩ := c
  cases kind with
  | signRequest req => rfl
  | cliKeysLoad mac ts =>
      show checkFresh crypto conn rawBody mac ts now seenAt replay =
        match checkFresh crypto conn rawBody mac ts now seenAt replay with
        | (.error e, replay) => (.error e, replay)
        | (.ok (), replay) => (.ok (), replay)
      rcases checkFresh crypto conn rawBody mac ts now seenAt replay with ⟨_ | _, _⟩ <;> rfl

theorem validate_replay (c : ValidationCall) (replay : ReplayLRU) :
    (c.validate crypto ssh replay).2 = (c.fresh crypto replay).2 := by
  rw [validate_eq]
  rcases c.fresh crypto replay with ⟨_ | _, _⟩ <;> rfl

/-- A call is accepted exactly if the cache records its body and it passes the
checks after that. -/
theorem validate_eq_ok_iff (c : ValidationCall) (replay : ReplayLRU) :
    (c.validate crypto ssh replay).1 = .ok () ↔
      (c.fresh crypto replay).1 = .ok () ∧ c.checkAfter ssh = .ok () := by
  rw [validate_eq]
  rcases c.fresh crypto replay with ⟨e | u, r⟩
  · exact ⟨(nomatch ·), fun h ↦ nomatch h.1⟩
  · exact ⟨fun h ↦ ⟨rfl, h⟩, fun h ↦ h.2⟩

theorem fresh_of_checkBefore_ok {c : ValidationCall} (h : c.checkBefore crypto = .ok ())
    (replay : ReplayLRU) :
    c.fresh crypto replay =
      (if (replay.addIfNew c.seenAt (crypto.sha256 c.rawBody)).1 then .ok () else .error .replay,
        (replay.addIfNew c.seenAt (crypto.sha256 c.rawBody)).2) := by
  rw [checkBefore] at h
  rw [fresh, checkFresh, h]

theorem fresh_of_checkBefore_error {c : ValidationCall} {e : AuthError}
    (h : c.checkBefore crypto = .error e) (replay : ReplayLRU) :
    c.fresh crypto replay = (.error e, replay) := by
  rw [checkBefore] at h
  rw [fresh, checkFresh, h]

/-- The cache records the body exactly if the checks before it pass and it does
not hold the hash. -/
theorem fresh_eq_ok_iff (c : ValidationCall) (replay : ReplayLRU) :
    (c.fresh crypto replay).1 = .ok () ↔
      c.checkBefore crypto = .ok () ∧
        (replay.addIfNew c.seenAt (crypto.sha256 c.rawBody)).1 = true := by
  cases h : c.checkBefore crypto with
  | error e =>
      rw [fresh_of_checkBefore_error h]
      exact ⟨(nomatch ·), fun h ↦ nomatch h.1⟩
  | ok u =>
      rw [fresh_of_checkBefore_ok h]
      cases (replay.addIfNew c.seenAt (crypto.sha256 c.rawBody)).1 with
      | true => exact ⟨fun _ ↦ ⟨rfl, rfl⟩, fun _ ↦ rfl⟩
      | false => exact ⟨(nomatch ·), fun h ↦ nomatch h.2⟩

end ValidationCall

/-! ## Runs of validations -/

/-- What came of a call: whether the cache recorded its body, and whether it was
accepted. -/
structure Outcome where
  call : ValidationCall
  recorded : Bool
  accepted : Bool

/-- The cache and the last clock reading. -/
structure Validator where
  clock : Time
  replay : ReplayLRU

/-- The validations of a proxy started at `t₀`.  A call is possible if its clock
readings do not go back. -/
def validation (t₀ : Time) : Machine Validator ValidationCall Outcome where
  start := ⟨t₀, .new replayTTL replayMax⟩
  step s c :=
    if s.clock ≤ c.now ∧ c.now ≤ c.seenAt then
      some (⟨c.seenAt, (c.validate crypto ssh s.replay).2⟩,
        [⟨c, (c.fresh crypto s.replay).1.isOk, (c.validate crypto ssh s.replay).1.isOk⟩])
    else none

/-- The entry the cache made for a call. -/
def Outcome.entry (o : Outcome) : ReplayEntry :=
  ⟨crypto.sha256 o.call.rawBody, o.call.seenAt + replayTTL⟩

/-- Everything the cache recorded in a run, newest first. -/
def records (log : List Outcome) : List ReplayEntry :=
  ((log.filter (·.recorded)).map (·.entry crypto)).reverse

/-- The cache is in step with the log.  It may have been looked at last some time
before the last clock reading. -/
structure Validator.Follows (s : Validator) (log : List Outcome) : Prop where
  remembers : ∃ now ≤ s.clock, s.replay.Remembers (records crypto log) now
  ttl_eq : s.replay.ttl = replayTTL
  max_eq : s.replay.max = replayMax

/-- The outcome is the one that a cache in step with the log before it gives. -/
structure Outcome.JudgedIn (s : Validator) (pre : List Outcome) (o : Outcome) : Prop where
  follows : s.Follows crypto pre
  clock_le : s.clock ≤ o.call.seenAt
  recorded_iff : o.recorded = true ↔ o.call.checkBefore crypto = .ok () ∧
    (s.replay.addIfNew o.call.seenAt (crypto.sha256 o.call.rawBody)).1 = true
  accepted_iff : o.accepted = true ↔ o.recorded = true ∧ o.call.checkAfter ssh = .ok ()

/-- The bodies other than the given one that the cache recorded in a part of a
run, each once. -/
def otherBodies (body : Bytes) (log : List Outcome) : List Bytes :=
  ((log.filter fun o ↦ o.recorded && o.call.rawBody != body).map (·.call.rawBody)).dedup

/-- In the log, the call of `o'` carries the body of the call of `o`, and fewer
other bodies than the cache has room for were recorded between them.  `before`
is the log up to `o'`. -/
def Repeats (log before : List Outcome) (o o' : Outcome) : Prop :=
  ∃ first between rest, before = first ++ o :: between ∧ log = before ++ o' :: rest ∧
    o.call.rawBody = o'.call.rawBody ∧ (otherBodies o.call.rawBody between).length < replayMax

variable {crypto ssh}

theorem records_append (log log' : List Outcome) :
    records crypto (log ++ log') = records crypto log' ++ records crypto log := by
  rw [records, List.filter_append, List.map_append, List.reverse_append, records, records]

theorem records_singleton (o : Outcome) :
    records crypto [o] = if o.recorded then [o.entry crypto] else [] := by
  rw [records, List.filter_singleton]
  cases o.recorded <;> rfl

theorem mem_records_iff {log : List Outcome} {ent : ReplayEntry} :
    ent ∈ records crypto log ↔ ∃ o ∈ log, o.recorded = true ∧ o.entry crypto = ent := by
  rw [records, List.mem_reverse, List.mem_map]
  constructor
  · rintro ⟨o, ho, rfl⟩
    exact ⟨o, List.mem_of_mem_filter ho, List.of_mem_filter ho, rfl⟩
  · rintro ⟨o, ho, hrec, rfl⟩
    exact ⟨o, List.mem_filter.mpr ⟨ho, hrec⟩, rfl⟩

theorem isOk_iff {e : Except AuthError Unit} : e.isOk = true ↔ e = .ok () := by
  cases e with
  | error e => exact ⟨(nomatch ·), (nomatch ·)⟩
  | ok u => exact ⟨fun _ ↦ rfl, fun _ ↦ rfl⟩

theorem Validator.Follows.judges {s : Validator} {log : List Outcome} (h : s.Follows crypto log)
    {c : ValidationCall} (hle : s.clock ≤ c.seenAt) :
    Outcome.JudgedIn crypto ssh s log
      ⟨c, (c.fresh crypto s.replay).1.isOk, (c.validate crypto ssh s.replay).1.isOk⟩ where
  follows := h
  clock_le := hle
  recorded_iff := isOk_iff.trans (c.fresh_eq_ok_iff s.replay)
  accepted_iff := by
    rw [isOk_iff, isOk_iff]
    exact c.validate_eq_ok_iff s.replay

/-- **Step.**  A call keeps the cache in step with the log. -/
theorem Validator.Follows.validate {s : Validator} {log : List Outcome}
    (h : s.Follows crypto log) {c : ValidationCall} (hle : s.clock ≤ c.seenAt) (accepted : Bool) :
    Validator.Follows crypto ⟨c.seenAt, (c.validate crypto ssh s.replay).2⟩
      (log ++ [⟨c, (c.fresh crypto s.replay).1.isOk, accepted⟩]) := by
  have httl : 0 < s.replay.ttl := by rw [h.ttl_eq]; decide
  obtain ⟨now, hnow, hrem⟩ := h.remembers
  have hnow' : now ≤ c.seenAt := Int.le_trans hnow hle
  rw [ValidationCall.validate_replay]
  cases hb : c.checkBefore crypto with
  | error e =>
      rw [ValidationCall.fresh_of_checkBefore_error hb]
      refine ⟨⟨now, hnow', ?_⟩, h.ttl_eq, h.max_eq⟩
      rw [records_append]
      exact hrem
  | ok u =>
      have hadd := hrem.addIfNew hnow' httl (crypto.sha256 c.rawBody)
      rw [ValidationCall.fresh_of_checkBefore_ok hb]
      refine ⟨⟨c.seenAt, Int.le_refl _, ?_⟩, (s.replay.addIfNew_ttl _ _).trans h.ttl_eq,
        (s.replay.addIfNew_max _ _).trans h.max_eq⟩
      rw [records_append, records_singleton]
      rw [ReplayLRU.recordedBy, h.ttl_eq] at hadd
      cases hnew : (s.replay.addIfNew c.seenAt (crypto.sha256 c.rawBody)).1 with
      | true =>
          rw [hnew] at hadd
          exact hadd
      | false =>
          rw [hnew] at hadd
          exact hadd

theorem follows_start (t₀ : Time) : (validation crypto ssh t₀).start.Follows crypto [] :=
  ⟨⟨t₀, Int.le_refl t₀, ReplayLRU.remembers_new _ _ _⟩, rfl, rfl⟩

theorem step_eq_some_iff {t₀ : Time} {s t : Validator} {c : ValidationCall} {es : List Outcome} :
    (validation crypto ssh t₀).step s c = some (t, es) ↔
      (s.clock ≤ c.now ∧ c.now ≤ c.seenAt) ∧
        t = ⟨c.seenAt, (c.validate crypto ssh s.replay).2⟩ ∧
        es = [⟨c, (c.fresh crypto s.replay).1.isOk, (c.validate crypto ssh s.replay).1.isOk⟩] := by
  show (if s.clock ≤ c.now ∧ c.now ≤ c.seenAt then _ else none) = _ ↔ _
  by_cases hc : s.clock ≤ c.now ∧ c.now ≤ c.seenAt
  · rw [if_pos hc, Option.some.injEq, Prod.mk.injEq]
    exact ⟨fun h ↦ ⟨hc, h.1.symm, h.2.symm⟩, fun h ↦ ⟨h.2.1.symm, h.2.2.symm⟩⟩
  · rw [if_neg hc]
    exact ⟨(nomatch ·), fun h ↦ absurd h.1 hc⟩

/-- **Run.**  Every outcome of a run is the one that a cache in step with the log
before it gives. -/
theorem exec_judged {t₀ : Time} {calls : List ValidationCall} {s : Validator}
    {log : List Outcome} (hrun : (validation crypto ssh t₀).exec calls = some (s, log)) :
    Along (fun pre o ↦ ∃ s, o.JudgedIn crypto ssh s pre) log := by
  refine (validation crypto ssh t₀).exec_along (P := fun s log ↦ s.Follows crypto log)
    (follows_start t₀) (fun s log c t es h hstep ↦ ?_) (fun s log c t es h hstep ↦ ?_) hrun
  · obtain ⟨⟨h₁, h₂⟩, rfl, rfl⟩ := step_eq_some_iff.mp hstep
    exact h.validate (Int.le_trans h₁ h₂) _
  · obtain ⟨⟨h₁, h₂⟩, rfl, rfl⟩ := step_eq_some_iff.mp hstep
    refine along_cons_iff.mpr ⟨⟨s, ?_⟩, along_nil _⟩
    rw [List.append_nil]
    exact h.judges (Int.le_trans h₁ h₂)

/-! ## A body that comes twice -/

/-- The last record of a hash in a history that has one. -/
theorem exists_last_record {hist : List ReplayEntry} {ent : ReplayEntry} (h : ent ∈ hist) :
    ∃ newer last older, hist = newer ++ last :: older ∧ last.key = ent.key ∧
      ∀ e ∈ newer, e.key ≠ ent.key := by
  induction hist with
  | nil => exact nomatch h
  | cons e hist ih =>
      by_cases hkey : e.key = ent.key
      · exact ⟨[], e, hist, rfl, hkey, fun _ h ↦ nomatch h⟩
      · have hmem : ent ∈ hist := by
          rcases List.mem_cons.mp h with rfl | hmem
          · exact absurd rfl hkey
          · exact hmem
        obtain ⟨newer, last, older, rfl, hlast, hnewer⟩ := ih hmem
        refine ⟨e :: newer, last, older, rfl, hlast, fun e' he' ↦ ?_⟩
        rcases List.mem_cons.mp he' with rfl | he'
        · exact hkey
        · exact hnewer e' he'

/-- Records of other hashes are records of other bodies. -/
theorem dedup_keys_length_le {body : Bytes} {between : List Outcome}
    {newer : List ReplayEntry} (hsub : ∀ e ∈ newer, e ∈ records crypto between)
    (hne : ∀ e ∈ newer, e.key ≠ crypto.sha256 body) :
    (newer.map ReplayEntry.key).dedup.length ≤ (otherBodies body between).length := by
  have hkeys :
      (newer.map ReplayEntry.key).dedup ⊆ (otherBodies body between).map crypto.sha256 := by
    intro key hkey
    obtain ⟨e, he, rfl⟩ := List.mem_map.mp (List.mem_dedup.mp hkey)
    obtain ⟨o, ho, hrec, rfl⟩ := mem_records_iff.mp (hsub e he)
    have hbody : o.call.rawBody ≠ body := fun heq ↦ hne _ he (congrArg crypto.sha256 heq)
    refine List.mem_map.mpr ⟨o.call.rawBody, List.mem_dedup.mpr (List.mem_map.mpr
      ⟨o, List.mem_filter.mpr ⟨ho, ?_⟩, rfl⟩), rfl⟩
    rw [hrec, Bool.true_and]
    exact bne_iff_ne.mpr hbody
  have hle := (List.subperm_of_subset (List.nodup_dedup _) hkeys).length_le
  rwa [List.length_map] at hle

/-- If a body is recorded a second time although few others were recorded in
between, then every earlier record of it has expired. -/
theorem Outcome.JudgedIn.expired_of_recorded_again {s : Validator}
    {first between : List Outcome} {o o' k : Outcome}
    (h : o'.JudgedIn crypto ssh s (first ++ o :: between))
    (hbody : o.call.rawBody = o'.call.rawBody)
    (hfew : (otherBodies o.call.rawBody between).length < replayMax)
    (ho : o.recorded = true) (ho' : o'.recorded = true) (hk : k ∈ first ++ o :: between)
    (hkrec : k.recorded = true) (hkbody : k.call.rawBody = o'.call.rawBody) :
    k.call.seenAt + replayTTL ≤ o'.call.seenAt := by
  obtain ⟨now, hnow, hrem⟩ := h.follows.remembers
  have hnow' : now ≤ o'.call.seenAt := Int.le_trans hnow h.clock_le
  have hkmem : k.entry crypto ∈ records crypto (first ++ o :: between) :=
    mem_records_iff.mpr ⟨k, hk, hkrec, rfl⟩
  have hkkey : (k.entry crypto).key = (o.entry crypto).key :=
    congrArg crypto.sha256 (hkbody.trans hbody.symm)
  -- the last record of the body is that of `o` or comes after it
  have hsplit : records crypto (first ++ o :: between) =
      (records crypto between ++ [o.entry crypto]) ++ records crypto first := by
    rw [← List.singleton_append, records_append, records_append, records_singleton, if_pos ho]
  obtain ⟨newer, last, older, hrecs, hlast, hnewer⟩ : ∃ newer last older,
      records crypto between ++ [o.entry crypto] = newer ++ last :: older ∧
        last.key = (o.entry crypto).key ∧ ∀ e ∈ newer, e.key ≠ (o.entry crypto).key :=
    exists_last_record (List.mem_append_right _ (List.mem_singleton_self _))
  have hsub : ∀ e ∈ newer, e ∈ records crypto between := by
    intro e he
    have hmem : e ∈ records crypto between ++ [o.entry crypto] := by
      rw [hrecs]
      exact List.mem_append_left _ he
    rcases List.mem_append.mp hmem with hmem | hmem
    · exact hmem
    · exact absurd (congrArg ReplayEntry.key (List.mem_singleton.mp hmem)) (hnewer e he)
  rw [hsplit, hrecs, List.append_assoc, List.cons_append] at hrem hkmem
  by_contra hlive
  have hklast : (k.entry crypto).expiresAt ≤ last.expiresAt := by
    rcases List.mem_append.mp hkmem with hmem | hmem
    · exact absurd hkkey (hnewer _ hmem)
    · rcases List.mem_cons.mp hmem with heq | hmem
      · exact Int.le_of_eq (congrArg ReplayEntry.expiresAt heq)
      · exact List.rel_of_pairwise_cons (List.pairwise_append.mp hrem.sorted).2.1 hmem
  have hlastlive : o'.call.seenAt < last.expiresAt :=
    Int.lt_of_lt_of_le (Int.not_le.mp hlive) hklast
  have hlen : newer.length < s.replay.max := by
    refine hrem.length_lt_of_dedup_lt (Int.lt_of_le_of_lt hnow' hlastlive) ?_
    rw [h.follows.max_eq]
    exact Nat.lt_of_le_of_lt (dedup_keys_length_le hsub hnewer) hfew
  have hrefused := (hrem.addIfNew_eq_false_iff_last hnow'
    fun e he ↦ hlast.symm ▸ hnewer e he).mpr ⟨hlastlive, hlen⟩
  have hadded := (h.recorded_iff.mp ho').2
  rw [← hbody, show crypto.sha256 o.call.rawBody = last.key from hlast.symm, hrefused] at hadded
  exact nomatch hadded

/-- If a call passes the checks before the cache and is not recorded, some call
with the same hash was recorded within the time to live. -/
theorem Outcome.JudgedIn.exists_recorded_of_refused {s : Validator} {pre : List Outcome}
    {o : Outcome} (h : o.JudgedIn crypto ssh s pre) (hbefore : o.call.checkBefore crypto = .ok ())
    (hrec : o.recorded = false) :
    ∃ k ∈ pre, k.recorded = true ∧
      crypto.sha256 k.call.rawBody = crypto.sha256 o.call.rawBody ∧
        o.call.seenAt < k.call.seenAt + replayTTL := by
  obtain ⟨now, hnow, hrem⟩ := h.follows.remembers
  have hrefused : (s.replay.addIfNew o.call.seenAt (crypto.sha256 o.call.rawBody)).1 = false := by
    by_contra hnew
    have := h.recorded_iff.mpr ⟨hbefore, Bool.eq_true_of_not_eq_false hnew⟩
    rw [hrec] at this
    exact nomatch this
  obtain ⟨ent, hent, hkey⟩ :=
    (hrem.addIfNew_eq_false_iff (Int.le_trans hnow h.clock_le) _).mp hrefused
  have hent := List.mem_of_mem_take hent
  obtain ⟨k, hk, hkrec, rfl⟩ := mem_records_iff.mp (List.mem_of_mem_filter hent)
  exact ⟨k, hk, hkrec, hkey, ReplayEntry.live_iff.mp (List.of_mem_filter hent)⟩

/-- **When the cache covers the window.**  In a run in which no two bodies have
the same hash, no two calls with one body, with few others recorded between
them, are both accepted, exactly if every call that repeats an accepted one and
passes the other checks comes less than the time to live after some record of
the body. -/
theorem same_body_not_both_accepted_iff {t₀ : Time} {calls : List ValidationCall}
    {s : Validator} {log : List Outcome}
    (hrun : (validation crypto ssh t₀).exec calls = some (s, log))
    (hsha : Set.InjOn crypto.sha256 {body | ∃ o ∈ log, o.call.rawBody = body}) :
    (∀ before o o', Repeats log before o o' → ¬(o.accepted = true ∧ o'.accepted = true)) ↔
      ∀ before o o', Repeats log before o o' → o.accepted = true →
        o'.call.PassesOthers crypto ssh →
          ∃ k ∈ before, k.recorded = true ∧ k.call.rawBody = o'.call.rawBody ∧
            o'.call.seenAt < k.call.seenAt + replayTTL := by
  have hjudged := exec_judged hrun
  constructor
  · rintro hnot before o o' hrep hacc ⟨hbefore, hafter⟩
    obtain ⟨first, between, rest, hb, rfl, hbody, hfew⟩ := id hrep
    obtain ⟨s', hj⟩ := hjudged before o' rest rfl
    have hrec : o'.recorded = false := by
      by_contra hrec
      exact hnot before o o' hrep
        ⟨hacc, hj.accepted_iff.mpr ⟨Bool.eq_true_of_not_eq_false hrec, hafter⟩⟩
    obtain ⟨k, hk, hkrec, hkey, hlive⟩ := hj.exists_recorded_of_refused hbefore hrec
    refine ⟨k, hk, hkrec, hsha ?_ ?_ hkey, hlive⟩
    · exact ⟨k, List.mem_append_left _ hk, rfl⟩
    · exact ⟨o', List.mem_append_right _ List.mem_cons_self, rfl⟩
  · rintro hcover before o o' hrep ⟨hacc, hacc'⟩
    obtain ⟨first, between, rest, rfl, rfl, hbody, hfew⟩ := id hrep
    obtain ⟨s', hj⟩ := hjudged _ o' rest rfl
    obtain ⟨so, hjo⟩ := hjudged first o (between ++ o' :: rest)
      (by rw [List.append_assoc, List.cons_append])
    obtain ⟨hrec', hafter⟩ := hj.accepted_iff.mp hacc'
    have hrec := (hjo.accepted_iff.mp hacc).1
    obtain ⟨k, hk, hkrec, hkbody, hlive⟩ :=
      hcover _ o o' hrep hacc ⟨(hj.recorded_iff.mp hrec').1, hafter⟩
    exact Int.not_le.mpr hlive
      (hj.expired_of_recorded_again hbody hfew hrec hrec' hk hkrec hkbody)

/-! ## The ends of the window -/

/-- For timestamps and clock readings that are nowhere near the ends of `int64`,
the window is what it should be. -/
theorem validateTimestampAt_eq_ok_iff {ts : Int} {now : Time} (hts : -2 ^ 62 < ts ∧ ts < 2 ^ 62)
    (hnow : -2 ^ 62 < Time.unix now ∧ Time.unix now < 2 ^ 62) :
    validateTimestampAt ts now timestampWindowSec = .ok () ↔
      ts - timestampWindowSec ≤ Time.unix now ∧ Time.unix now ≤ ts + timestampWindowSec := by
  rw [validateTimestampAt_eq_ok_iff_natAbs ⟨by omega, by omega⟩ ⟨by omega, by omega⟩ (by decide)
    (by decide), timestampWindowSec]
  omega

theorem checkBody_eq_ok {conn : TLSConn} {rawBody : Bytes} {bodyMAC : GoString} {timestamp : Int}
    {now : Time} (h : checkBody crypto conn rawBody bodyMAC timestamp now = .ok ()) :
    validateTimestampAt timestamp now timestampWindowSec = .ok () := by
  rw [checkBody] at h
  cases hmac : verifyBodyHMAC crypto conn rawBody bodyMAC with
  | error e =>
      rw [hmac] at h
      exact nomatch h
  | ok u =>
      rw [hmac] at h
      exact h

/-- **The gap is at the ends of the window.**  Two calls with one body and one
timestamp, each made in an instant, are both accepted only in the first and the
last second of the window. -/
theorem both_accepted_at_ends_of_window {t₀ : Time} {calls : List ValidationCall}
    {s : Validator} {log before : List Outcome} {o o' : Outcome}
    (hrun : (validation crypto ssh t₀).exec calls = some (s, log))
    (hrep : Repeats log before o o') (hacc : o.accepted = true) (hacc' : o'.accepted = true)
    (hnow : o.call.now = o.call.seenAt) (hnow' : o'.call.now = o'.call.seenAt)
    (hts : o'.call.timestamp = o.call.timestamp)
    (hsmall : -2 ^ 62 < o.call.timestamp ∧ o.call.timestamp < 2 ^ 62)
    (hclock : -2 ^ 62 < Time.unix o.call.now ∧ Time.unix o'.call.now < 2 ^ 62) :
    Time.unix o.call.now = o.call.timestamp - timestampWindowSec ∧
      Time.unix o'.call.now = o.call.timestamp + timestampWindowSec := by
  obtain ⟨first, between, rest, rfl, rfl, hbody, hfew⟩ := hrep
  obtain ⟨s', hj⟩ := exec_judged hrun _ o' rest rfl
  obtain ⟨so, hjo⟩ := exec_judged hrun first o (between ++ o' :: rest)
    (by rw [List.append_assoc, List.cons_append])
  have hrec := (hjo.accepted_iff.mp hacc).1
  have hrec' := (hj.accepted_iff.mp hacc').1
  have hgap : o.call.now + replayTTL ≤ o'.call.now := by
    rw [hnow, hnow']
    exact hj.expired_of_recorded_again hbody hfew hrec hrec'
      (List.mem_append_right _ List.mem_cons_self) hrec hbody
  have hsec : Time.unix o.call.now + 60 ≤ Time.unix o'.call.now := Time.unix_add_le hgap
  have hin := checkBody_eq_ok (hjo.recorded_iff.mp hrec).1
  have hin' := checkBody_eq_ok (hj.recorded_iff.mp hrec').1
  rw [validateTimestampAt_eq_ok_iff hsmall ⟨hclock.1, by omega⟩] at hin
  rw [hts, validateTimestampAt_eq_ok_iff hsmall ⟨by omega, hclock.2⟩] at hin'
  rw [timestampWindowSec] at *
  omega

/-! A request, for runs in which keys and hashes are plain bytes. -/

/-- A request to log in as `deploy`, made at second 1000. -/
def deployRequest : SignRequest where
  publicKey := [7]
  targetUser := str "deploy"
  targetIP := str "10.0.0.5"
  timestamp := 1000
  popSignature := Hex.encode (popChallenge (str "deploy") (str "10.0.0.5") 1000)
  agentSignData := []
  hostPublicKey := []
  hostKeyFingerprint := []
  sourceUser := []
  clientName := []
  clientVersion := []
  sessionBinding := ⟨[], [], [], false⟩
  destinationHostPublicKey := []
  bodyMAC := Hex.encode [1]

/-- That request, validated at an instant. -/
def deployCall (now : Time) : ValidationCall where
  conn := TLSConn.plain
  rawBody := [1]
  kind := .signRequest deployRequest
  now := now
  seenAt := now

/-- One body is accepted at second 970 and again at second 1030, by a cache that
saw nothing else. -/
theorem same_body_both_accepted :
    ∃ s log, (validation Crypto.plain Package.plain 0).exec
        [deployCall (970 * Time.second), deployCall (1030 * Time.second)] = some (s, log) ∧
      Set.InjOn Crypto.plain.sha256 {body | ∃ o ∈ log, o.call.rawBody = body} ∧
      ∃ before o o', Repeats log before o o' ∧ o.accepted = true ∧ o'.accepted = true := by
  refine ⟨_, _, rfl, Function.injective_id.injOn, _, _, _,
    ⟨[], [], [], rfl, rfl, rfl, by decide⟩, rfl, rfl⟩

/-- In the run of that request at seconds 970 and 1000, the second is refused. -/
theorem same_body_not_both_accepted_970_1000 :
    ∃ s log, (validation Crypto.plain Package.plain 0).exec
        [deployCall (970 * Time.second), deployCall (1000 * Time.second)] = some (s, log) ∧
      log.map (·.accepted) = [true, false] ∧
      ((∀ before o o', Repeats log before o o' → ¬(o.accepted = true ∧ o'.accepted = true)) ↔
        ∀ before o o', Repeats log before o o' → o.accepted = true →
          o'.call.PassesOthers Crypto.plain Package.plain →
            ∃ k ∈ before, k.recorded = true ∧ k.call.rawBody = o'.call.rawBody ∧
              o'.call.seenAt < k.call.seenAt + replayTTL) :=
  ⟨_, _, rfl, rfl, @same_body_not_both_accepted_iff _ _ Crypto.plain Package.plain 0
    [deployCall (970 * Time.second), deployCall (1000 * Time.second)] _ _ rfl
    Function.injective_id.injOn⟩

end LunaZTrust.Auth
