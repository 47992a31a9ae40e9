import LunaZTrust.Cli.RateLimit
import LunaZTrust.Transition.Object

/-!
# The limiter and its history

What `Allowed` and `TryRecordSuccess` of `proxy/internal/cli/ratelimit.go` return, in terms of the
calls before them.  Each call forgets what is older than an hour for good, yet every answer
is the one the full history gives (`limiter_exact`): as time does not go back, what has
left the window once does not come into it again.
-/

namespace LunaZTrust.Cli

open LunaZTrust.Go LunaZTrust.Transition

namespace LoadRateLimiter

/-- The calls of the limiter. -/
inductive Call
  | allowed (deviceID : GoString)
  | tryRecordSuccess (deviceID : GoString)
  | forget (deviceID : GoString)
deriving DecidableEq, Repr

/-- The device a call is about. -/
def Call.deviceID : Call → GoString
  | .allowed d => d
  | .tryRecordSuccess d => d
  | .forget d => d

/-- Whether the call may change what is known of the device. -/
def Call.affects (d : GoString) (c : Call) : Bool :=
  decide (c = .tryRecordSuccess d) || decide (c = .forget d)

/-- The limiter and its calls; `Forget` returns nothing. -/
def object : Object LoadRateLimiter Time Call (Option Bool) where
  start := new
  enabled _ _ := true
  perform l now
    | .allowed d => ((l.allowed d now).2, some (l.allowed d now).1)
    | .tryRecordSuccess d => ((l.tryRecordSuccess d now).2, some (l.tryRecordSuccess d now).1)
    | .forget d => (l.forget d, none)

/-- The history of the limiter. -/
abbrev History := List (Performed Time Call (Option Bool))

/-! ## What the history tells -/

/-- The call recorded a success of the device. -/
def Recorded (d : GoString) (p : Performed Time Call (Option Bool)) : Prop :=
  p.call = .tryRecordSuccess d ∧ p.result = some true

instance (d : GoString) (p : Performed Time Call (Option Bool)) : Decidable (Recorded d p) :=
  inferInstanceAs (Decidable (_ ∧ _))

/-- The instants recorded for the device, after one more call. -/
def record (d : GoString) (times : List Time) (p : Performed Time Call (Option Bool)) :
    List Time :=
  if p.call = .forget d then []
  else if Recorded d p then times ++ [p.now]
  else times

/-- The instants recorded for the device since it was forgotten last. -/
def records (d : GoString) (log : History) : List Time := log.foldl (record d) []

/-- How many of them lie in the window that ends now. -/
def recent (log : History) (d : GoString) (now : Time) : Nat :=
  (records d log).countP fun ts ↦ decide (now - loadRateLimitWindow < ts)

/-- The answer the full history gives. -/
def answer (log : History) (now : Time) : Call → Option Bool
  | .allowed d => some (decide (d ≠ [] ∧ recent log d now < loadRateLimitCount))
  | .tryRecordSuccess d => some (decide (d ≠ [] ∧ recent log d now < loadRateLimitCount))
  | .forget _ => none

variable {l : LoadRateLimiter} {d : GoString} {clock now now₀ : Time} {log : History}

theorem record_tryRecordSuccess (d d' : GoString) (times : List Time) (now : Time) (b : Bool) :
    record d' times ⟨now, .tryRecordSuccess d, some b⟩ =
      if d' = d ∧ b = true then times ++ [now] else times := by
  have hiff : Recorded d' ⟨now, .tryRecordSuccess d, some b⟩ ↔ d' = d ∧ b = true := by
    rw [Recorded, Call.tryRecordSuccess.injEq, Option.some.injEq, @eq_comm _ d]
  rw [record, if_neg fun hc ↦ by cases hc]
  exact if_congr hiff rfl rfl

theorem record_forget (d d' : GoString) (times : List Time) (now : Time) (r : Option Bool) :
    record d' times ⟨now, .forget d, r⟩ = if d' = d then [] else times := by
  have hiff : Call.forget d = .forget d' ↔ d' = d := by rw [Call.forget.injEq, @eq_comm _ d]
  rw [record]
  exact if_congr hiff rfl (if_neg fun hr ↦ by cases hr.1)

theorem records_concat (d : GoString) (log : History) (p : Performed Time Call (Option Bool)) :
    records d (log ++ [p]) = record d (records d log) p := by
  rw [records, List.foldl_append]
  rfl

/-- Without a call that forgets the device, records are only added. -/
theorem records_append {log' : History} (h : ∀ p ∈ log', p.call ≠ .forget d) :
    records d (log ++ log') =
      records d log ++ (log'.filter fun p ↦ decide (Recorded d p)).map Performed.now := by
  induction log' using List.reverseRecOn with
  | nil => rw [List.append_nil, List.filter_nil, List.map_nil, List.append_nil]
  | append_singleton log' p ih =>
      rw [List.forall_mem_append, List.forall_mem_singleton] at h
      rw [← List.append_assoc, records_concat, ih h.1, record, if_neg h.2, List.filter_append,
        List.map_append, ← List.append_assoc, List.filter_cons]
      by_cases hp : Recorded d p
      · rw [if_pos hp, if_pos (decide_eq_true hp)]
        rfl
      · rw [if_neg hp, if_neg fun h ↦ hp (of_decide_eq_true h)]
        exact (List.append_nil _).symm

/-- Calls that do not affect the device leave its records alone. -/
theorem record_of_not_affects {p : Performed Time Call (Option Bool)}
    (h : p.call.affects d = false) (times : List Time) : record d times p = times := by
  rw [Call.affects, Bool.or_eq_false_iff, decide_eq_false_iff_not, decide_eq_false_iff_not] at h
  rw [record, if_neg h.2, if_neg fun hp ↦ h.1 hp.1]

theorem records_filter (d : GoString) (log : History) :
    records d (log.filter fun p ↦ p.call.affects d) = records d log := by
  rw [records, List.foldl_filter, records]
  refine congrArg (fun f ↦ List.foldl f [] log) (funext₂ fun times p ↦ ?_)
  cases hp : p.call.affects d with
  | true => exact if_pos rfl
  | false => exact (if_neg Bool.false_ne_true).trans (record_of_not_affects hp times).symm

/-- The answer depends on the calls that affect the device only. -/
theorem answer_filter {c : Call} (log : History) (now : Time) :
    answer (log.filter fun p ↦ p.call.affects c.deviceID) now c = answer log now c := by
  cases c with
  | allowed d => rw [answer, recent, Call.deviceID, records_filter, answer, recent]
  | tryRecordSuccess d => rw [answer, recent, Call.deviceID, records_filter, answer, recent]
  | forget d => rfl

/-! ## What the limiter keeps -/

/-- The limiter against its history: it has forgotten nothing that is still in the window, and
nothing was ever recorded for the empty id. -/
structure Remembers (l : LoadRateLimiter) (clock : Time) (log : History) : Prop where
  times : ∀ d cutoff, clock - loadRateLimitWindow ≤ cutoff →
    (l.times d).filter (fun ts ↦ decide (cutoff < ts)) =
      (records d log).filter fun ts ↦ decide (cutoff < ts)
  empty : records [] log = []

theorem remembers_new (now₀ : Time) : Remembers new now₀ [] := ⟨fun _ _ _ ↦ rfl, rfl⟩

theorem Remembers.later (h : Remembers l clock log) (hle : clock ≤ now) :
    Remembers l now log where
  times d cutoff hcutoff := h.times d cutoff (Int.le_trans (Int.sub_le_sub_right hle _) hcutoff)
  empty := h.empty

/-- Pruning drops nothing that is still in the window. -/
theorem Remembers.pruneLocked (h : Remembers l now log) (deviceID : GoString) :
    Remembers (l.pruneLocked deviceID (now - loadRateLimitWindow)).2 now log where
  times d cutoff hcutoff := by
    rw [← h.times d cutoff hcutoff, times_pruneLocked]
    split
    · rw [List.filter_filter]
      refine List.filter_congr fun ts _ ↦ ?_
      rw [← Bool.decide_and, decide_eq_decide]
      exact ⟨And.left, fun hts ↦ ⟨hts, Int.lt_of_le_of_lt hcutoff hts⟩⟩
    · rfl
  empty := h.empty

/-- What pruning keeps is what the history has in the window. -/
theorem Remembers.length_pruneLocked (h : Remembers l now log) (d : GoString) :
    (l.pruneLocked d (now - loadRateLimitWindow)).1.length = recent log d now := by
  rw [recent, List.countP_eq_length_filter, ← h.times d _ (Int.le_refl _)]
  rfl

/-- A call that leaves the records of all devices alone. -/
theorem Remembers.concat (h : Remembers l now log) {p : Performed Time Call (Option Bool)}
    (hp : ∀ d, record d (records d log) p = records d log) : Remembers l now (log ++ [p]) where
  times d cutoff hcutoff := by
    rw [records_concat, hp d]
    exact h.times d cutoff hcutoff
  empty := by rw [records_concat, hp, h.empty]

/-! ## Step and run -/

/-- **Step.**  `Allowed` answers from the history. -/
theorem Remembers.allowed (h : Remembers l now log) (d : GoString) :
    (object.perform l now (.allowed d)).2 = answer log now (.allowed d) ∧
      Remembers (object.perform l now (.allowed d)).1 now
        (log ++ [object.performed l now (.allowed d)]) := by
  have hrecord : ∀ d', record d' (records d' log) (object.performed l now (.allowed d)) =
      records d' log := fun d' ↦ record_of_not_affects rfl _
  dsimp only [object]
  rw [answer, LoadRateLimiter.allowed]
  by_cases hd : d = []
  · rw [if_pos hd]
    refine ⟨congrArg some (decide_eq_false fun hroom ↦ hroom.1 hd).symm, ?_⟩
    exact h.concat hrecord
  · rw [if_neg hd]
    constructor
    · refine congrArg some (decide_eq_decide.mpr ?_)
      rw [h.length_pruneLocked]
      exact (and_iff_right hd).symm
    · exact (h.pruneLocked d).concat hrecord

/-- A success that is recorded. -/
theorem Remembers.insert (h : Remembers l now log) {d : GoString} (hd : d ≠ []) :
    Remembers (AList.insert d (l.times d ++ [now]) l) now
      (log ++ [⟨now, .tryRecordSuccess d, some true⟩]) where
  times d' cutoff hcutoff := by
    rw [records_concat, record_tryRecordSuccess, times_insert]
    by_cases hd' : d' = d
    · rw [if_pos hd', if_pos ⟨hd', rfl⟩, List.filter_append, List.filter_append,
        ← h.times d' cutoff hcutoff, hd']
    · rw [if_neg hd', if_neg fun hr ↦ hd' hr.1]
      exact h.times d' cutoff hcutoff
  empty := by rw [records_concat, record_tryRecordSuccess, if_neg fun hr ↦ hd hr.1.symm, h.empty]

/-- **Step.**  So does `TryRecordSuccess`, and records what it says it does. -/
theorem Remembers.tryRecordSuccess (h : Remembers l now log) (d : GoString) :
    (object.perform l now (.tryRecordSuccess d)).2 = answer log now (.tryRecordSuccess d) ∧
      Remembers (object.perform l now (.tryRecordSuccess d)).1 now
        (log ++ [object.performed l now (.tryRecordSuccess d)]) := by
  -- a call that returns false records nothing
  have hfalse : ∀ d', record d' (records d' log) ⟨now, .tryRecordSuccess d, some false⟩ =
      records d' log := fun d' ↦
    (record_tryRecordSuccess d d' _ now false).trans (if_neg fun hr ↦ by cases hr.2)
  dsimp only [object, Object.performed]
  rw [answer, LoadRateLimiter.tryRecordSuccess]
  by_cases hd : d = []
  · rw [if_pos hd]
    refine ⟨congrArg some (decide_eq_false fun hroom ↦ hroom.1 hd).symm, ?_⟩
    exact h.concat hfalse
  · rw [if_neg hd]
    dsimp only
    rw [h.length_pruneLocked]
    by_cases hroom : loadRateLimitCount ≤ recent log d now
    · rw [if_pos hroom]
      refine ⟨congrArg some (decide_eq_false fun hlt ↦ ?_).symm, ?_⟩
      · exact Nat.not_lt.mpr hroom hlt.2
      · exact (h.pruneLocked d).concat hfalse
    · rw [if_neg hroom]
      refine ⟨congrArg some (decide_eq_true ⟨hd, Nat.lt_of_not_le hroom⟩).symm, ?_⟩
      have hinsert := (h.pruneLocked d).insert hd
      rw [times_pruneLocked, if_pos rfl] at hinsert
      exact hinsert

/-- **Step.**  `Forget` forgets; the empty id has nothing to be forgotten. -/
theorem Remembers.forget (h : Remembers l now log) (d : GoString) :
    Remembers (object.perform l now (.forget d)).1 now
      (log ++ [object.performed l now (.forget d)]) where
  times d' cutoff hcutoff := by
    rw [records_concat]
    dsimp only [object, Object.performed]
    rw [record_forget, LoadRateLimiter.forget]
    by_cases hd : d = []
    · rw [if_pos hd, h.times d' cutoff hcutoff]
      split
      · next hd' => rw [hd', hd, h.empty]
      · rfl
    · rw [if_neg hd, times_erase]
      split
      · rfl
      · exact h.times d' cutoff hcutoff
  empty := by
    rw [records_concat, h.empty]
    exact (record_forget d [] [] now none).trans (ite_self [])

/-- **Step.**  Whatever the call. -/
theorem Remembers.perform (h : Remembers l now log) (c : Call) :
    (object.perform l now c).2 = answer log now c ∧
      Remembers (object.perform l now c).1 now (log ++ [object.performed l now c]) := by
  cases c with
  | allowed d => exact h.allowed d
  | tryRecordSuccess d => exact h.tryRecordSuccess d
  | forget d => exact ⟨rfl, h.forget d⟩

/-- **Run.** -/
theorem exec_remembers {as : List (Time × Call)} {t : LoadRateLimiter × Time}
    (h : (object.machine now₀).exec as = some (t, log)) : Remembers t.1 t.2 log := by
  refine Object.history_induction (P := Remembers) (remembers_new now₀) ?_ h
  intro l clock now log c hrem hle _
  exact ((hrem.later hle).perform c).2

/-- **Run.**  Every call returns what the history tells. -/
theorem exec_answer {as : List (Time × Call)} {t : LoadRateLimiter × Time}
    (h : (object.machine now₀).exec as = some (t, log)) :
    Along (fun pre p ↦ p.result = answer pre p.now p.call) log := by
  refine Object.history_along (P := Remembers) (remembers_new now₀) ?_ ?_ h
  · intro l clock now log c hrem hle _
    exact ((hrem.later hle).perform c).2
  · intro l clock now log c hrem hle _
    exact ((hrem.later hle).perform c).1

/-! ## What follows from the answers -/

variable {as : List (Time × Call)}

/-- No more than the limit is recorded in a span shorter than the window, unless the device is
forgotten in between. -/
theorem countP_recorded_le
    (h : Along (fun pre p ↦ p.result = answer pre p.now p.call) log) {pre mid post : History}
    (hlog : log = pre ++ mid ++ post) (hforget : ∀ p ∈ mid, p.call ≠ .forget d) {a b : Time}
    (hspan : b - a < loadRateLimitWindow) :
    mid.countP (fun p ↦ decide (Recorded d p ∧ a ≤ p.now ∧ p.now ≤ b)) ≤ loadRateLimitCount := by
  refine countP_le_of_along fun mid₁ p mid₂ hmid hp ↦ ?_
  obtain ⟨hrec, -, hb⟩ := of_decide_eq_true hp
  -- the answer to the call counts those of the span before it
  have hanswer : p.result = answer (pre ++ mid₁) p.now p.call :=
    h (pre ++ mid₁) p (mid₂ ++ post) (by rw [hlog, hmid]; simp only [List.append_assoc,
      List.cons_append])
  rw [hrec.1, hrec.2, answer] at hanswer
  have hroom := (of_decide_eq_true (Option.some.inj hanswer).symm).2
  refine Nat.lt_of_le_of_lt ?_ hroom
  rw [recent, records_append fun q hq ↦ hforget q (hmid ▸ List.mem_append_left _ hq),
    List.countP_append, List.countP_map, List.countP_filter]
  refine Nat.le_trans (List.countP_mono_left fun q _ hq ↦ ?_) (Nat.le_add_left _ _)
  obtain ⟨hq, ha, -⟩ := of_decide_eq_true hq
  rw [Bool.and_eq_true]
  refine ⟨decide_eq_true ?_, decide_eq_true hq⟩
  show p.now - loadRateLimitWindow < q.now
  have hlt : p.now - loadRateLimitWindow < a :=
    Int.lt_of_le_of_lt (Int.sub_le_sub_right hb _) (Int.sub_lt_of_sub_lt hspan)
  exact Int.lt_of_lt_of_le hlt ha

/-- Which calls affect a device is all that matters for what is answered about it. -/
theorem answers_eq {now₀' : Time} {as' : List (Time × Call)} {t t' : LoadRateLimiter × Time}
    {log' : History} (h : (object.machine now₀).exec as = some (t, log))
    (h' : (object.machine now₀').exec as' = some (t', log'))
    (has : (as'.filter fun a ↦ a.2.affects d) = as.filter fun a ↦ a.2.affects d) :
    (log'.filter fun p ↦ p.call.affects d) = log.filter fun p ↦ p.call.affects d := by
  have hkeep : ∀ (log : History) (now : Time) (c : Call), c.affects d = true →
      answer (log.filter fun p ↦ p.call.affects d) now c = answer log now c := by
    intro log now c hc
    have hd : c.deviceID = d := by
      rcases Bool.or_eq_true_iff.mp hc with hc | hc
      · rw [of_decide_eq_true hc, Call.deviceID]
      · rw [of_decide_eq_true hc, Call.deviceID]
    rw [← hd]
    exact answer_filter log now
  rw [Object.log_eq_replay h (exec_answer h), Object.log_eq_replay h' (exec_answer h'),
    Object.filter_replay hkeep, Object.filter_replay hkeep, has]

/-- **The sliding window is exact.**  `TryRecordSuccess` returns true just if the id is not empty
and the history has fewer records in the window than the limit; so no span shorter than the
window has more.  `Allowed` answers the same question.  Neither it nor any call for
another id makes a difference to an answer: runs with the same calls of
`TryRecordSuccess` and `Forget` for an id answer all calls for it alike. -/
theorem limiter_exact (h : (object.machine now₀).exec as = some ((l, clock), log)) :
    Along (fun pre p ↦ ∀ d, p.call = .tryRecordSuccess d →
      (p.result = some true ↔ d ≠ [] ∧ recent pre d p.now < loadRateLimitCount)) log ∧
    (∀ pre mid post d a b, log = pre ++ mid ++ post → (∀ p ∈ mid, p.call ≠ .forget d) →
      b - a < loadRateLimitWindow →
        mid.countP (fun p ↦ decide (Recorded d p ∧ a ≤ p.now ∧ p.now ≤ b)) ≤
          loadRateLimitCount) ∧
    Along (fun pre p ↦ ∀ d, p.call = .allowed d →
      (p.result = some true ↔ d ≠ [] ∧ recent pre d p.now < loadRateLimitCount)) log ∧
    ∀ now₀' as' l' clock' log' d,
      (object.machine now₀').exec as' = some ((l', clock'), log') →
      (as'.filter fun a ↦ a.2.affects d) = (as.filter fun a ↦ a.2.affects d) →
        (log'.filter fun p ↦ p.call.affects d) = (log.filter fun p ↦ p.call.affects d) ∧
        ∀ now c, clock ≤ now → clock' ≤ now → c.deviceID = d →
          (object.perform l' now c).2 = (object.perform l now c).2 := by
  have hanswer := exec_answer h
  refine ⟨fun pre p post hlog d hcall ↦ ?_, ?_, fun pre p post hlog d hcall ↦ ?_, ?_⟩
  · rw [hanswer pre p post hlog, hcall, answer, Option.some.injEq, decide_eq_true_eq]
  · exact fun pre mid post d a b hlog hforget ↦ countP_recorded_le hanswer hlog hforget
  · rw [hanswer pre p post hlog, hcall, answer, Option.some.injEq, decide_eq_true_eq]
  · intro now₀' as' l' clock' log' d h' has
    have hlog := answers_eq h h' has
    refine ⟨hlog, fun now c hnow hnow' hd ↦ ?_⟩
    rw [(((exec_remembers h').later hnow').perform c).1, (((exec_remembers h).later hnow).perform
      c).1, ← answer_filter log', ← answer_filter log, hd, hlog]

/-- A device that loads ten keys in as many minutes and tries once more, is told so, and again when
the first load is an hour ago; another one meanwhile. -/
def elevenLoads : List (Time × Call) :=
  (List.range 10).map (fun i ↦ (i * Time.minute, .tryRecordSuccess (str "a"))) ++
    [(10 * Time.minute, .tryRecordSuccess (str "a")), (10 * Time.minute, .allowed (str "a")),
      (11 * Time.minute, .tryRecordSuccess (str "b")),
      (60 * Time.minute, .tryRecordSuccess (str "a"))]

/-- What it is answered. -/
theorem limiter_exact_elevenLoads :
    ∃ l clock log, (object.machine 0).exec elevenLoads = some ((l, clock), log) ∧
      log.map Performed.result =
        List.replicate 10 (some true) ++ [some false, some false, some true, some true] ∧
      Along (fun pre p ↦ ∀ d, p.call = .tryRecordSuccess d →
        (p.result = some true ↔ d ≠ [] ∧ recent pre d p.now < loadRateLimitCount)) log := by
  obtain ⟨⟨⟨l, clock⟩, log⟩, hrun⟩ := Option.isSome_iff_exists.mp (by decide +kernel :
    ((object.machine 0).exec elevenLoads).isSome = true)
  have hresults : ((object.machine 0).exec elevenLoads).map (fun t ↦ t.2.map Performed.result) =
      some (List.replicate 10 (some true) ++ [some false, some false, some true, some true]) := by
    decide +kernel
  rw [hrun] at hresults
  exact ⟨l, clock, log, hrun, Option.some.inj hresults, (limiter_exact hrun).1⟩

end LoadRateLimiter

end LunaZTrust.Cli
