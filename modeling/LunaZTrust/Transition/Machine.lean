import Mathlib.Data.List.Induction

/-!
# Machines and their runs

A `Machine` is a state machine whose step function takes a state and an action
to the next state and the events the step gives rise to, or to nothing where
the action is not enabled.  All choices an environment or a scheduler makes are
in the actions, so a run is a list of actions, and "in every run" is a
quantification over such lists.  Runs are executable, so that one can be
evaluated.

An invariant speaks of a state together with the events that led to it.
`exec_induction` reduces it to the start state and to one step;
`exec_append_iff` cuts a run in two, which is how a statement about an earlier
point of a run is reached.  A statement about what must have come before an
event is an `Along`; `exec_along` reduces it to one step in the same way.
-/

namespace LunaZTrust.Transition

variable {S A E : Type}

/-! ## Logs -/

/-- Every event of the log is related to the events before it. -/
def Along (Q : List E → E → Prop) (log : List E) : Prop :=
  ∀ pre e post, log = pre ++ e :: post → Q pre e

theorem along_nil (Q : List E → E → Prop) : Along Q [] := by
  intro pre e post h
  exact absurd h.symm (List.append_ne_nil_of_right_ne_nil pre (List.cons_ne_nil e post))

theorem along_append_iff {Q : List E → E → Prop} {log es : List E} :
    Along Q (log ++ es) ↔ Along Q log ∧ Along (fun pre ↦ Q (log ++ pre)) es := by
  constructor
  · intro h
    constructor
    · rintro pre e post rfl
      exact h pre e (post ++ es) (by rw [List.append_assoc, List.cons_append])
    · rintro pre e post rfl
      exact h (log ++ pre) e post (by rw [List.append_assoc])
  · rintro ⟨hlog, hes⟩ pre e post h
    -- the event is in one of the two parts
    rcases List.append_eq_append_iff.mp h with ⟨mid, rfl, rfl⟩ | ⟨mid, rfl, hmid⟩
    · exact hes mid e post rfl
    · cases mid with
      | nil =>
          have hQ : Q (pre ++ []) e := by
            rw [List.append_nil] at hes
            exact hes [] e post hmid.symm
          rwa [List.append_nil] at hQ
      | cons e' mid =>
          obtain ⟨rfl, -⟩ := List.cons.inj hmid
          exact hlog pre e mid rfl

theorem along_singleton_iff {Q : List E → E → Prop} {e : E} : Along Q [e] ↔ Q [] e := by
  constructor
  · intro h
    exact h [] e [] rfl
  · rintro hQ pre e' post heq
    cases pre with
    | nil =>
        obtain ⟨rfl, -⟩ := List.cons.inj heq
        exact hQ
    | cons x pre =>
        exact absurd (List.cons.inj heq).2.symm
          (List.append_ne_nil_of_right_ne_nil pre (List.cons_ne_nil e' post))

/-- The only event of a step comes right after the log. -/
theorem along_singleton {Q : List E → E → Prop} {log : List E} {e : E} (h : Q log e) :
    Along (fun pre ↦ Q (log ++ pre)) [e] :=
  along_singleton_iff.mpr (by rwa [List.append_nil])

theorem along_cons_iff {Q : List E → E → Prop} {e : E} {es : List E} :
    Along Q (e :: es) ↔ Q [] e ∧ Along (fun pre ↦ Q (e :: pre)) es := by
  have h : Along Q ([e] ++ es) ↔ Along Q [e] ∧ Along (fun pre ↦ Q ([e] ++ pre)) es :=
    along_append_iff
  rw [List.singleton_append, along_singleton_iff] at h
  exact h

/-- Of two events of a log, the one that is not before the other is after it. -/
theorem mem_of_append_cons_eq {pre post pre' post' : List E} {e e' : E}
    (h : pre ++ e :: post = pre' ++ e' :: post') (hne : e ≠ e') (hmem : e ∉ pre') : e' ∈ pre := by
  rcases List.append_eq_append_iff.mp h with ⟨mid, rfl, hmid⟩ | ⟨mid, rfl, hmid⟩
  · cases mid with
    | nil => exact absurd (List.cons.inj hmid).1 hne
    | cons x mid =>
        obtain ⟨rfl, -⟩ := List.cons.inj hmid
        exact absurd (List.mem_append_right pre List.mem_cons_self) hmem
  · cases mid with
    | nil => exact absurd (List.cons.inj hmid).1.symm hne
    | cons x mid =>
        obtain ⟨rfl, -⟩ := List.cons.inj hmid
        exact List.mem_append_right pre' List.mem_cons_self

/-- What has happened less than `n` times whenever it happens, happens at most `n` times. -/
theorem countP_le_of_along {p : E → Bool} {n : Nat} {log : List E}
    (h : Along (fun pre e ↦ p e = true → pre.countP p < n) log) : log.countP p ≤ n := by
  induction log using List.reverseRecOn with
  | nil => exact Nat.zero_le n
  | append_singleton log e ih =>
      rw [List.countP_append, List.countP_singleton]
      split
      · next he => exact h log e [] rfl he
      · exact ih (along_append_iff.mp h).1

/-- What has not happened before when it happens, happens at most once. -/
theorem countP_le_one_of_along {p : E → Bool} {log : List E}
    (h : Along (fun pre e ↦ p e = true → ∀ e' ∈ pre, p e' = false) log) : log.countP p ≤ 1 := by
  refine countP_le_of_along fun pre e post hlog he ↦ Nat.lt_one_iff.mpr ?_
  refine List.countP_eq_zero.mpr fun e' he' ↦ ?_
  rw [h pre e post hlog he e' he']
  exact Bool.false_ne_true

/-- A state machine with events. -/
structure Machine (S A E : Type) where
  /-- The state a run starts in. -/
  start : S
  /-- One step, if the action is enabled. -/
  step : S → A → Option (S × List E)

namespace Machine

variable (M : Machine S A E)

/-- Run a list of actions from a state, collecting the events in order. -/
def execFrom : S → List A → Option (S × List E)
  | s, [] => some (s, [])
  | s, a :: as => do
      let (s₁, es₁) ← M.step s a
      let (s₂, es₂) ← execFrom s₁ as
      return (s₂, es₁ ++ es₂)

/-- Run a list of actions from the start. -/
def exec (as : List A) : Option (S × List E) := M.execFrom M.start as

@[simp] theorem execFrom_nil (s : S) : M.execFrom s [] = some (s, []) := rfl

theorem execFrom_cons_iff {s t : S} {a : A} {as : List A} {log : List E} :
    M.execFrom s (a :: as) = some (t, log) ↔
      ∃ s₁ es₁ es₂, M.step s a = some (s₁, es₁) ∧ M.execFrom s₁ as = some (t, es₂) ∧
        log = es₁ ++ es₂ := by
  simp only [execFrom, Option.bind_eq_bind, Option.bind_eq_some_iff, Prod.exists, Option.pure_def,
    Option.some.injEq, Prod.mk.injEq]
  constructor
  · rintro ⟨s₁, es₁, h₁, _, es₂, h₂, rfl, rfl⟩
    exact ⟨s₁, es₁, es₂, h₁, h₂, rfl⟩
  · rintro ⟨s₁, es₁, es₂, h₁, h₂, rfl⟩
    exact ⟨s₁, es₁, h₁, t, es₂, h₂, rfl, rfl⟩

theorem execFrom_append_iff {s t : S} {as bs : List A} {log : List E} :
    M.execFrom s (as ++ bs) = some (t, log) ↔
      ∃ s₁ es₁ es₂, M.execFrom s as = some (s₁, es₁) ∧ M.execFrom s₁ bs = some (t, es₂) ∧
        log = es₁ ++ es₂ := by
  induction as generalizing s log with
  | nil =>
      constructor
      · intro h
        exact ⟨s, [], log, rfl, h, rfl⟩
      · rintro ⟨s₁, es₁, es₂, h₁, h₂, rfl⟩
        obtain ⟨rfl, rfl⟩ := Prod.mk.inj (Option.some.inj h₁)
        exact h₂
  | cons a as ih =>
      rw [List.cons_append, execFrom_cons_iff]
      constructor
      · rintro ⟨s₁, es₁, _, h₁, h, rfl⟩
        obtain ⟨s₂, es₂, es₃, h₂, h₃, rfl⟩ := ih.mp h
        exact ⟨s₂, es₁ ++ es₂, es₃, M.execFrom_cons_iff.mpr ⟨s₁, es₁, es₂, h₁, h₂, rfl⟩, h₃,
          (List.append_assoc _ _ _).symm⟩
      · rintro ⟨s₂, _, es₃, h, h₃, rfl⟩
        obtain ⟨s₁, es₁, es₂, h₁, h₂, rfl⟩ := M.execFrom_cons_iff.mp h
        exact ⟨s₁, es₁, es₂ ++ es₃, h₁, ih.mpr ⟨s₂, es₂, es₃, h₂, h₃, rfl⟩,
          List.append_assoc _ _ _⟩

/-- A run cut in two. -/
theorem exec_append_iff {t : S} {as bs : List A} {log : List E} :
    M.exec (as ++ bs) = some (t, log) ↔
      ∃ s es₁ es₂, M.exec as = some (s, es₁) ∧ M.execFrom s bs = some (t, es₂) ∧
        log = es₁ ++ es₂ :=
  M.execFrom_append_iff

/-- A run with its last step. -/
theorem exec_concat_iff {t : S} {as : List A} {a : A} {log : List E} :
    M.exec (as ++ [a]) = some (t, log) ↔
      ∃ s es₁ es₂, M.exec as = some (s, es₁) ∧ M.step s a = some (t, es₂) ∧
        log = es₁ ++ es₂ := by
  rw [exec_append_iff]
  constructor
  · rintro ⟨s, es₁, _, h₁, h, rfl⟩
    obtain ⟨_, es₂, _, h₂, h₃, rfl⟩ := M.execFrom_cons_iff.mp h
    obtain ⟨rfl, rfl⟩ := Prod.mk.inj (Option.some.inj h₃)
    exact ⟨s, es₁, es₂, h₁, h₂, by rw [List.append_nil]⟩
  · rintro ⟨s, es₁, es₂, h₁, h₂, rfl⟩
    exact ⟨s, es₁, es₂, h₁,
      M.execFrom_cons_iff.mpr ⟨t, es₂, [], h₂, rfl, (List.append_nil _).symm⟩, rfl⟩

/-- **Induction over runs, from any state.**  What holds of a state and the
events before it, and is kept by every step, holds at the end of the run. -/
theorem execFrom_induction {P : S → List E → Prop}
    (hstep : ∀ s log a t es, P s log → M.step s a = some (t, es) → P t (log ++ es))
    {s t : S} {as : List A} {log es : List E} (hs : P s log)
    (h : M.execFrom s as = some (t, es)) : P t (log ++ es) := by
  induction as generalizing s log es with
  | nil =>
      obtain ⟨rfl, rfl⟩ := Prod.mk.inj (Option.some.inj h)
      rw [List.append_nil]
      exact hs
  | cons a as ih =>
      obtain ⟨s₁, es₁, es₂, h₁, h₂, rfl⟩ := M.execFrom_cons_iff.mp h
      rw [← List.append_assoc]
      exact ih (hstep s log a s₁ es₁ hs h₁) h₂

/-- Induction over runs, for a property of the state alone. -/
theorem execFrom_invariant {P : S → Prop}
    (hstep : ∀ s a t es, P s → M.step s a = some (t, es) → P t) {s t : S} {as : List A}
    {es : List E} (hs : P s) (h : M.execFrom s as = some (t, es)) : P t := by
  induction as generalizing s es with
  | nil =>
      obtain ⟨rfl, rfl⟩ := Prod.mk.inj (Option.some.inj h)
      exact hs
  | cons a as ih =>
      obtain ⟨s₁, es₁, es₂, h₁, h₂, rfl⟩ := M.execFrom_cons_iff.mp h
      exact ih (hstep s a s₁ es₁ hs h₁) h₂

/-- **Induction over runs.** -/
theorem exec_induction {P : S → List E → Prop} (hstart : P M.start [])
    (hstep : ∀ s log a t es, P s log → M.step s a = some (t, es) → P t (log ++ es))
    {t : S} {as : List A} {log : List E} (h : M.exec as = some (t, log)) : P t log :=
  M.execFrom_induction hstep hstart h

/-- **Induction over runs, along their prefixes.**  A step is taken at the end of a
run, about which everything known of runs may be used. -/
theorem exec_run_induction {P : List A → S → List E → Prop} (hstart : P [] M.start [])
    (hstep : ∀ as a s log t es, M.exec as = some (s, log) → P as s log →
      M.step s a = some (t, es) → P (as ++ [a]) t (log ++ es))
    {t : S} {as : List A} {log : List E} (h : M.exec as = some (t, log)) : P as t log := by
  induction as using List.reverseRecOn generalizing t log with
  | nil =>
      obtain ⟨rfl, rfl⟩ := Prod.mk.inj (Option.some.inj h)
      exact hstart
  | append_singleton as a ih =>
      obtain ⟨s, es₁, es₂, h₁, h₂, rfl⟩ := M.exec_concat_iff.mp h
      exact hstep as a s es₁ t es₂ h₁ (ih h₁) h₂

/-- **Induction over runs, for what comes before each event.**  The events of a
step are judged in a state that satisfies the invariant `P`. -/
theorem exec_along {P : S → List E → Prop} {Q : List E → E → Prop} (hstart : P M.start [])
    (hstep : ∀ s log a t es, P s log → M.step s a = some (t, es) → P t (log ++ es))
    (hev : ∀ s log a t es, P s log → M.step s a = some (t, es) →
      Along (fun pre ↦ Q (log ++ pre)) es)
    {t : S} {as : List A} {log : List E} (h : M.exec as = some (t, log)) : Along Q log := by
  refine (M.exec_induction (P := fun s log ↦ P s log ∧ Along Q log)
    ⟨hstart, along_nil Q⟩ ?_ h).2
  rintro s log a t es ⟨hP, hQ⟩ ht
  exact ⟨hstep s log a t es hP ht, along_append_iff.mpr ⟨hQ, hev s log a t es hP ht⟩⟩

/-- **Projection.**  If every step, seen through a map of states and a partial map of
events, is a run of another machine, then so is every run. -/
theorem exec_project {S' A' E' : Type} (N : Machine S' A' E') {f : S → S'} {g : E → Option E'}
    (hstart : f M.start = N.start)
    (hstep : ∀ s a t es, M.step s a = some (t, es) →
      ∃ as, N.execFrom (f s) as = some (f t, es.filterMap g))
    {t : S} {as : List A} {log : List E} (h : M.exec as = some (t, log)) :
    ∃ as', N.exec as' = some (f t, log.filterMap g) := by
  refine M.exec_induction (P := fun t log ↦ ∃ as', N.exec as' = some (f t, log.filterMap g)) ?_ ?_ h
  · exact ⟨[], by rw [hstart]; rfl⟩
  · rintro s log a t es ⟨as₁, h₁⟩ hs
    obtain ⟨as₂, h₂⟩ := hstep s a t es hs
    exact ⟨as₁ ++ as₂, N.exec_append_iff.mpr ⟨f s, _, _, h₁, h₂, List.filterMap_append⟩⟩

/-- A step of a run, from the state and the log its prefix leads to. -/
theorem step_of_exec_append_cons {s t : S} {as bs : List A} {a : A} {pre log : List E}
    (h : M.exec (as ++ a :: bs) = some (t, log)) (hpre : M.exec as = some (s, pre)) :
    ∃ s' es, M.step s a = some (s', es) ∧ M.exec (as ++ [a]) = some (s', pre ++ es) := by
  obtain ⟨_, _, _, h₁, h₂, -⟩ := M.exec_append_iff.mp h
  obtain ⟨rfl, rfl⟩ := Prod.mk.inj (Option.some.inj (hpre.symm.trans h₁))
  obtain ⟨s', es, _, hstep, -, -⟩ := M.execFrom_cons_iff.mp h₂
  exact ⟨s', es, hstep, M.exec_concat_iff.mpr ⟨s, pre, es, hpre, hstep, rfl⟩⟩

end Machine

end LunaZTrust.Transition
