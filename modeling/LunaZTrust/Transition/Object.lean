import LunaZTrust.Transition.Machine

/-!
# Objects and their histories

An `Object` is a piece of state behind a lock: its calls are made one after the other, and each
reads the clock once, which does not go back.  Its runs are those of a machine whose
log is the history of the calls, with what each returned.

What an object returns can often be said in terms of the history alone.  `history_induction`
reduces an invariant between the state and the history to one call, and `history_along`
a statement about what each call returns.

`replay` is the object that answers from the history and keeps nothing else.  Where an
object gives the same answers (`log_eq_replay`), calls that do not bear on the answer to
others can be left out (`filter_replay`).
-/

namespace LunaZTrust.Transition

/-- A call that has been made: when, which, and what it returned. -/
structure Performed (T C R : Type) where
  now : T
  call : C
  result : R
deriving DecidableEq, Repr

/-- A piece of state and its calls. -/
structure Object (S T C R : Type) where
  /-- The state it starts in. -/
  start : S
  /-- Whether the call can be made in a state. -/
  enabled : S → C → Bool
  /-- What a call does to the state, and what it returns. -/
  perform : S → T → C → S × R

namespace Object

variable {S T C R : Type} [LE T] [DecidableLE T] (O : Object S T C R) {now₀ : T}

/-- The call as the history records it. -/
def performed (s : S) (now : T) (c : C) : Performed T C R := ⟨now, c, (O.perform s now c).2⟩

/-- The calls of an object from some instant on. -/
def machine (now₀ : T) : Machine (S × T) (T × C) (Performed T C R) where
  start := (O.start, now₀)
  step s a :=
    if s.2 ≤ a.1 ∧ O.enabled s.1 a.2 = true then
      some (((O.perform s.1 a.1 a.2).1, a.1), [O.performed s.1 a.1 a.2])
    else none

theorem step_eq_some_iff {s t : S × T} {a : T × C} {es : List (Performed T C R)} :
    (O.machine now₀).step s a = some (t, es) ↔
      (s.2 ≤ a.1 ∧ O.enabled s.1 a.2 = true) ∧ t = ((O.perform s.1 a.1 a.2).1, a.1) ∧
        es = [O.performed s.1 a.1 a.2] := by
  rw [machine, Option.ite_none_right_eq_some, Option.some.injEq, Prod.mk.injEq, @eq_comm _ t,
    @eq_comm _ es]

variable {O} {P : S → T → List (Performed T C R) → Prop}

/-- **Induction over histories.**  What relates the state to the history, and is kept by every call,
holds after any calls. -/
theorem history_induction (hstart : P O.start now₀ [])
    (hstep : ∀ s clock now log c, P s clock log → clock ≤ now → O.enabled s c = true →
      P (O.perform s now c).1 now (log ++ [O.performed s now c]))
    {t : S × T} {as : List (T × C)} {log : List (Performed T C R)}
    (h : (O.machine now₀).exec as = some (t, log)) : P t.1 t.2 log := by
  refine (O.machine now₀).exec_induction (P := fun s log ↦ P s.1 s.2 log) hstart ?_ h
  intro s log a t es hP ht
  obtain ⟨⟨hle, henabled⟩, rfl, rfl⟩ := O.step_eq_some_iff.mp ht
  exact hstep s.1 s.2 a.1 log a.2 hP hle henabled

/-- **Induction over histories, for what each call returns.**  A call is judged in a state that
satisfies the invariant `P`. -/
theorem history_along {Q : List (Performed T C R) → Performed T C R → Prop}
    (hstart : P O.start now₀ [])
    (hstep : ∀ s clock now log c, P s clock log → clock ≤ now → O.enabled s c = true →
      P (O.perform s now c).1 now (log ++ [O.performed s now c]))
    (hcall : ∀ s clock now log c, P s clock log → clock ≤ now → O.enabled s c = true →
      Q log (O.performed s now c))
    {t : S × T} {as : List (T × C)} {log : List (Performed T C R)}
    (h : (O.machine now₀).exec as = some (t, log)) : Along Q log := by
  refine (O.machine now₀).exec_along (P := fun s log ↦ P s.1 s.2 log) hstart ?_ ?_ h
  · intro s log a t es hP ht
    obtain ⟨⟨hle, henabled⟩, rfl, rfl⟩ := O.step_eq_some_iff.mp ht
    exact hstep s.1 s.2 a.1 log a.2 hP hle henabled
  · intro s log a t es hP ht
    obtain ⟨⟨hle, henabled⟩, rfl, rfl⟩ := O.step_eq_some_iff.mp ht
    exact along_singleton (hcall s.1 s.2 a.1 log a.2 hP hle henabled)

/-! ## Answers from the history -/

/-- The history of the calls, each answered from the history before it. -/
def replay (answer : List (Performed T C R) → T → C → R) (as : List (T × C)) :
    List (Performed T C R) :=
  as.foldl (fun log a ↦ log ++ [⟨a.1, a.2, answer log a.1 a.2⟩]) []

omit [LE T] [DecidableLE T] in
theorem replay_concat (answer : List (Performed T C R) → T → C → R) (as : List (T × C))
    (a : T × C) :
    replay answer (as ++ [a]) =
      replay answer as ++ [⟨a.1, a.2, answer (replay answer as) a.1 a.2⟩] := by
  rw [replay, List.foldl_append]
  rfl

/-- **Refinement.**  An object whose calls all return what the history tells has the history of the
replayed calls. -/
theorem log_eq_replay {answer : List (Performed T C R) → T → C → R} {t : S × T}
    {as : List (T × C)} {log : List (Performed T C R)}
    (h : (O.machine now₀).exec as = some (t, log))
    (hlog : Along (fun pre p ↦ p.result = answer pre p.now p.call) log) :
    log = replay answer as := by
  refine (O.machine now₀).exec_run_induction
    (P := fun as _ log ↦ Along (fun pre p ↦ p.result = answer pre p.now p.call) log →
      log = replay answer as) (fun _ ↦ rfl) ?_ h hlog
  intro as a s log t es _ ih hstep hlog
  obtain ⟨-, -, rfl⟩ := O.step_eq_some_iff.mp hstep
  have hresult : (O.performed s.1 a.1 a.2).result = answer log a.1 a.2 := hlog log _ [] rfl
  rw [replay_concat, ← ih (along_append_iff.mp hlog).1, ← hresult]
  rfl

omit [LE T] [DecidableLE T] in
/-- **Independence.**  Where the answers to some calls depend on those calls only, the others may as
well not have been made. -/
theorem filter_replay {answer : List (Performed T C R) → T → C → R} {keep : C → Bool}
    (hkeep : ∀ log now c, keep c = true →
      answer (log.filter fun p ↦ keep p.call) now c = answer log now c) (as : List (T × C)) :
    (replay answer as).filter (fun p ↦ keep p.call) =
      replay answer (as.filter fun a ↦ keep a.2) := by
  induction as using List.reverseRecOn with
  | nil => rfl
  | append_singleton as a ih =>
      rw [replay_concat, List.filter_append, List.filter_append, ih, List.filter_cons,
        List.filter_cons, List.filter_nil, List.filter_nil]
      cases ha : keep a.2 with
      | true => rw [if_pos rfl, if_pos rfl, replay_concat, ← hkeep _ a.1 a.2 ha, ih]
      | false =>
          rw [if_neg Bool.false_ne_true, if_neg Bool.false_ne_true, List.append_nil,
            List.append_nil]

end Object

end LunaZTrust.Transition
