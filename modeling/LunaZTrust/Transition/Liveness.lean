import LunaZTrust.Transition.Machine

/-!
# What must happen

A list of actions can stop anywhere, so nothing has to happen in a run of `Machine.exec`.  A `Run`
goes on for ever.  It is fair to a set of actions if it takes one of them sooner or later,
whenever some of them can be taken from some point on.

`Run.leadsTo_of_helpful` is the rule to prove that something comes about.  As long as it has not,
the run is in one of several stages, each with actions that help; the others leave the stage as it
is or go on to a later one.  `exec_actions` gives all that is known of finite runs at every point
of an infinite one.
-/

namespace LunaZTrust.Transition

variable {S A E : Type}

/-- Whenever the one holds, the other holds then or later. -/
def LeadsTo (P Q : Nat → Prop) : Prop := ∀ n, P n → ∃ m, n ≤ m ∧ Q m

/-- **Induction on a rank.** -/
theorem leadsTo_of_rank {ι : Type} {P : ι → Nat → Prop} {Q : Nat → Prop} (rank : ι → Nat)
    (h : ∀ i, LeadsTo (P i) fun n ↦ Q n ∨ ∃ j, rank j < rank i ∧ P j n) (i : ι) :
    LeadsTo (P i) Q := by
  induction hk : rank i using Nat.strongRecOn generalizing i with
  | ind k ih =>
      intro n hn
      obtain ⟨m, hnm, hQ | ⟨j, hj, hm⟩⟩ := h i n hn
      · exact ⟨m, hnm, hQ⟩
      · obtain ⟨m', hmm', hQ⟩ := ih (rank j) (hk ▸ hj) j rfl m hm
        exact ⟨m', Nat.le_trans hnm hmm', hQ⟩

namespace Machine

variable (M : Machine S A E)

/-- An action of the set can be taken. -/
def Enabled (s : S) (H : A → Prop) : Prop := ∃ a, H a ∧ (M.step s a).isSome = true

/-- A run without end. -/
structure Run where
  state : Nat → S
  action : Nat → A
  events : Nat → List E
  state_zero : state 0 = M.start
  step_eq : ∀ n, M.step (state n) (action n) = some (state (n + 1), events n)

namespace Run

variable {M} (ρ : M.Run)

/-- The actions before a point. -/
def actions : Nat → List A
  | 0 => []
  | n + 1 => actions n ++ [ρ.action n]

/-- The events before a point. -/
def log : Nat → List E
  | 0 => []
  | n + 1 => log n ++ ρ.events n

/-- What comes before a point is a run. -/
theorem exec_actions (n : Nat) : M.exec (ρ.actions n) = some (ρ.state n, ρ.log n) := by
  induction n with
  | zero => exact congrArg (fun s ↦ some (s, [])) ρ.state_zero.symm
  | succ n ih => exact M.exec_concat_iff.mpr ⟨_, _, _, ih, ρ.step_eq n, rfl⟩

/-- What has happened by a point has happened by every later one. -/
theorem mem_log_of_le {e : E} {n m : Nat} (hnm : n ≤ m) (h : e ∈ ρ.log n) : e ∈ ρ.log m := by
  induction hnm with
  | refl => exact h
  | step _ ih => exact List.mem_append_left _ ih

/-- Weak fairness: what can be done from some point on is done. -/
def Fair (H : A → Prop) : Prop :=
  ∀ n, (∀ m, n ≤ m → M.Enabled (ρ.state m) H) → ∃ m, n ≤ m ∧ H (ρ.action m)

variable {ρ}

/-- **A fair action is taken.**  A stage that is only left for `Q`, and in which helpful actions
can be taken sooner or later, is left by one at the latest. -/
theorem leadsTo_of_fair {P Q : Nat → Prop} {H : A → Prop} (hfair : ρ.Fair H)
    (henabled : ∀ n, P n → ∃ m, n ≤ m ∧ ∀ k, m ≤ k → P k → M.Enabled (ρ.state k) H)
    (hstep : ∀ n, P n → Q (n + 1) ∨ P (n + 1))
    (heffect : ∀ n, P n → H (ρ.action n) → Q (n + 1)) : LeadsTo P Q := by
  intro n hn
  by_contra hnot
  -- if it is never left, the helpful actions can be taken from some point on
  have hstay : ∀ k, n ≤ k → P k := by
    intro k hk
    induction hk with
    | refl => exact hn
    | @step k hk ih =>
        exact (hstep k ih).resolve_left fun hQ ↦ hnot ⟨k + 1, Nat.le_succ_of_le hk, hQ⟩
  obtain ⟨m, hnm, hen⟩ := henabled n hn
  obtain ⟨k, hmk, hH⟩ := hfair m fun k hk ↦ hen k hk (hstay k (Nat.le_trans hnm hk))
  have hnk := Nat.le_trans hnm hmk
  exact hnot ⟨k + 1, Nat.le_succ_of_le hnk, heffect k (hstay k hnk) hH⟩

/-- **Helpful actions.**  From every stage, each step leads to the goal, leaves the stage as it is
or goes on to one of lower rank; a helpful one does not leave it as it is. -/
theorem leadsTo_of_helpful {ι : Type} {P : ι → Nat → Prop} {Q : Nat → Prop} {H : ι → A → Prop}
    (rank : ι → Nat) (hfair : ∀ i, ρ.Fair (H i))
    (henabled : ∀ i n, P i n → ∃ m, n ≤ m ∧ ∀ k, m ≤ k → P i k → M.Enabled (ρ.state k) (H i))
    (hstep : ∀ i n, P i n → Q (n + 1) ∨ P i (n + 1) ∨ ∃ j, rank j < rank i ∧ P j (n + 1))
    (heffect : ∀ i n, P i n → H i (ρ.action n) →
      Q (n + 1) ∨ ∃ j, rank j < rank i ∧ P j (n + 1)) (i : ι) : LeadsTo (P i) Q := by
  refine leadsTo_of_rank rank (fun i ↦ ?_) i
  refine leadsTo_of_fair (hfair i) (henabled i) (fun n hn ↦ ?_) (heffect i)
  rcases hstep i n hn with hQ | hP | hlower
  · exact .inl (.inl hQ)
  · exact .inr hP
  · exact .inl (.inr hlower)

end Run

/-! ## Runs by a schedule -/

variable (plan : Nat → S → A) (hplan : ∀ n s, (M.step s (plan n s)).isSome = true)

/-- The states of the run in which a scheduler chooses the actions. -/
def planned : Nat → S
  | 0 => M.start
  | n + 1 => ((M.step (planned n) (plan n (planned n))).get (hplan n _)).1

/-- A scheduler that always finds something to do gives a run without end. -/
def Run.ofPlan : M.Run where
  state := M.planned plan hplan
  action n := plan n (M.planned plan hplan n)
  events n := ((M.step (M.planned plan hplan n) (plan n (M.planned plan hplan n))).get
    (hplan n _)).2
  state_zero := rfl
  step_eq _ := (Option.some_get _).symm

end Machine

end LunaZTrust.Transition
