import LunaZTrust.Transition.Machine

/-!
# Simulations

Two machines are run side by side, each action of the one answered by an action of the other.  If
steps keep a relation between the states, and show the same to an observer of both logs,
then so do runs (`exec_simulation`).

With a machine against itself, a relation that compares what an observer sees of the state, and
actions that are replaced where they should not matter, this says that they do not matter.
-/

namespace LunaZTrust.Transition.Machine

variable {S A E S' A' E' V : Type} (M : Machine S A E) (N : Machine S' A' E')
  {R : S → S' → Prop} {f : A → A'} {g : E → Option V} {g' : E' → Option V}

/-- **Simulation, from any related states.** -/
theorem execFrom_simulation
    (hstep : ∀ s s' a t es, R s s' → M.step s a = some (t, es) →
      ∃ t' es', N.step s' (f a) = some (t', es') ∧ R t t' ∧ es'.filterMap g' = es.filterMap g)
    {s t : S} {s' : S'} {as : List A} {log : List E} (hs : R s s')
    (h : M.execFrom s as = some (t, log)) :
    ∃ t' log', N.execFrom s' (as.map f) = some (t', log') ∧ R t t' ∧
      log'.filterMap g' = log.filterMap g := by
  induction as generalizing s s' log with
  | nil =>
      obtain ⟨rfl, rfl⟩ := Prod.mk.inj (Option.some.inj h)
      exact ⟨s', [], rfl, hs, rfl⟩
  | cons a as ih =>
      obtain ⟨s₁, es₁, es₂, h₁, h₂, rfl⟩ := M.execFrom_cons_iff.mp h
      obtain ⟨s₁', es₁', h₁', hs₁, hes₁⟩ := hstep s s' a s₁ es₁ hs h₁
      obtain ⟨t', es₂', h₂', ht, hes₂⟩ := ih hs₁ h₂
      refine ⟨t', es₁' ++ es₂', N.execFrom_cons_iff.mpr ⟨s₁', es₁', es₂', h₁', h₂', rfl⟩, ht, ?_⟩
      rw [List.filterMap_append, List.filterMap_append, hes₁, hes₂]

/-- **Simulation.** -/
theorem exec_simulation (hstart : R M.start N.start)
    (hstep : ∀ s s' a t es, R s s' → M.step s a = some (t, es) →
      ∃ t' es', N.step s' (f a) = some (t', es') ∧ R t t' ∧ es'.filterMap g' = es.filterMap g)
    {t : S} {as : List A} {log : List E} (h : M.exec as = some (t, log)) :
    ∃ t' log', N.exec (as.map f) = some (t', log') ∧ R t t' ∧
      log'.filterMap g' = log.filterMap g :=
  M.execFrom_simulation N hstep hstart h

end LunaZTrust.Transition.Machine
