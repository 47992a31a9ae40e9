import LunaZTrust.Approval.Provenance
import LunaZTrust.Proxy.System

/-!
# Runs of the proxy

A run of the proxy contains a run of the approval system (`exec_approval`), so that
what holds of all runs of the latter holds inside the proxy.

The handlers give their calls on the store numbers.  A number is given once
(`exec_numbered`), so it stands for one request.
-/

namespace LunaZTrust.Proxy

open LunaZTrust.Go LunaZTrust.Ssh LunaZTrust.Auth LunaZTrust.Keystore LunaZTrust.Approval
open LunaZTrust.Api LunaZTrust.Mobile LunaZTrust.Transition

variable {Key Signer : Type} {crypto : Crypto} {ssh : Package Key Signer} {lib : Library}
  {cfg : Config} {now : Time} {as : List Action} {a : Action} {s s' : System Signer}
  {log es : List Event}

/-! ## The approval system inside -/

/-- The events of the approval system. -/
def storeLog (log : List Event) : List Approval.Event := log.filterMap Event.store?

theorem mem_storeLog_iff {e : Approval.Event} : e ∈ storeLog log ↔ .store e ∈ log := by
  rw [storeLog, List.mem_filterMap]
  constructor
  · rintro ⟨e', hmem, he⟩
    cases e' with
    | store => cases he; exact hmem
    | _ => exact nomatch he
  · intro h
    exact ⟨_, h, rfl⟩

theorem storeLog_append : storeLog (log ++ es) = storeLog log ++ storeLog es :=
  List.filterMap_append

theorem storeLog_map_store (es : List Approval.Event) : storeLog (es.map .store) = es := by
  rw [storeLog, List.filterMap_map]
  exact List.filterMap_some

/-- An event of the proxy's own is not among those of the approval system. -/
theorem not_mem_map_store {e : Event} (he : e.store? = none) (es : List Approval.Event) :
    e ∉ es.map .store := by
  intro hmem
  obtain ⟨_, -, rfl⟩ := List.mem_map.mp hmem
  exact nomatch he

/-- A step takes no step of the approval system, or one, whose events come last.  What happens by
itself is an action of its own. -/
theorem Step.approval_cases (hs : Step crypto ssh lib cfg s a s' es) :
    (s'.approval = s.approval ∧ es = []) ∨
      ∃ b pre es', Approval.step cfg.approval s.approval b = some (s'.approval, es') ∧
        es = pre ++ es'.map .store ∧ storeLog pre = [] ∧ (s.allows b = true → a = .store b) := by
  cases hs with
  | store ha hst => exact Or.inr ⟨_, [], _, hst, rfl, rfl, fun _ ↦ rfl⟩
  | issue hst => exact Or.inr ⟨_, [], _, hst, rfl, rfl, fun h ↦ by cases h⟩
  | issueLeased hst => exact Or.inr ⟨_, [], _, hst, rfl, rfl, fun h ↦ by cases h⟩
  | bind hh hb hst | startWait hh hst | verifyDevice hh ha hst | updateApprove hu hst =>
      exact Or.inr ⟨_, [_], _, hst, rfl, rfl, fun h ↦ by cases h⟩
  | updateDeny hu hst => exact Or.inr ⟨_, [], _, hst, rfl, rfl, fun h ↦ by cases h⟩
  | _ => exact Or.inl ⟨rfl, rfl⟩

/-- **Run.**  The approval system inside runs by its own rules. -/
theorem exec_approval (hrun : (machine crypto ssh lib cfg now).exec as = some (s, log)) :
    ∃ as', (Approval.machine cfg.approval now true).exec as' =
      some (s.approval, storeLog log) := by
  refine (machine crypto ssh lib cfg now).exec_project (Approval.machine cfg.approval now true)
    (f := System.approval) rfl (fun s a s' es hs ↦ ?_) hrun
  rcases (Step.of_step hs).approval_cases with ⟨heq, rfl⟩ | ⟨b, pre, es', hst, rfl, hpre, -⟩
  · exact ⟨[], by rw [heq]; rfl⟩
  · refine ⟨[b], (Approval.machine cfg.approval now true).execFrom_cons_iff.mpr
      ⟨_, es', [], hst, rfl, ?_⟩⟩
    calc storeLog (pre ++ es'.map .store)
      _ = storeLog pre ++ storeLog (es'.map .store) := storeLog_append
      _ = es' ++ [] := by rw [hpre, storeLog_map_store, List.nil_append, List.append_nil]

/-! ## Call numbers -/

/-- The number of the call a handler makes. -/
def Event.number? : Event → Option Nat
  | .store _ => none
  | .submitted c _ _ _ => some c
  | .waited c _ _ => some c
  | .callback c _ => some c
  | .device c _ _ _ _ => some c

/-- A number has been given at most once, and not yet to the next call. -/
structure Numbered (s : System Signer) (log : List Event) : Prop where
  lt : ∀ e ∈ log, ∀ c, e.number? = some c → c < s.approval.calls
  unique : ∀ e ∈ log, ∀ e' ∈ log, ∀ c, e.number? = some c → e'.number? = some c → e = e'

theorem numbered_nil (s : System Signer) : Numbered s [] where
  lt _ h := absurd h List.not_mem_nil
  unique _ h := absurd h List.not_mem_nil

/-- A step gives no number, or the next one. -/
theorem Step.number_cases (hs : Step crypto ssh lib cfg s a s' es) :
    s.approval.calls ≤ s'.approval.calls ∧
      ((∀ e ∈ es, e.number? = none) ∨ s.approval.calls < s'.approval.calls ∧
        ∃ e₀ ∈ es, e₀.number? = some s.approval.calls ∧ ∀ e ∈ es, e = e₀ ∨ e.number? = none) := by
  have hle : s.approval.calls ≤ s'.approval.calls := by
    rcases hs.approval_cases with ⟨heq, -⟩ | ⟨b, pre, es', hst, -⟩
    · rw [heq]
    · exact (Approval.Step.of_step hst).calls_le
  have hmap : ∀ (es : List Approval.Event), ∀ e ∈ es.map Event.store, e.number? = none := by
    intro es e he
    obtain ⟨e', -, rfl⟩ := List.mem_map.mp he
    rfl
  have hcons : ∀ (e₀ : Event) (es : List Approval.Event) (c : Nat), e₀.number? = some c →
      ∃ e₁ ∈ e₀ :: es.map Event.store, e₁.number? = some c ∧
        ∀ e ∈ e₀ :: es.map Event.store, e = e₁ ∨ e.number? = none := by
    intro e₀ es c h₀
    refine ⟨e₀, List.mem_cons_self, h₀, fun e he ↦ ?_⟩
    exact (List.mem_cons.mp he).imp_right (hmap es e)
  refine ⟨hle, ?_⟩
  cases hs with
  | store ha hst | issue hst | issueLeased hst | updateDeny hu hst => exact Or.inl (hmap _)
  | bind hh hb hst =>
      refine Or.inr ⟨?_, hcons _ _ _ rfl⟩
      cases Approval.Step.of_step hst
      exact Nat.lt_succ_self _
  | startWait hh hst =>
      refine Or.inr ⟨?_, hcons _ _ _ rfl⟩
      cases Approval.Step.of_step hst <;> exact Nat.lt_succ_self _
  | verifyDevice hh ha hst =>
      refine Or.inr ⟨?_, hcons _ _ _ rfl⟩
      cases Approval.Step.of_step hst
      exact Nat.lt_succ_self _
  | updateApprove hu hst =>
      refine Or.inr ⟨?_, hcons _ _ _ rfl⟩
      cases Approval.Step.of_step hst
      exact Nat.lt_succ_self _
  | _ => exact Or.inl (List.forall_mem_nil _)

/-- **Step.** -/
theorem Numbered.step (h : Numbered s log) (hs : Step crypto ssh lib cfg s a s' es) :
    Numbered s' (log ++ es) := by
  obtain ⟨hle, hcases⟩ := hs.number_cases
  -- a number given in this step is the next one, and no other event has it
  have hnew : ∀ e ∈ es, ∀ c, e.number? = some c → c = s.approval.calls ∧
      c < s'.approval.calls ∧ ∀ e' ∈ es, e'.number? = some c → e' = e := by
    intro e he c hc
    rcases hcases with hnone | ⟨hlt, e₀, -, h₀, honly⟩
    · exact nomatch (hnone e he).symm.trans hc
    · rcases honly e he with rfl | hnone
      · cases h₀.symm.trans hc
        refine ⟨rfl, hlt, fun e' he' hc' ↦ ?_⟩
        exact (honly e' he').resolve_right fun hnone ↦ nomatch hnone.symm.trans hc'
      · exact nomatch hnone.symm.trans hc
  constructor
  · intro e he c hc
    rcases List.mem_append.mp he with he | he
    · exact (h.lt e he c hc).trans_le hle
    · exact (hnew e he c hc).2.1
  · intro e he e' he' c hc hc'
    rcases List.mem_append.mp he with he | he <;> rcases List.mem_append.mp he' with he' | he'
    · exact h.unique e he e' he' c hc hc'
    · exact absurd (h.lt e he c hc) ((hnew e' he' c hc').1 ▸ Nat.lt_irrefl _)
    · exact absurd (h.lt e' he' c hc') ((hnew e he c hc).1 ▸ Nat.lt_irrefl _)
    · exact (hnew e' he' c hc').2.2 e he hc

/-- **Run.**  In every run, a number is given once. -/
theorem exec_numbered (hrun : (machine crypto ssh lib cfg now).exec as = some (s, log)) :
    Numbered s log :=
  (machine crypto ssh lib cfg now).exec_induction (P := Numbered)
    (numbered_nil _) (fun _ _ _ _ _ h hs ↦ h.step (.of_step hs)) hrun

end LunaZTrust.Proxy
