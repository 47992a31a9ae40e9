import Mathlib.Data.List.Infix
import Mathlib.Logic.Function.Basic
import LunaZTrust.Go.Strings

/-!
# Separators

Fields are often written one after the other with a separator between them.  They can be read
back if none of them contains the separator: splitting undoes joining (`split_eq_iff`).  Where a
field may contain it, there are other fields that are written in the same way
(`append_cons_eq_append_cons_iff`).

A field can also stand behind a label that says which field it is.  Then the label and the
field can be read off if no label begins with another (`labelled_injective`).
-/

namespace LunaZTrust.Go.Separators

section Lists

variable {α : Type*} {x : α} {a b c d : List α}

/-- Two words on either side of a separator: the same words, or a separator within one of
them is taken for the one between them. -/
theorem append_cons_eq_append_cons_iff :
    a ++ x :: b = c ++ x :: d ↔ a = c ∧ b = d ∨
      (∃ e, c = a ++ x :: e ∧ b = e ++ x :: d) ∨ ∃ e, a = c ++ x :: e ∧ d = e ++ x :: b := by
  constructor
  · intro h
    rcases List.append_eq_append_iff.mp h with ⟨e, rfl, hb⟩ | ⟨e, rfl, hd⟩
    · cases e with
      | nil => exact .inl ⟨(List.append_nil a).symm, (List.cons.inj hb).2⟩
      | cons y e =>
          obtain ⟨rfl, rfl⟩ := List.cons.inj hb
          exact .inr (.inl ⟨e, rfl, rfl⟩)
    · cases e with
      | nil => exact .inl ⟨List.append_nil c, (List.cons.inj hd).2.symm⟩
      | cons y e =>
          obtain ⟨rfl, rfl⟩ := List.cons.inj hd
          exact .inr (.inr ⟨e, rfl, rfl⟩)
  · rintro (⟨rfl, rfl⟩ | ⟨e, rfl, rfl⟩ | ⟨e, rfl, rfl⟩)
    · rfl
    · rw [List.append_assoc, List.cons_append]
    · rw [List.append_assoc, List.cons_append]

/-- What stands before the last separator and what stands behind it. -/
theorem append_cons_inj_last (hb : x ∉ b) (hd : x ∉ d) :
    a ++ x :: b = c ++ x :: d ↔ a = c ∧ b = d := by
  rw [append_cons_eq_append_cons_iff]
  refine or_iff_left ?_
  rintro (⟨e, -, rfl⟩ | ⟨e, -, rfl⟩)
  · exact hb (List.mem_append_right _ List.mem_cons_self)
  · exact hd (List.mem_append_right _ List.mem_cons_self)

/-- What stands before the first separator and what stands behind it. -/
theorem append_cons_inj_first (ha : x ∉ a) (hc : x ∉ c) :
    a ++ x :: b = c ++ x :: d ↔ a = c ∧ b = d := by
  rw [append_cons_eq_append_cons_iff]
  refine or_iff_left ?_
  rintro (⟨e, rfl, -⟩ | ⟨e, rfl, -⟩)
  · exact hc (List.mem_append_right _ List.mem_cons_self)
  · exact ha (List.mem_append_right _ List.mem_cons_self)

/-- A word of a class of characters ends at the first one of another class. -/
theorem append_cons_inj_class {p : α → Prop} {y : α} (ha : ∀ z ∈ a, p z) (hc : ∀ z ∈ c, p z)
    (hx : ¬p x) (hy : ¬p y) (h : a ++ x :: b = c ++ y :: d) : a = c ∧ x :: b = y :: d := by
  induction a generalizing c with
  | nil =>
      cases c with
      | nil => exact ⟨rfl, h⟩
      | cons z c => exact absurd ((List.cons.inj h).1 ▸ hc z List.mem_cons_self) hx
  | cons z a ih =>
      cases c with
      | nil => exact absurd ((List.cons.inj h).1 ▸ ha z List.mem_cons_self) hy
      | cons z' c =>
          obtain ⟨rfl, htail⟩ := List.cons.inj h
          obtain ⟨rfl, hrest⟩ :=
            ih (List.forall_mem_cons.mp ha).2 (List.forall_mem_cons.mp hc).2 htail
          exact ⟨rfl, hrest⟩

/-- Words without the separator can be read back from what they are joined to. -/
theorem intercalate_inj [DecidableEq α] {ps qs : List (List α)} (hps : ps ≠ [])
    (hqs : qs ≠ []) (hp : ∀ p ∈ ps, x ∉ p) (hq : ∀ q ∈ qs, x ∉ q) :
    [x].intercalate ps = [x].intercalate qs ↔ ps = qs := by
  constructor
  · intro h
    rw [← List.splitOn_intercalate x hp hps, h, List.splitOn_intercalate x hq hqs]
  · rintro rfl
    rfl

/-- All words but the last one are followed by the separator. -/
theorem intercalate_concat (ls : List (List α)) (l : List α) :
    [x].intercalate (ls ++ [l]) = ls.flatMap (· ++ [x]) ++ l := by
  induction ls with
  | nil => exact List.intercalate_singleton
  | cons a ls ih =>
      rw [List.cons_append, List.intercalate_cons_of_ne_nil (List.append_ne_nil_of_right_ne_nil _
        (List.cons_ne_nil _ _)), ih, List.flatMap_cons, List.append_assoc _ _ l]

end Lists

/-! ## Labelled entries -/

section Labels

variable {L α : Type*}

/-- A label and what stands behind it can be told apart if no label begins with another one. -/
theorem labelled_injective {L : Type*} {text : L → List α}
    (hfree : ∀ l l', text l <+: text l' → l = l') :
    Function.Injective fun entry : L × List α ↦ text entry.1 ++ entry.2 := by
  rintro ⟨l, v⟩ ⟨l', v'⟩ h
  have hl : l = l' := by
    have hp : text l <+: text l' ++ v' := ⟨v, h⟩
    rcases List.prefix_or_prefix_of_prefix hp (List.prefix_append _ v') with hle | hle
    · exact hfree l l' hle
    · exact (hfree l' l hle).symm
  subst hl
  have hv : v = v' := List.append_cancel_left h
  rw [hv]

/-- The lines of a list of labelled entries, with a separator between them. -/
def render (text : L → List α) (x : α) (entries : List (L × List α)) : List α :=
  [x].intercalate (entries.map fun entry ↦ text entry.1 ++ entry.2)

/-- Entries without the separator can be read back from their lines. -/
theorem render_inj [DecidableEq α] {text : L → List α} {x : α} {es es' : List (L × List α)}
    (hfree : ∀ l l', text l <+: text l' → l = l') (htext : ∀ l, x ∉ text l)
    (hes : es ≠ []) (hes' : es' ≠ []) (hv : ∀ e ∈ es, x ∉ e.2) (hv' : ∀ e ∈ es', x ∉ e.2)
    (h : render text x es = render text x es') : es = es' := by
  have hlines : ∀ {es : List (L × List α)}, (∀ e ∈ es, x ∉ e.2) →
      ∀ line ∈ es.map fun entry ↦ text entry.1 ++ entry.2, x ∉ line := by
    intro es hv line hline
    obtain ⟨e, he, rfl⟩ := List.mem_map.mp hline
    exact List.not_mem_append (htext e.1) (hv e he)
  have hmap := (intercalate_inj (mt List.map_eq_nil_iff.mp hes) (mt List.map_eq_nil_iff.mp hes')
    (hlines hv) (hlines hv')).mp h
  exact List.map_injective_iff.mpr (labelled_injective hfree) hmap

/-- An entry that is left out if there is nothing to say. -/
def entryIf (l : L) (v : List α) : List (L × List α) := if v = [] then [] else [(l, v)]

theorem mem_entryIf {l : L} {v : List α} {e : L × List α} (h : e ∈ entryIf l v) :
    e = (l, v) := by
  rw [entryIf] at h
  split at h
  · cases h
  · exact List.mem_singleton.mp h

variable [DecidableEq L]

/-- What is said under a label. -/
def value (l : L) (es : List (L × List α)) : List α :=
  es.flatMap fun e ↦ if e.1 = l then e.2 else []

@[simp] theorem value_nil (l : L) : value l ([] : List (L × List α)) = [] := rfl

@[simp] theorem value_cons (l : L) (e : L × List α) (es : List (L × List α)) :
    value l (e :: es) = (if e.1 = l then e.2 else []) ++ value l es := List.flatMap_cons

@[simp] theorem value_append (l : L) (es es' : List (L × List α)) :
    value l (es ++ es') = value l es ++ value l es' := List.flatMap_append

/-- To leave out an empty entry does not change what is said. -/
@[simp] theorem value_entryIf (l l' : L) (v : List α) :
    value l (entryIf l' v) = if l' = l then v else [] := by
  rw [entryIf]
  split
  · next hv => rw [hv, value_nil, ite_self]
  · rw [value_cons, value_nil, List.append_nil]

end Labels

/-! ## Splitting -/

variable {s : GoString} {sep : UInt8}

theorem notMem_of_mem_split {p : GoString} (h : p ∈ Strings.split s sep) : sep ∉ p := by
  rw [Strings.split, List.splitOn_eq_splitOnP] at h
  induction s generalizing p with
  | nil =>
      cases List.mem_singleton.mp h
      exact List.not_mem_nil
  | cons c s ih =>
      rw [List.splitOnP_cons_eq_if_modifyHead] at h
      split at h
      · rcases List.mem_cons.mp h with rfl | h
        · exact List.not_mem_nil
        · exact ih h
      · next hc =>
          cases hs : s.splitOnP (· == sep) with
          | nil => exact absurd hs (List.splitOnP_ne_nil _ _)
          | cons q qs =>
              rw [hs, List.modifyHead_cons] at h
              rw [hs] at ih
              rcases List.mem_cons.mp h with rfl | h
              · intro hsep
                rcases List.mem_cons.mp hsep with rfl | hsep
                · exact hc (beq_self_eq_true _)
                · exact ih List.mem_cons_self hsep
              · exact ih (List.mem_cons_of_mem _ h)

/-- What `strings.Split` returns. -/
theorem split_eq_iff {ps : List GoString} :
    Strings.split s sep = ps ↔ ps ≠ [] ∧ (∀ p ∈ ps, sep ∉ p) ∧ s = [sep].intercalate ps := by
  constructor
  · rintro rfl
    exact ⟨List.splitOn_ne_nil _ _, fun p ↦ notMem_of_mem_split,
      (List.intercalate_splitOn sep).symm⟩
  · rintro ⟨hne, hsep, rfl⟩
    exact List.splitOn_intercalate sep hsep hne

end LunaZTrust.Go.Separators
