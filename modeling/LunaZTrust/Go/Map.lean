import Mathlib.Data.List.AList

/-!
# Maps

A Go map is a finite association list without duplicate keys.  The two facts
about a map that changed at one key are stated with the comparison of keys in
the result, so that a proof about an arbitrary key rewrites and then splits.
`lookup_range_delete` is the one about a `range` loop that deletes as it goes.
-/

namespace LunaZTrust.Go

/-- A Go map. -/
abbrev Map (K V : Type) := AList fun _ : K ↦ V

namespace Map

variable {K V : Type} [DecidableEq K]

theorem lookup_insert_eq (m : Map K V) (k k' : K) (v : V) :
    AList.lookup k' (m.insert k v) = if k' = k then some v else AList.lookup k' m := by
  by_cases h : k' = k
  · rw [if_pos h, h, AList.lookup_insert]
  · rw [if_neg h, AList.lookup_insert_ne h]

theorem lookup_erase_eq (m : Map K V) (k k' : K) :
    AList.lookup k' (m.erase k) = if k' = k then none else AList.lookup k' m := by
  by_cases h : k' = k
  · rw [if_pos h, h, AList.lookup_erase]
  · rw [if_neg h, AList.lookup_erase_ne h]

/-- `m[k] = v` is there after an insertion exactly if it was put or was there and
not overwritten. -/
theorem lookup_insert_eq_some_iff {m : Map K V} {k k' : K} {v v' : V} :
    AList.lookup k' (m.insert k v) = some v' ↔
      k' = k ∧ v = v' ∨ k' ≠ k ∧ AList.lookup k' m = some v' := by
  rw [lookup_insert_eq]
  by_cases h : k' = k
  · rw [if_pos h, Option.some.injEq]
    exact ⟨fun hv ↦ Or.inl ⟨h, hv⟩, fun hv ↦ hv.elim And.right fun hn ↦ absurd h hn.1⟩
  · rw [if_neg h]
    exact ⟨fun hv ↦ Or.inr ⟨h, hv⟩, fun hv ↦ hv.elim (fun hn ↦ absurd hn.1 h) And.right⟩

theorem lookup_erase_eq_some_iff {m : Map K V} {k k' : K} {v' : V} :
    AList.lookup k' (m.erase k) = some v' ↔ k' ≠ k ∧ AList.lookup k' m = some v' := by
  rw [lookup_erase_eq]
  by_cases h : k' = k
  · rw [if_pos h]
    exact ⟨(nomatch ·), fun hv ↦ absurd h hv.1⟩
  · rw [if_neg h]
    exact ⟨fun hv ↦ ⟨h, hv⟩, And.right⟩

/-- What holds of all entries still does after an insertion, if it holds of the
new one. -/
theorem forall_insert {m : Map K V} {P : K → V → Prop} {k : K} {v : V}
    (h : ∀ k v, AList.lookup k m = some v → P k v) (hv : P k v) :
    ∀ k' v', AList.lookup k' (m.insert k v) = some v' → P k' v' := by
  intro k' v' hl
  rcases lookup_insert_eq_some_iff.mp hl with ⟨rfl, rfl⟩ | ⟨-, hl⟩
  · exact hv
  · exact h k' v' hl

/-- What holds of all entries still does after a deletion. -/
theorem forall_erase {m : Map K V} {P : K → V → Prop} {k : K}
    (h : ∀ k v, AList.lookup k m = some v → P k v) :
    ∀ k' v', AList.lookup k' (m.erase k) = some v' → P k' v' :=
  fun k' v' hl ↦ h k' v' (lookup_erase_eq_some_iff.mp hl).2

/-! ## Loops that delete -/

section Range

variable {S : Type} {f : S → (Sigma fun _ : K ↦ V) → S} {m : S → Map K V}
  {P : (Sigma fun _ : K ↦ V) → Prop}

/-- A loop whose body deletes its entry from the map of a state if the entry is of a
kind, and may change the rest of the state. -/
theorem lookup_foldl_delete
    (hf : ∀ s e k v, AList.lookup k (m (f s e)) = some v ↔
      AList.lookup k (m s) = some v ∧ ¬(e.1 = k ∧ P e))
    (es : List (Sigma fun _ : K ↦ V)) {s : S} {k : K} {v : V} :
    AList.lookup k (m (es.foldl f s)) = some v ↔
      AList.lookup k (m s) = some v ∧ ∀ e ∈ es, ¬(e.1 = k ∧ P e) := by
  induction es generalizing s with
  | nil => exact ⟨fun h ↦ ⟨h, List.forall_mem_nil _⟩, And.left⟩
  | cons e es ih => rw [List.foldl_cons, ih, hf, List.forall_mem_cons, and_assoc]

/-- **Deleting while iterating.**  The loop over all entries of a map leaves exactly
those that are not of the kind. -/
theorem lookup_range_delete
    (hf : ∀ s e k v, AList.lookup k (m (f s e)) = some v ↔
      AList.lookup k (m s) = some v ∧ ¬(e.1 = k ∧ P e)) {s : S} {k : K} {v : V} :
    AList.lookup k (m ((m s).entries.foldl f s)) = some v ↔
      AList.lookup k (m s) = some v ∧ ¬P ⟨k, v⟩ := by
  rw [lookup_foldl_delete hf]
  refine and_congr_right fun hv ↦ ⟨fun h hP ↦ ?_, ?_⟩
  · exact h ⟨k, v⟩ (AList.mem_lookup_iff.mp hv) ⟨rfl, hP⟩
  · rintro hP ⟨_, v'⟩ hmem ⟨rfl, hP'⟩
    have hv' : some v' = some v := (AList.mem_lookup_iff.mpr hmem).symm.trans hv
    obtain rfl := Option.some.inj hv'
    exact hP hP'

end Range

/-! ## Counting -/

section Count

/-- The number of values of a kind. -/
def count (m : Map K V) (p : V → Bool) : Nat := m.entries.countP fun e ↦ p e.2

variable {m : Map K V} {k : K} {v : V} (p : V → Bool)

theorem count_insert (m : Map K V) (k : K) (v : V) :
    count (m.insert k v) p = count (m.erase k) p + if p v then 1 else 0 :=
  List.countP_cons

theorem count_erase (h : AList.lookup k m = some v) :
    count m p = count (m.erase k) p + if p v then 1 else 0 := by
  have hkey : k ∈ m.entries.keys := AList.lookup_isSome.mp (Option.isSome_iff_exists.mpr ⟨v, h⟩)
  obtain ⟨v', l₁, l₂, -, hm, herase⟩ := List.exists_of_kerase hkey
  have hmem : ⟨k, v'⟩ ∈ m.entries := hm ▸ List.mem_append_right l₁ List.mem_cons_self
  obtain rfl : v = v' := Option.some.inj (h.symm.trans (AList.mem_lookup_iff.mpr hmem))
  have hsplit : (m.erase k).entries = l₁ ++ l₂ := herase
  rw [count, count, hm, hsplit, List.countP_append, List.countP_cons, List.countP_append,
    Nat.add_assoc]

theorem count_insert_of_lookup_eq_none (h : AList.lookup k m = none) :
    count (m.insert k v) p = count m p + if p v then 1 else 0 := by
  have herase : (m.erase k).entries = m.entries :=
    List.kerase_of_notMem_keys (AList.lookup_eq_none.mp h)
  rw [count_insert, count, herase, count]

/-- A value that is replaced. -/
theorem count_insert_add {v' : V} (h : AList.lookup k m = some v) :
    count (m.insert k v') p + (if p v then 1 else 0) = count m p + if p v' then 1 else 0 := by
  rw [count_insert, count_erase p h, Nat.add_right_comm]

/-- A value that is replaced by one of the same kind. -/
theorem count_insert_of_eq {v' : V} (h : AList.lookup k m = some v) (hp : p v' = p v) :
    count (m.insert k v') p = count m p := by
  rw [count_insert, count_erase p h, hp]

theorem count_pos_iff : 0 < count m p ↔ ∃ k v, AList.lookup k m = some v ∧ p v = true := by
  rw [count, List.countP_pos_iff]
  constructor
  · rintro ⟨⟨k, v⟩, hmem, hp⟩
    exact ⟨k, v, AList.mem_lookup_iff.mpr hmem, hp⟩
  · rintro ⟨k, v, hv, hp⟩
    exact ⟨⟨k, v⟩, AList.mem_lookup_iff.mp hv, hp⟩

/-- A map whose other keys are all named by values of a second one. -/
theorem length_keys_le_count_add {K' V' : Type} [DecidableEq K'] {m' : Map K' V'} (f : V' → K)
    (h : ∀ k v, AList.lookup k m = some v →
      p v = true ∨ ∃ k' v', AList.lookup k' m' = some v' ∧ f v' = k) :
    m.keys.length ≤ count m p + m'.keys.length := by
  have hnodup : ((m.entries.filter fun e ↦ !p e.2).map Sigma.fst).Nodup :=
    m.nodupKeys.sublist List.filter_sublist
  have hsub : (m.entries.filter fun e ↦ !p e.2).map Sigma.fst ⊆
      m'.entries.map fun e ↦ f e.2 := by
    intro k hk
    obtain ⟨⟨k, v⟩, hmem, rfl⟩ := List.mem_map.mp hk
    obtain ⟨hmem, hp⟩ := List.mem_filter.mp hmem
    rcases h k v (AList.mem_lookup_iff.mpr hmem) with hp' | ⟨k', v', hv', hf⟩
    · rw [hp'] at hp
      exact nomatch hp
    · exact List.mem_map.mpr ⟨⟨k', v'⟩, AList.mem_lookup_iff.mp hv', hf⟩
  have hle := hnodup.length_le_of_subset hsub
  rw [List.length_map, List.length_map, ← List.countP_eq_length_filter] at hle
  calc m.keys.length
      = m.entries.length := List.length_map _
    _ = count m p + m.entries.countP fun e ↦ !p e.2 := by
        rw [List.length_eq_countP_add_countP fun e ↦ p e.2, count]
        simp only [Bool.not_eq_true, Bool.decide_eq_false]
    _ ≤ count m p + m'.entries.length := Nat.add_le_add_left hle _
    _ = count m p + m'.keys.length := by rw [AList.keys, List.keys, List.length_map]

end Count

end Map

end LunaZTrust.Go
