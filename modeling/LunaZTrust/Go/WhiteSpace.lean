import Mathlib.Computability.Language
import LunaZTrust.Go.Strings

/-!
# White space around a string

`strings.TrimSpace` cuts off white space at both ends and nothing else
(`exists_whiteSpace_trimSpace`), and white space that is put around a string does not change what it
leaves (`trimSpace_surround`).  White space is a sequence of words, the encodings of the characters
`unicode.IsSpace` accepts.  None of them begins or ends another one, so the sequence can be cut into
words in one way only, from either end.
-/

namespace LunaZTrust.Go.Strings

open Computability

/-! ## Cutting off words -/

/-- Words that can be told apart from the front: none is empty, and none begins another one. -/
structure IsCode (words : List Bytes) : Prop where
  ne_nil : ∀ w ∈ words, w ≠ []
  eq_of_begins : ∀ u ∈ words, ∀ v ∈ words, u <+: v → u = v

section Words

variable {words : List Bytes} {s : Bytes}

/-- A word in front is cut off. -/
theorem IsCode.cutOne_append (hcode : IsCode words) {w : Bytes} (hw : w ∈ words) (s : Bytes) :
    cutOne words (w ++ s) = some s := by
  cases hcut : cutOne words (w ++ s) with
  | none => exact absurd (List.prefix_append w s) (cutOne_eq_none_iff.mp hcut w hw)
  | some t =>
      obtain ⟨u, hu, heq⟩ := cutOne_eq_some hcut
      have hsame : u = w := by
        rcases List.prefix_or_prefix_of_prefix ⟨t, heq⟩ (List.prefix_append w s) with h | h
        · exact hcode.eq_of_begins u hu w hw h
        · exact (hcode.eq_of_begins w hw u hu h).symm
      rw [hsame, List.append_cancel_left_eq] at heq
      rw [heq]

theorem cutMany_add (words : List Bytes) (m k : Nat) (s : Bytes) :
    cutMany words (m + k) s = cutMany words k (cutMany words m s) := by
  induction m generalizing s with
  | zero => rw [Nat.zero_add, cutMany]
  | succ m ih =>
      rw [Nat.succ_add, cutMany, cutMany]
      cases hcut : cutOne words s with
      | none => exact (cutMany_eq_self hcut k).symm
      | some t => exact ih t

/-- It does not help to cut more often than there are bytes. -/
theorem IsCode.cutMany_of_le (hcode : IsCode words) {n : Nat} (hn : s.length ≤ n) :
    cutMany words n s = cutMany words s.length s := by
  obtain ⟨k, rfl⟩ := Nat.exists_eq_add_of_le hn
  rw [cutMany_add, cutMany_eq_self (cutOne_cutMany hcode.ne_nil le_rfl)]

/-- All words in front are cut off. -/
theorem IsCode.cutMany_flatten_append (hcode : IsCode words) {ws : List Bytes}
    (hws : ∀ w ∈ ws, w ∈ words) (s : Bytes) :
    cutMany words (ws.flatten ++ s).length (ws.flatten ++ s) = cutMany words s.length s := by
  induction ws with
  | nil => rfl
  | cons w ws ih =>
      rw [List.forall_mem_cons] at hws
      have hpos : 0 < w.length := List.length_pos_of_ne_nil (hcode.ne_nil w hws.1)
      have hcut := hcode.cutOne_append hws.1 (ws.flatten ++ s)
      rw [List.flatten_cons, List.append_assoc, ← ih hws.2]
      obtain ⟨k, hk⟩ : ∃ k, (w ++ (ws.flatten ++ s)).length = k + 1 :=
        Nat.exists_eq_add_of_le' (by rw [List.length_append]; omega)
      rw [hk, cutMany, hcut]
      rw [List.length_append] at hk
      exact hcode.cutMany_of_le (by omega)

/-- What is cut off are words. -/
theorem exists_flatten_append_cutMany (words : List Bytes) (n : Nat) (s : Bytes) :
    ∃ ws : List Bytes, (∀ w ∈ ws, w ∈ words) ∧ ws.flatten ++ cutMany words n s = s := by
  induction n generalizing s with
  | zero => exact ⟨[], List.forall_mem_nil _, rfl⟩
  | succ n ih =>
      rw [cutMany]
      cases hcut : cutOne words s with
      | none => exact ⟨[], List.forall_mem_nil _, rfl⟩
      | some t =>
          obtain ⟨w, hw, rfl⟩ := cutOne_eq_some hcut
          obtain ⟨ws, hws, hflatten⟩ := ih t
          refine ⟨w :: ws, List.forall_mem_cons.mpr ⟨hw, hws⟩, ?_⟩
          dsimp only
          rw [List.flatten_cons, List.append_assoc, hflatten]

/-- A word ends before a byte that stands in no word. -/
theorem begins_append_cons_iff {w a b : Bytes} {c : UInt8} (hc : c ∉ w) :
    w <+: a ++ c :: b ↔ w <+: a := by
  refine ⟨fun h ↦ ?_, fun h ↦ h.trans (List.prefix_append a _)⟩
  rcases List.prefix_or_prefix_of_prefix h (List.prefix_append a _) with h' | ⟨rest, rfl⟩
  · exact h'
  · rw [List.prefix_append_right_inj] at h
    cases rest with
    | nil => rw [List.append_nil]
    | cons d rest =>
        obtain ⟨rfl, -⟩ := List.cons_prefix_cons.mp h
        exact absurd (List.mem_append_right a List.mem_cons_self) hc

theorem cutOne_append_cons {c : UInt8} (hc : ∀ w ∈ words, c ∉ w) (a b : Bytes) :
    cutOne words (a ++ c :: b) = (cutOne words a).map (· ++ c :: b) := by
  induction words with
  | nil => rfl
  | cons w words ih =>
      rw [List.forall_mem_cons] at hc
      rw [cutOne, cutOne, List.findSome?_cons, List.findSome?_cons]
      by_cases hw : w <+: a
      · have hlong : w <+: a ++ c :: b := hw.trans (List.prefix_append a _)
        rw [if_pos (List.isPrefixOf_iff_prefix.mpr hw),
          if_pos (List.isPrefixOf_iff_prefix.mpr hlong),
          List.drop_append_of_le_length hw.length_le]
        rfl
      · rw [if_neg fun h ↦ hw (List.isPrefixOf_iff_prefix.mp h),
          if_neg fun h ↦ hw ((begins_append_cons_iff hc.1).mp (List.isPrefixOf_iff_prefix.mp h))]
        exact ih hc.2

/-- Nothing is cut off from a byte that stands in no word on. -/
theorem cutMany_append_cons {c : UInt8} (hc : ∀ w ∈ words, c ∉ w) (n : Nat) (a b : Bytes) :
    cutMany words n (a ++ c :: b) = cutMany words n a ++ c :: b := by
  induction n generalizing a with
  | zero => rfl
  | succ n ih =>
      rw [cutMany, cutMany, cutOne_append_cons hc]
      cases cutOne words a with
      | none => rfl
      | some t => exact ih t

end Words

/-! ## White space -/

/-- White space: any number of characters that `unicode.IsSpace` accepts. -/
def whiteSpace : Language UInt8 := {w | w ∈ spaces}∗

theorem flatten_mem_whiteSpace (ws : List Bytes) (h : ∀ w ∈ ws, w ∈ spaces) :
    ws.flatten ∈ whiteSpace := Language.join_mem_kstar h

/-- A byte that stands in no white space. -/
def Solid (c : UInt8) : Prop := ∀ w ∈ spaces, c ∉ w

instance (c : UInt8) : Decidable (Solid c) := inferInstanceAs (Decidable (∀ _ ∈ _, _))

/-- No visible character of ASCII is part of white space. -/
theorem solid_of_visible {c : UInt8} (h : 0x21 ≤ c) (h' : c < 0x80) : Solid c := by
  have key : ∀ w ∈ spaces, ∀ c ∈ w, c < 0x21 ∨ 0x80 ≤ c := by decide +kernel
  intro w hw hc
  rcases key w hw c hc with hlt | hle
  · exact absurd h (UInt8.not_le.mpr hlt)
  · exact absurd h' (UInt8.not_lt.mpr hle)

theorem isCode_spaces : IsCode spaces where
  ne_nil := by decide
  eq_of_begins := by decide +kernel

theorem isCode_reverse_spaces : IsCode (spaces.map List.reverse) where
  ne_nil := by decide
  eq_of_begins := by decide +kernel

theorem Solid.notMem_reverse {c : UInt8} (h : Solid c) : ∀ w ∈ spaces.map List.reverse, c ∉ w := by
  intro w hw hc
  obtain ⟨w, hspace, rfl⟩ := List.mem_map.mp hw
  exact h w hspace (List.mem_reverse.mp hc)

variable {w s : GoString} {c : UInt8}

theorem trimLeftSpace_append (hw : w ∈ whiteSpace) (s : GoString) :
    trimLeftSpace (w ++ s) = trimLeftSpace s := by
  obtain ⟨ws, rfl, hws⟩ := Language.mem_kstar.mp hw
  exact isCode_spaces.cutMany_flatten_append hws s

theorem trimRightSpace_append (hw : w ∈ whiteSpace) (s : GoString) :
    trimRightSpace (s ++ w) = trimRightSpace s := by
  obtain ⟨ws, rfl, hws⟩ := Language.mem_kstar.mp hw
  have hrev : ∀ w ∈ (ws.map List.reverse).reverse, w ∈ spaces.map List.reverse := by
    intro w hw
    obtain ⟨w, hmem, rfl⟩ := List.mem_map.mp (List.mem_reverse.mp hw)
    exact List.mem_map_of_mem (hws w hmem)
  have hcut := isCode_reverse_spaces.cutMany_flatten_append hrev s.reverse
  rw [← List.reverse_flatten, ← List.reverse_append, List.length_reverse,
    List.length_reverse] at hcut
  rw [trimRightSpace, hcut, trimRightSpace]

theorem trimLeftSpace_append_cons (hc : Solid c) (a b : GoString) :
    trimLeftSpace (a ++ c :: b) = trimLeftSpace a ++ c :: b := by
  rw [trimLeftSpace, cutMany_append_cons hc, isCode_spaces.cutMany_of_le, trimLeftSpace]
  rw [List.length_append]
  exact Nat.le_add_right _ _

theorem trimRightSpace_append_cons (hc : Solid c) (a b : GoString) :
    trimRightSpace (a ++ c :: b) = a ++ c :: trimRightSpace b := by
  have hrev : (a ++ c :: b).reverse = b.reverse ++ c :: a.reverse := by
    rw [List.reverse_append, List.reverse_cons, List.append_assoc, List.singleton_append]
  have hle : b.reverse.length ≤ (a ++ c :: b).length := by
    rw [List.length_reverse, List.length_append, List.length_cons]
    omega
  rw [trimRightSpace, hrev, cutMany_append_cons hc.notMem_reverse,
    isCode_reverse_spaces.cutMany_of_le hle, trimRightSpace, List.length_reverse,
    List.reverse_append, List.reverse_cons, List.reverse_reverse, List.append_assoc,
    List.singleton_append]

/-- What follows a string that is not white space does not change where it begins. -/
theorem trimLeftSpace_append_of_mem (hc : Solid c) (hs : c ∈ s) (t : GoString) :
    trimLeftSpace (s ++ t) = trimLeftSpace s ++ t := by
  obtain ⟨a, b, rfl⟩ := List.append_of_mem hs
  rw [List.append_assoc, List.cons_append, trimLeftSpace_append_cons hc,
    trimLeftSpace_append_cons hc, List.append_assoc, List.cons_append]

/-- White space around a string that is not white space itself is trimmed. -/
theorem trimSpace_surround {w₁ w₂ : GoString} (hw₁ : w₁ ∈ whiteSpace) (hw₂ : w₂ ∈ whiteSpace)
    (hc : Solid c) (hs : c ∈ s) : trimSpace (w₁ ++ s ++ w₂) = trimSpace s := by
  rw [trimSpace, List.append_assoc, trimLeftSpace_append hw₁, trimLeftSpace_append_of_mem hc hs,
    trimRightSpace_append hw₂, trimSpace]

/-- Behind a word without white space, only the end is trimmed. -/
theorem trimSpace_append_of_solid {p : GoString} (hne : p ≠ []) (hp : ∀ c ∈ p, Solid c)
    (s : GoString) : trimSpace (p ++ s) = p ++ trimRightSpace s := by
  have hleft : trimLeftSpace (p ++ s) = p ++ s := by
    cases p with
    | nil => exact absurd rfl hne
    | cons c p => exact trimLeftSpace_append_cons (hp c List.mem_cons_self) [] (p ++ s)
  have hright : p = p.dropLast ++ [p.getLast hne] := (List.dropLast_append_getLast hne).symm
  rw [trimSpace, hleft, hright, List.append_assoc, List.singleton_append,
    trimRightSpace_append_cons (hp _ (List.getLast_mem hne)), List.append_assoc,
    List.singleton_append]

/-- Only white space is trimmed. -/
theorem exists_whiteSpace_trimSpace (s : GoString) :
    ∃ w₁ ∈ whiteSpace, ∃ w₂ ∈ whiteSpace, w₁ ++ trimSpace s ++ w₂ = s := by
  obtain ⟨ws, hws, hleft⟩ := exists_flatten_append_cutMany spaces s.length s
  obtain ⟨ws', hws', hright⟩ := exists_flatten_append_cutMany (spaces.map List.reverse)
    (trimLeftSpace s).length (trimLeftSpace s).reverse
  refine ⟨_, flatten_mem_whiteSpace ws hws, ws'.flatten.reverse, ?_, ?_⟩
  · rw [List.reverse_flatten]
    refine flatten_mem_whiteSpace _ fun w hw ↦ ?_
    obtain ⟨v, hv, rfl⟩ := List.mem_map.mp (List.mem_reverse.mp hw)
    obtain ⟨u, hu, rfl⟩ := List.mem_map.mp (hws' v hv)
    rw [List.reverse_reverse]
    exact hu
  · have htrim : trimSpace s ++ ws'.flatten.reverse = trimLeftSpace s := by
      rw [← List.reverse_reverse (trimLeftSpace s), ← hright, List.reverse_append]
      rfl
    rw [List.append_assoc, htrim]
    exact hleft

end LunaZTrust.Go.Strings
