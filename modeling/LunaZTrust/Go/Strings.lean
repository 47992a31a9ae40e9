import Mathlib.Data.Nat.Digits.Defs
import LunaZTrust.Go.Bytes

/-!
# `strings` and `strconv`

The functions of Go's string packages that the proxy calls, on byte strings.
`trimSpace` trims Unicode white space: what it cuts is a whole UTF-8 encoding
of such a character, never part of one, so it can be said on bytes.
-/

namespace LunaZTrust.Go

namespace Strings

/-- The UTF-8 encodings of the characters `unicode.IsSpace` accepts. -/
def spaces : List Bytes :=
  [[0x09], [0x0a], [0x0b], [0x0c], [0x0d], [0x20], [0xc2, 0x85], [0xc2, 0xa0],
    [0xe1, 0x9a, 0x80], [0xe2, 0x80, 0x80], [0xe2, 0x80, 0x81], [0xe2, 0x80, 0x82],
    [0xe2, 0x80, 0x83], [0xe2, 0x80, 0x84], [0xe2, 0x80, 0x85], [0xe2, 0x80, 0x86],
    [0xe2, 0x80, 0x87], [0xe2, 0x80, 0x88], [0xe2, 0x80, 0x89], [0xe2, 0x80, 0x8a],
    [0xe2, 0x80, 0xa8], [0xe2, 0x80, 0xa9], [0xe2, 0x80, 0xaf], [0xe2, 0x81, 0x9f],
    [0xe3, 0x80, 0x80]]

/-- Cut one of the given words off the front, if one stands there. -/
def cutOne (words : List Bytes) (s : Bytes) : Option Bytes :=
  words.findSome? fun w => if w.isPrefixOf s then some (s.drop w.length) else none

/-- Cut words off the front at most `n` times. -/
def cutMany (words : List Bytes) : Nat → Bytes → Bytes
  | 0, s => s
  | n + 1, s =>
      match cutOne words s with
      | some t => cutMany words n t
      | none => s

/-- Cut white space off the front. -/
def trimLeftSpace (s : GoString) : GoString := cutMany spaces s.length s

/-- Cut white space off the end. -/
def trimRightSpace (s : GoString) : GoString :=
  (cutMany (spaces.map List.reverse) s.length s.reverse).reverse

/-- `strings.TrimSpace`. -/
def trimSpace (s : GoString) : GoString := trimRightSpace (trimLeftSpace s)

/-- `strings.HasPrefix`. -/
def hasPrefix (s p : GoString) : Bool := p.isPrefixOf s

/-- `strings.TrimPrefix`. -/
def trimPrefix (s p : GoString) : GoString := if hasPrefix s p then s.drop p.length else s

/-- `strings.TrimRight` with a single-byte cutset. -/
def trimRight (s : GoString) (c : UInt8) : GoString := (s.reverse.dropWhile (· == c)).reverse

/-- `strings.Split` with a single-byte separator. -/
def split (s : GoString) (sep : UInt8) : List GoString := s.splitOn sep

/-- `strings.ReplaceAll` of a single byte. -/
def replaceAll (s : GoString) (old : UInt8) (new : GoString) : GoString :=
  s.flatMap fun c => if c = old then new else [c]

/-- `strings.Contains`. -/
def contains (s sub : GoString) : Bool := s.tails.any sub.isPrefixOf

/-! ### Trimming twice -/

theorem cutOne_eq_none_iff {words : List Bytes} {s : Bytes} :
    cutOne words s = none ↔ ∀ w ∈ words, ¬w <+: s := by
  rw [cutOne, List.findSome?_eq_none_iff]
  refine forall₂_congr fun w _ ↦ ?_
  rw [ite_eq_right_iff, List.isPrefixOf_iff_prefix]
  exact ⟨fun h hw ↦ Option.some_ne_none _ (h hw), fun h hw ↦ absurd hw h⟩

theorem cutOne_eq_some {words : List Bytes} {s t : Bytes} (h : cutOne words s = some t) :
    ∃ w ∈ words, w ++ t = s := by
  obtain ⟨w, hw, hcut⟩ := List.exists_of_findSome?_eq_some h
  rw [Option.ite_none_right_eq_some, List.isPrefixOf_iff_prefix] at hcut
  obtain ⟨⟨rest, rfl⟩, hrest⟩ := hcut
  rw [List.drop_left] at hrest
  exact ⟨w, hw, Option.some.inj hrest ▸ rfl⟩

theorem cutMany_suffix (words : List Bytes) (n : Nat) (s : Bytes) : cutMany words n s <:+ s := by
  induction n generalizing s with
  | zero => exact List.suffix_refl s
  | succ n ih =>
      rw [cutMany]
      split
      · next t ht =>
          obtain ⟨w, -, rfl⟩ := cutOne_eq_some ht
          exact (ih t).trans (List.suffix_append w t)
      · exact List.suffix_refl s

/-- Cutting as often as there are bytes leaves nothing to cut. -/
theorem cutOne_cutMany {words : List Bytes} (hwords : ∀ w ∈ words, w ≠ []) {n : Nat} {s : Bytes}
    (hn : s.length ≤ n) : cutOne words (cutMany words n s) = none := by
  induction n generalizing s with
  | zero =>
      obtain rfl := List.length_eq_zero_iff.mp (Nat.le_zero.mp hn)
      exact cutOne_eq_none_iff.mpr fun w hw hp ↦ hwords w hw (List.prefix_nil.mp hp)
  | succ n ih =>
      rw [cutMany]
      split
      · next t ht =>
          obtain ⟨w, hw, rfl⟩ := cutOne_eq_some ht
          have hpos : 0 < w.length := List.length_pos_of_ne_nil (hwords w hw)
          rw [List.length_append] at hn
          exact ih (by omega)
      · next h => exact h

theorem cutMany_eq_self {words : List Bytes} {s : Bytes} (h : cutOne words s = none) (n : Nat) :
    cutMany words n s = s := by
  cases n with
  | zero => rfl
  | succ n => rw [cutMany, h]

@[simp] theorem trimSpace_trimSpace (s : GoString) : trimSpace (trimSpace s) = trimSpace s := by
  have hleft : cutOne spaces (trimLeftSpace s) = none := cutOne_cutMany (by decide) le_rfl
  have hright : cutOne (spaces.map List.reverse) (trimSpace s).reverse = none := by
    rw [trimSpace, trimRightSpace, List.reverse_reverse]
    exact cutOne_cutMany (by decide) List.length_reverse.le
  -- what is left of the string is a prefix of it without its leading spaces
  have hprefix : trimSpace s <+: trimLeftSpace s := by
    rw [← List.reverse_suffix, trimSpace, trimRightSpace, List.reverse_reverse]
    exact cutMany_suffix _ _ _
  have hleft' : cutOne spaces (trimSpace s) = none :=
    cutOne_eq_none_iff.mpr fun w hw hp ↦ cutOne_eq_none_iff.mp hleft w hw (hp.trans hprefix)
  have htrim : trimLeftSpace (trimSpace s) = trimSpace s := cutMany_eq_self hleft' _
  show trimRightSpace (trimLeftSpace (trimSpace s)) = trimSpace s
  rw [htrim, trimRightSpace, cutMany_eq_self hright, List.reverse_reverse]

/-! ### What trimming keeps -/

theorem mem_of_mem_trimLeftSpace {s : GoString} {c : UInt8} (h : c ∈ trimLeftSpace s) : c ∈ s :=
  (cutMany_suffix _ _ _).subset h

theorem mem_of_mem_trimRightSpace {s : GoString} {c : UInt8} (h : c ∈ trimRightSpace s) :
    c ∈ s := by
  rw [trimRightSpace, List.mem_reverse] at h
  exact List.mem_reverse.mp ((cutMany_suffix _ _ _).subset h)

theorem mem_of_mem_trimSpace {s : GoString} {c : UInt8} (h : c ∈ trimSpace s) : c ∈ s :=
  mem_of_mem_trimLeftSpace (mem_of_mem_trimRightSpace h)

/-- Words that do not count are cut without loss. -/
theorem filter_cutMany {words : List Bytes} {p : UInt8 → Bool} {s : Bytes}
    (h : ∀ w ∈ words, (∀ c ∈ w, c ∈ s) → w.filter p = []) (n : Nat) :
    (cutMany words n s).filter p = s.filter p := by
  induction n generalizing s with
  | zero => rfl
  | succ n ih =>
      rw [cutMany]
      split
      · next t ht =>
          obtain ⟨w, hw, rfl⟩ := cutOne_eq_some ht
          rw [ih fun w' hw' hmem ↦ h w' hw' fun c hc ↦ List.mem_append_right _ (hmem c hc),
            List.filter_append, h w hw fun c hc ↦ List.mem_append_left _ hc, List.nil_append]
      · rfl

/-! Where the white space that can stand in a string does not count, trimming loses nothing. -/

theorem filter_trimLeftSpace {p : UInt8 → Bool} {s : GoString}
    (h : ∀ w ∈ spaces, (∀ c ∈ w, c ∈ s) → w.filter p = []) :
    (trimLeftSpace s).filter p = s.filter p := filter_cutMany h _

theorem filter_trimRightSpace {p : UInt8 → Bool} {s : GoString}
    (h : ∀ w ∈ spaces, (∀ c ∈ w, c ∈ s) → w.filter p = []) :
    (trimRightSpace s).filter p = s.filter p := by
  have hrev : ∀ w ∈ spaces.map List.reverse, (∀ c ∈ w, c ∈ s.reverse) → w.filter p = [] := by
    intro w hw hmem
    obtain ⟨w, hspace, rfl⟩ := List.mem_map.mp hw
    rw [List.filter_reverse, h w hspace, List.reverse_nil]
    exact fun c hc ↦ List.mem_reverse.mp (hmem c (List.mem_reverse.mpr hc))
  rw [trimRightSpace, List.filter_reverse, filter_cutMany hrev, List.filter_reverse,
    List.reverse_reverse]

theorem filter_trimSpace {p : UInt8 → Bool} {s : GoString}
    (h : ∀ w ∈ spaces, (∀ c ∈ w, c ∈ s) → w.filter p = []) :
    (trimSpace s).filter p = s.filter p := by
  rw [trimSpace, filter_trimRightSpace, filter_trimLeftSpace h]
  exact fun w hw hmem ↦ h w hw fun c hc ↦ mem_of_mem_trimLeftSpace (hmem c hc)

theorem trimPrefix_eq_self {s p : GoString} {c : UInt8} (hp : c ∈ p) (hs : c ∉ s) :
    trimPrefix s p = s := by
  rw [trimPrefix, hasPrefix, if_neg]
  intro h
  exact hs ((List.isPrefixOf_iff_prefix.mp h).subset hp)

theorem trimRight_eq_self {s : GoString} {c : UInt8} (h : c ∉ s) : trimRight s c = s := by
  have hdrop : s.reverse.dropWhile (· == c) = s.reverse := by
    cases hrev : s.reverse with
    | nil => rfl
    | cons b rest =>
        refine List.dropWhile_cons_of_neg fun hb ↦ h ?_
        rw [← List.mem_reverse, hrev, ← beq_iff_eq.mp hb]
        exact List.mem_cons_self
  rw [trimRight, hdrop, List.reverse_reverse]

theorem trimPrefix_append (p s : GoString) : trimPrefix (p ++ s) p = s := by
  rw [trimPrefix, hasPrefix, if_pos (List.isPrefixOf_iff_prefix.mpr (List.prefix_append p s)),
    List.drop_left]

theorem trimPrefix_cases (s p : GoString) : trimPrefix s p = s ∨ p ++ trimPrefix s p = s := by
  rw [trimPrefix, hasPrefix]
  split
  · next h =>
      obtain ⟨t, rfl⟩ := List.isPrefixOf_iff_prefix.mp h
      exact .inr (by rw [List.drop_left])
  · exact .inl rfl

theorem trimRight_append_replicate (s : GoString) (k : Nat) (c : UInt8) :
    trimRight (s ++ List.replicate k c) c = trimRight s c := by
  rw [trimRight, List.reverse_append, List.reverse_replicate, List.dropWhile_append,
    List.dropWhile_replicate, if_pos (beq_self_eq_true c), if_pos List.isEmpty_nil, trimRight]

theorem exists_trimRight_append (s : GoString) (c : UInt8) :
    ∃ k, trimRight s c ++ List.replicate k c = s := by
  have hsplit := List.takeWhile_append_dropWhile (p := (· == c)) (l := s.reverse)
  have htake : s.reverse.takeWhile (· == c) =
      List.replicate (s.reverse.takeWhile (· == c)).length c :=
    List.eq_replicate_of_mem fun b hb ↦
      beq_iff_eq.mp (List.all_eq_true.mp List.all_takeWhile b hb)
  refine ⟨(s.reverse.takeWhile (· == c)).length, ?_⟩
  rw [← List.reverse_replicate, ← htake, trimRight, ← List.reverse_append, hsplit,
    List.reverse_reverse]

/-- What does not end in the byte is not trimmed. -/
theorem prefix_trimRight {s : GoString} {c : UInt8} (h : s.getLast? ≠ some c) (t : GoString) :
    s <+: trimRight (s ++ t) c := by
  have hs : s.reverse.dropWhile (· == c) = s.reverse := by
    cases hrev : s.reverse with
    | nil => rfl
    | cons b rest =>
        refine List.dropWhile_cons_of_neg fun hb ↦ h ?_
        rw [List.getLast?_eq_head?_reverse, hrev, List.head?_cons, beq_iff_eq.mp hb]
  rw [trimRight, List.reverse_append, List.dropWhile_append]
  split
  · refine ⟨[], ?_⟩
    rw [hs, List.reverse_reverse, List.append_nil]
  · rw [List.reverse_append, List.reverse_reverse]
    exact List.prefix_append _ _

end Strings

namespace Strconv

/-- The value of a decimal digit. -/
def digit (c : UInt8) : Option Nat := if 0x30 ≤ c ∧ c ≤ 0x39 then some (c.toNat - 0x30) else none

/-- Read decimal digits on from the value read so far. -/
def readDigits : Nat → Bytes → Option Nat
  | acc, [] => some acc
  | acc, c :: rest => do
      let d ← digit c
      readDigits (acc * 10 + d) rest

/-- The sign of a number and what follows it. -/
def readSign : Bytes → Bool × Bytes
  | 0x2b :: rest => (false, rest)
  | 0x2d :: rest => (true, rest)
  | s => (false, s)

/-- `strconv.ParseInt(s, 10, 64)`, and `strconv.Atoi` where an `int` has 64
bits: `none` on a syntax error and on a value out of range. -/
def parseInt (s : GoString) : Option Int :=
  match readSign s with
  | (_, []) => none
  | (false, ds) => do
      let n ← readDigits 0 ds
      if n < 2 ^ 63 then some (n : Int) else none
  | (true, ds) => do
      let n ← readDigits 0 ds
      if n ≤ 2 ^ 63 then some (-(n : Int)) else none

/-- The decimal digits of a natural number. -/
def formatNat (n : Nat) : GoString :=
  if n = 0 then [0x30] else (Nat.digits 10 n).reverse.map fun d => UInt8.ofNat (0x30 + d)

/-- `strconv.FormatInt(n, 10)`. -/
def formatInt (n : Int) : GoString :=
  if n < 0 then 0x2d :: formatNat n.natAbs else formatNat n.natAbs

end Strconv

end LunaZTrust.Go
