import Mathlib.Data.Nat.Digits.Lemmas
import LunaZTrust.Go.Strings
import LunaZTrust.Go.Time

/-!
# Decimal numbers

What `strconv.FormatInt` writes, `strconv.ParseInt` reads back (`parseInt_formatInt`).  It
is made of digits and at most a minus sign, so it can stand between separators.
-/

namespace LunaZTrust.Go.Strconv

/-- The digit for a value. -/
def encodeDigit (d : Nat) : UInt8 := UInt8.ofNat (0x30 + d)

theorem toNat_encodeDigit {d : Nat} (h : d < 10) : (encodeDigit d).toNat = 0x30 + d := by
  rw [encodeDigit, UInt8.toNat_ofNat']
  omega

theorem digit_encodeDigit {d : Nat} (h : d < 10) : digit (encodeDigit d) = some d := by
  have hd := toNat_encodeDigit h
  rw [digit, if_pos]
  · rw [hd, Nat.add_sub_cancel_left]
  · rw [UInt8.le_iff_toNat_le, UInt8.le_iff_toNat_le, hd]
    exact ⟨Nat.le_add_right _ _, by show 48 + d ≤ 57; omega⟩

/-- Reading digits is evaluating them, the first one first. -/
theorem readDigits_map_encodeDigit {ds : List Nat} (h : ∀ d ∈ ds, d < 10) (acc : Nat) :
    readDigits acc (ds.map encodeDigit) = some (ds.foldl (fun a d ↦ a * 10 + d) acc) := by
  induction ds generalizing acc with
  | nil => rfl
  | cons d ds ih =>
      rw [List.map_cons, readDigits, digit_encodeDigit (h d List.mem_cons_self)]
      exact ih (fun d' hd' ↦ h d' (List.mem_cons_of_mem _ hd')) _

theorem formatNat_eq (n : Nat) (h : n ≠ 0) :
    formatNat n = (Nat.digits 10 n).reverse.map encodeDigit := if_neg h

theorem readDigits_formatNat (n : Nat) : readDigits 0 (formatNat n) = some n := by
  by_cases hn : n = 0
  · subst hn
    rfl
  · rw [formatNat_eq n hn, readDigits_map_encodeDigit]
    · have hvalue : (Nat.digits 10 n).foldr (fun d a ↦ a * 10 + d) 0 = n := by
        conv_rhs => rw [← Nat.ofDigits_digits 10 n, Nat.ofDigits_eq_foldr]
        congr 1
        funext d a
        rw [Nat.cast_id, Nat.mul_comm, Nat.add_comm]
      rw [List.foldl_reverse, hvalue]
    · intro d hd
      exact Nat.digits_lt_base (by decide) (List.mem_reverse.mp hd)

/-- What the digits of a number are. -/
theorem mem_formatNat {n : Nat} {c : UInt8} (h : c ∈ formatNat n) :
    0x30 ≤ c.toNat ∧ c.toNat ≤ 0x39 := by
  by_cases hn : n = 0
  · subst hn
    cases List.mem_singleton.mp h
    decide
  · rw [formatNat_eq n hn] at h
    obtain ⟨d, hd, rfl⟩ := List.mem_map.mp h
    have hlt := Nat.digits_lt_base (by decide) (List.mem_reverse.mp hd)
    rw [toNat_encodeDigit hlt]
    omega

theorem formatNat_ne_nil (n : Nat) : formatNat n ≠ [] := by
  by_cases hn : n = 0
  · subst hn
    decide
  · rw [formatNat_eq n hn]
    intro h
    have hdigits := List.reverse_eq_nil_iff.mp (List.map_eq_nil_iff.mp h)
    exact hn (Nat.digits_eq_nil_iff_eq_zero.mp hdigits)

/-- A number without a sign is read without one. -/
theorem readSign_formatNat (n : Nat) : readSign (formatNat n) = (false, formatNat n) := by
  cases hn : formatNat n with
  | nil => exact absurd hn (formatNat_ne_nil n)
  | cons c rest =>
      have hc := mem_formatNat (n := n) (c := c) (hn ▸ List.mem_cons_self)
      rw [readSign]
      all_goals
        rintro rest' heq
        cases heq
        exact absurd hc.1 (by decide)

/-- **Round trip.**  A number is read back if it is one of 64 bits. -/
theorem parseInt_formatInt (n : Int) :
    parseInt (formatInt n) = if IsInt64 n then some n else none := by
  rw [formatInt]
  split
  · next hneg =>
      have hread : readSign (0x2d :: formatNat n.natAbs) = (true, formatNat n.natAbs) := rfl
      rw [parseInt, hread]
      cases hds : formatNat n.natAbs with
      | nil => exact absurd hds (formatNat_ne_nil _)
      | cons c rest =>
          dsimp only
          rw [← hds, readDigits_formatNat, Option.bind_eq_bind, Option.bind_some]
          refine ite_congr ?_ (fun _ ↦ by rw [Int.ofNat_natAbs_of_nonpos hneg.le, neg_neg])
            fun _ ↦ rfl
          rw [IsInt64, eq_iff_iff]
          omega
  · next hpos =>
      rw [parseInt, readSign_formatNat]
      cases hds : formatNat n.natAbs with
      | nil => exact absurd hds (formatNat_ne_nil _)
      | cons c rest =>
          dsimp only
          rw [← hds, readDigits_formatNat, Option.bind_eq_bind, Option.bind_some]
          refine ite_congr ?_ (fun _ ↦ by rw [Int.natAbs_of_nonneg (not_lt.mp hpos)])
            fun _ ↦ rfl
          rw [IsInt64, eq_iff_iff]
          omega

/-- What a number is written with. -/
theorem mem_formatInt {n : Int} {c : UInt8} (h : c ∈ formatInt n) :
    c = 0x2d ∨ 0x30 ≤ c.toNat ∧ c.toNat ≤ 0x39 := by
  rw [formatInt] at h
  split at h
  · exact (List.mem_cons.mp h).imp_right mem_formatNat
  · exact .inr (mem_formatNat h)

theorem colon_notMem_formatInt (n : Int) : 0x3a ∉ formatInt n := by
  intro h
  rcases mem_formatInt h with h | h
  · exact absurd h (by decide)
  · exact absurd h (by decide)

/-- Numbers that are written alike are equal. -/
theorem formatInt_injective : Function.Injective formatInt := by
  have hnat : ∀ {m n : Nat}, formatNat m = formatNat n → m = n := by
    intro m n h
    have hm := readDigits_formatNat m
    rw [h, readDigits_formatNat] at hm
    exact (Option.some.inj hm).symm
  -- a number without a sign does not begin with one
  have hsign : ∀ {m n : Nat}, 0x2d :: formatNat m ≠ formatNat n := by
    intro m n h
    exact absurd (mem_formatNat (n := n) (c := 0x2d) (h ▸ List.mem_cons_self)).1 (by decide)
  intro m n h
  rw [formatInt, formatInt] at h
  split at h <;> split at h
  · have := hnat (List.cons.inj h).2
    omega
  · exact absurd h hsign
  · exact absurd h.symm hsign
  · have := hnat h
    omega

end LunaZTrust.Go.Strconv
