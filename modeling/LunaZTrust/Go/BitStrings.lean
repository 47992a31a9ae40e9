import LunaZTrust.Go.Encoding

/-!
# Texts and bytes as bit strings

A base64 digit stands for six bits, a hexadecimal digit for four and a byte for eight, the highest
first.  A text says the bits of its digits, one digit after the other, and to decode it is to cut
these bits into bytes (`Hex.decode_eq_some_iff`, `Base64.decodeGroups_eq_some_iff`).  In base64
fewer than six bits may be left over; the decoder does not look at them.
-/

namespace LunaZTrust.Go

/-! ## Bits -/

/-- The low `w` bits of a number, the highest first. -/
def bits (w n : Nat) : List Bool := (List.range w).reverse.map n.testBit

@[simp] theorem length_bits (w n : Nat) : (bits w n).length = w := by
  rw [bits, List.length_map, List.length_reverse, List.length_range]

/-- Bits can be cut anywhere. -/
theorem bits_add (w v n : Nat) : bits (w + v) n = bits w (n / 2 ^ v) ++ bits v n := by
  rw [bits, Nat.add_comm, List.range_add, List.reverse_append, List.map_append, ← List.map_reverse,
    List.map_map]
  refine congrArg₂ _ (List.map_congr_left fun i _ ↦ ?_) rfl
  rw [Function.comp_apply, Nat.testBit_div_two_pow, Nat.add_comm]

theorem bits_eq_bits_iff {w n m : Nat} : bits w n = bits w m ↔ n % 2 ^ w = m % 2 ^ w := by
  simp only [bits, List.map_inj_left, List.mem_reverse, List.mem_range]
  constructor
  · intro h
    refine Nat.eq_of_testBit_eq fun i ↦ ?_
    rw [Nat.testBit_mod_two_pow, Nat.testBit_mod_two_pow]
    by_cases hi : i < w
    · rw [h i hi]
    · rw [decide_eq_false hi, Bool.false_and, Bool.false_and]
  · intro h i hi
    have hbit := congrArg (Nat.testBit · i) h
    simpa only [Nat.testBit_mod_two_pow, decide_eq_true hi, Bool.true_and] using hbit

/-- Bits that are those of one number. -/
theorem append_bits {w v n a b : Nat} (ha : a % 2 ^ w = n / 2 ^ v % 2 ^ w)
    (hb : b % 2 ^ v = n % 2 ^ v) : bits w a ++ bits v b = bits (w + v) n := by
  rw [bits_add, bits_eq_bits_iff.mpr ha, bits_eq_bits_iff.mpr hb]

/-- The bits of bytes. -/
def bitsOfBytes (b : Bytes) : List Bool := b.flatMap fun c => bits 8 c.toNat

/-- The bits that a text says, if all its characters are digits of `w` bits. -/
def bitsOfDigits (w : Nat) (digit : UInt8 → Option Nat) : Bytes → Option (List Bool)
  | [] => some []
  | c :: s => do
      let d ← digit c
      let x ← bitsOfDigits w digit s
      return bits w d ++ x

theorem bitsOfBytes_cons (c : UInt8) (b : Bytes) :
    bitsOfBytes (c :: b) = bits 8 c.toNat ++ bitsOfBytes b := rfl

theorem bitsOfBytes_singleton (c : UInt8) : bitsOfBytes [c] = bits 8 c.toNat := List.append_nil _

theorem bitsOfBytes_append (b b' : Bytes) :
    bitsOfBytes (b ++ b') = bitsOfBytes b ++ bitsOfBytes b' := List.flatMap_append

@[simp] theorem length_bitsOfBytes (b : Bytes) : (bitsOfBytes b).length = 8 * b.length := by
  induction b with
  | nil => rfl
  | cons c b ih =>
      rw [bitsOfBytes_cons, List.length_append, length_bits, ih, List.length_cons]
      omega

theorem bitsOfBytes_injective : Function.Injective bitsOfBytes := by
  intro b b' h
  induction b generalizing b' with
  | nil =>
      have hlength := congrArg List.length h
      rw [length_bitsOfBytes, length_bitsOfBytes, List.length_nil] at hlength
      exact (List.length_eq_zero_iff.mp (by omega)).symm
  | cons c b ih =>
      cases b' with
      | nil =>
          have hlength := congrArg List.length h
          rw [length_bitsOfBytes, length_bitsOfBytes, List.length_cons, List.length_nil] at hlength
          omega
      | cons c' b' =>
          have hsize : (bits 8 c.toNat).length = (bits 8 c'.toNat).length := by
            rw [length_bits, length_bits]
          obtain ⟨hc, hb⟩ := List.append_inj h hsize
          rw [bits_eq_bits_iff, Nat.mod_eq_of_lt c.toNat_lt, Nat.mod_eq_of_lt c'.toNat_lt] at hc
          rw [UInt8.toNat_inj.mp hc, ih hb]

/-- Bits are cut into bytes in one way, as far as less than a byte is left over. -/
theorem bitsOfBytes_append_inj {b b' : Bytes} {x x' : List Bool} (hx : x.length < 8)
    (hx' : x'.length < 8) (h : bitsOfBytes b ++ x = bitsOfBytes b' ++ x') : b = b' := by
  have hlength := congrArg List.length h
  rw [List.length_append, List.length_append, length_bitsOfBytes, length_bitsOfBytes] at hlength
  have hsize : (bitsOfBytes b).length = (bitsOfBytes b').length := by
    rw [length_bitsOfBytes, length_bitsOfBytes]
    omega
  exact bitsOfBytes_injective (List.append_inj h hsize).1

section Digits

variable {w : Nat} {digit : UInt8 → Option Nat}

theorem bitsOfDigits_cons_eq_some_iff {c : UInt8} {s : Bytes} {x : List Bool} :
    bitsOfDigits w digit (c :: s) = some x ↔
      ∃ d, digit c = some d ∧ ∃ y, bitsOfDigits w digit s = some y ∧ bits w d ++ y = x := by
  simp only [bitsOfDigits, Option.bind_eq_bind, Option.bind_eq_some_iff, Option.pure_def,
    Option.some.injEq]

theorem bitsOfDigits_cons {c : UInt8} {d : Nat} {s : Bytes} {x : List Bool}
    (hc : digit c = some d) (hs : bitsOfDigits w digit s = some x) :
    bitsOfDigits w digit (c :: s) = some (bits w d ++ x) :=
  bitsOfDigits_cons_eq_some_iff.mpr ⟨d, hc, x, hs, rfl⟩

theorem length_of_bitsOfDigits {s : Bytes} {x : List Bool} (h : bitsOfDigits w digit s = some x) :
    x.length = w * s.length := by
  induction s generalizing x with
  | nil =>
      cases h
      rfl
  | cons c s ih =>
      obtain ⟨d, -, y, hy, rfl⟩ := bitsOfDigits_cons_eq_some_iff.mp h
      rw [List.length_append, length_bits, ih hy, List.length_cons, Nat.mul_succ, Nat.add_comm]

end Digits

/-! ## Hexadecimal -/

namespace Hex

theorem decodeDigit_lt {c : UInt8} {d : Nat} (h : decodeDigit c = some d) : d < 16 := by
  have key : ∀ c, ∀ d ∈ decodeDigit c, d < 16 := forall_byte (by decide +kernel)
  exact key c d h

/-- Two digits say the bits of the byte they are decoded to. -/
theorem bits_append_bits {d₀ d₁ : Nat} (h₁ : d₁ < 16) :
    bits 4 d₀ ++ bits 4 d₁ = bits 8 (UInt8.ofNat (d₀ * 16 + d₁)).toNat := by
  refine append_bits ?_ ?_ <;>
  · rw [UInt8.toNat_ofNat']
    omega

theorem bitsOfDigits_of_decode {s b : Bytes} (h : decode s = some b) :
    bitsOfDigits 4 decodeDigit s = some (bitsOfBytes b) := by
  induction s using decode.induct generalizing b with
  | case1 =>
      cases h
      rfl
  | case2 => cases h
  | case3 c₀ c₁ rest ih =>
      simp only [decode, Option.bind_eq_bind, Option.bind_eq_some_iff] at h
      obtain ⟨d₀, h₀, d₁, h₁, tl, htl, h⟩ := h
      cases h
      rw [bitsOfBytes_cons, ← bits_append_bits (decodeDigit_lt h₁), List.append_assoc]
      exact bitsOfDigits_cons h₀ (bitsOfDigits_cons h₁ (ih htl))

theorem exists_decode_of_bitsOfDigits {s : Bytes} {x : List Bool}
    (h : bitsOfDigits 4 decodeDigit s = some x) (heven : s.length % 2 = 0) :
    ∃ b, decode s = some b := by
  induction s using decode.induct generalizing x with
  | case1 => exact ⟨[], rfl⟩
  | case2 => cases heven
  | case3 c₀ c₁ rest ih =>
      obtain ⟨d₀, h₀, y, hy, -⟩ := bitsOfDigits_cons_eq_some_iff.mp h
      obtain ⟨d₁, h₁, z, hz, -⟩ := bitsOfDigits_cons_eq_some_iff.mp hy
      rw [List.length_cons, List.length_cons] at heven
      obtain ⟨b, hb⟩ := ih hz (by omega)
      exact ⟨_, by rw [decode, h₀, h₁, hb]; rfl⟩

/-- A text is decoded to the bytes whose bits it says. -/
theorem decode_eq_some_iff {s b : Bytes} :
    decode s = some b ↔ bitsOfDigits 4 decodeDigit s = some (bitsOfBytes b) := by
  refine ⟨bitsOfDigits_of_decode, fun h ↦ ?_⟩
  have hlength := length_of_bitsOfDigits h
  rw [length_bitsOfBytes] at hlength
  obtain ⟨b', hb'⟩ := exists_decode_of_bitsOfDigits h (by omega)
  have hbits := bitsOfDigits_of_decode hb'
  rw [h] at hbits
  rw [hb', bitsOfBytes_injective (Option.some.inj hbits)]

/-- A hexadecimal digit in lower case. -/
def lower (c : UInt8) : UInt8 := if 0x41 ≤ c ∧ c ≤ 0x46 then c + 0x20 else c

theorem decodeDigit_lower : ∀ c, decodeDigit (lower c) = decodeDigit c :=
  forall_byte (by decide +kernel)

/-- Case does not matter. -/
theorem decode_map_lower (s : Bytes) : decode (s.map lower) = decode s := by
  induction s using decode.induct with
  | case1 => rfl
  | case2 => rfl
  | case3 c₀ c₁ rest ih =>
      rw [List.map_cons, List.map_cons, decode, decode, decodeDigit_lower, decodeDigit_lower, ih]

end Hex

/-! ## Base64 -/

namespace Base64

theorem decodeDigit_lt {c : UInt8} {d : Nat} (h : decodeDigit c = some d) : d < 64 := by
  obtain ⟨hlt, -⟩ := List.idxOf?_eq_some_iff.mp h
  exact hlt

/-- Four digits say the bits of the three bytes they are decoded to. -/
theorem bits_four {d₀ d₁ d₂ d₃ : Nat} (h₁ : d₁ < 64) (h₂ : d₂ < 64) (h₃ : d₃ < 64) :
    bits 6 d₀ ++ (bits 6 d₁ ++ (bits 6 d₂ ++ bits 6 d₃)) =
      bitsOfBytes [(undigits d₀ d₁ d₂ d₃).1, (undigits d₀ d₁ d₂ d₃).2.1,
        (undigits d₀ d₁ d₂ d₃).2.2] := by
  rw [bitsOfBytes_cons, bitsOfBytes_cons, bitsOfBytes_singleton]
  simp only [undigits, UInt8.toNat_ofNat']
  -- both are the bits of the one number that the digits are assembled to
  obtain ⟨v, hv⟩ : ∃ v, v = d₀ * 2 ^ 18 + d₁ * 2 ^ 12 + d₂ * 2 ^ 6 + d₃ := ⟨_, rfl⟩
  rw [append_bits (w := 6) (v := 6) (n := v) (by omega) (by omega),
    append_bits (w := 6) (v := 6 + 6) (n := v) (by omega) rfl,
    append_bits (w := 6) (v := 6 + (6 + 6)) (n := v) (by omega) rfl,
    append_bits (w := 8) (v := 8) (n := v) (by omega) (by omega),
    append_bits (w := 8) (v := 8 + 8) (n := v) (by omega) rfl]

/-- Of three digits, the low two bits are left over. -/
theorem bits_three {d₀ d₁ d₂ : Nat} (h₁ : d₁ < 64) (h₂ : d₂ < 64) :
    bits 6 d₀ ++ (bits 6 d₁ ++ bits 6 d₂) =
      bitsOfBytes [(undigits d₀ d₁ d₂ 0).1, (undigits d₀ d₁ d₂ 0).2.1] ++ bits 2 d₂ := by
  rw [bitsOfBytes_cons, bitsOfBytes_singleton, List.append_assoc]
  simp only [undigits, UInt8.toNat_ofNat']
  obtain ⟨v, hv⟩ : ∃ v, v = d₀ * 2 ^ 12 + d₁ * 2 ^ 6 + d₂ := ⟨_, rfl⟩
  rw [append_bits (w := 6) (v := 6) (n := v) (by omega) (by omega),
    append_bits (w := 6) (v := 6 + 6) (n := v) (by omega) rfl,
    append_bits (w := 8) (v := 2) (n := v) (by omega) (by omega),
    append_bits (w := 8) (v := 8 + 2) (n := v) (by omega) rfl]

/-- Of two digits, the low four bits are left over. -/
theorem bits_two {d₀ d₁ : Nat} (h₁ : d₁ < 64) :
    bits 6 d₀ ++ bits 6 d₁ = bitsOfBytes [(undigits d₀ d₁ 0 0).1] ++ bits 4 d₁ := by
  rw [bitsOfBytes_singleton]
  simp only [undigits, UInt8.toNat_ofNat']
  obtain ⟨v, hv⟩ : ∃ v, v = d₀ * 2 ^ 6 + d₁ := ⟨_, rfl⟩
  rw [append_bits (w := 6) (v := 6) (n := v) (by omega) (by omega),
    append_bits (w := 8) (v := 4) (n := v) (by omega) (by omega)]

/-- The bytes are the first bits of the text. -/
theorem bitsOfDigits_of_decodeGroups {s b : Bytes} (h : decodeGroups false s = some b) :
    ∃ left, bitsOfDigits 6 decodeDigit s = some (bitsOfBytes b ++ left) ∧ left.length < 6 := by
  induction s using decodeGroups.induct generalizing b with
  | case1 =>
      cases h
      exact ⟨[], rfl, by decide⟩
  | case2 => cases h
  | case3 c₀ c₁ =>
      simp only [decodeGroups, Option.bind_eq_bind, Option.bind_eq_some_iff] at h
      obtain ⟨d₀, h₀, d₁, h₁, h⟩ := h
      cases h
      refine ⟨bits 4 d₁, ?_, by rw [length_bits]; decide⟩
      rw [← bits_two (decodeDigit_lt h₁), ← List.append_nil (bits 6 d₁)]
      exact bitsOfDigits_cons h₀ (bitsOfDigits_cons h₁ rfl)
  | case4 c₀ c₁ c₂ =>
      simp only [decodeGroups, Option.bind_eq_bind, Option.bind_eq_some_iff] at h
      obtain ⟨d₀, h₀, d₁, h₁, d₂, h₂, h⟩ := h
      cases h
      refine ⟨bits 2 d₂, ?_, by rw [length_bits]; decide⟩
      rw [← bits_three (decodeDigit_lt h₁) (decodeDigit_lt h₂), ← List.append_nil (bits 6 d₂)]
      exact bitsOfDigits_cons h₀ (bitsOfDigits_cons h₁ (bitsOfDigits_cons h₂ rfl))
  | case5 c₀ c₁ c₂ c₃ rest ih =>
      simp only [decodeGroups, Bool.false_eq_true, false_and, if_false, Option.bind_eq_bind,
        Option.bind_eq_some_iff] at h
      obtain ⟨d₀, h₀, d₁, h₁, d₂, h₂, d₃, h₃, tl, htl, h⟩ := h
      cases h
      obtain ⟨left, hleft, hlt⟩ := ih htl
      refine ⟨left, ?_, hlt⟩
      have hcons (a b c : UInt8) : bitsOfBytes (a :: b :: c :: tl) ++ left =
          bitsOfBytes [a, b, c] ++ (bitsOfBytes tl ++ left) := by
        rw [← List.append_assoc, ← bitsOfBytes_append]
        rfl
      rw [hcons, ← bits_four (decodeDigit_lt h₁) (decodeDigit_lt h₂) (decodeDigit_lt h₃)]
      simp only [List.append_assoc]
      exact bitsOfDigits_cons h₀ (bitsOfDigits_cons h₁ (bitsOfDigits_cons h₂
        (bitsOfDigits_cons h₃ hleft)))

theorem exists_decodeGroups_of_bitsOfDigits {s : Bytes} {x : List Bool}
    (h : bitsOfDigits 6 decodeDigit s = some x) (hlength : s.length % 4 ≠ 1) :
    ∃ b, decodeGroups false s = some b := by
  induction s using decodeGroups.induct generalizing x with
  | case1 => exact ⟨[], rfl⟩
  | case2 => cases hlength rfl
  | case3 c₀ c₁ =>
      obtain ⟨d₀, h₀, y, hy, -⟩ := bitsOfDigits_cons_eq_some_iff.mp h
      obtain ⟨d₁, h₁, -⟩ := bitsOfDigits_cons_eq_some_iff.mp hy
      exact ⟨_, by rw [decodeGroups, h₀, h₁]; rfl⟩
  | case4 c₀ c₁ c₂ =>
      obtain ⟨d₀, h₀, y, hy, -⟩ := bitsOfDigits_cons_eq_some_iff.mp h
      obtain ⟨d₁, h₁, z, hz, -⟩ := bitsOfDigits_cons_eq_some_iff.mp hy
      obtain ⟨d₂, h₂, -⟩ := bitsOfDigits_cons_eq_some_iff.mp hz
      exact ⟨_, by rw [decodeGroups, h₀, h₁, h₂]; rfl⟩
  | case5 c₀ c₁ c₂ c₃ rest ih =>
      obtain ⟨d₀, h₀, y, hy, -⟩ := bitsOfDigits_cons_eq_some_iff.mp h
      obtain ⟨d₁, h₁, z, hz, -⟩ := bitsOfDigits_cons_eq_some_iff.mp hy
      obtain ⟨d₂, h₂, t, ht, -⟩ := bitsOfDigits_cons_eq_some_iff.mp hz
      obtain ⟨d₃, h₃, u, hu, -⟩ := bitsOfDigits_cons_eq_some_iff.mp ht
      simp only [List.length_cons] at hlength
      obtain ⟨b, hb⟩ := ih hu (by omega)
      exact ⟨_, by rw [decodeGroups, h₀, h₁, h₂, h₃, hb]; rfl⟩

/-- A text is decoded to the bytes whose bits it says, up to what does not fill a digit. -/
theorem decodeGroups_eq_some_iff {s b : Bytes} :
    decodeGroups false s = some b ↔
      ∃ left, bitsOfDigits 6 decodeDigit s = some (bitsOfBytes b ++ left) ∧ left.length < 6 := by
  refine ⟨bitsOfDigits_of_decodeGroups, ?_⟩
  rintro ⟨left, hbits, hleft⟩
  have hlength := length_of_bitsOfDigits hbits
  rw [List.length_append, length_bitsOfBytes] at hlength
  obtain ⟨b', hb'⟩ := exists_decodeGroups_of_bitsOfDigits hbits (by omega)
  obtain ⟨left', hbits', hleft'⟩ := bitsOfDigits_of_decodeGroups hb'
  rw [hbits] at hbits'
  rw [hb', bitsOfBytes_append_inj (by omega) (by omega) (Option.some.inj hbits')]

end Base64

end LunaZTrust.Go
