import Mathlib.Tactic.FinCases
import Mathlib.Logic.Function.Basic
import LunaZTrust.Go.Bytes

/-!
# `encoding/base64` and `encoding/hex`

Two of Go's base64 encodings: `StdEncoding`, which pads with `=`, and
`RawStdEncoding`, which does not pad.  Both decoders skip carriage returns and
newlines wherever they stand and ignore the unused low bits of the last
character; neither is strict.  The decoders return `none` where Go returns a
`CorruptInputError`.

The encoders are injective (`rawStdEncode_injective`) because decoding undoes
them.
-/

namespace LunaZTrust.Go

/-! ## Base64 -/

namespace Base64

/-- The standard alphabet: the character of a six-bit digit is the one at its
index. -/
def alphabet : Bytes :=
  str "ABCDEFGHIJKLMNOPQRSTUVWXYZabcdefghijklmnopqrstuvwxyz0123456789+/"

/-- The padding character. -/
def padChar : UInt8 := 0x3d

/-- The character of a six-bit digit. -/
def encodeDigit (n : Nat) : UInt8 := alphabet.getD n 0

/-- The six-bit digit of a character of the alphabet. -/
def decodeDigit (c : UInt8) : Option Nat := alphabet.idxOf? c

/-- Three bytes as four digits. -/
def digits (a b c : UInt8) : Nat × Nat × Nat × Nat :=
  let v := a.toNat * 2 ^ 16 + b.toNat * 2 ^ 8 + c.toNat
  (v / 2 ^ 18 % 64, v / 2 ^ 12 % 64, v / 2 ^ 6 % 64, v % 64)

/-- Four digits as three bytes. -/
def undigits (d₀ d₁ d₂ d₃ : Nat) : UInt8 × UInt8 × UInt8 :=
  let v := d₀ * 2 ^ 18 + d₁ * 2 ^ 12 + d₂ * 2 ^ 6 + d₃
  (UInt8.ofNat (v / 2 ^ 16), UInt8.ofNat (v / 2 ^ 8), UInt8.ofNat v)

theorem undigits_digits (a b c : UInt8) :
    undigits (digits a b c).1 (digits a b c).2.1 (digits a b c).2.2.1 (digits a b c).2.2.2
      = (a, b, c) := by
  have ha := a.toNat_lt
  have hb := b.toNat_lt
  have hc := c.toNat_lt
  simp only [undigits, digits, Prod.mk.injEq]
  refine ⟨?_, ?_, ?_⟩ <;>
    · apply UInt8.toNat_inj.mp
      rw [UInt8.toNat_ofNat']
      omega

theorem decodeDigit_encodeDigit {n : Nat} (h : n < 64) :
    decodeDigit (encodeDigit n) = some n := by
  have key : ∀ i : Fin 64, decodeDigit (encodeDigit i) = some i.val := by decide +kernel
  exact key ⟨n, h⟩

/-- A character of the alphabet is neither a line break nor padding. -/
theorem encodeDigit_ne {n : Nat} (h : n < 64) :
    encodeDigit n ≠ 0x0a ∧ encodeDigit n ≠ 0x0d ∧ encodeDigit n ≠ padChar := by
  have key : ∀ i : Fin 64, encodeDigit i ≠ 0x0a ∧ encodeDigit i ≠ 0x0d ∧
      encodeDigit i ≠ padChar := by decide +kernel
  exact key ⟨n, h⟩

/-- Encode without padding. -/
def encodeRaw : Bytes → Bytes
  | a :: b :: c :: rest =>
      let d := digits a b c
      encodeDigit d.1 :: encodeDigit d.2.1 :: encodeDigit d.2.2.1 :: encodeDigit d.2.2.2
        :: encodeRaw rest
  | [a, b] =>
      let d := digits a b 0
      [encodeDigit d.1, encodeDigit d.2.1, encodeDigit d.2.2.1]
  | [a] =>
      let d := digits a 0 0
      [encodeDigit d.1, encodeDigit d.2.1]
  | [] => []

/-- The padding that completes the last group of an encoding of `n` bytes. -/
def padding (n : Nat) : Bytes :=
  match n % 3 with
  | 1 => [padChar, padChar]
  | 2 => [padChar]
  | _ => []

/-- Decode input that holds no line breaks.  `pad` says whether the last group
must be padded (`StdEncoding`) or must not be (`RawStdEncoding`). -/
def decodeGroups (pad : Bool) : Bytes → Option Bytes
  | [] => some []
  | [_] => none
  | [c₀, c₁] => do
      let d₀ ← decodeDigit c₀
      let d₁ ← decodeDigit c₁
      if pad then none else some [(undigits d₀ d₁ 0 0).1]
  | [c₀, c₁, c₂] => do
      let d₀ ← decodeDigit c₀
      let d₁ ← decodeDigit c₁
      let d₂ ← decodeDigit c₂
      if pad then none else some [(undigits d₀ d₁ d₂ 0).1, (undigits d₀ d₁ d₂ 0).2.1]
  | c₀ :: c₁ :: c₂ :: c₃ :: rest => do
      let d₀ ← decodeDigit c₀
      let d₁ ← decodeDigit c₁
      if pad ∧ c₂ = padChar then
        if c₃ = padChar ∧ rest = [] then some [(undigits d₀ d₁ 0 0).1] else none
      else do
        let d₂ ← decodeDigit c₂
        if pad ∧ c₃ = padChar then
          if rest = [] then some [(undigits d₀ d₁ d₂ 0).1, (undigits d₀ d₁ d₂ 0).2.1] else none
        else do
          let d₃ ← decodeDigit c₃
          let tl ← decodeGroups pad rest
          let g := undigits d₀ d₁ d₂ d₃
          return g.1 :: g.2.1 :: g.2.2 :: tl

/-- Drop the line breaks, which both decoders skip. -/
def dropNewlines (s : Bytes) : Bytes := s.filter fun c => c != 0x0a && c != 0x0d

/-- `base64.RawStdEncoding.EncodeToString`. -/
def rawStdEncode (b : Bytes) : GoString := encodeRaw b

/-- `base64.StdEncoding.EncodeToString`. -/
def stdEncode (b : Bytes) : GoString := encodeRaw b ++ padding b.length

/-- `base64.RawStdEncoding.DecodeString`. -/
def rawStdDecode (s : GoString) : Option Bytes := decodeGroups false (dropNewlines s)

/-- `base64.StdEncoding.DecodeString`. -/
def stdDecode (s : GoString) : Option Bytes := decodeGroups true (dropNewlines s)

theorem digits_lt (a b c : UInt8) :
    (digits a b c).1 < 64 ∧ (digits a b c).2.1 < 64 ∧ (digits a b c).2.2.1 < 64 ∧
      (digits a b c).2.2.2 < 64 := by
  refine ⟨?_, ?_, ?_, ?_⟩ <;> exact Nat.mod_lt _ (by decide)

/-- An encoding holds characters of the alphabet only. -/
theorem mem_encodeRaw {b : Bytes} {c : UInt8} (h : c ∈ encodeRaw b) :
    ∃ n < 64, c = encodeDigit n := by
  induction b using encodeRaw.induct with
  | case1 a b' c' rest ih =>
      obtain ⟨h₀, h₁, h₂, h₃⟩ := digits_lt a b' c'
      simp only [encodeRaw, List.mem_cons] at h
      rcases h with h | h | h | h | h
      exacts [⟨_, h₀, h⟩, ⟨_, h₁, h⟩, ⟨_, h₂, h⟩, ⟨_, h₃, h⟩, ih h]
  | case2 a b' =>
      obtain ⟨h₀, h₁, h₂, -⟩ := digits_lt a b' 0
      simp only [encodeRaw, List.mem_cons, List.not_mem_nil, or_false] at h
      rcases h with h | h | h
      exacts [⟨_, h₀, h⟩, ⟨_, h₁, h⟩, ⟨_, h₂, h⟩]
  | case3 a =>
      obtain ⟨h₀, h₁, -, -⟩ := digits_lt a 0 0
      simp only [encodeRaw, List.mem_cons, List.not_mem_nil, or_false] at h
      rcases h with h | h
      exacts [⟨_, h₀, h⟩, ⟨_, h₁, h⟩]
  | case4 => simp [encodeRaw] at h

/-- Three bytes are four digits, and a group that is not full has as many as it needs. -/
theorem length_rawStdEncode (b : Bytes) : (rawStdEncode b).length = (b.length * 4 + 2) / 3 := by
  rw [rawStdEncode]
  induction b using encodeRaw.induct with
  | case1 a b c rest ih =>
      simp only [encodeRaw, List.length_cons, ih]
      omega
  | case2 a b => simp only [encodeRaw, List.length_cons, List.length_nil]
  | case3 a => simp only [encodeRaw, List.length_cons, List.length_nil]
  | case4 => rfl

theorem newline_notMem_rawStdEncode (b : Bytes) : 0x0a ∉ rawStdEncode b := by
  intro h
  obtain ⟨n, hn, hc⟩ := mem_encodeRaw h
  exact (encodeDigit_ne hn).1 hc.symm

theorem dropNewlines_encodeRaw (b : Bytes) : dropNewlines (encodeRaw b) = encodeRaw b := by
  rw [dropNewlines, List.filter_eq_self]
  intro c hc
  obtain ⟨n, hn, rfl⟩ := mem_encodeRaw hc
  obtain ⟨h₁, h₂, -⟩ := encodeDigit_ne hn
  simp [h₁, h₂]

theorem decodeGroups_encodeRaw (b : Bytes) : decodeGroups false (encodeRaw b) = some b := by
  induction b using encodeRaw.induct with
  | case1 a b c rest ih =>
      obtain ⟨h₀, h₁, h₂, h₃⟩ := digits_lt a b c
      have hu := undigits_digits a b c
      simp only [encodeRaw, decodeGroups, decodeDigit_encodeDigit h₀, decodeDigit_encodeDigit h₁,
        decodeDigit_encodeDigit h₂, decodeDigit_encodeDigit h₃, ih]
      simp [hu]
  | case2 a b =>
      obtain ⟨h₀, h₁, h₂, -⟩ := digits_lt a b 0
      have hz : (digits a b 0).2.2.2 = 0 := by simp only [digits]; simp; omega
      have hu := undigits_digits a b 0
      rw [hz] at hu
      simp [encodeRaw, decodeGroups, decodeDigit_encodeDigit h₀, decodeDigit_encodeDigit h₁,
        decodeDigit_encodeDigit h₂, hu]
  | case3 a =>
      obtain ⟨h₀, h₁, -, -⟩ := digits_lt a 0 0
      have hz : (digits a 0 0).2.2.2 = 0 := by simp only [digits]; simp; omega
      have hz' : (digits a 0 0).2.2.1 = 0 := by simp only [digits]; simp; omega
      have hu := undigits_digits a 0 0
      rw [hz, hz'] at hu
      simp [encodeRaw, decodeGroups, decodeDigit_encodeDigit h₀, decodeDigit_encodeDigit h₁, hu]
  | case4 => rfl

/-- Decoding undoes encoding. -/
theorem rawStdDecode_rawStdEncode (b : Bytes) : rawStdDecode (rawStdEncode b) = some b := by
  rw [rawStdDecode, rawStdEncode, dropNewlines_encodeRaw, decodeGroups_encodeRaw]

/-- Different bytes have different encodings. -/
theorem rawStdEncode_injective : Function.Injective rawStdEncode := by
  intro a b h
  have ha := rawStdDecode_rawStdEncode a
  rw [h, rawStdDecode_rawStdEncode] at ha
  exact (Option.some.inj ha).symm

/-! ### The padded encoding -/

theorem padding_add_three (n : Nat) : padding (n + 3) = padding n := by
  rw [padding, padding, Nat.add_mod_right]

theorem decodeGroups_encodeRaw_padding (b : Bytes) :
    decodeGroups true (encodeRaw b ++ padding b.length) = some b := by
  induction b using encodeRaw.induct with
  | case1 a b c rest ih =>
      obtain ⟨h₀, h₁, h₂, h₃⟩ := digits_lt a b c
      have hu := undigits_digits a b c
      have hlength : (a :: b :: c :: rest).length = rest.length + 3 := rfl
      rw [hlength, padding_add_three]
      simp only [encodeRaw, List.cons_append, decodeGroups, decodeDigit_encodeDigit h₀,
        decodeDigit_encodeDigit h₁, decodeDigit_encodeDigit h₂, decodeDigit_encodeDigit h₃, ih,
        (encodeDigit_ne h₂).2.2, (encodeDigit_ne h₃).2.2]
      simp [hu]
  | case2 a b =>
      obtain ⟨h₀, h₁, h₂, -⟩ := digits_lt a b 0
      have hz : (digits a b 0).2.2.2 = 0 := by simp only [digits]; simp; omega
      have hu := undigits_digits a b 0
      rw [hz] at hu
      have hpad : padding [a, b].length = [padChar] := rfl
      rw [hpad]
      simp [encodeRaw, decodeGroups, decodeDigit_encodeDigit h₀, decodeDigit_encodeDigit h₁,
        decodeDigit_encodeDigit h₂, (encodeDigit_ne h₂).2.2, hu]
  | case3 a =>
      obtain ⟨h₀, h₁, -, -⟩ := digits_lt a 0 0
      have hz : (digits a 0 0).2.2.2 = 0 := by simp only [digits]; simp; omega
      have hz' : (digits a 0 0).2.2.1 = 0 := by simp only [digits]; simp; omega
      have hu := undigits_digits a 0 0
      rw [hz, hz'] at hu
      have hpad : padding [a].length = [padChar, padChar] := rfl
      rw [hpad]
      simp [encodeRaw, decodeGroups, decodeDigit_encodeDigit h₀, decodeDigit_encodeDigit h₁, hu]
  | case4 => rfl

theorem dropNewlines_padding (n : Nat) : dropNewlines (padding n) = padding n := by
  rw [padding]
  split <;> rfl

theorem stdDecode_stdEncode (b : Bytes) : stdDecode (stdEncode b) = some b := by
  have hdrop : dropNewlines (encodeRaw b ++ padding b.length) =
      encodeRaw b ++ padding b.length := by
    rw [dropNewlines, List.filter_append]
    exact congrArg₂ _ (dropNewlines_encodeRaw b) (dropNewlines_padding _)
  rw [stdDecode, stdEncode, hdrop, decodeGroups_encodeRaw_padding]

/-! ### What is decoded -/

theorem mem_alphabet {c : UInt8} {d : Nat} (h : decodeDigit c = some d) : c ∈ alphabet := by
  by_contra hc
  cases (List.idxOf?_eq_none_iff.mpr hc).symm.trans h

/-- What is decoded without padding holds characters of the alphabet only, four for three bytes. -/
theorem decodeGroups_eq_some {s b : Bytes} (h : decodeGroups false s = some b) :
    (∀ c ∈ s, c ∈ alphabet) ∧ b.length = s.length * 3 / 4 := by
  induction s using decodeGroups.induct generalizing b with
  | case1 =>
      cases h
      exact ⟨List.forall_mem_nil _, rfl⟩
  | case2 => cases h
  | case3 c₀ c₁ =>
      simp only [decodeGroups, Option.bind_eq_bind, Option.bind_eq_some_iff] at h
      obtain ⟨d₀, h₀, d₁, h₁, h⟩ := h
      cases h
      refine ⟨?_, by simp only [List.length_cons, List.length_nil]⟩
      rw [List.forall_mem_cons, List.forall_mem_singleton]
      exact ⟨mem_alphabet h₀, mem_alphabet h₁⟩
  | case4 c₀ c₁ c₂ =>
      simp only [decodeGroups, Option.bind_eq_bind, Option.bind_eq_some_iff] at h
      obtain ⟨d₀, h₀, d₁, h₁, d₂, h₂, h⟩ := h
      cases h
      refine ⟨?_, by simp only [List.length_cons, List.length_nil]⟩
      rw [List.forall_mem_cons, List.forall_mem_cons, List.forall_mem_singleton]
      exact ⟨mem_alphabet h₀, mem_alphabet h₁, mem_alphabet h₂⟩
  | case5 c₀ c₁ c₂ c₃ rest ih =>
      simp only [decodeGroups, Bool.false_eq_true, false_and, if_false, Option.bind_eq_bind,
        Option.bind_eq_some_iff] at h
      obtain ⟨d₀, h₀, d₁, h₁, d₂, h₂, d₃, h₃, tl, htl, h⟩ := h
      cases h
      obtain ⟨hrest, hlength⟩ := ih htl
      constructor
      · simp only [List.forall_mem_cons]
        exact ⟨mem_alphabet h₀, mem_alphabet h₁, mem_alphabet h₂, mem_alphabet h₃, hrest⟩
      · simp only [List.length_cons]
        omega

end Base64

/-! ## Hexadecimal -/

namespace Hex

/-- The value of a hexadecimal digit in either case. -/
def decodeDigit (c : UInt8) : Option Nat :=
  if 0x30 ≤ c ∧ c ≤ 0x39 then some (c.toNat - 0x30)
  else if 0x61 ≤ c ∧ c ≤ 0x66 then some (c.toNat - 0x61 + 10)
  else if 0x41 ≤ c ∧ c ≤ 0x46 then some (c.toNat - 0x41 + 10)
  else none

/-- `hex.DecodeString`: an odd length and a character that is no digit are
errors. -/
def decode : GoString → Option Bytes
  | [] => some []
  | [_] => none
  | c₀ :: c₁ :: rest => do
      let d₀ ← decodeDigit c₀
      let d₁ ← decodeDigit c₁
      let tl ← decode rest
      return UInt8.ofNat (d₀ * 16 + d₁) :: tl

/-- The lower-case digit of a four-bit number. -/
def encodeDigit (n : Nat) : UInt8 := (str "0123456789abcdef").getD n 0

/-- `hex.EncodeToString`. -/
def encode (b : Bytes) : GoString :=
  b.flatMap fun c => [encodeDigit (c.toNat / 16), encodeDigit (c.toNat % 16)]

theorem encode_cons (c : UInt8) (b : Bytes) :
    encode (c :: b) =
      encodeDigit (c.toNat / 16) :: encodeDigit (c.toNat % 16) :: encode b := rfl

theorem decodeDigit_encodeDigit {n : Nat} (h : n < 16) : decodeDigit (encodeDigit n) = some n := by
  have key : ∀ i : Fin 16, decodeDigit (encodeDigit i) = some i.val := by decide
  exact key ⟨n, h⟩

@[simp] theorem decode_encode (b : Bytes) : decode (encode b) = some b := by
  induction b with
  | nil => rfl
  | cons c b ih =>
      have hc := c.toNat_lt
      have hbyte : UInt8.ofNat (c.toNat / 16 * 16 + c.toNat % 16) = c := by
        apply UInt8.toNat_inj.mp
        rw [UInt8.toNat_ofNat']
        omega
      rw [encode_cons, decode, decodeDigit_encodeDigit (by omega),
        decodeDigit_encodeDigit (by omega), ih]
      exact congrArg (fun c ↦ some (c :: b)) hbyte

/-- What is decoded holds digits only, two for each byte. -/
theorem decode_eq_some {s b : Bytes} (h : decode s = some b) :
    (∀ c ∈ s, (decodeDigit c).isSome = true) ∧ s.length = 2 * b.length := by
  induction s using decode.induct generalizing b with
  | case1 =>
      cases h
      exact ⟨List.forall_mem_nil _, rfl⟩
  | case2 => cases h
  | case3 c₀ c₁ rest ih =>
      simp only [decode, Option.bind_eq_bind, Option.bind_eq_some_iff] at h
      obtain ⟨d₀, h₀, d₁, h₁, tl, htl, h⟩ := h
      cases h
      obtain ⟨hrest, hlength⟩ := ih htl
      constructor
      · simp only [List.forall_mem_cons]
        exact ⟨by rw [h₀]; rfl, by rw [h₁]; rfl, hrest⟩
      · simp only [List.length_cons]
        omega

/-- The digits are characters of base64. -/
theorem mem_alphabet_of_isSome {c : UInt8} (h : (decodeDigit c).isSome = true) :
    c ∈ Base64.alphabet := by
  have key : ∀ c, (decodeDigit c).isSome = true → c ∈ Base64.alphabet :=
    forall_byte (by decide +kernel)
  exact key c h

end Hex

end LunaZTrust.Go
