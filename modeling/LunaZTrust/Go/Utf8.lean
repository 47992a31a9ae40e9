import LunaZTrust.Go.Bytes

/-!
# Runes

A Go string is a sequence of bytes; `unicode/utf8` reads it as a sequence of runes, where a byte
that begins no encoding of a character is a rune of its own.  `runes` cuts a string that way and
loses nothing (`flatMap_runes`), so a function that works rune by rune is one on the list, and
what it does to a string is proved by induction on the list.
-/

namespace LunaZTrust.Go.Utf8

/-- A byte of an encoding after its second one. -/
def continuation (b : UInt8) : Bool := 0x80 ≤ b && b ≤ 0xbf

/-- The encodings of more than one byte: the ranges of the first byte, and the range of the
second one it asks for (the tables `first` and `acceptRanges`).  There are no overlong forms, no
surrogates, and nothing beyond U+10FFFF. -/
def multibyte : Bytes → Bool
  | [b, c] => 0xc2 ≤ b && b ≤ 0xdf && continuation c
  | [b, c, d] =>
      (b == 0xe0 && 0xa0 ≤ c && c ≤ 0xbf ||
        b == 0xed && 0x80 ≤ c && c ≤ 0x9f ||
        0xe1 ≤ b && b ≤ 0xef && b != 0xed && continuation c) && continuation d
  | [b, c, d, e] =>
      (b == 0xf0 && 0x90 ≤ c && c ≤ 0xbf ||
        b == 0xf4 && 0x80 ≤ c && c ≤ 0x8f ||
        0xf1 ≤ b && b ≤ 0xf3 && continuation c) && continuation d && continuation e
  | _ => false

/-- A rune, with the bytes it was read from. -/
inductive Rune
  /-- Below `utf8.RuneSelf`. -/
  | ascii (b : UInt8) (small : b < 0x80)
  | wide (bytes : Bytes) (encoded : multibyte bytes = true)
  /-- `utf8.RuneError` of width 1. -/
  | invalid (b : UInt8)

namespace Rune

/-- What the rune was read from. -/
def bytes : Rune → Bytes
  | .ascii b _ => [b]
  | .wide bytes _ => bytes
  | .invalid b => [b]

/-- The rune stands for a character. -/
def isValid : Rune → Bool
  | .invalid _ => false
  | _ => true

end Rune

/-- `utf8.DecodeRuneInString`, on a string with a first byte: the rune, and what follows it. -/
def decodeRune (b : UInt8) (rest : Bytes) : Rune × Bytes :=
  if small : b < 0x80 then (.ascii b small, rest)
  else if two : multibyte (b :: rest.take 1) then (.wide _ two, rest.drop 1)
  else if three : multibyte (b :: rest.take 2) then (.wide _ three, rest.drop 2)
  else if four : multibyte (b :: rest.take 3) then (.wide _ four, rest.drop 3)
  else (.invalid b, rest)

/-- At most `n` runes of a string. -/
def runesLoop : Nat → Bytes → List Rune
  | 0, _ => []
  | _ + 1, [] => []
  | n + 1, b :: rest => (decodeRune b rest).1 :: runesLoop n (decodeRune b rest).2

/-- The runes of a string: every one has a byte. -/
def runes (s : Bytes) : List Rune := runesLoop s.length s

/-- `utf8.ValidString`. -/
def valid (s : Bytes) : Bool := (runes s).all Rune.isValid

/-- The code points of characters. -/
def isScalar (r : Nat) : Bool := r < 0xd800 || 0xe000 ≤ r && r < 0x110000

/-- `utf8.AppendRune`, for the code point of a character. -/
def encode (r : Nat) : Bytes :=
  if r < 0x80 then [UInt8.ofNat r]
  else if r < 0x800 then [UInt8.ofNat (0xc0 + r / 64), UInt8.ofNat (0x80 + r % 64)]
  else if r < 0x10000 then
    [UInt8.ofNat (0xe0 + r / 4096), UInt8.ofNat (0x80 + r / 64 % 64), UInt8.ofNat (0x80 + r % 64)]
  else
    [UInt8.ofNat (0xf0 + r / 262144), UInt8.ofNat (0x80 + r / 4096 % 64),
      UInt8.ofNat (0x80 + r / 64 % 64), UInt8.ofNat (0x80 + r % 64)]

/-- What was cut apart is there. -/
theorem decodeRune_bytes (b : UInt8) (rest : Bytes) :
    (decodeRune b rest).1.bytes ++ (decodeRune b rest).2 = b :: rest := by
  have hcut : ∀ n, (b :: rest.take n) ++ rest.drop n = b :: rest := by
    intro n
    rw [List.cons_append, List.take_append_drop]
  rw [decodeRune]
  split
  · rfl
  · split
    · exact hcut 1
    · split
      · exact hcut 2
      · split
        · exact hcut 3
        · rfl

theorem decodeRune_length (b : UInt8) (rest : Bytes) :
    (decodeRune b rest).2.length ≤ rest.length := by
  have hdrop : ∀ n, (rest.drop n).length ≤ rest.length := by
    intro n
    rw [List.length_drop]
    exact Nat.sub_le _ _
  rw [decodeRune]
  split
  · exact Nat.le_refl _
  · split
    · exact hdrop 1
    · split
      · exact hdrop 2
      · split
        · exact hdrop 3
        · exact Nat.le_refl _

theorem flatMap_runesLoop {n : Nat} {s : Bytes} (h : s.length ≤ n) :
    (runesLoop n s).flatMap Rune.bytes = s := by
  induction n generalizing s with
  | zero => rw [List.eq_nil_of_length_eq_zero (Nat.le_zero.mp h)]; rfl
  | succ n ih =>
      cases s with
      | nil => rfl
      | cons b rest =>
          have hrest : (decodeRune b rest).2.length ≤ n :=
            Nat.le_trans (decodeRune_length b rest) (Nat.le_of_succ_le_succ h)
          rw [runesLoop, List.flatMap_cons, ih hrest]
          exact decodeRune_bytes b rest

/-- The runes of a string are all of it. -/
theorem flatMap_runes (s : Bytes) : (runes s).flatMap Rune.bytes = s :=
  flatMap_runesLoop (Nat.le_refl _)

theorem continuation_iff {b : UInt8} : continuation b = true ↔ 0x80 ≤ b ∧ b ≤ 0xbf := by
  rw [continuation, Bool.and_eq_true, decide_eq_true_eq, decide_eq_true_eq]

/-- A character is a byte of ASCII, or written without one. -/
theorem encode_cases {r : Nat} (h : isScalar r = true) :
    (∃ b, encode r = [b]) ∨ ∀ b ∈ encode r, 0x80 ≤ b := by
  have hle : r < 0x110000 := by
    simp only [isScalar, Bool.or_eq_true, Bool.and_eq_true, decide_eq_true_eq] at h
    omega
  have hbyte : ∀ {k}, 0x80 ≤ k → k < 0x100 → 0x80 ≤ UInt8.ofNat k := by
    intro k hk hk'
    rw [UInt8.le_iff_toNat_le, UInt8.toNat_ofNat', Nat.mod_eq_of_lt hk']
    exact hk
  rw [encode]
  split
  · exact .inl ⟨_, rfl⟩
  right
  split
  · simp only [List.forall_mem_cons]
    exact ⟨hbyte (by omega) (by omega), hbyte (by omega) (by omega), List.forall_mem_nil _⟩
  split
  · simp only [List.forall_mem_cons]
    exact ⟨hbyte (by omega) (by omega), hbyte (by omega) (by omega), hbyte (by omega) (by omega),
      List.forall_mem_nil _⟩
  · simp only [List.forall_mem_cons]
    exact ⟨hbyte (by omega) (by omega), hbyte (by omega) (by omega), hbyte (by omega) (by omega),
      hbyte (by omega) (by omega), List.forall_mem_nil _⟩

/-- No byte of a longer encoding is an ASCII character. -/
theorem le_of_mem_multibyte {bytes : Bytes} (h : multibyte bytes = true) {b : UInt8}
    (hb : b ∈ bytes) : 0x80 ≤ b := by
  unfold multibyte at h
  split at h
  · simp only [Bool.and_eq_true, decide_eq_true_eq, continuation_iff] at h
    simp only [List.mem_cons, List.not_mem_nil, or_false] at hb
    grind
  · simp only [Bool.and_eq_true, Bool.or_eq_true, decide_eq_true_eq, continuation_iff,
      beq_iff_eq] at h
    simp only [List.mem_cons, List.not_mem_nil, or_false] at hb
    grind
  · simp only [Bool.and_eq_true, Bool.or_eq_true, decide_eq_true_eq, continuation_iff,
      beq_iff_eq] at h
    simp only [List.mem_cons, List.not_mem_nil, or_false] at hb
    grind
  · cases h

end LunaZTrust.Go.Utf8
