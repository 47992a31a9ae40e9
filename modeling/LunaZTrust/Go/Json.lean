import LunaZTrust.Go.Encoding
import LunaZTrust.Go.Separators
import LunaZTrust.Go.Strconv
import LunaZTrust.Go.Utf8

/-!
# What `json.Marshal` writes

The encoder of `encoding/json` for structures of strings and integers, byte for byte: the names
and values in the order of the fields, and in a string the escapes of `appendString`, with
`escapeHTML` as `json.Marshal` sets it.

What it writes for valid UTF-8 can be read back (`readString_quote`), so two objects with one
encoding have the same members in the same order (`object_injective`).  For other strings that
fails: every byte that is no character is written as U+FFFD.
-/

namespace LunaZTrust.Go.Json

open Utf8

/-! ## The encoder -/

/-- A character that is written as the escape `\u00XX`. -/
def longEscaped (b : UInt8) : Bool := b < 0x20 || b == 0x3c || b == 0x3e || b == 0x26

/-- `appendString`, for a byte of ASCII. -/
def escapeByte (b : UInt8) : Bytes :=
  if b = 0x5c ∨ b = 0x22 then [0x5c, b]
  else if b = 0x08 then str "\\b"
  else if b = 0x0c then str "\\f"
  else if b = 0x0a then str "\\n"
  else if b = 0x0d then str "\\r"
  else if b = 0x09 then str "\\t"
  else if longEscaped b then str "\\u" ++ Hex.encode [0, b]
  else [b]

/-- `appendString`, for a rune: U+2028 and U+2029 are escaped too. -/
def escapeRune : Rune → Bytes
  | .ascii b _ => escapeByte b
  | .wide bytes _ =>
      if bytes = [0xe2, 0x80, 0xa8] then str "\\u2028"
      else if bytes = [0xe2, 0x80, 0xa9] then str "\\u2029"
      else bytes
  | .invalid _ => str "\\ufffd"

/-- `appendString`. -/
def quote (s : GoString) : Bytes := 0x22 :: (runes s).flatMap escapeRune ++ [0x22]

/-- The value of a field. -/
inductive Value
  | string (s : GoString)
  | int (n : Int)
deriving DecidableEq, Repr

/-- The encoding of a value. -/
def Value.marshal : Value → Bytes
  | .string s => quote s
  | .int n => Strconv.formatInt n

/-- A value that `json.Unmarshal` can have given: the strings are valid UTF-8. -/
def Value.valid : Value → Bool
  | .string s => Utf8.valid s
  | .int _ => true

/-- A name and its value. -/
def member (m : GoString × Value) : Bytes := quote m.1 ++ 0x3a :: m.2.marshal

/-- The members after the first, and the end of the object. -/
def members : List (GoString × Value) → Bytes
  | [] => [0x7d]
  | m :: ms => 0x2c :: member m ++ members ms

/-- `json.Marshal` of a structure, given by the members it writes. -/
def object : List (GoString × Value) → Bytes
  | [] => [0x7b, 0x7d]
  | m :: ms => 0x7b :: member m ++ members ms

/-! ## Reading a string -/

/-- The character of a short escape. -/
def unescape (c : UInt8) : Option UInt8 :=
  if c = 0x5c ∨ c = 0x22 then some c
  else if c = 0x62 then some 0x08
  else if c = 0x66 then some 0x0c
  else if c = 0x6e then some 0x0a
  else if c = 0x72 then some 0x0d
  else if c = 0x74 then some 0x09
  else none

/-- The character of an escape `\uXXXX`, for those the encoder writes. -/
def unescapeUnit (digits : Bytes) : Option Bytes :=
  match Hex.decode digits with
  | some [0x00, b] => some [b]
  | some [0x20, 0x28] => some [0xe2, 0x80, 0xa8]
  | some [0x20, 0x29] => some [0xe2, 0x80, 0xa9]
  | _ => none

/-- The string up to its closing quote, and what follows that. -/
def readString : Bytes → Option (Bytes × Bytes)
  | [] => none
  | b :: rest =>
      if b = 0x22 then some ([], rest)
      else if b = 0x5c then
        match rest with
        | [] => none
        | c :: rest =>
            if c = 0x75 then
              match rest with
              | h₀ :: h₁ :: h₂ :: h₃ :: rest => do
                  let bytes ← unescapeUnit [h₀, h₁, h₂, h₃]
                  let (s, rest) ← readString rest
                  return (bytes ++ s, rest)
              | _ => none
            else do
              let b ← unescape c
              let (s, rest) ← readString rest
              return (b :: s, rest)
      else do
        let (s, rest) ← readString rest
        return (b :: s, rest)

/-- The text stands for the bytes wherever it stands in a string. -/
def Reads (text bytes : Bytes) : Prop :=
  ∀ t s r, readString t = some (s, r) → readString (text ++ t) = some (bytes ++ s, r)

theorem Reads.nil : Reads [] [] := fun _ _ _ h ↦ h

theorem Reads.append {text₁ text₂ bytes₁ bytes₂ : Bytes} (h₁ : Reads text₁ bytes₁)
    (h₂ : Reads text₂ bytes₂) : Reads (text₁ ++ text₂) (bytes₁ ++ bytes₂) := by
  intro t s r h
  rw [List.append_assoc, List.append_assoc]
  exact h₁ _ _ _ (h₂ _ _ _ h)

/-- A byte that is neither the quote nor the backslash stands for itself. -/
theorem Reads.byte {b : UInt8} (hquote : b ≠ 0x22) (hbackslash : b ≠ 0x5c) : Reads [b] [b] := by
  intro t s r h
  rw [List.singleton_append, readString.eq_def]
  dsimp only
  rw [if_neg hquote, if_neg hbackslash, h]
  rfl

theorem Reads.plain {bytes : Bytes} (h : ∀ b ∈ bytes, b ≠ 0x22 ∧ b ≠ 0x5c) :
    Reads bytes bytes := by
  induction bytes with
  | nil => exact .nil
  | cons b bytes ih =>
      obtain ⟨hb, hbytes⟩ := List.forall_mem_cons.mp h
      exact (Reads.byte hb.1 hb.2).append (ih hbytes)

theorem Reads.short {c b : UInt8} (hunit : c ≠ 0x75) (h : unescape c = some b) :
    Reads [0x5c, c] [b] := by
  intro t s r ht
  rw [List.cons_append, List.singleton_append, readString.eq_def]
  dsimp only
  rw [if_neg (by decide), if_pos rfl, if_neg hunit, h, ht]
  rfl

theorem Reads.unit {h₀ h₁ h₂ h₃ : UInt8} {bytes : Bytes}
    (h : unescapeUnit [h₀, h₁, h₂, h₃] = some bytes) :
    Reads [0x5c, 0x75, h₀, h₁, h₂, h₃] bytes := by
  intro t s r ht
  rw [readString.eq_def]
  dsimp only [List.cons_append, List.nil_append]
  rw [if_neg (by decide), if_pos rfl, if_pos rfl, h, ht]
  rfl

/-- The long escape of a byte. -/
theorem reads_hex (b : UInt8) : Reads (str "\\u" ++ Hex.encode [0, b]) [b] := by
  have hunit : unescapeUnit (Hex.encode [0, b]) = some [b] := by
    rw [unescapeUnit, Hex.decode_encode]
    rfl
  exact .unit hunit

theorem reads_escapeByte (b : UInt8) : Reads (escapeByte b) [b] := by
  rw [escapeByte]
  split
  · next h => exact .short (by rcases h with rfl | rfl <;> decide) (if_pos h)
  next hplain =>
  split
  · next h => subst h; exact .short (by decide) rfl
  split
  · next h => subst h; exact .short (by decide) rfl
  split
  · next h => subst h; exact .short (by decide) rfl
  split
  · next h => subst h; exact .short (by decide) rfl
  split
  · next h => subst h; exact .short (by decide) rfl
  split
  · exact reads_hex b
  · exact .byte (fun h ↦ hplain (.inr h)) fun h ↦ hplain (.inl h)

/-- A rune that stands for a character is read back. -/
theorem reads_escapeRune {r : Rune} (h : r.isValid = true) : Reads (escapeRune r) r.bytes := by
  cases r with
  | ascii b _ => exact reads_escapeByte b
  | wide bytes encoded =>
      rw [escapeRune]
      split
      · next heq => subst heq; exact .unit rfl
      split
      · next heq => subst heq; exact .unit rfl
      · refine .plain fun b hb ↦ ?_
        -- the quote and the backslash are ASCII
        have hlarge := le_of_mem_multibyte encoded hb
        exact ⟨fun h ↦ absurd (h ▸ hlarge) (by decide), fun h ↦ absurd (h ▸ hlarge) (by decide)⟩
  | invalid b => cases h

theorem reads_runes {rs : List Rune} (h : rs.all Rune.isValid = true) :
    Reads (rs.flatMap escapeRune) (rs.flatMap Rune.bytes) := by
  induction rs with
  | nil => exact .nil
  | cons r rs ih =>
      rw [List.all_cons, Bool.and_eq_true] at h
      exact (reads_escapeRune h.1).append (ih h.2)

/-- What is written for a valid string is read back, up to the quote that closes it. -/
theorem readString_quote {s : GoString} (h : Utf8.valid s = true) (t : Bytes) :
    readString ((runes s).flatMap escapeRune ++ 0x22 :: t) = some (s, t) := by
  have hend : readString (0x22 :: t) = some ([], t) := by
    rw [readString.eq_def]
    exact if_pos rfl
  have hread := reads_runes h _ _ _ hend
  rwa [flatMap_runes, List.append_nil] at hread

/-! ## Objects with one encoding -/

theorem quote_append (s : GoString) (t : Bytes) :
    quote s ++ t = 0x22 :: ((runes s).flatMap escapeRune ++ 0x22 :: t) := by
  rw [quote, List.append_assoc, List.cons_append, List.singleton_append]

theorem quote_append_inj {s s' : GoString} (h : Utf8.valid s = true) (h' : Utf8.valid s' = true)
    {t t' : Bytes} (heq : quote s ++ t = quote s' ++ t') : s = s' ∧ t = t' := by
  rw [quote_append, quote_append] at heq
  have hread := congrArg readString (List.cons.inj heq).2
  rw [readString_quote h, readString_quote h'] at hread
  exact Prod.mk.inj (Option.some.inj hread)

/-- The text begins with what may follow a value: a comma, or the end of the object. -/
def Follows (t : Bytes) : Prop := ∃ c r, t = c :: r ∧ (c = 0x2c ∨ c = 0x7d)

theorem follows_members (ms : List (GoString × Value)) : Follows (members ms) := by
  cases ms with
  | nil => exact ⟨_, _, rfl, .inr rfl⟩
  | cons m ms => exact ⟨_, _, rfl, .inl rfl⟩

/-- A character of numbers. -/
def numeric (c : UInt8) : Prop := c = 0x2d ∨ 0x30 ≤ c.toNat ∧ c.toNat ≤ 0x39

theorem Follows.not_numeric {c : UInt8} (h : c = 0x2c ∨ c = 0x7d) : ¬numeric c := by
  rcases h with rfl | rfl <;> exact fun h ↦ by rcases h with h | h <;> revert h <;> decide

/-- A number does not look like a string. -/
theorem quote_append_ne_formatInt {s : GoString} {n : Int} {t t' : Bytes} (ht : Follows t') :
    quote s ++ t ≠ Strconv.formatInt n ++ t' := by
  rw [quote_append]
  intro heq
  cases hn : Strconv.formatInt n with
  | nil =>
      obtain ⟨c, r, rfl, hc⟩ := ht
      rw [hn, List.nil_append] at heq
      rcases hc with rfl | rfl <;> exact absurd (List.cons.inj heq).1 (by decide)
  | cons c cs =>
      rw [hn, List.cons_append] at heq
      have hc := Strconv.mem_formatInt (hn ▸ List.mem_cons_self : c ∈ Strconv.formatInt n)
      rw [← (List.cons.inj heq).1] at hc
      exact absurd hc (by decide)

/-- A value is read back up to what follows it. -/
theorem marshal_append_inj {v v' : Value} (hv : v.valid = true) (hv' : v'.valid = true)
    {t t' : Bytes} (ht : Follows t) (ht' : Follows t') (heq : v.marshal ++ t = v'.marshal ++ t') :
    v = v' ∧ t = t' := by
  cases v with
  | string s =>
      cases v' with
      | string s' =>
          obtain ⟨rfl, rfl⟩ := quote_append_inj hv hv' heq
          exact ⟨rfl, rfl⟩
      | int n => exact absurd heq (quote_append_ne_formatInt ht')
  | int n =>
      cases v' with
      | string s => exact absurd heq.symm (quote_append_ne_formatInt ht)
      | int n' =>
          obtain ⟨c, r, rfl, hc⟩ := ht
          obtain ⟨c', r', rfl, hc'⟩ := ht'
          obtain ⟨hn, hrest⟩ := Separators.append_cons_inj_class (p := numeric)
            (fun _ ↦ Strconv.mem_formatInt) (fun _ ↦ Strconv.mem_formatInt)
            (Follows.not_numeric hc) (Follows.not_numeric hc') heq
          exact ⟨congrArg Value.int (Strconv.formatInt_injective hn), hrest⟩

/-- A member with a valid name and a valid value. -/
def Member.valid (m : GoString × Value) : Bool := Utf8.valid m.1 && m.2.valid

theorem Member.valid_string {name s : GoString} (hname : Utf8.valid name = true)
    (hs : Utf8.valid s = true) : Member.valid (name, .string s) = true :=
  Bool.and_eq_true_iff.mpr ⟨hname, hs⟩

theorem Member.valid_int {name : GoString} {n : Int} (hname : Utf8.valid name = true) :
    Member.valid (name, .int n) = true :=
  Bool.and_eq_true_iff.mpr ⟨hname, rfl⟩

theorem member_append_inj {m m' : GoString × Value} (hm : Member.valid m = true)
    (hm' : Member.valid m' = true) {t t' : Bytes} (ht : Follows t) (ht' : Follows t')
    (heq : member m ++ t = member m' ++ t') : m = m' ∧ t = t' := by
  rw [Member.valid, Bool.and_eq_true] at hm hm'
  rw [member, member, List.append_assoc, List.append_assoc] at heq
  obtain ⟨hname, hvalue⟩ := quote_append_inj hm.1 hm'.1 heq
  obtain ⟨hmarshal, rfl⟩ := marshal_append_inj hm.2 hm'.2 ht ht' (List.cons.inj hvalue).2
  exact ⟨Prod.ext hname hmarshal, rfl⟩

theorem members_injective {ms ms' : List (GoString × Value)} (h : ∀ m ∈ ms, Member.valid m = true)
    (h' : ∀ m ∈ ms', Member.valid m = true) (heq : members ms = members ms') : ms = ms' := by
  induction ms generalizing ms' with
  | nil =>
      cases ms' with
      | nil => rfl
      | cons m' ms' => exact absurd (List.cons.inj heq).1 (by decide)
  | cons m ms ih =>
      cases ms' with
      | nil => exact absurd (List.cons.inj heq).1 (by decide)
      | cons m' ms' =>
          obtain ⟨hm, hms⟩ := List.forall_mem_cons.mp h
          obtain ⟨hm', hms'⟩ := List.forall_mem_cons.mp h'
          obtain ⟨rfl, hrest⟩ := member_append_inj hm hm' (follows_members ms)
            (follows_members ms') (List.cons.inj heq).2
          rw [ih hms hms' hrest]

/-- Two objects of valid members with one encoding have the same members. -/
theorem object_injective {ms ms' : List (GoString × Value)} (h : ∀ m ∈ ms, Member.valid m = true)
    (h' : ∀ m ∈ ms', Member.valid m = true) (heq : object ms = object ms') : ms = ms' := by
  -- a member begins with the quote of its name
  have hempty : ∀ m ms, object [] ≠ object (m :: ms) := by
    intro m ms heq
    rw [object, object, member, List.cons_append, List.append_assoc, quote_append] at heq
    exact absurd (List.cons.inj (List.cons.inj heq).2).1 (by decide)
  cases ms with
  | nil =>
      cases ms' with
      | nil => rfl
      | cons m' ms' => exact absurd heq (hempty m' ms')
  | cons m ms =>
      cases ms' with
      | nil => exact absurd heq.symm (hempty m ms)
      | cons m' ms' =>
          exact members_injective h h' (congrArg (List.cons 0x2c) (List.cons.inj heq).2)

end LunaZTrust.Go.Json
