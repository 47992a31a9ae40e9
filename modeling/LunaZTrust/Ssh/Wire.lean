import LunaZTrust.Go.Bytes

/-!
# The SSH wire format

The data types of RFC 4251 that the user-authentication messages are made of:
a `byte`, a `boolean` (one byte, any non-zero value reads as true) and a
`string` (a 32-bit big-endian length and that many bytes), together with a
decoder that reads a message field by field from a description of its fields.

`decode` is how `ssh.Unmarshal` reads a struct: the fields in order, a message
number only where the *first* field carries an `sshtype` tag, a field tagged
`rest` taking whatever is left, and trailing bytes an error when no field took
them.

The two facts everything else rests on are `readString_eq_some_iff` and its
corollary `putString_append_inj`: reading a length-prefixed string is exactly
un-writing one, so a sequence of such fields has one reading only.
-/

namespace LunaZTrust.Ssh

open LunaZTrust.Go

/-! ## Strings -/

/-- An SSH `string`: the bytes a 32-bit length can announce. -/
def SshString := { s : Bytes // s.length < 2 ^ 32 }

namespace SshString

/-- The bytes of an SSH string. -/
def val (s : SshString) : Bytes := s.1

theorem length_lt (s : SshString) : s.val.length < 2 ^ 32 := s.2

@[ext] theorem ext {s t : SshString} (h : s.val = t.val) : s = t := Subtype.ext h

@[simp] theorem val_mk {b : Bytes} (h : b.length < 2 ^ 32) : val ⟨b, h⟩ = b := rfl

end SshString

/-- The four big-endian bytes of a length below `2 ^ 32`. -/
def putUint32 (n : Nat) : Bytes :=
  [UInt8.ofNat (n / 2 ^ 24), UInt8.ofNat (n / 2 ^ 16), UInt8.ofNat (n / 2 ^ 8), UInt8.ofNat n]

/-- The number four big-endian bytes stand for. -/
def getUint32 (b₀ b₁ b₂ b₃ : UInt8) : Nat :=
  b₀.toNat * 2 ^ 24 + b₁.toNat * 2 ^ 16 + b₂.toNat * 2 ^ 8 + b₃.toNat

theorem getUint32_lt (b₀ b₁ b₂ b₃ : UInt8) : getUint32 b₀ b₁ b₂ b₃ < 2 ^ 32 := by
  have h₀ := b₀.toNat_lt
  have h₁ := b₁.toNat_lt
  have h₂ := b₂.toNat_lt
  have h₃ := b₃.toNat_lt
  unfold getUint32
  omega

theorem putUint32_getUint32 (b₀ b₁ b₂ b₃ : UInt8) :
    putUint32 (getUint32 b₀ b₁ b₂ b₃) = [b₀, b₁, b₂, b₃] := by
  have h₀ := b₀.toNat_lt
  have h₁ := b₁.toNat_lt
  have h₂ := b₂.toNat_lt
  have h₃ := b₃.toNat_lt
  unfold putUint32 getUint32
  simp only [List.cons.injEq, and_true]
  refine ⟨?_, ?_, ?_, ?_⟩ <;>
    · apply UInt8.toNat_inj.mp
      rw [UInt8.toNat_ofNat']
      omega

theorem getUint32_putUint32 {n : Nat} (h : n < 2 ^ 32) :
    getUint32 (UInt8.ofNat (n / 2 ^ 24)) (UInt8.ofNat (n / 2 ^ 16)) (UInt8.ofNat (n / 2 ^ 8))
      (UInt8.ofNat n) = n := by
  simp only [getUint32, UInt8.toNat_ofNat']
  omega

/-- Write a string: its length, then its bytes. -/
def putString (s : SshString) : Bytes := putUint32 s.val.length ++ s.val

theorem length_take_lt {n : Nat} (h : n < 2 ^ 32) (b : Bytes) : (b.take n).length < 2 ^ 32 :=
  Nat.lt_of_le_of_lt (List.length_take_le n b) h

/-- Read a string off the front of the input, returning it and what follows. -/
def readString : Bytes → Option (SshString × Bytes)
  | b₀ :: b₁ :: b₂ :: b₃ :: rest =>
      let n := getUint32 b₀ b₁ b₂ b₃
      if n ≤ rest.length then
        some (⟨rest.take n, length_take_lt (getUint32_lt b₀ b₁ b₂ b₃) rest⟩, rest.drop n)
      else none
  | _ => none

/-- Reading undoes writing. -/
theorem readString_putString (s : SshString) (rest : Bytes) :
    readString (putString s ++ rest) = some (s, rest) := by
  have hn := getUint32_putUint32 s.length_lt
  simp only [putString, putUint32, List.cons_append, List.nil_append, readString, hn]
  rw [if_pos (by simp)]
  refine congrArg some (Prod.ext (SshString.ext ?_) ?_)
  · simp
  · simp

/-- What is read was written: reading succeeds exactly on the strings written,
followed by anything. -/
theorem readString_eq_some_iff {b rest : Bytes} {s : SshString} :
    readString b = some (s, rest) ↔ b = putString s ++ rest := by
  constructor
  · intro h
    unfold readString at h
    split at h
    · rename_i b₀ b₁ b₂ b₃ tl
      dsimp only at h
      split at h
      · rename_i hle
        obtain ⟨rfl, rfl⟩ := Prod.mk.inj (Option.some.inj h)
        simp only [putString, SshString.val_mk, List.length_take, Nat.min_eq_left hle,
          putUint32_getUint32, List.append_assoc, List.take_append_drop]
        rfl
      · exact absurd h (by simp)
    · exact absurd h (by simp)
  · rintro rfl
    exact readString_putString s rest

/-- Two strings written in front of anything are told apart by what is
written. -/
theorem putString_append_inj {s t : SshString} {b c : Bytes} :
    putString s ++ b = putString t ++ c ↔ s = t ∧ b = c := by
  constructor
  · intro h
    have hs := readString_putString s b
    rw [h, readString_putString] at hs
    simp only [Option.some.injEq, Prod.mk.injEq] at hs
    exact ⟨hs.1.symm, hs.2.symm⟩
  · rintro ⟨rfl, rfl⟩
    rfl

theorem putString_ne_nil (s : SshString) : putString s ≠ [] := by
  simp [putString, putUint32]

/-! ## Messages -/

/-- The kinds of fields a struct given to `ssh.Unmarshal` may have here. -/
inductive Kind
  | bool
  | byte
  | string
  | rest
deriving DecidableEq, Repr

/-- A field of such a struct: its kind and its `sshtype` tag, if it has one. -/
structure Field where
  kind : Kind
  sshtype : Option UInt8 := none
deriving DecidableEq, Repr

/-- The value read for a field. -/
inductive Value
  | bool (b : Bool)
  | byte (b : UInt8)
  | bytes (b : Bytes)
deriving DecidableEq, Repr

/-- Read one field off the front of the input. -/
def readField : Kind → Bytes → Option (Value × Bytes)
  | .bool, b :: tl => some (.bool (b != 0), tl)
  | .bool, [] => none
  | .byte, b :: tl => some (.byte b, tl)
  | .byte, [] => none
  | .string, b => (readString b).map fun p => (.bytes p.1.val, p.2)
  | .rest, b => some (.bytes b, [])

/-- Read the fields in order, returning their values and what is left over. -/
def readFields : List Field → Bytes → Option (List Value × Bytes)
  | [], b => some ([], b)
  | f :: fs, b => do
      let (v, tl) ← readField f.kind b
      let (vs, left) ← readFields fs tl
      return (v :: vs, left)

/-- Strip the message number, when the first field's tag asks for one.  A tag
on any later field is never looked at. -/
def readMessageType : List Field → Bytes → Option Bytes
  | ⟨_, some t⟩ :: _, b :: tl => if b = t then some tl else none
  | _, b => some b

/-- Read a whole message: an empty input is an error, and so is anything left
over once the fields have been read. -/
def decode (fs : List Field) (b : Bytes) : Option (List Value) :=
  if b = [] then none
  else do
    let tl ← readMessageType fs b
    let (vs, left) ← readFields fs tl
    if left = [] then some vs else none

/-! ### Reading field by field -/

theorem readField_string_eq_some_iff {b tl : Bytes} {v : Value} :
    readField .string b = some (v, tl) ↔
      ∃ s : SshString, v = .bytes s.val ∧ b = putString s ++ tl := by
  simp only [readField, Option.map_eq_some_iff, Prod.exists, Prod.mk.injEq]
  constructor
  · rintro ⟨s, tl', h, rfl, rfl⟩
    exact ⟨s, rfl, readString_eq_some_iff.mp h⟩
  · rintro ⟨s, rfl, rfl⟩
    exact ⟨s, tl, readString_putString s tl, rfl, rfl⟩

theorem readField_bool_eq_some_iff {b tl : Bytes} {v : Value} :
    readField .bool b = some (v, tl) ↔ ∃ c : UInt8, v = .bool (c != 0) ∧ b = c :: tl := by
  cases b with
  | nil => simp [readField]
  | cons c b =>
      simp only [readField, Option.some.injEq, Prod.mk.injEq, List.cons.injEq]
      constructor
      · rintro ⟨rfl, rfl⟩
        exact ⟨c, rfl, rfl, rfl⟩
      · rintro ⟨_, rfl, rfl, rfl⟩
        exact ⟨rfl, rfl⟩

theorem readField_byte_eq_some_iff {b tl : Bytes} {v : Value} :
    readField .byte b = some (v, tl) ↔ ∃ c : UInt8, v = .byte c ∧ b = c :: tl := by
  cases b with
  | nil => simp [readField]
  | cons c b =>
      simp only [readField, Option.some.injEq, Prod.mk.injEq, List.cons.injEq]
      constructor
      · rintro ⟨rfl, rfl⟩
        exact ⟨c, rfl, rfl, rfl⟩
      · rintro ⟨_, rfl, rfl, rfl⟩
        exact ⟨rfl, rfl⟩

theorem readField_rest_eq_some_iff {b tl : Bytes} {v : Value} :
    readField .rest b = some (v, tl) ↔ v = .bytes b ∧ tl = [] := by
  simp only [readField, Option.some.injEq, Prod.mk.injEq]
  exact and_congr eq_comm eq_comm

theorem readFields_cons_eq_some_iff {f : Field} {fs : List Field} {b left : Bytes} {v : Value}
    {vs : List Value} :
    readFields (f :: fs) b = some (v :: vs, left) ↔
      ∃ tl, readField f.kind b = some (v, tl) ∧ readFields fs tl = some (vs, left) := by
  simp only [readFields, Option.bind_eq_bind, Option.bind_eq_some_iff, Prod.exists,
    Option.pure_def, Option.some.injEq, Prod.mk.injEq, List.cons.injEq]
  constructor
  · rintro ⟨_, tl, hv, _, _, hvs, ⟨rfl, rfl⟩, rfl⟩
    exact ⟨tl, hv, hvs⟩
  · rintro ⟨tl, hv, hvs⟩
    exact ⟨v, tl, hv, vs, left, hvs, ⟨rfl, rfl⟩, rfl⟩

/-- Once the first field is read, the others are read from what follows it. -/
theorem readFields_cons_of_readField {f : Field} {b tl : Bytes} {v : Value}
    (h : readField f.kind b = some (v, tl)) (fs : List Field) :
    readFields (f :: fs) b = (readFields fs tl).map fun p => (v :: p.1, p.2) := by
  rw [readFields, h]
  cases hr : readFields fs tl <;> simp [hr]

/-- A string field takes a string off the front. -/
theorem readFields_string (t : Option UInt8) (fs : List Field) (s : SshString) (tl : Bytes) :
    readFields (⟨.string, t⟩ :: fs) (putString s ++ tl) =
      (readFields fs tl).map fun p => (.bytes s.val :: p.1, p.2) :=
  readFields_cons_of_readField (readField_string_eq_some_iff.mpr ⟨s, rfl, rfl⟩) fs

/-- A byte field takes a byte off the front. -/
theorem readFields_byte (t : Option UInt8) (fs : List Field) (c : UInt8) (tl : Bytes) :
    readFields (⟨.byte, t⟩ :: fs) (c :: tl) =
      (readFields fs tl).map fun p => (.byte c :: p.1, p.2) :=
  readFields_cons_of_readField (readField_byte_eq_some_iff.mpr ⟨c, rfl, rfl⟩) fs

/-- A boolean field takes a byte off the front. -/
theorem readFields_bool (t : Option UInt8) (fs : List Field) (c : UInt8) (tl : Bytes) :
    readFields (⟨.bool, t⟩ :: fs) (c :: tl) =
      (readFields fs tl).map fun p => (.bool (c != 0) :: p.1, p.2) :=
  readFields_cons_of_readField (readField_bool_eq_some_iff.mpr ⟨c, rfl, rfl⟩) fs

/-- A rest field takes everything. -/
theorem readFields_rest (t : Option UInt8) (b : Bytes) :
    readFields [⟨.rest, t⟩] b = some ([.bytes b], []) := rfl

/-- A struct whose first field has no tag is read by its fields alone. -/
theorem decode_untagged_eq_some_iff {k : Kind} {fs : List Field} {b : Bytes} {vs : List Value} :
    decode (⟨k, none⟩ :: fs) b = some vs ↔
      b ≠ [] ∧ readFields (⟨k, none⟩ :: fs) b = some (vs, []) := by
  by_cases hb : b = []
  · simp [decode, hb]
  · simp only [decode, hb, if_false, readMessageType, Option.bind_eq_bind, Option.bind_some,
      Option.bind_eq_some_iff, Prod.exists, ne_eq, not_false_eq_true, true_and]
    constructor
    · rintro ⟨vs', left, hr, h⟩
      split at h
      · rename_i hl
        rw [hr, hl, Option.some.inj h]
      · exact absurd h (by simp)
    · intro hr
      exact ⟨vs, [], hr, if_pos rfl⟩

end LunaZTrust.Ssh
