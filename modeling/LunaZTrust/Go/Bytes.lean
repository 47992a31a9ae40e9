import Mathlib.Algebra.Group.Int.Defs
import Mathlib.Algebra.Group.Nat.Defs
import Mathlib.Data.List.Basic

/-!
# Byte strings and errors

A Go `[]byte` and a Go `string` are both finite sequences of bytes: a `string`
need not be valid UTF-8, its `len` counts bytes, and slicing it cuts between
bytes.  Both are modelled by `Bytes`.  `GoString` is the same type under the
name the source uses, so that signatures can be compared with it.

A function that returns a value and an error returns an `Except`;
`bind_eq_ok_iff` takes a chain of such calls apart.
-/

namespace LunaZTrust.Go

/-- A Go byte slice, without its capacity. -/
abbrev Bytes := List UInt8

/-- A Go string: an immutable sequence of bytes. -/
abbrev GoString := Bytes

/-- The bytes of a string literal of the source (Go source text is UTF-8). -/
def str (s : String) : GoString := s.toUTF8.data.toList

/-- What holds of the bytes of all 256 numbers holds of every byte. -/
theorem forall_byte {P : UInt8 → Prop} (h : ∀ n : Fin 256, P (UInt8.ofNat n)) (c : UInt8) :
    P c := by
  have hc := h ⟨c.toNat, c.toNat_lt⟩
  rwa [UInt8.ofNat_toNat] at hc

theorem bind_eq_ok_iff {ε α β : Type} {x : Except ε α} {f : α → Except ε β} {b : β} :
    x >>= f = .ok b ↔ ∃ a, x = .ok a ∧ f a = .ok b := by
  cases x with
  | error => exact ⟨(nomatch ·), fun ⟨_, h, _⟩ ↦ nomatch h⟩
  | ok a => exact ⟨fun h ↦ ⟨a, rfl, h⟩, fun ⟨_, h, h'⟩ ↦ by cases h; exact h'⟩

end LunaZTrust.Go
