import LunaZTrust.Go.Bytes

/-!
# Reading a line

`bufio.Scanner` with its default split function and its default limit, as far as a program uses it
that calls `Scan` once.  The reader hands out what it has in pieces of any size, and the scanner's
buffer grows up to `MaxScanTokenSize`.  How the input was cut does not matter: `Scan` finds the
first line if it is shorter than the limit, and nothing otherwise (`scan_eq`).

A `LineCodec` writes values as lines.  One that has been written and scanned is the value again
exactly if its line is short enough (`scan_frame`).
-/

namespace LunaZTrust.Go.Bufio

/-- `MaxScanTokenSize`. -/
def maxScanTokenSize : Nat := 64 * 1024

/-- `startBufSize`. -/
def startBufSize : Nat := 4096

/-- `dropCR`. -/
def dropCR (data : Bytes) : Bytes := if data.getLast? = some 0x0d then data.dropLast else data

/-- The bytes before the first newline. -/
def beforeNewline (data : Bytes) : Bytes := data.takeWhile (· != 0x0a)

/-- `ScanLines`: the token at the start of the data, if it is there. -/
def scanLines (data : Bytes) (atEOF : Bool) : Option Bytes :=
  if atEOF ∧ data = [] then none
  else if 0x0a ∈ data then some (dropCR (beforeNewline data))
  else if atEOF then some (dropCR data)
  else none

/-- The size of the next buffer, after one that is full. -/
def grow (size : Nat) : Nat := min maxScanTokenSize (if size = 0 then startBufSize else size * 2)

/-- `Scan`, the first time: its loop, with the number of reads so far, the size of the buffer, the
data in it and what the reader has left.  A read gives at least a byte, and at most what is asked
for. -/
def scanLoop (reads : Nat → Nat) (n size : Nat) (data rest : Bytes) : Option Bytes :=
  match scanLines data false with
  | some token => some token
  | none =>
      -- `ErrTooLong`
      if data.length = size ∧ maxScanTokenSize ≤ size then none
      else
        let size := if data.length = size then grow size else size
        if rest = [] then scanLines data true
        else
          let k := max 1 (min (reads n) (size - data.length))
          scanLoop reads (n + 1) size (data ++ rest.take k) (rest.drop k)
termination_by rest.length
decreasing_by
  have := List.length_pos_iff.mpr ‹rest ≠ []›
  rw [List.length_drop]
  omega

/-- `Scan` on a new scanner, and `Bytes` if it returns true. -/
def scan (reads : Nat → Nat) (input : Bytes) : Option Bytes := scanLoop reads 0 0 [] input

/-- What `Scan` finds. -/
def firstLine (input : Bytes) : Option Bytes :=
  if 0x0a ∈ input then
    if (beforeNewline input).length < maxScanTokenSize then some (dropCR (beforeNewline input))
    else none
  else if input = [] ∨ maxScanTokenSize ≤ input.length then none
  else some (dropCR input)

/-! ## The loop -/

theorem length_beforeNewline_lt {data : Bytes} (h : 0x0a ∈ data) :
    (beforeNewline data).length < data.length := by
  have hle := (List.takeWhile_prefix (l := data) (· != 0x0a)).length_le
  refine Nat.lt_of_le_of_ne hle fun heq ↦ ?_
  have hself := (List.takeWhile_prefix (l := data) (· != 0x0a)).eq_of_length heq
  have hall : data.all (· != 0x0a) = true := hself ▸ List.all_takeWhile
  exact absurd (List.all_eq_true.mp hall 0x0a h) (by decide)

theorem beforeNewline_append_of_mem {data : Bytes} (h : 0x0a ∈ data) (rest : Bytes) :
    beforeNewline (data ++ rest) = beforeNewline data := by
  have hne : (data.takeWhile (· != 0x0a)).length ≠ data.length :=
    Nat.ne_of_lt (length_beforeNewline_lt h)
  rw [beforeNewline, List.takeWhile_append, if_neg hne, beforeNewline]

theorem beforeNewline_append_of_notMem {data : Bytes} (h : 0x0a ∉ data) (rest : Bytes) :
    beforeNewline (data ++ rest) = data ++ beforeNewline rest := by
  refine List.takeWhile_append_of_pos fun b hb ↦ bne_iff_ne.mpr ?_
  rintro rfl
  exact h hb

/-- If the limit is reached without a newline, there is no first line. -/
theorem firstLine_append_of_full {data : Bytes} (h : 0x0a ∉ data)
    (hfull : maxScanTokenSize ≤ data.length) (rest : Bytes) : firstLine (data ++ rest) = none := by
  rw [firstLine]
  split
  · rw [beforeNewline_append_of_notMem h, if_neg]
    rw [List.length_append]
    omega
  · rw [if_pos]
    rw [List.length_append]
    exact .inr (Nat.le_add_right_of_le hfull)

theorem lt_grow {size : Nat} (h : size < maxScanTokenSize) : size < grow size := by
  rw [grow, startBufSize]
  split <;> omega

theorem grow_le (size : Nat) : grow size ≤ maxScanTokenSize := Nat.min_le_left _ _

/-- However much is read at a time, the loop finds the first line. -/
theorem scanLoop_eq (reads : Nat → Nat) {n size : Nat} {data rest : Bytes}
    (hdata : data.length ≤ size) (hsize : size ≤ maxScanTokenSize) :
    scanLoop reads n size data rest = firstLine (data ++ rest) := by
  induction hlen : rest.length using Nat.strongRecOn generalizing n size data rest with
  | ind m ih =>
  rw [scanLoop]
  by_cases hmem : 0x0a ∈ data
  · have hsome : scanLines data false = some (dropCR (beforeNewline data)) := by
      rw [scanLines, if_neg (by simp), if_pos hmem]
    have hlt : (beforeNewline data).length < maxScanTokenSize :=
      Nat.lt_of_lt_of_le (length_beforeNewline_lt hmem) (Nat.le_trans hdata hsize)
    rw [hsome, firstLine, if_pos (List.mem_append_left rest hmem),
      beforeNewline_append_of_mem hmem, if_pos hlt]
  · have hnone : scanLines data false = none := by
      rw [scanLines, if_neg (by simp), if_neg hmem, if_neg (by simp)]
    rw [hnone]
    dsimp only
    split
    · next hfull => rw [firstLine_append_of_full hmem (hfull.1 ▸ hfull.2)]
    · next hfull =>
        have hroom : data.length < maxScanTokenSize := by omega
        split
        · next hrest =>
            rw [hrest, List.append_nil, scanLines, firstLine, if_neg hmem, if_neg hmem, if_pos rfl]
            by_cases hnil : data = []
            · rw [if_pos ⟨rfl, hnil⟩, if_pos (.inl hnil)]
            · rw [if_neg fun h ↦ hnil h.2, if_neg]
              exact fun h ↦ h.elim hnil (Nat.not_le.mpr hroom)
        · next hrest =>
            -- the buffer has room, and no more is read than fits
            have hgrown : data.length < (if data.length = size then grow size else size) ∧
                (if data.length = size then grow size else size) ≤ maxScanTokenSize := by
              split
              · next heq => exact ⟨heq ▸ lt_grow (heq ▸ hroom), grow_le size⟩
              · next hne => exact ⟨Nat.lt_of_le_of_ne hdata hne, hsize⟩
            have hpos := List.length_pos_iff.mpr hrest
            rw [ih _ ?_ ?_ hgrown.2 rfl, List.append_assoc, List.take_append_drop]
            · rw [List.length_drop]
              omega
            · rw [List.length_append, List.length_take]
              omega

theorem scan_eq (reads : Nat → Nat) (input : Bytes) : scan reads input = firstLine input :=
  scanLoop_eq reads (Nat.le_refl _) (Nat.zero_le _)

/-! ## Values as lines -/

/-- An encoding of values in lines: it can be read back, and has no newline in it and no
carriage return at its end. -/
structure LineCodec (α : Type) where
  encode : α → Bytes
  decode : Bytes → Option α
  decode_encode : ∀ a, decode (encode a) = some a
  newline_notMem : ∀ a, 0x0a ∉ encode a
  getLast?_ne : ∀ a, (encode a).getLast? ≠ some 0x0d

namespace LineCodec

variable {α : Type} (c : LineCodec α)

/-- The line of a value. -/
def frame (a : α) : Bytes := c.encode a ++ [0x0a]

/-- The line is no longer than a scanner takes. -/
def Fits (a : α) : Prop := (c.encode a).length < maxScanTokenSize

instance (a : α) : Decidable (c.Fits a) := inferInstanceAs (Decidable (_ < _))

/-- What has been framed is scanned exactly if it fits. -/
theorem scan_frame (reads : Nat → Nat) (a : α) :
    scan reads (c.frame a) = if c.Fits a then some (c.encode a) else none := by
  have hline : beforeNewline (c.frame a) = c.encode a := by
    rw [frame, beforeNewline_append_of_notMem (c.newline_notMem a)]
    exact List.append_nil _
  have hmem : 0x0a ∈ c.frame a := List.mem_append_right _ (List.mem_singleton_self _)
  rw [scan_eq, firstLine, if_pos hmem, hline, dropCR, if_neg (c.getLast?_ne a)]
  rfl

end LineCodec

end LunaZTrust.Go.Bufio
