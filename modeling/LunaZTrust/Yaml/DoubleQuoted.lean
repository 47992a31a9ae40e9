import LunaZTrust.Go.Encoding
import LunaZTrust.Go.Utf8

/-!
# Double-quoted scalars

How YAML reads a double-quoted scalar: escapes, the folding of lines, and the characters that
may stand for themselves.  The reader takes a byte at a time, so that reading is a run of
`step`.

A writer that escapes the quote and nothing else (`escapeQuotes`) is undone exactly on texts of
characters that stand for themselves (`read_escapeQuotes_iff`).  For the one direction, such a
text is read as it was written.  For the other, every way of reading has a price in the text
(`cost`), and the value it gives is worth no more (`worth`, `read_price`).  What is written is
worth its price; an escape other than that of the quote, and a fold, give less than they cost.
-/

namespace LunaZTrust.Yaml

open LunaZTrust.Go

/-! ## The reader -/

/-- A line break. -/
def isBreak (b : UInt8) : Bool := b == 0x0a || b == 0x0d

/-- The escapes of one character. -/
def escapes : List (UInt8 × Bytes) :=
  [(0x30, [0x00]), (0x61, [0x07]), (0x62, [0x08]), (0x74, [0x09]), (0x09, [0x09]), (0x6e, [0x0a]),
    (0x76, [0x0b]), (0x66, [0x0c]), (0x72, [0x0d]), (0x65, [0x1b]), (0x20, [0x20]), (0x22, [0x22]),
    (0x2f, [0x2f]), (0x5c, [0x5c]), (0x4e, [0xc2, 0x85]), (0x5f, [0xc2, 0xa0]),
    (0x4c, [0xe2, 0x80, 0xa8]), (0x50, [0xe2, 0x80, 0xa9])]

/-- Where the reader is. -/
inductive Mode
  /-- On a line, behind white space that is dropped if the line ends. -/
  | line (white : Bytes)
  /-- Behind a backslash. -/
  | escape
  /-- In the digits of an escape. -/
  | hex (left value : Nat)
  /-- Behind a line break, which may be escaped, a number of empty lines, and spaces; the last
  byte may have been a carriage return. -/
  | fold (escaped : Bool) (empty indent : Nat) (cr : Bool)

/-- What a byte leads to: the end of the scalar, or another mode. -/
inductive Progress
  | close (value : Bytes)
  | go (value : Bytes) (next : Mode)

/-- What line breaks stand for. -/
def folded (escaped : Bool) (empty : Nat) : Bytes :=
  if empty = 0 then (if escaped then [] else [0x20]) else List.replicate empty 0x0a

/-- A byte that is no white space. -/
def content (pre : Bytes) (b : UInt8) : Option Progress :=
  if b = 0x22 then some (.close pre)
  else if b = 0x5c then some (.go pre .escape)
  else if b < 0x20 then none
  else some (.go (pre ++ [b]) (.line []))

/-- One byte of a scalar whose lines have to be indented by `n` spaces. -/
def step (n : Nat) : Mode → UInt8 → Option Progress
  | .line white, b =>
      if isBreak b then some (.go [] (.fold false 0 0 (b == 0x0d)))
      else if b = 0x20 ∨ b = 0x09 then some (.go [] (.line (white ++ [b])))
      else content white b
  | .escape, b =>
      if isBreak b then some (.go [] (.fold true 0 0 (b == 0x0d)))
      else if b = 0x78 then some (.go [] (.hex 2 0))
      else if b = 0x75 then some (.go [] (.hex 4 0))
      else if b = 0x55 then some (.go [] (.hex 8 0))
      else (escapes.lookup b).map fun value ↦ .go value (.line [])
  | .hex left value, b =>
      match Hex.decodeDigit b with
      | none => none
      | some d =>
          if 1 < left then some (.go [] (.hex (left - 1) (value * 16 + d)))
          else if Utf8.isScalar (value * 16 + d) then
            some (.go (Utf8.encode (value * 16 + d)) (.line []))
          else none
  | .fold escaped empty indent cr, b =>
      if isBreak b then
        if cr && b == 0x0a then some (.go [] (.fold escaped empty 0 false))
        else some (.go [] (.fold escaped (empty + 1) 0 (b == 0x0d)))
      else if b = 0x20 then some (.go [] (.fold escaped empty (indent + 1) false))
      else if indent < n then none
      else if b = 0x09 then some (.go [] (.fold escaped empty indent false))
      else content (folded escaped empty) b

/-- Read up to the quote that ends the scalar: the value, and what follows. -/
def read (n : Nat) : Mode → Bytes → Option (Bytes × Bytes)
  | _, [] => none
  | m, b :: text =>
      match step n m b with
      | none => none
      | some (.close value) => some (value, text)
      | some (.go value next) => (read n next text).map fun r ↦ (value ++ r.1, r.2)

/-- Read a double-quoted scalar.  The text has to be UTF-8; since an escape stands for whole
characters, that can be seen from the value. -/
def readDoubleQuoted (n : Nat) : Bytes → Option (Bytes × Bytes)
  | [] => none
  | b :: text =>
      if b = 0x22 then (read n (.line []) text).filter fun r ↦ Utf8.valid r.1 else none

/-! ## Reading what was written -/

/-- A writer that escapes the quote. -/
def escapeQuotes (s : Bytes) : Bytes := s.flatMap fun b ↦ if b = 0x22 then [0x5c, 0x22] else [b]

/-- A character that stands for itself, or the quote. -/
def plain (b : UInt8) : Bool := b ≠ 0x5c && (b == 0x09 || 0x20 ≤ b)

theorem read_go {n : Nat} {m next : Mode} {b : UInt8} {value : Bytes}
    (h : step n m b = some (.go value next)) (text : Bytes) :
    read n m (b :: text) = (read n next text).map fun r ↦ (value ++ r.1, r.2) := by
  rw [read, h]

theorem step_plain {b : UInt8} (h : plain b = true) (hquote : b ≠ 0x22) (n : Nat) (white : Bytes) :
    step n (.line white) b = some (.go [] (.line (white ++ [b]))) ∨
      step n (.line white) b = some (.go (white ++ [b]) (.line [])) := by
  simp only [plain, Bool.and_eq_true, Bool.or_eq_true, beq_iff_eq, decide_eq_true_eq] at h
  have hbreak : ¬isBreak b = true := by
    rw [isBreak, Bool.or_eq_true, beq_iff_eq, beq_iff_eq]
    rintro (rfl | rfl) <;> exact absurd h.2 (by decide)
  rw [step, if_neg hbreak]
  by_cases hwhite : b = 0x20 ∨ b = 0x09
  · exact .inl (if_pos hwhite)
  · have hle : ¬b < 0x20 := UInt8.not_lt.mpr (h.2.resolve_left fun h ↦ hwhite (.inr h))
    rw [if_neg hwhite, content, if_neg hquote, if_neg h.1, if_neg hle]
    exact .inr rfl

/-- Bytes that stand for themselves are read as they are. -/
theorem read_escapeQuotes {n : Nat} {s : Bytes} (h : ∀ b ∈ s, plain b = true) (white t : Bytes) :
    read n (.line white) (escapeQuotes s ++ 0x22 :: t) = some (white ++ s, t) := by
  induction s generalizing white with
  | nil => rw [List.append_nil]; rfl
  | cons b s ih =>
      obtain ⟨hb, hs⟩ := List.forall_mem_cons.mp h
      rw [escapeQuotes, List.flatMap_cons, ← escapeQuotes, List.append_assoc]
      by_cases hquote : b = 0x22
      · subst hquote
        have hopen : step n (.line white) 0x5c = some (.go white .escape) := rfl
        have hescape : step n .escape 0x22 = some (.go [0x22] (.line [])) := rfl
        rw [if_pos rfl, List.cons_append, List.singleton_append, read_go hopen, read_go hescape,
          ih hs]
        rfl
      · rw [if_neg hquote, List.singleton_append]
        rcases step_plain hb hquote n white with hstep | hstep
        · rw [read_go hstep, ih hs, Option.map_some, List.append_assoc]
          rfl
        · rw [read_go hstep, ih hs, Option.map_some, List.append_assoc]
          rfl

/-! ## The price of a value -/

/-- What a byte of the text costs: those of ASCII, and line breaks the most. -/
def weight (b : UInt8) : Nat := if b < 0x80 then (if isBreak b then 3 else 2) else 0

/-- What a byte of the value is worth: a quote costs an escape. -/
def byteWorth (b : UInt8) : Nat := weight b + if b = 0x22 then 2 else 0

/-- The cost of a text. -/
def cost : Bytes → Nat
  | [] => 0
  | b :: text => weight b + cost text

/-- The worth of a value. -/
def worth : Bytes → Nat
  | [] => 0
  | b :: v => byteWorth b + worth v

theorem worth_append (u v : Bytes) : worth (u ++ v) = worth u + worth v := by
  induction u with
  | nil => exact (Nat.zero_add _).symm
  | cons b u ih => rw [List.cons_append, worth, worth, ih, Nat.add_assoc]

/-- What is written is worth its cost. -/
theorem cost_escapeQuotes (s : Bytes) : cost (escapeQuotes s) = worth s := by
  induction s with
  | nil => rfl
  | cons b s ih =>
      rw [escapeQuotes, List.flatMap_cons, ← escapeQuotes, worth, ← ih, byteWorth]
      split
      · next h =>
          subst h
          have hpair : weight 0x5c + weight 0x22 = weight 0x22 + 2 := by decide
          rw [List.cons_append, List.singleton_append, cost, cost, ← hpair, Nat.add_assoc]
      · rw [List.singleton_append, cost, Nat.add_zero]

/-- What the reader has paid for and not given out. -/
def Mode.credit : Mode → Nat
  | .line white => worth white
  | .escape => 2
  | .hex _ _ => 3
  | .fold _ empty _ _ => 3 * empty + 2

/-- The reader has found nothing but plain bytes and escapes of the quote. -/
def Mode.Simple : Mode → Prop
  | .line white => ∀ b ∈ white, plain b = true
  | .escape => True
  | .hex _ _ | .fold _ _ _ _ => False

theorem worth_replicate (k : Nat) : worth (List.replicate k 0x0a) = 3 * k := by
  have hbreak : byteWorth 0x0a = 3 := by decide
  induction k with
  | zero => rfl
  | succ k ih =>
      rw [List.replicate_succ, worth, ih, hbreak]
      omega

theorem worth_folded (escaped : Bool) (empty : Nat) :
    worth (folded escaped empty) ≤ 3 * empty + 2 := by
  rw [folded]
  split
  · next h =>
      subst h
      cases escaped <;> decide
  · rw [worth_replicate]
    exact Nat.le_add_right _ 2

theorem byteWorth_le (b : UInt8) : byteWorth b ≤ 4 := by
  by_cases hquote : b = 0x22
  · subst hquote
    decide
  · rw [byteWorth, if_neg hquote, weight]
    split
    · split <;> decide
    · decide

/-- Only ASCII is worth anything. -/
theorem worth_wide {v : Bytes} (h : ∀ b ∈ v, 0x80 ≤ b) : worth v = 0 := by
  induction v with
  | nil => rfl
  | cons b v ih =>
      obtain ⟨hle, hv⟩ := List.forall_mem_cons.mp h
      have hquote : b ≠ 0x22 := fun h ↦ absurd (h ▸ hle) (by decide)
      rw [worth, ih hv, byteWorth, if_neg hquote, weight, if_neg (UInt8.not_lt.mpr hle)]

theorem worth_encode {r : Nat} (h : Utf8.isScalar r = true) : worth (Utf8.encode r) ≤ 4 := by
  rcases Utf8.encode_cases h with ⟨b, hb⟩ | hwide
  · rw [hb]
    exact byteWorth_le b
  · rw [worth_wide hwide]
    decide

/-- An escape of one character is worth less than its cost, but for the one of the quote. -/
theorem worth_of_lookup {b : UInt8} {v : Bytes} (h : escapes.lookup b = some v) :
    weight b = 2 ∧ (worth v < 4 ∨ worth v = 4 ∧ v = [0x22]) := by
  have htable : ∀ e ∈ escapes, weight e.1 = 2 ∧ (worth e.2 < 4 ∨ worth e.2 = 4 ∧ e.2 = [0x22]) := by
    decide +kernel
  obtain ⟨before, after, htab, -⟩ := List.lookup_eq_some_iff.mp h
  exact htable (b, v) (htab ▸ List.mem_append_right before List.mem_cons_self)

theorem worth_concat (v : Bytes) {b : UInt8} (hquote : b ≠ 0x22) :
    worth (v ++ [b]) = worth v + weight b := by
  rw [worth_append, worth, worth, byteWorth, if_neg hquote, Nat.add_zero]

theorem content_go {b : UInt8} {v w : Bytes} {next : Mode}
    (h : content w b = some (.go v next)) :
    worth v + next.credit = weight b + worth w ∧ next.Simple ∧
      ((∀ c ∈ w, plain c = true) → ∀ c ∈ v, plain c = true) := by
  rw [content] at h
  split at h
  · cases h
  next hquote =>
  split at h
  · next hbackslash =>
      cases h
      subst hbackslash
      exact ⟨Nat.add_comm _ _, trivial, id⟩
  next hbackslash =>
  split at h
  · cases h
  · next hle =>
      cases h
      refine ⟨?_, List.forall_mem_nil _, fun hw ↦ List.forall_mem_append.mpr ⟨hw, ?_⟩⟩
      · rw [worth_concat w hquote, Nat.add_comm (weight b)]
        rfl
      · refine List.forall_mem_singleton.mpr ?_
        rw [plain, decide_eq_true hbackslash, decide_eq_true (UInt8.not_lt.mp hle), Bool.or_true]
        rfl

theorem content_close {b : UInt8} {v w : Bytes} (h : content w b = some (.close v)) :
    b = 0x22 ∧ v = w := by
  rw [content] at h
  split at h
  · next hquote =>
      cases h
      exact ⟨hquote, rfl⟩
  split at h
  · cases h
  split at h
  · cases h
  · cases h

theorem weight_of_isBreak {b : UInt8} (h : isBreak b = true) : weight b = 3 := by
  rw [isBreak, Bool.or_eq_true, beq_iff_eq, beq_iff_eq] at h
  rcases h with rfl | rfl <;> decide

theorem weight_of_decodeDigit {b : UInt8} {d : Nat} (h : Hex.decodeDigit b = some d) :
    weight b = 2 := by
  have hweight : ∀ c ∈ Base64.alphabet, weight c = 2 := by decide +kernel
  exact hweight b (Hex.mem_alphabet_of_isSome (Option.isSome_iff_exists.mpr ⟨d, h⟩))

/-- What is given out has been paid for.  Where it is worth no less, the byte was a plain one or
belonged to the escape of a quote. -/
def Paid (m : Mode) (b : UInt8) (v : Bytes) (next : Mode) : Prop :=
  worth v + next.credit ≤ weight b + m.credit ∧
    (m.Simple → worth v + next.credit = weight b + m.credit →
      next.Simple ∧ ∀ c ∈ v, plain c = true)

/-- Where more was paid than is given out. -/
theorem Paid.of_lt {m next : Mode} {b : UInt8} {v : Bytes}
    (h : worth v + next.credit < weight b + m.credit) : Paid m b v next :=
  ⟨Nat.le_of_lt h, fun _ heq ↦ absurd heq (Nat.ne_of_lt h)⟩

section Steps

variable {n : Nat} {next : Mode} {b : UInt8} {v : Bytes}

theorem paid_line {white : Bytes} (h : step n (.line white) b = some (.go v next)) :
    Paid (.line white) b v next := by
  rw [step] at h
  split at h
  · next hbreak =>
      cases h
      refine .of_lt ?_
      rw [weight_of_isBreak hbreak]
      simp only [worth, Mode.credit]
      omega
  split at h
  · next hwhite =>
      cases h
      have hquote : b ≠ 0x22 := by rcases hwhite with rfl | rfl <;> decide
      have hplain : plain b = true := by rcases hwhite with rfl | rfl <;> decide
      refine ⟨?_, fun hm _ ↦ ⟨?_, List.forall_mem_nil _⟩⟩
      · simp only [worth, Mode.credit, worth_concat white hquote]
        omega
      · exact List.forall_mem_append.mpr ⟨hm, List.forall_mem_singleton.mpr hplain⟩
  · obtain ⟨hworth, hnext, hplain⟩ := content_go h
    exact ⟨Nat.le_of_eq hworth, fun hm _ ↦ ⟨hnext, hplain hm⟩⟩

theorem paid_escape (h : step n .escape b = some (.go v next)) : Paid .escape b v next := by
  rw [step] at h
  split at h
  · next hbreak =>
      cases h
      refine .of_lt ?_
      rw [weight_of_isBreak hbreak]
      simp only [worth, Mode.credit]
      omega
  split at h
  · next hx => cases h; subst hx; exact .of_lt (by decide)
  split at h
  · next hu => cases h; subst hu; exact .of_lt (by decide)
  split at h
  · next hU => cases h; subst hU; exact .of_lt (by decide)
  · obtain ⟨value, hlookup, heq⟩ := Option.map_eq_some_iff.mp h
    cases heq
    obtain ⟨hweight, hless | ⟨hworth, rfl⟩⟩ := worth_of_lookup hlookup
    · refine .of_lt ?_
      rw [hweight]
      exact hless
    · refine ⟨?_, fun _ _ ↦ ⟨List.forall_mem_nil _, List.forall_mem_singleton.mpr rfl⟩⟩
      rw [hweight, hworth]
      decide

theorem paid_hex {left acc : Nat} (h : step n (.hex left acc) b = some (.go v next)) :
    Paid (.hex left acc) b v next := by
  refine ⟨?_, fun hm ↦ hm.elim⟩
  rw [step] at h
  split at h
  · cases h
  next d hdigit =>
  rw [weight_of_decodeDigit hdigit]
  split at h
  · cases h
    simp only [worth, Mode.credit]
    omega
  split at h
  · next hscalar =>
      cases h
      have hle := worth_encode hscalar
      simp only [worth, Mode.credit]
      omega
  · cases h

/-- The line break has been paid for when it was read. -/
theorem paid_fold {escaped cr : Bool} {empty indent : Nat}
    (h : step n (.fold escaped empty indent cr) b = some (.go v next)) :
    Paid (.fold escaped empty indent cr) b v next := by
  refine ⟨?_, fun hm ↦ hm.elim⟩
  rw [step] at h
  split at h
  · next hbreak =>
      rw [weight_of_isBreak hbreak]
      split at h
      · cases h
        simp only [worth, Mode.credit]
        omega
      · cases h
        simp only [worth, Mode.credit]
        omega
  split at h
  · cases h
    simp only [worth, Mode.credit]
    omega
  split at h
  · cases h
  split at h
  · cases h
    simp only [worth, Mode.credit]
    omega
  · rw [(content_go h).1]
    exact Nat.add_le_add_left (worth_folded escaped empty) _

/-- **Step.** -/
theorem step_go {m : Mode} (h : step n m b = some (.go v next)) : Paid m b v next := by
  cases m with
  | line white => exact paid_line h
  | escape => exact paid_escape h
  | hex left acc => exact paid_hex h
  | fold escaped empty indent cr => exact paid_fold h

/-- The scalar ends where `content` finds the quote. -/
theorem content_of_step_close {m : Mode} (h : step n m b = some (.close v)) :
    (∃ white, m = .line white ∧ content white b = some (.close v)) ∨
      ∃ escaped empty indent cr, m = .fold escaped empty indent cr ∧
        content (folded escaped empty) b = some (.close v) := by
  rw [step.eq_def] at h
  split at h
  · split at h
    · cases h
    split at h
    · cases h
    · exact .inl ⟨_, rfl, h⟩
  · split at h
    · cases h
    split at h
    · cases h
    split at h
    · cases h
    split at h
    · cases h
    · obtain ⟨value, -, heq⟩ := Option.map_eq_some_iff.mp h
      cases heq
  · split at h
    · cases h
    split at h
    · cases h
    split at h
    · cases h
    · cases h
  · split at h
    · split at h <;> cases h
    split at h
    · cases h
    split at h
    · cases h
    split at h
    · cases h
    · exact .inr ⟨_, _, _, _, rfl, h⟩

theorem step_close {m : Mode} (h : step n m b = some (.close v)) :
    b = 0x22 ∧ worth v ≤ m.credit ∧ (m.Simple → ∀ c ∈ v, plain c = true) := by
  rcases content_of_step_close h with
    ⟨white, rfl, hcontent⟩ | ⟨escaped, empty, indent, cr, rfl, hcontent⟩
  · obtain ⟨rfl, rfl⟩ := content_close hcontent
    exact ⟨rfl, Nat.le_refl _, id⟩
  · obtain ⟨rfl, rfl⟩ := content_close hcontent
    exact ⟨rfl, worth_folded escaped empty, fun hm ↦ hm.elim⟩

end Steps

/-- **Run.** -/
theorem read_price {n : Nat} {m : Mode} {text v rest : Bytes}
    (h : read n m text = some (v, rest)) :
    ∃ w, text = w ++ 0x22 :: rest ∧ worth v ≤ cost w + m.credit ∧
      (m.Simple → worth v = cost w + m.credit → ∀ c ∈ v, plain c = true) := by
  induction text generalizing m v with
  | nil => cases h
  | cons b text ih =>
      rw [read] at h
      split at h
      · cases h
      · next value hstep =>
          cases h
          obtain ⟨rfl, hle, hplain⟩ := step_close hstep
          exact ⟨[], rfl, (Nat.zero_add _).symm ▸ hle, fun hm _ ↦ hplain hm⟩
      · next value next hstep =>
          obtain ⟨⟨v', rest'⟩, hread, heq⟩ := Option.map_eq_some_iff.mp h
          dsimp only at heq
          cases heq
          obtain ⟨w, rfl, hle, hplain⟩ := ih hread
          obtain ⟨hstepLe, hstepPlain⟩ := step_go hstep
          refine ⟨b :: w, rfl, ?_, fun hm heq ↦ ?_⟩
          · rw [worth_append, cost]
            omega
          · rw [worth_append, cost] at heq
            obtain ⟨hnext, hvalue⟩ := hstepPlain hm (by omega)
            exact List.forall_mem_append.mpr ⟨hvalue, hplain hnext (by omega)⟩

/-- What is written without escapes but those of quotes is read back exactly if all bytes are
plain. -/
theorem read_escapeQuotes_iff {n : Nat} {s t : Bytes} :
    read n (.line []) (escapeQuotes s ++ 0x22 :: t) = some (s, t) ↔ ∀ b ∈ s, plain b = true := by
  constructor
  · intro h
    obtain ⟨w, hw, -, hplain⟩ := read_price h
    have hsame : escapeQuotes s = w := List.append_cancel_right hw
    refine hplain (List.forall_mem_nil _) ?_
    rw [← hsame, cost_escapeQuotes]
    rfl
  · intro h
    exact read_escapeQuotes h [] t

/-- A string in quotes, with its own quotes escaped, is read back exactly if it is UTF-8 of plain
characters. -/
theorem readDoubleQuoted_iff {n : Nat} {s t : Bytes} :
    readDoubleQuoted n (0x22 :: escapeQuotes s ++ 0x22 :: t) = some (s, t) ↔
      Utf8.valid s = true ∧ ∀ b ∈ s, plain b = true := by
  rw [List.cons_append, readDoubleQuoted, if_pos rfl, Option.filter_eq_some_iff,
    read_escapeQuotes_iff]
  exact and_comm

end LunaZTrust.Yaml
