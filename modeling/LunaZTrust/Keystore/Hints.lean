import LunaZTrust.Go.BitStrings
import LunaZTrust.Go.WhiteSpace
import LunaZTrust.Keystore.Fingerprint

/-!
# What a hint denotes

A hint is a spelling of a digest with something around it: white space at both ends, `SHA256:` in
front and padding behind (`Frame`).  The spelling is the digest in hexadecimal digits of either
case, or in base64 with line breaks anywhere and with any bits in the place of those that do
not fill a byte (`Spells`).  Both are said of the bits of the text, without the decoders.

`ParseFingerprintHint` accepts just the hints that denote a digest, and returns the base64 of that
digest (`parseFingerprintHint_eq_ok_iff_denotes`).  No text can be read both ways: 64 hexadecimal
digits are too long for the base64 of a digest.  So a hint denotes one digest, its result is read
back as itself, and hints have the same result just if they denote the same digest
(`parseFingerprintHint_canonical`).
-/

namespace LunaZTrust.Keystore

open LunaZTrust.Go LunaZTrust.Ssh

/-! ## The digest a hint stands for -/

/-- The digest that a hint stands for, once it is normalized. -/
def spelledDigest (s : GoString) : Option Bytes :=
  (decodeFingerprintHex s).or ((decodeFingerprintBase64 s).filter (·.length = 32))

/-- The characters of a hint that stands for a digest: those of base64 and, between them, line
breaks. -/
def Spelled (s : GoString) : Prop := ∀ c ∈ s, c ∈ Base64.alphabet ∨ c = 0x0a ∨ c = 0x0d

variable {s raw fp : GoString}

theorem decodeFingerprintHex_eq_some_iff :
    decodeFingerprintHex s = some raw ↔
      s.length = 64 ∧ Hex.decode s = some raw ∧ raw.length = 32 := by
  rw [decodeFingerprintHex, Option.ite_none_right_eq_some, Option.filter_eq_some_iff,
    decide_eq_true_eq]

theorem decodeFingerprintHex_eq_some (h : decodeFingerprintHex s = some raw) :
    (∀ c ∈ s, c ∈ Base64.alphabet) ∧ s.length = 64 := by
  obtain ⟨hlength, hdecode, -⟩ := decodeFingerprintHex_eq_some_iff.mp h
  refine ⟨fun c hc ↦ ?_, hlength⟩
  exact Hex.mem_alphabet_of_isSome ((Hex.decode_eq_some hdecode).1 c hc)

theorem decodeFingerprintBase64_eq_some (h : decodeFingerprintBase64 s = some raw) :
    Spelled s ∧ raw.length = (Base64.dropNewlines s).length * 3 / 4 := by
  obtain ⟨hmem, hlength⟩ := Base64.decodeGroups_eq_some h
  refine ⟨fun c hc ↦ ?_, hlength⟩
  by_cases hbreak : c = 0x0a ∨ c = 0x0d
  · exact .inr hbreak
  · rw [not_or] at hbreak
    refine .inl (hmem c (List.mem_filter.mpr ⟨hc, ?_⟩))
    rw [Bool.and_eq_true, bne_iff_ne, bne_iff_ne]
    exact hbreak

/-- A hint is read as base64 only where it is not read as hexadecimal digits. -/
theorem spelledDigest_eq_some_iff :
    spelledDigest s = some raw ↔
      decodeFingerprintHex s = some raw ∨
        decodeFingerprintHex s = none ∧ decodeFingerprintBase64 s = some raw ∧ raw.length = 32 := by
  rw [spelledDigest, Option.or_eq_some_iff, Option.filter_eq_some_iff, decide_eq_true_eq]

theorem parseFingerprintHint_eq_ok_iff {hint : GoString} :
    parseFingerprintHint hint = .ok fp ↔
      ∃ raw, spelledDigest (normalizeFingerprintInput hint) = some raw ∧
        fp = Base64.rawStdEncode raw := by
  rw [parseFingerprintHint]
  generalize normalizeFingerprintInput hint = s
  by_cases hempty : s = []
  · rw [if_pos hempty, hempty]
    refine iff_of_false (fun h ↦ by cases h) ?_
    rintro ⟨raw, hraw, -⟩
    cases hraw
  · rw [if_neg hempty, spelledDigest]
    cases decodeFingerprintHex s with
    | some raw =>
        rw [Option.some_or]
        exact ⟨fun h ↦ ⟨raw, rfl, (Except.ok.inj h).symm⟩, by rintro ⟨_, ⟨⟩, rfl⟩; rfl⟩
    | none =>
        rw [Option.none_or]
        cases decodeFingerprintBase64 s with
        | none => exact iff_of_false (fun h ↦ by cases h) fun ⟨_, h, _⟩ ↦ by cases h
        | some raw =>
            dsimp only
            rw [Option.filter_some]
            by_cases hlength : raw.length = 32
            · rw [if_pos hlength, if_pos (decide_eq_true hlength)]
              exact ⟨fun h ↦ ⟨raw, rfl, (Except.ok.inj h).symm⟩, by rintro ⟨_, ⟨⟩, rfl⟩; rfl⟩
            · rw [if_neg hlength, if_neg fun h ↦ hlength (of_decide_eq_true h)]
              exact iff_of_false (fun h ↦ by cases h) fun ⟨_, h, _⟩ ↦ by cases h

theorem normalize_ne_nil {hint : GoString} (h : parseFingerprintHint hint = .ok fp) :
    normalizeFingerprintInput hint ≠ [] := by
  obtain ⟨raw, hraw, -⟩ := parseFingerprintHint_eq_ok_iff.mp h
  intro hnil
  rw [hnil] at hraw
  cases hraw

theorem dropNewlines_of_alphabet (h : ∀ c ∈ s, c ∈ Base64.alphabet) :
    Base64.dropNewlines s = s := by
  have key : ∀ c ∈ Base64.alphabet, (c != 0x0a && c != 0x0d) = true := by
    decide +kernel
  exact List.filter_eq_self.mpr fun c hc ↦ key c (h c hc)

/-- A text that is long enough to be read as hexadecimal digits is too long to be the base64 of a
digest. -/
theorem decodeFingerprintHex_eq_none (h : decodeFingerprintBase64 s = some raw)
    (hlength : raw.length = 32) : decodeFingerprintHex s = none := by
  rw [Option.eq_none_iff_forall_ne_some]
  intro raw' hhex
  obtain ⟨hmem, hlen⟩ := decodeFingerprintHex_eq_some hhex
  have hraw := (decodeFingerprintBase64_eq_some h).2
  rw [dropNewlines_of_alphabet hmem, hlen, hlength] at hraw
  omega

theorem Spelled.notMem (h : Spelled s) {c : UInt8}
    (hc : c ∉ Base64.alphabet ∧ c ≠ 0x0a ∧ c ≠ 0x0d) : c ∉ s := by
  intro hmem
  rcases h c hmem with h | h | h
  · exact hc.1 h
  · exact hc.2.1 h
  · exact hc.2.2 h

theorem solid_of_mem_alphabet {c : UInt8} (h : c ∈ Base64.alphabet) : Strings.Solid c := by
  have key : ∀ c ∈ Base64.alphabet, 0x21 ≤ c ∧ c < 0x80 := by decide +kernel
  exact Strings.solid_of_visible (key c h).1 (key c h).2

/-- A hint that stands for a digest is a spelling, and not white space only. -/
theorem spelled_of_spelledDigest (h : spelledDigest s = some raw) :
    Spelled s ∧ ∃ c ∈ s, Strings.Solid c := by
  rcases spelledDigest_eq_some_iff.mp h with hhex | ⟨-, hbase, hlength⟩
  · obtain ⟨hmem, hlen⟩ := decodeFingerprintHex_eq_some hhex
    obtain ⟨c, hc⟩ := List.exists_mem_of_length_pos (l := s) (by omega)
    exact ⟨fun c hc ↦ .inl (hmem c hc), c, hc, solid_of_mem_alphabet (hmem c hc)⟩
  · obtain ⟨hspelled, hraw⟩ := decodeFingerprintBase64_eq_some hbase
    obtain ⟨c, hc⟩ := List.exists_mem_of_length_pos (l := Base64.dropNewlines s) (by omega)
    have halphabet := (Base64.decodeGroups_eq_some hbase).1 c hc
    exact ⟨hspelled, c, List.mem_of_mem_filter hc, solid_of_mem_alphabet halphabet⟩

/-! ## What stands around a spelling -/

/-- What may stand around the spelling of a digest. -/
structure Frame where
  before : GoString
  label : GoString
  pads : Nat
  after : GoString
  before_mem : before ∈ Strings.whiteSpace
  label_eq : label = [] ∨ label = str "SHA256:"
  after_mem : after ∈ Strings.whiteSpace

namespace Frame

/-- A spelling with a frame around it. -/
def around (frame : Frame) (s : GoString) : GoString :=
  frame.before ++ (frame.label ++ (s ++ List.replicate frame.pads Base64.padChar)) ++ frame.after

/-- Nothing around the spelling. -/
def bare : Frame where
  before := []
  label := []
  pads := 0
  after := []
  before_mem := Language.nil_mem_kstar _
  label_eq := .inl rfl
  after_mem := Language.nil_mem_kstar _

theorem around_bare (s : GoString) : bare.around s = s := by
  simp only [around, bare, List.replicate_zero, List.append_nil, List.nil_append]

/-- What is cut off a hint is a frame. -/
theorem exists_around_normalize (hint : GoString) :
    ∃ frame : Frame, frame.around (normalizeFingerprintInput hint) = hint := by
  obtain ⟨before, hbefore, after, hafter, hspace⟩ := Strings.exists_whiteSpace_trimSpace hint
  obtain ⟨pads, hpads⟩ := Strings.exists_trimRight_append
    (Strings.trimPrefix (Strings.trimSpace hint) (str "SHA256:")) Base64.padChar
  rcases Strings.trimPrefix_cases (Strings.trimSpace hint) (str "SHA256:") with hlabel | hlabel
  · refine ⟨⟨before, [], pads, after, hbefore, .inl rfl, hafter⟩, ?_⟩
    rw [around, normalizeFingerprintInput, hpads, hlabel, List.nil_append, hspace]
  · refine ⟨⟨before, str "SHA256:", pads, after, hbefore, .inr rfl, hafter⟩, ?_⟩
    rw [around, normalizeFingerprintInput, hpads, hlabel, hspace]

/-- Padding is cut off; where there is none, so is white space at the end. -/
theorem trimRight_trimRightSpace (hs : Base64.padChar ∉ s) (k : Nat) :
    Strings.trimRight (Strings.trimRightSpace (s ++ List.replicate k Base64.padChar))
      Base64.padChar = if k = 0 then Strings.trimRightSpace s else s := by
  cases k with
  | zero =>
      rw [List.replicate_zero, List.append_nil, if_pos rfl, Strings.trimRight_eq_self]
      exact fun h ↦ hs (Strings.mem_of_mem_trimRightSpace h)
  | succ k =>
      have hend : Strings.trimRightSpace (s ++ List.replicate (k + 1) Base64.padChar) =
          s ++ List.replicate (k + 1) Base64.padChar := by
        rw [List.replicate_succ', ← List.append_assoc]
        exact Strings.trimRightSpace_append_cons
          (Strings.solid_of_visible (by decide) (by decide)) _ []
      rw [hend, Strings.trimRight_append_replicate, Strings.trimRight_eq_self hs,
        if_neg (Nat.succ_ne_zero k)]

/-- Where the white space that can stand in a spelling does not count, the spelling is what is left
of a hint. -/
theorem filter_normalize_around (frame : Frame) (hs : Spelled s) (hsolid : ∃ c ∈ s, Strings.Solid c)
    {p : UInt8 → Bool} (hp : ∀ w ∈ Strings.spaces, (∀ c ∈ w, c ∈ s) → w.filter p = []) :
    (normalizeFingerprintInput (frame.around s)).filter p = s.filter p := by
  obtain ⟨c, hc, hsolid⟩ := hsolid
  have htrim := Strings.trimSpace_surround frame.before_mem frame.after_mem hsolid
    (List.mem_append_right frame.label
      (List.mem_append_left (List.replicate frame.pads Base64.padChar) hc))
  -- the end of what is left, where the front `t` has been trimmed or not
  have hend (t : GoString) (hsub : ∀ c ∈ t, c ∈ s) (ht : t.filter p = s.filter p) :
      (Strings.trimRight (Strings.trimRightSpace (t ++ List.replicate frame.pads Base64.padChar))
        Base64.padChar).filter p = s.filter p := by
    rw [trimRight_trimRightSpace fun h ↦ hs.notMem (by decide) (hsub _ h)]
    split
    · rw [Strings.filter_trimRightSpace, ht]
      exact fun w hw hmem ↦ hp w hw fun c hc ↦ hsub c (hmem c hc)
    · exact ht
  rw [normalizeFingerprintInput, around, htrim]
  rcases frame.label_eq with hlabel | hlabel
  · have hcolon : (0x3a : UInt8) ∉
        Strings.trimSpace (s ++ List.replicate frame.pads Base64.padChar) := by
      intro h
      rcases List.mem_append.mp (Strings.mem_of_mem_trimSpace h) with h | h
      · exact hs.notMem (by decide) h
      · cases List.eq_of_mem_replicate h
    rw [hlabel, List.nil_append, Strings.trimPrefix_eq_self (by decide) hcolon, Strings.trimSpace,
      Strings.trimLeftSpace_append_of_mem hsolid hc]
    exact hend _ (fun c hc ↦ Strings.mem_of_mem_trimLeftSpace hc) (Strings.filter_trimLeftSpace hp)
  · have hvisible : ∀ c ∈ str "SHA256:", Strings.Solid c := by decide +kernel
    rw [hlabel, Strings.trimSpace_append_of_solid (by decide) hvisible, Strings.trimPrefix_append]
    exact hend s (fun _ hc ↦ hc) rfl

/-- A hint stands for the digest that is spelled in it. -/
theorem spelledDigest_normalize_around (frame : Frame) (h : spelledDigest s = some raw) :
    spelledDigest (normalizeFingerprintInput (frame.around s)) = some raw := by
  obtain ⟨hspelled, hsolid⟩ := spelled_of_spelledDigest h
  rcases spelledDigest_eq_some_iff.mp h with hhex | ⟨-, hbase, hlength⟩
  · -- no white space stands between hexadecimal digits
    have hkeep := frame.filter_normalize_around hspelled hsolid (p := fun _ ↦ true) (by
      intro w hw hmem
      obtain ⟨c, hc⟩ := List.exists_mem_of_ne_nil w (Strings.isCode_spaces.ne_nil w hw)
      have halphabet := (decodeFingerprintHex_eq_some hhex).1 c (hmem c hc)
      exact absurd hc (solid_of_mem_alphabet halphabet w hw))
    rw [List.filter_true, List.filter_true] at hkeep
    rw [hkeep, h]
  · -- and base64 skips what stands between its digits
    have hdrop : Base64.dropNewlines (normalizeFingerprintInput (frame.around s)) =
        Base64.dropNewlines s := by
      refine frame.filter_normalize_around hspelled hsolid fun w hw hmem ↦ ?_
      rw [List.filter_eq_nil_iff]
      intro c hc
      rcases hspelled c (hmem c hc) with halphabet | rfl | rfl
      · exact absurd hc (solid_of_mem_alphabet halphabet w hw)
      · decide
      · decide
    have hbase' : decodeFingerprintBase64 (normalizeFingerprintInput (frame.around s)) =
        some raw := by
      rw [decodeFingerprintBase64, Base64.rawStdDecode, hdrop]
      exact hbase
    exact spelledDigest_eq_some_iff.mpr
      (.inr ⟨decodeFingerprintHex_eq_none hbase' hlength, hbase', hlength⟩)

end Frame

/-- A hint that stands for a digest still does when it is normalized once more. -/
theorem spelledDigest_normalize (h : spelledDigest s = some raw) :
    spelledDigest (normalizeFingerprintInput s) = some raw := by
  have hbare := Frame.bare.spelledDigest_normalize_around h
  rwa [Frame.around_bare] at hbare

/-! ## Digests and what denotes them -/

/-- A sum of SHA-256, a `[32]byte` of the source. -/
@[ext] structure Digest where
  bytes : Bytes
  length_bytes : bytes.length = 32

/-- The spellings of bytes. -/
inductive Spells (b : Bytes) : GoString → Prop
  /-- Hexadecimal digits that say the bits of the bytes. -/
  | hex {s : GoString} (h : bitsOfDigits 4 Hex.decodeDigit s = some (bitsOfBytes b)) : Spells b s
  /-- Base64 digits that say them, with line breaks anywhere.  Fewer bits than a digit has may be
  left over, whatever they are. -/
  | base64 {s : GoString} {left : List Bool}
      (h : bitsOfDigits 6 Base64.decodeDigit (Base64.dropNewlines s) = some (bitsOfBytes b ++ left))
      (hleft : left.length < 6) : Spells b s

/-- A hint denotes the digest that it spells in some frame. -/
def Denotes (hint : GoString) (digest : Digest) : Prop :=
  ∃ frame : Frame, ∃ s, Spells digest.bytes s ∧ frame.around s = hint

variable {hint : GoString} {digest : Digest}

theorem spells_iff : Spells digest.bytes s ↔ spelledDigest s = some digest.bytes := by
  rw [spelledDigest_eq_some_iff]
  constructor
  · rintro (h | ⟨h, hleft⟩)
    · have hdecode := Hex.decode_eq_some_iff.mpr h
      have hlength := (Hex.decode_eq_some hdecode).2
      rw [digest.length_bytes] at hlength
      exact .inl (decodeFingerprintHex_eq_some_iff.mpr ⟨hlength, hdecode, digest.length_bytes⟩)
    · have hdecode : decodeFingerprintBase64 s = some digest.bytes :=
        Base64.decodeGroups_eq_some_iff.mpr ⟨_, h, hleft⟩
      exact .inr ⟨decodeFingerprintHex_eq_none hdecode digest.length_bytes, hdecode,
        digest.length_bytes⟩
  · rintro (h | ⟨-, h, -⟩)
    · exact .hex (Hex.decode_eq_some_iff.mp (decodeFingerprintHex_eq_some_iff.mp h).2.1)
    · obtain ⟨left, hbits, hleft⟩ := Base64.decodeGroups_eq_some_iff.mp h
      exact .base64 hbits hleft

theorem length_of_spelledDigest (h : spelledDigest s = some raw) : raw.length = 32 := by
  rcases spelledDigest_eq_some_iff.mp h with h | ⟨-, -, h⟩
  · exact (decodeFingerprintHex_eq_some_iff.mp h).2.2
  · exact h

theorem denotes_iff :
    Denotes hint digest ↔
      spelledDigest (normalizeFingerprintInput hint) = some digest.bytes := by
  constructor
  · rintro ⟨frame, s, hs, rfl⟩
    exact frame.spelledDigest_normalize_around (spells_iff.mp hs)
  · intro h
    obtain ⟨frame, hframe⟩ := Frame.exists_around_normalize hint
    exact ⟨frame, _, spells_iff.mpr h, hframe⟩

/-- **What is accepted.**  `ParseFingerprintHint` accepts the hints that denote a digest, and
returns the base64 of the digest. -/
theorem parseFingerprintHint_eq_ok_iff_denotes :
    parseFingerprintHint hint = .ok fp ↔
      ∃ digest, Denotes hint digest ∧ fp = Base64.rawStdEncode digest.bytes := by
  rw [parseFingerprintHint_eq_ok_iff]
  constructor
  · rintro ⟨raw, hraw, rfl⟩
    exact ⟨⟨raw, length_of_spelledDigest hraw⟩, denotes_iff.mpr hraw, rfl⟩
  · rintro ⟨digest, hdenotes, rfl⟩
    exact ⟨digest.bytes, denotes_iff.mp hdenotes, rfl⟩

-- what stands behind `SHA256:` is not trimmed
example : parseFingerprintHint (str "SHA256: " ++ Base64.rawStdEncode (List.replicate 32 0)) =
    .error .invalidFingerprint := by decide +kernel

/-- A hint denotes one digest at most. -/
theorem Denotes.unique {digest' : Digest} (h : Denotes hint digest) (h' : Denotes hint digest') :
    digest = digest' :=
  Digest.ext (Option.some.inj ((denotes_iff.mp h).symm.trans (denotes_iff.mp h')))

/-- The base64 of a digest denotes it, in any frame. -/
theorem denotes_around_rawStdEncode (frame : Frame) (digest : Digest) :
    Denotes (frame.around (Base64.rawStdEncode digest.bytes)) digest := by
  refine ⟨frame, _, ?_, rfl⟩
  obtain ⟨left, hbits, hleft⟩ := Base64.decodeGroups_eq_some_iff.mp
    (Base64.rawStdDecode_rawStdEncode digest.bytes)
  exact .base64 hbits hleft

/-- So do its hexadecimal digits in either case. -/
theorem denotes_around_hex (frame : Frame) (h : s.map Hex.lower = Hex.encode digest.bytes) :
    Denotes (frame.around s) digest := by
  refine ⟨frame, s, .hex (Hex.decode_eq_some_iff.mp ?_), rfl⟩
  rw [← Hex.decode_map_lower, h, Hex.decode_encode]

/-! ## Canonical fingerprints -/

variable {Key Signer : Type} {crypto : Crypto} {ssh : Package Key Signer}

/-- **Hints are made canonical.**  What `ParseFingerprintHint` returns is the base64 of a digest, in
43 characters, and is returned unchanged when it is parsed itself.  An accepted hint denotes one
digest, and accepted hints have the same result just if they denote the same one.  For every key,
its fingerprint and the hexadecimal digits of its digest, in either case, are parsed to the
fingerprint, whatever white space and padding stand around them and whether or not `SHA256:` stands
in front.
That a sum has 32 bytes is what the type of `sha256.Sum256` says. -/
theorem parseFingerprintHint_canonical (hsha : ∀ b, (crypto.sha256 b).length = 32) :
    (∀ hint fp, parseFingerprintHint hint = .ok fp →
      (∃ digest : Digest, fp = Base64.rawStdEncode digest.bytes) ∧ fp.length = 43 ∧
        parseFingerprintHint fp = .ok fp) ∧
    (∀ hint hint' fp fp', parseFingerprintHint hint = .ok fp →
      parseFingerprintHint hint' = .ok fp' →
        (∃! digest, Denotes hint digest) ∧
        (fp = fp' ↔ ∃ digest, Denotes hint digest ∧ Denotes hint' digest)) ∧
    ∀ (pub : Key) (frame : Frame) (s : GoString),
      s = fingerprint crypto ssh pub ∨
        s.map Hex.lower = Hex.encode (crypto.sha256 (ssh.marshal pub)) →
      parseFingerprintHint (frame.around s) = .ok (fingerprint crypto ssh pub) := by
  refine ⟨?_, ?_, ?_⟩
  · intro hint fp h
    obtain ⟨digest, -, rfl⟩ := parseFingerprintHint_eq_ok_iff_denotes.mp h
    refine ⟨⟨digest, rfl⟩, ?_, ?_⟩
    · rw [Base64.length_rawStdEncode, digest.length_bytes]
    · have hself := denotes_around_rawStdEncode .bare digest
      rw [Frame.around_bare] at hself
      exact parseFingerprintHint_eq_ok_iff_denotes.mpr ⟨digest, hself, rfl⟩
  · intro hint hint' fp fp' h h'
    obtain ⟨digest, hdenotes, rfl⟩ := parseFingerprintHint_eq_ok_iff_denotes.mp h
    obtain ⟨digest', hdenotes', rfl⟩ := parseFingerprintHint_eq_ok_iff_denotes.mp h'
    refine ⟨⟨digest, hdenotes, fun _ hother ↦ hother.unique hdenotes⟩, ?_, ?_⟩
    · intro heq
      have hsame : digest = digest' := Digest.ext (Base64.rawStdEncode_injective heq)
      exact ⟨digest, hdenotes, hsame ▸ hdenotes'⟩
    · rintro ⟨common, hcommon, hcommon'⟩
      rw [hdenotes.unique hcommon, hdenotes'.unique hcommon']
  · intro pub frame s hs
    have hdenotes : Denotes (frame.around s) ⟨crypto.sha256 (ssh.marshal pub), hsha _⟩ := by
      rcases hs with rfl | hs
      · exact denotes_around_rawStdEncode frame _
      · exact denotes_around_hex frame hs
    exact parseFingerprintHint_eq_ok_iff_denotes.mpr ⟨_, hdenotes, rfl⟩

/-- Sums of 32 bytes: the first bytes of the input, and zeros where there are too few. -/
def paddingCrypto : Crypto :=
  { Crypto.plain with sha256 := fun b ↦ (b ++ List.replicate 32 0).take 32 }

theorem paddingCrypto_sha256_length (b : Bytes) : (paddingCrypto.sha256 b).length = 32 := by
  show ((b ++ List.replicate 32 0).take 32).length = 32
  rw [List.length_take, List.length_append, List.length_replicate]
  omega

/-- A tab in front, and padding, a no-break space and a line break behind. -/
def labelledFrame : Frame where
  before := [0x09]
  label := str "SHA256:"
  pads := 1
  after := [0xc2, 0xa0, 0x0a]
  before_mem := Strings.flatten_mem_whiteSpace [[0x09]] (by decide)
  label_eq := .inr rfl
  after_mem := Strings.flatten_mem_whiteSpace [[0xc2, 0xa0], [0x0a]] (by decide)

theorem parseFingerprintHint_canonical_mixedCase :
    let hex := str "ABcd" ++ List.replicate 60 0x30
    let fp := fingerprint paddingCrypto Package.plain [0xab, 0xcd]
    parseFingerprintHint (labelledFrame.around hex) = .ok fp ∧
      parseFingerprintHint fp = .ok fp ∧ ∃! digest, Denotes fp digest := by
  intro hex fp
  have hcanonical := @parseFingerprintHint_canonical Bytes Bytes paddingCrypto Package.plain
    paddingCrypto_sha256_length
  have hhex : parseFingerprintHint (labelledFrame.around hex) = .ok fp :=
    hcanonical.2.2 [0xab, 0xcd] labelledFrame hex (.inr (by decide +kernel))
  have hfp := (hcanonical.1 _ fp hhex).2.2
  exact ⟨hhex, hfp, (hcanonical.2.1 fp fp fp fp hfp hfp).1⟩

end LunaZTrust.Keystore
