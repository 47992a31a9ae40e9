import LunaZTrust.Cli.Csr

/-!
# The first download of the CA

`agent/internal/setup/bootstrap.go`: on first contact the agent cannot verify the proxy's
certificate, so `FetchCA` compares the file it gets with a fingerprint that the operator has given.
The file is written as it came, and `loadCAPool` later reads it with a loop of its own.

The comparison reads the first PEM block of the file; the loop reads all of them.  Since behind the
first block there is only white space, the loop finds that block and no other (`blocks_of_verify`),
so the agent trusts the certificate with the fingerprint, or none (`ca_pin_covers_pool`).
-/

namespace LunaZTrust.Agent.Setup

open LunaZTrust.Go LunaZTrust.Cli

/-! ## The libraries -/

/-- `pem.Block`. -/
structure Block where
  type : GoString
  headers : List (GoString × GoString)
  bytes : Bytes
deriving DecidableEq, Repr

/-- `encoding/pem`. -/
structure Pem where
  /-- `pem.Decode`: the next block and what follows it. -/
  decode : Bytes → Option (Block × Bytes)
  decode_shorter : ∀ {b block rest}, decode b = some (block, rest) → rest.length < b.length
  decode_space : ∀ {b}, Strings.trimSpace b = [] → decode b = none

/-- What the agent uses of the standard library to read certificates. -/
structure Library where
  pem : Pem
  /-- `x509.ParseCertificate`. -/
  parseCertificate : Bytes → Option Certificate
  /-- `sha256.Sum224`. -/
  sum224 : Bytes → Bytes
  /-- `strings.ToLower`. -/
  toLower : GoString → GoString

variable (lib : Library) (crypto : Crypto)

/-- The blocks that repeated calls of `pem.Decode` give. -/
def blocks (pem : Pem) (b : Bytes) : List Block :=
  match _h : pem.decode b with
  | none => []
  | some (block, rest) => block :: blocks pem rest
termination_by b.length
decreasing_by exact pem.decode_shorter _h

/-! ## Reading the file -/

/-- The certificates of an `x509.CertPool`. -/
abbrev CertPool := List Certificate

/-- `addCertFunc`: a certificate that is there is not added again. -/
def addCert (pool : CertPool) (cert : Certificate) : CertPool :=
  if pool.any fun c ↦ lib.sum224 c.raw == lib.sum224 cert.raw then pool else pool ++ [cert]

/-- A block in the loop of `AppendCertsFromPEM`: blocks that are no certificates, have headers or
do not parse are skipped. -/
def appendBlock (s : CertPool × Bool) (block : Block) : CertPool × Bool :=
  if block.type ≠ str "CERTIFICATE" ∨ block.headers ≠ [] then s
  else
    match lib.parseCertificate block.bytes with
    | none => s
    | some cert => (addCert lib s.1 cert, true)

/-- `AppendCertsFromPEM`: the pool, and whether a certificate was found. -/
def appendCertsFromPEM (pool : CertPool) (pemCerts : Bytes) : CertPool × Bool :=
  (blocks lib.pem pemCerts).foldl (appendBlock lib) (pool, false)

/-- The errors of `loadCAPool`. -/
inductive PoolError
  | readFile
  | parseCAPEM
deriving DecidableEq, Repr

/-- `loadCAPool`, on what `os.ReadFile` gives. -/
def loadCAPool (file : Option Bytes) : Except PoolError CertPool :=
  match file with
  | none => .error .readFile
  | some pemBytes =>
      let (pool, ok) := appendCertsFromPEM lib [] pemBytes
      if !ok then .error .parseCAPEM else .ok pool

/-! ## Fetching it -/

/-- The errors of `verifyCAFingerprint`. -/
inductive PinError
  | fingerprintRequired
  | parse
  | parseCertificate
  | mismatch (got : GoString)
deriving DecidableEq, Repr

/-- The texts of the errors, up to an error they wrap. -/
def PinError.message : PinError → GoString
  | .fingerprintRequired => str "CA fingerprint required for insecure first-contact download"
  | .parse => str "parse fetched CA certificate"
  | .parseCertificate => str "parse fetched CA certificate: "
  | .mismatch got => str "fetched CA fingerprint mismatch: got " ++ got

/-- The fingerprint in the form in which it is compared. -/
def normalizePin (expected : GoString) : GoString :=
  lib.toLower (Strings.replaceAll (Strings.trimSpace expected) 0x3a [])

/-- `verifyCAFingerprint`. -/
def verifyCAFingerprint (pemBytes : Bytes) (expected : GoString) : Except PinError Unit :=
  let expected := normalizePin lib expected
  if expected = [] then .error .fingerprintRequired
  else
    match lib.pem.decode pemBytes with
    | none => .error .parse
    | some (block, rest) =>
        if block.type ≠ str "CERTIFICATE" ∨ (Strings.trimSpace rest).length ≠ 0 then .error .parse
        else
          match lib.parseCertificate block.bytes with
          | none => .error .parseCertificate
          | some cert =>
              let got := Hex.encode (crypto.sha256 cert.raw)
              if got ≠ expected then .error (.mismatch got) else .ok ()

/-- `looksLikePEMCert`. -/
def looksLikePEMCert (pemBytes : Bytes) : Bool :=
  Strings.contains pemBytes (str "BEGIN CERTIFICATE")

/-- The response to the request for the CA. -/
structure Response where
  statusCode : Int
  body : Bytes
  bodyFails : Bool

/-- The options of `FetchCA` that decide about what it gets. -/
structure FetchOptions where
  caFingerprint : GoString
  insecureSkipVerify : Bool

/-- The errors of `FetchCA`. -/
inductive FetchError
  | request
  | readBody
  | status (code : Int)
  | notPEM
  | pin (e : PinError)
  | write
deriving DecidableEq, Repr

/-- `mtlsCAPath`. -/
def mtlsCAPath : GoString := str "/api/v1/mtls/ca"

/-- The texts of the errors, up to an error they wrap. -/
def FetchError.message : FetchError → GoString
  | .request => str "GET " ++ mtlsCAPath ++ str ": "
  | .status code => str "GET " ++ mtlsCAPath ++ str ": HTTP " ++ Strconv.formatInt code
  | .notPEM => str "GET " ++ mtlsCAPath ++ str ": response is not a PEM certificate"
  | .pin e => e.message
  | .readBody | .write => []

/-- What `io.LimitReader` lets through. -/
def maxCABody : Nat := 256 * 1024

/-- `FetchCA`: the bytes it writes to `ca.crt`.  There may be no response, and writing may
fail. -/
def fetchCA (opts : FetchOptions) (resp : Option Response) (writeFails : Bool) :
    Except FetchError Bytes :=
  match resp with
  | none => .error .request
  | some resp =>
      let body := resp.body.take maxCABody
      if resp.bodyFails ∧ resp.body.length < maxCABody then .error .readBody
      else if resp.statusCode ≠ 200 then .error (.status resp.statusCode)
      else if !looksLikePEMCert body then .error .notPEM
      else
        let pinned :=
          if opts.insecureSkipVerify then
            verifyCAFingerprint lib crypto body (Strings.trimSpace opts.caFingerprint)
          else .ok ()
        match pinned with
        | .error e => .error (.pin e)
        | .ok () => if writeFails then .error .write else .ok body

variable {lib crypto}

/-! ## What the pool is made of -/

theorem blocks_of_none {pem : Pem} {b : Bytes} (h : pem.decode b = none) : blocks pem b = [] := by
  rw [blocks]
  split
  · rfl
  · next h' => cases h.symm.trans h'

theorem blocks_of_some {pem : Pem} {b rest : Bytes} {block : Block}
    (h : pem.decode b = some (block, rest)) : blocks pem b = block :: blocks pem rest := by
  rw [blocks]
  split
  · next h' => cases h.symm.trans h'
  · next h' =>
      cases h.symm.trans h'
      rfl

/-- The block is one of a certificate, has no headers, and holds this one. -/
def Certifies (lib : Library) (block : Block) (cert : Certificate) : Prop :=
  block.type = str "CERTIFICATE" ∧ block.headers = [] ∧
    lib.parseCertificate block.bytes = some cert

theorem mem_addCert {pool : CertPool} {cert c : Certificate} (h : c ∈ addCert lib pool cert) :
    c ∈ pool ∨ c = cert := by
  rw [addCert] at h
  split at h
  · exact .inl h
  · exact (List.mem_append.mp h).imp_right List.mem_singleton.mp

/-- **Step.**  A block adds at most the certificate it holds. -/
theorem mem_appendBlock {s : CertPool × Bool} {block : Block} {c : Certificate}
    (h : c ∈ (appendBlock lib s block).1) : c ∈ s.1 ∨ Certifies lib block c := by
  rw [appendBlock] at h
  split at h
  · exact .inl h
  next hskip =>
  obtain ⟨htype, hheaders⟩ := not_or.mp hskip
  split at h
  · exact .inl h
  · next cert hcert =>
      refine (mem_addCert h).imp_right ?_
      rintro rfl
      exact ⟨not_not.mp htype, not_not.mp hheaders, hcert⟩

/-- **Run.**  What the loop adds comes from the blocks. -/
theorem mem_foldl_appendBlock {bs : List Block} {s : CertPool × Bool} {c : Certificate}
    (h : c ∈ (bs.foldl (appendBlock lib) s).1) : c ∈ s.1 ∨ ∃ block ∈ bs, Certifies lib block c := by
  induction bs generalizing s with
  | nil => exact .inl h
  | cons block bs ih =>
      rcases ih h with h | ⟨block', hmem, hc⟩
      · refine (mem_appendBlock h).imp_right fun hc ↦ ?_
        exact ⟨block, List.mem_cons_self, hc⟩
      · exact .inr ⟨block', List.mem_cons_of_mem _ hmem, hc⟩

/-- A certificate of the pool stands in a block of the file. -/
theorem certifies_of_loadCAPool {file : Bytes} {pool : CertPool} {c : Certificate}
    (h : loadCAPool lib (some file) = .ok pool) (hc : c ∈ pool) :
    ∃ block ∈ blocks lib.pem file, Certifies lib block c := by
  have hpool : (appendCertsFromPEM lib [] file).1 = pool := by
    rw [loadCAPool] at h
    dsimp only at h
    split at h
    · cases h
    · exact Except.ok.inj h
  rw [← hpool, appendCertsFromPEM] at hc
  exact (mem_foldl_appendBlock hc).resolve_left List.not_mem_nil

/-! ## What the pin covers -/

/-- What `verifyCAFingerprint` has checked. -/
theorem verifyCAFingerprint_eq_ok {body : Bytes} {expected : GoString}
    (h : verifyCAFingerprint lib crypto body expected = .ok ()) :
    ∃ block rest cert, lib.pem.decode body = some (block, rest) ∧ Strings.trimSpace rest = [] ∧
      lib.parseCertificate block.bytes = some cert ∧
      Hex.encode (crypto.sha256 cert.raw) = normalizePin lib expected := by
  rw [verifyCAFingerprint] at h
  dsimp only at h
  split at h
  · cases h
  split at h
  · cases h
  next block rest hdecode =>
  split at h
  · cases h
  next hchecks =>
  split at h
  · cases h
  next cert hcert =>
  split at h
  · cases h
  next hsum =>
  have hrest := not_not.mp (not_or.mp hchecks).2
  exact ⟨block, rest, cert, hdecode, List.length_eq_zero_iff.mp hrest, hcert, not_not.mp hsum⟩

/-- Behind a block with nothing but white space after it there is no other. -/
theorem blocks_of_verify {pem : Pem} {body rest : Bytes} {block : Block}
    (hdecode : pem.decode body = some (block, rest)) (hrest : Strings.trimSpace rest = []) :
    blocks pem body = [block] := by
  rw [blocks_of_some hdecode, blocks_of_none (pem.decode_space hrest)]

/-- What `FetchCA` writes on first contact has passed the comparison. -/
theorem verify_of_fetchCA {opts : FetchOptions} {resp : Option Response} {writeFails : Bool}
    {written : Bytes} (h : fetchCA lib crypto opts resp writeFails = .ok written)
    (hopts : opts.insecureSkipVerify = true) :
    verifyCAFingerprint lib crypto written (Strings.trimSpace opts.caFingerprint) = .ok () := by
  rw [fetchCA.eq_def] at h
  split at h
  · cases h
  dsimp only at h
  rw [if_pos hopts] at h
  split at h
  · cases h
  split at h
  · cases h
  split at h
  · cases h
  split at h
  · cases h
  next hverify =>
  split at h
  · cases h
  · cases h
    exact hverify

/-- **The pin covers everything that becomes trusted.**  If the comparison succeeds, then the pool
that is later built from the same bytes has no certificate but the one whose SHA-256 is the
fingerprint. -/
theorem ca_pin_covers_pool {body : Bytes} {expected : GoString}
    (h : verifyCAFingerprint lib crypto body expected = .ok ()) :
    ∃ cert, Hex.encode (crypto.sha256 cert.raw) =
        lib.toLower (Strings.replaceAll (Strings.trimSpace expected) 0x3a []) ∧
      ∀ pool, loadCAPool lib (some body) = .ok pool → ∀ c ∈ pool, c = cert := by
  obtain ⟨block, rest, cert, hdecode, hrest, hcert, hsum⟩ := verifyCAFingerprint_eq_ok h
  refine ⟨cert, hsum, fun pool hpool c hc ↦ ?_⟩
  -- the loop finds the block that was compared, and no other
  obtain ⟨block', hmem, -, -, hparse⟩ := certifies_of_loadCAPool hpool hc
  rw [blocks_of_verify hdecode hrest, List.mem_singleton] at hmem
  rw [hmem, hcert] at hparse
  exact (Option.some.inj hparse).symm

/-- A toy PEM: a zero byte begins a certificate, which goes on to the end of the file. -/
def toyPem : Pem where
  decode
    | 0 :: bytes => some (⟨str "CERTIFICATE", [], bytes⟩, [])
    | _ => none
  decode_shorter := by
    intro b block rest h
    split at h
    · cases h
      exact Nat.succ_pos _
    · cases h
  decode_space := by
    intro b hb
    -- a zero is no white space
    have hkeep : (Strings.trimSpace b).filter (· == 0) = b.filter (· == 0) := by
      refine Strings.filter_trimSpace fun w hw _ ↦ ?_
      have hzero : ∀ w ∈ Strings.spaces, w.filter (· == 0) = [] := by decide +kernel
      exact hzero w hw
    rw [hb, List.filter_nil] at hkeep
    split
    · cases hkeep
    · rfl

/-- Certificates are their own encoding. -/
def toyLibrary : Library where
  pem := toyPem
  parseCertificate b := some ⟨b, ⟨[], []⟩⟩
  sum224 b := b
  toLower s := s

/-- The one certificate of a file with the right fingerprint becomes trusted. -/
theorem ca_pin_covers_pool_toy :
    verifyCAFingerprint toyLibrary .plain [0, 1, 2] (str " 01:02 ") = .ok () ∧
      loadCAPool toyLibrary (some [0, 1, 2]) = .ok [⟨[1, 2], ⟨[], []⟩⟩] ∧
      ∃ cert, Hex.encode (Crypto.plain.sha256 cert.raw) = str "0102" ∧
        ∀ pool, loadCAPool toyLibrary (some [0, 1, 2]) = .ok pool → ∀ c ∈ pool, c = cert := by
  have hverify : verifyCAFingerprint toyLibrary .plain [0, 1, 2] (str " 01:02 ") = .ok () := by
    decide
  have hblocks : blocks toyLibrary.pem [0, 1, 2] = [⟨str "CERTIFICATE", [], [1, 2]⟩] :=
    blocks_of_verify rfl rfl
  refine ⟨hverify, ?_, ca_pin_covers_pool hverify⟩
  rw [loadCAPool, appendCertsFromPEM, hblocks]
  rfl

end LunaZTrust.Agent.Setup
