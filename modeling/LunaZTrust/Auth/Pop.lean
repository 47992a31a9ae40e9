import LunaZTrust.Auth.Pipeline
import LunaZTrust.Go.Separators
import LunaZTrust.Go.Strconv

/-!
# What a proof of possession binds

The client signs `user:ip:timestamp` (`signPoP` of `sdk/sign/client.go`), and the proxy verifies
the signature over the challenge it builds from the request (`popChallenge` of
`proxy/internal/auth/pop.go`).  The timestamp has no colon, so it is always bound.  A user
and an address may have colons, and then a piece of the challenge can be read as the end of
the one or as the beginning of the other (`popChallenge_eq_iff`).
-/

namespace LunaZTrust.Auth

open LunaZTrust.Go LunaZTrust.Ssh

variable {Key Signer : Type} {ssh : Package Key Signer}

/-! ## The client -/

/-- An Ed25519 key of the client.  A signature it makes over one message does not verify over
another. -/
structure PopKey (ssh : Package Key Signer) where
  pub : Key
  /-- `ed25519.Sign(priv, message)`. -/
  sign : Bytes → Bytes
  verify_sign_iff : ∀ message signed,
    ssh.verify pub message { format := ssh.keyType pub, blob := sign signed } = true ↔
      message = signed

/-- `signPoP`. -/
def signPoP (key : PopKey ssh) (user ip : GoString) (ts : Int) : GoString :=
  Hex.encode (key.sign (user ++ str ":" ++ ip ++ str ":" ++ Strconv.formatInt ts))

/-- A key of the plain package. -/
def PopKey.plain : PopKey Package.plain where
  pub := []
  sign message := message
  verify_sign_iff message signed := by
    rw [Package.plain, decide_eq_true_eq]
    exact eq_comm

/-! ## The challenge -/

variable {user ip user' ip' : GoString} {ts ts' : Int}

theorem popChallenge_eq_append (user ip : GoString) (ts : Int) :
    popChallenge user ip ts = (user ++ 0x3a :: ip) ++ 0x3a :: Strconv.formatInt ts := by
  have hcolon : str ":" = [0x3a] := by decide
  rw [popChallenge, hcolon, List.append_assoc, List.append_assoc user, List.singleton_append,
    List.singleton_append]

/-- A piece that ends the one user begins the other address. -/
def Shifts (user ip user' ip' : GoString) : Prop :=
  ∃ piece, user' = user ++ 0x3a :: piece ∧ ip = piece ++ 0x3a :: ip'

/-- Which challenges are the same. -/
theorem popChallenge_eq_iff :
    popChallenge user ip ts = popChallenge user' ip' ts' ↔
      ts = ts' ∧
        (user = user' ∧ ip = ip' ∨ Shifts user ip user' ip' ∨ Shifts user' ip' user ip) := by
  rw [popChallenge_eq_append, popChallenge_eq_append,
    Separators.append_cons_inj_last (Strconv.colon_notMem_formatInt ts)
      (Strconv.colon_notMem_formatInt ts'),
    Separators.append_cons_eq_append_cons_iff, Strconv.formatInt_injective.eq_iff]
  exact and_comm

/-- If no user has a colon, or no address, the challenge says which ones they are. -/
theorem popChallenge_injective
    (hcolon : 0x3a ∉ user ∧ 0x3a ∉ user' ∨ 0x3a ∉ ip ∧ 0x3a ∉ ip')
    (h : popChallenge user ip ts = popChallenge user' ip' ts') :
    user = user' ∧ ip = ip' ∧ ts = ts' := by
  rw [popChallenge_eq_append, popChallenge_eq_append,
    Separators.append_cons_inj_last (Strconv.colon_notMem_formatInt ts)
      (Strconv.colon_notMem_formatInt ts')] at h
  obtain ⟨htarget, hts⟩ := h
  have heq : user = user' ∧ ip = ip' := by
    rcases hcolon with ⟨hu, hu'⟩ | ⟨hi, hi'⟩
    · exact (Separators.append_cons_inj_first hu hu').mp htarget
    · exact (Separators.append_cons_inj_last hi hi').mp htarget
  exact ⟨heq.1, heq.2, Strconv.formatInt_injective hts⟩

/-! ## The signature -/

/-- The proxy takes a signature for one over its own challenge if that is the one signed. -/
theorem verifyPoP_signPoP (key : PopKey ssh) :
    verifyPoP ssh key.pub user' ip' ts' (signPoP key user ip ts) = true ↔
      popChallenge user ip ts = popChallenge user' ip' ts' := by
  rw [verifyPoP, signPoP, Hex.decode_encode]
  exact (key.verify_sign_iff _ _).trans eq_comm

end LunaZTrust.Auth
