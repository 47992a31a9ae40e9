import LunaZTrust.Go.Bytes

/-!
# Cryptographic functions

The hash, MAC and signature functions of Go's `crypto` packages, as parameters.
No property of theirs is built in: a result that rests on one (that no two
inputs in play collide under SHA-256, say) has it as a hypothesis.
-/

namespace LunaZTrust.Go

/-- The functions of Go's `crypto` packages the proxy calls. -/
structure Crypto where
  /-- `sha256.Sum256`. -/
  sha256 : Bytes → Bytes
  /-- The sum of `hmac.New(sha256.New, key)` over the data. -/
  hmacSHA256 : Bytes → Bytes → Bytes
  /-- `ed25519.Verify(pub, message, sig)`. -/
  ed25519Verify : Bytes → Bytes → Bytes → Bool

/-- A TLS connection, as far as the proxy uses one: the keying material
`ExportKeyingMaterial` derives from it for a label and a length. -/
structure TLSConn where
  exportKeyingMaterial : GoString → Nat → Option Bytes

/-- Functions that keep their input as it is, so that nothing collides. -/
def Crypto.plain : Crypto where
  sha256 b := b
  hmacSHA256 _ b := b
  ed25519Verify _ message sig := sig = message

/-- A connection that exports the empty key. -/
def TLSConn.plain : TLSConn where
  exportKeyingMaterial _ _ := some []

end LunaZTrust.Go
