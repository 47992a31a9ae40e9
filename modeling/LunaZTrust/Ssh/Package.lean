import LunaZTrust.Ssh.Wire

/-!
# What the proxy takes from `golang.org/x/crypto/ssh`

The package is not part of the repository, so its functions are parameters of
the model, collected in `Package`.  Nothing is assumed about them except for
`Unmarshal`, which reads a struct as `decode` does: its fields in order, each
a length-prefixed string or a single byte, an `sshtype` tag looked at on the
first field only, and trailing bytes refused when no `rest` field takes them.
-/

namespace LunaZTrust.Ssh

open LunaZTrust.Go

/-- `ssh.Signature`. -/
structure Signature where
  format : GoString
  blob : Bytes
  rest : Bytes := []
deriving DecidableEq, Repr

/-- The fields of an `ssh.Certificate` that the proxy fills in.  `sourceAddress`
is the value of the critical option `source-address`, if it is set. -/
structure Certificate (Key : Type) where
  key : Key
  serial : Nat
  keyId : GoString
  validPrincipals : List GoString
  validAfter : Nat
  validBefore : Nat
  sourceAddress : Option GoString

/-- What `ssh.ParseRawPrivateKeyWithPassphrase` can return, up to the type
switch the proxy makes on it: an Ed25519 key, with the signer that
`ssh.NewSignerFromKey` makes of it if it makes one, or a key of another type. -/
inductive RawPrivateKey (Signer : Type)
  | ed25519 (signer : Option Signer)
  | unsupported

/-- The functions of the package, for public keys of type `Key` and signers
(private keys) of type `Signer`.  A function that returns an error returns
`none` or `false` here. -/
structure Package (Key Signer : Type) where
  /-- `PublicKey.Marshal`. -/
  marshal : Key → Bytes
  /-- `PublicKey.Type`. -/
  keyType : Key → GoString
  /-- `ParsePublicKey`. -/
  parsePublicKey : Bytes → Option Key
  /-- `ParseAuthorizedKey`. -/
  parseAuthorizedKey : Bytes → Option Key
  /-- `PublicKey.Verify`: whether the signature is one over the data. -/
  verify : Key → Bytes → Signature → Bool
  /-- `Unmarshal`. -/
  unmarshal : List Field → Bytes → Option (List Value)
  /-- `Unmarshal` reads a struct field by field. -/
  unmarshal_eq_decode : ∀ fs b, unmarshal fs b = decode fs b
  /-- `Signer.PublicKey`. -/
  publicKey : Signer → Key
  /-- `Signer.Sign`, with the random bytes it draws. -/
  sign : Signer → Bytes → Bytes → Option Signature
  /-- `Certificate.SignCert` followed by `MarshalAuthorizedKey`, with the
  random bytes drawn. -/
  signCert : Signer → Bytes → Certificate Key → Option GoString
  /-- `ParseRawPrivateKeyWithPassphrase`. -/
  parseRawPrivateKeyWithPassphrase : Bytes → Bytes → Option (RawPrivateKey Signer)

/-- A package whose keys are their own wire form and their own private key,
whose signatures are the data signed, and which reads structs as assumed. -/
def Package.plain : Package Bytes Bytes where
  marshal k := k
  keyType _ := str "plain"
  parsePublicKey b := some b
  parseAuthorizedKey b := some b
  verify _ data sig := sig.blob = data
  unmarshal := decode
  unmarshal_eq_decode _ _ := rfl
  publicKey s := s
  sign _ _ data := some { format := str "plain", blob := data }
  signCert _ _ cert := some cert.key
  parseRawPrivateKeyWithPassphrase pem _ := some (.ed25519 (some pem))

end LunaZTrust.Ssh
