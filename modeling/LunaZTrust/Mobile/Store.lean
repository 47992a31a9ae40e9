import LunaZTrust.Go.Encoding
import LunaZTrust.Go.Map
import LunaZTrust.Go.Time

/-!
# Enrolled devices

`proxy/internal/mobile/store.go`: the devices that may approve, each with the public
key its approvals are signed with and the client certificate it connects with.
-/

namespace LunaZTrust.Mobile

open LunaZTrust.Go

/-- The errors of the registry. -/
inductive MobileError
  | notFound
  | invalidKey
  | emptyLabel
deriving DecidableEq, Repr

/-- The texts of the errors. -/
def MobileError.message : MobileError → String
  | .notFound => "device not found"
  | .invalidKey => "invalid device public key"
  | .emptyLabel => "device label required"

/-- `Device`. -/
structure Device where
  id : GoString
  label : GoString
  pubKey : Bytes
  certFingerprint : GoString
  enrolledAt : Time
deriving DecidableEq, Repr

/-- The registry: the devices under their ids. -/
abbrev Store := Map GoString Device

/-- `ed25519.PublicKeySize`. -/
def publicKeySize : Nat := 32

namespace Store

/-- `EnrollBound`, with the id it draws. -/
def enrollBound (s : Store) (label devicePubKeyB64 certFingerprint id : GoString) (now : Time) :
    Except MobileError Device × Store :=
  if label = [] then (.error .emptyLabel, s)
  else
    match Base64.stdDecode devicePubKeyB64 with
    | none => (.error .invalidKey, s)
    | some raw =>
        if raw.length ≠ publicKeySize then (.error .invalidKey, s)
        else
          let dev : Device := ⟨id, label, raw, certFingerprint, now⟩
          (.ok dev, s.insert id dev)

/-- `Get`. -/
def get (s : Store) (id : GoString) : Option Device := AList.lookup id s

/-- `Delete`. -/
def delete (s : Store) (id : GoString) : Except MobileError Unit × Store :=
  match AList.lookup id s with
  | none => (.error .notFound, s)
  | some _ => (.ok (), s.erase id)

end Store

end LunaZTrust.Mobile
