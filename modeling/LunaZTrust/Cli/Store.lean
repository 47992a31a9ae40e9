import LunaZTrust.Go.Bytes
import LunaZTrust.Go.Map
import LunaZTrust.Go.Time

/-!
# Enrolled command-line clients

`proxy/internal/cli/store.go` and `validate.go`: the workstations that may load keys
over the network, each known by the fingerprint of its client certificate.
-/

namespace LunaZTrust.Cli

open LunaZTrust.Go

/-- The errors of the package. -/
inductive CliError
  | notFound
  | emptyLabel
  | labelTooLong
  | duplicateFingerprint
  | csrInvalid
  | caNotConfigured
  | readCACert
  | parseCACert
  | readCAKey
  | parseCAKey
  | signCertificate
  | parseCertificate
deriving DecidableEq, Repr

/-- The texts of the errors; for those that wrap an error of a library, the text
in front of that. -/
def CliError.message : CliError → String
  | .notFound => "device not found"
  | .emptyLabel => "device label required"
  | .labelTooLong => "device label too long"
  | .duplicateFingerprint => "certificate fingerprint already enrolled"
  | .csrInvalid => "invalid certificate signing request"
  | .caNotConfigured => "mTLS CA certificate and key paths required"
  | .readCACert => "read mTLS CA cert: "
  | .parseCACert => "parse mTLS CA cert: "
  | .readCAKey => "read mTLS CA key: "
  | .parseCAKey => "parse mTLS CA key: "
  | .signCertificate => "sign certificate: "
  | .parseCertificate => "parse issued certificate: "

/-- `MaxLabelLen`. -/
def maxLabelLen : Nat := 128

/-- `ValidateLabel`. -/
def validateLabel (label : GoString) : Except CliError Unit :=
  if label = [] then .error .emptyLabel
  else if label.length > maxLabelLen then .error .labelTooLong
  else .ok ()

/-- `Device`. -/
structure Device where
  id : GoString
  label : GoString
  certFingerprint : GoString
  enrolledAt : Time
deriving DecidableEq, Repr

/-- The registry: the devices under their ids. -/
abbrev Store := Map GoString Device

namespace Store

/-- `List`, in some order. -/
def list (s : Store) : List Device := s.entries.map Sigma.snd

/-- `GetByFingerprint`, with the devices taken in some order. -/
def getByFingerprint (s : Store) (fp : GoString) : Option Device :=
  s.list.find? fun d ↦ d.certFingerprint == fp

/-- `Enroll`, with the id it draws and the instant it reads. -/
def enroll (s : Store) (label certFingerprint id : GoString) (now : Time) :
    Except CliError Device × Store :=
  match validateLabel label with
  | .error e => (.error e, s)
  | .ok () =>
      if s.list.any fun d ↦ d.certFingerprint == certFingerprint then
        (.error .duplicateFingerprint, s)
      else
        let dev : Device := ⟨id, label, certFingerprint, now⟩
        (.ok dev, s.insert id dev)

/-- `Delete`. -/
def delete (s : Store) (id : GoString) : Except CliError Unit × Store :=
  match AList.lookup id s with
  | none => (.error .notFound, s)
  | some _ => (.ok (), s.erase id)

end Store

end LunaZTrust.Cli
