import LunaZTrust.Auth.Replay
import LunaZTrust.Auth.SessionBinding

/-!
# The request checks

`proxy/internal/auth/pipeline.go`, `hmac.go`, `pop.go` and `meta.go`: what a
sign request and a key-load request have to pass.  Both begin with the same
three checks (`checkFresh`): the MAC of the body under a key of the TLS session,
the timestamp window, and the replay cache.  A sign request then has to prove
possession of its public key and to be free of control characters.

The caller reads the clock for the timestamp window (`now`) and `AddIfNew`
reads it again (`seenAt`).
-/

namespace LunaZTrust.Auth

open LunaZTrust.Go LunaZTrust.Ssh

variable {Key Signer : Type} (crypto : Crypto) (ssh : Package Key Signer)

/-- The ways a request can be refused. -/
inductive AuthError
  | exportKeyingMaterial
  | invalidHMAC
  | timestampOutsideWindow
  | replay
  | publicKey
  | invalidPoP
  | invalidDisplayField
deriving DecidableEq, Repr

/-- The texts of the errors; for the two that wrap an error of a library, the
text in front of that. -/
def AuthError.message : AuthError → String
  | .exportKeyingMaterial => ""
  | .invalidHMAC => "invalid body HMAC"
  | .timestampOutsideWindow => "timestamp outside allowed window"
  | .replay => "replay detected"
  | .publicKey => "public_key: "
  | .invalidPoP => "invalid proof of possession"
  | .invalidDisplayField => "display field contains control characters"

/-- `SignRequest`, the body of `POST /api/v1/ssh/sign` and its MAC header. -/
structure SignRequest where
  publicKey : GoString
  targetUser : GoString
  targetIP : GoString
  timestamp : Int
  popSignature : GoString
  agentSignData : GoString
  hostPublicKey : GoString
  hostKeyFingerprint : GoString
  sourceUser : GoString
  clientName : GoString
  clientVersion : GoString
  sessionBinding : SessionBinding
  destinationHostPublicKey : GoString
  bodyMAC : GoString
deriving DecidableEq, Repr

/-! ## The MAC of the body -/

/-- `exporterLabel`. -/
def exporterLabel : GoString := str "luna-request-hmac"

/-- `computeBodyHMAC`. -/
def computeBodyHMAC (conn : TLSConn) (body : Bytes) : Option Bytes :=
  (conn.exportKeyingMaterial exporterLabel 32).map fun key ↦ crypto.hmacSHA256 key body

/-- `VerifyBodyHMAC`. -/
def verifyBodyHMAC (conn : TLSConn) (body : Bytes) (headerHex : GoString) :
    Except AuthError Unit :=
  match computeBodyHMAC crypto conn body with
  | none => .error .exportKeyingMaterial
  | some expected =>
      match Hex.decode headerHex with
      | none => .error .invalidHMAC
      | some provided => if provided ≠ expected then .error .invalidHMAC else .ok ()

/-! ## The timestamp window -/

/-- `timestampWindowSec`. -/
def timestampWindowSec : Int := 30

/-- `ValidateTimestampAt`, in `int64` arithmetic. -/
def validateTimestampAt (ts : Int) (now : Time) (windowSec : Int) : Except AuthError Unit :=
  let ref := Time.unix now
  let delta := wrap64 (ref - ts)
  let delta := if delta < 0 then wrap64 (-delta) else delta
  if delta > windowSec then .error .timestampOutsideWindow else .ok ()

/-- What `ValidateTimestampAt` accepts. -/
theorem validateTimestampAt_eq_ok_iff_natAbs {ts : Int} {now : Time} {windowSec : Int}
    (hts : IsInt64 ts) (hnow : IsInt64 (Time.unix now)) (hpos : 0 ≤ windowSec)
    (hwindow : IsInt64 windowSec) :
    validateTimestampAt ts now windowSec = .ok () ↔
      (Time.unix now - ts).natAbs ≤ windowSec ∨ (Time.unix now - ts).natAbs = 2 ^ 63 ∨
        2 ^ 64 - windowSec ≤ (Time.unix now - ts).natAbs := by
  have hcases := wrap64_sub_cases hnow hts
  have herr : ¬(Except.error AuthError.timestampOutsideWindow = Except.ok ()) := fun h ↦ by cases h
  rw [validateTimestampAt, ite_eq_right_iff, imp_iff_not herr, Int.not_gt_eq,
    wrap64_neg (isInt64_wrap64 _)]
  rw [IsInt64] at *
  rcases hcases with ⟨hsmall, hdelta⟩ | ⟨hbig, hdelta⟩ | ⟨hbig, hdelta⟩ <;> rw [hdelta]
  -- the difference is an `int64`; it can be the least one
  · split
    · split <;> omega
    · omega
  -- it is too big, so what is left of it is negative, and the least one if it is `2 ^ 63`
  · split
    · split <;> omega
    · omega
  -- it is too small, so what is left of it is positive
  · split
    · split <;> omega
    · omega

/-! ## Proof of possession -/

/-- `popChallenge`: `user:ip:timestamp`. -/
def popChallenge (user ip : GoString) (ts : Int) : Bytes :=
  user ++ str ":" ++ ip ++ str ":" ++ Strconv.formatInt ts

/-- `VerifyPoP`. -/
def verifyPoP (pub : Key) (user ip : GoString) (ts : Int) (sigHex : GoString) : Bool :=
  match Hex.decode sigHex with
  | none => false
  | some blob =>
      ssh.verify pub (popChallenge user ip ts) { format := ssh.keyType pub, blob := blob }

/-! ## Display fields -/

/-- `maxSourceUserLen`. -/
def maxSourceUserLen : Nat := 64

/-- `maxClientNameLen`. -/
def maxClientNameLen : Nat := 64

/-- `maxClientVersionLen`. -/
def maxClientVersionLen : Nat := 32

/-- `SignClientMeta`. -/
structure SignClientMeta where
  sourceUser : GoString
  clientName : GoString
  clientVersion : GoString
deriving DecidableEq, Repr

/-- `trimMetaField`. -/
def trimMetaField (s : GoString) (max : Nat) : GoString := (Strings.trimSpace s).take max

/-- `NormalizeSignClientMeta`. -/
def normalizeSignClientMeta (sourceUser clientName clientVersion : GoString) : SignClientMeta where
  sourceUser := trimMetaField sourceUser maxSourceUserLen
  clientName := trimMetaField clientName maxClientNameLen
  clientVersion := trimMetaField clientVersion maxClientVersionLen

/-- `checkDisplayField`: no control characters.  A control character is one byte
in UTF-8 and no other character contains such a byte. -/
def checkDisplayField (field : GoString) : Except AuthError Unit :=
  if field.any fun c ↦ decide (c < 0x20) || c == 0x7f then .error .invalidDisplayField else .ok ()

/-- `ValidateDisplayFields`. -/
def validateDisplayFields (targetUser targetIP : GoString) (m : SignClientMeta) :
    Except AuthError Unit := do
  checkDisplayField targetUser
  checkDisplayField targetIP
  checkDisplayField m.sourceUser
  checkDisplayField m.clientName
  checkDisplayField m.clientVersion

/-! ## The two pipelines -/

/-- The checks that come before the replay cache. -/
def checkBody (conn : TLSConn) (rawBody : Bytes) (bodyMAC : GoString) (timestamp : Int)
    (now : Time) : Except AuthError Unit := do
  verifyBodyHMAC crypto conn rawBody bodyMAC
  validateTimestampAt timestamp now timestampWindowSec

/-- The three checks both pipelines begin with. -/
def checkFresh (conn : TLSConn) (rawBody : Bytes) (bodyMAC : GoString) (timestamp : Int)
    (now seenAt : Time) (replay : ReplayLRU) : Except AuthError Unit × ReplayLRU :=
  match checkBody crypto conn rawBody bodyMAC timestamp now with
  | .error e => (.error e, replay)
  | .ok () =>
      let (isNew, replay) := replay.addIfNew seenAt (crypto.sha256 rawBody)
      (if isNew then .ok () else .error .replay, replay)

/-- The checks of a sign request that come after the replay cache. -/
def checkRequest (req : SignRequest) : Except AuthError Unit :=
  match ssh.parseAuthorizedKey req.publicKey with
  | none => .error .publicKey
  | some pub =>
      if !verifyPoP ssh pub req.targetUser req.targetIP req.timestamp req.popSignature then
        .error .invalidPoP
      else
        validateDisplayFields req.targetUser req.targetIP
          (normalizeSignClientMeta req.sourceUser req.clientName req.clientVersion)

/-- `ValidateCLIKeysLoad`. -/
def validateCLIKeysLoad (conn : TLSConn) (rawBody : Bytes) (bodyMAC : GoString) (timestamp : Int)
    (now seenAt : Time) (replay : ReplayLRU) : Except AuthError Unit × ReplayLRU :=
  checkFresh crypto conn rawBody bodyMAC timestamp now seenAt replay

/-- `ValidateSignRequest`. -/
def validateSignRequest (conn : TLSConn) (rawBody : Bytes) (req : SignRequest)
    (now seenAt : Time) (replay : ReplayLRU) : Except AuthError Unit × ReplayLRU :=
  match checkFresh crypto conn rawBody req.bodyMAC req.timestamp now seenAt replay with
  | (.error e, replay) => (.error e, replay)
  | (.ok (), replay) => (checkRequest ssh req, replay)

end LunaZTrust.Auth
