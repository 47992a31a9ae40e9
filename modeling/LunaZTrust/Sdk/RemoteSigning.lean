import LunaZTrust.Proxy.Credentials
import LunaZTrust.Sdk.SignRequest

/-!
# Signing at a distance

The agent has no private key for the identities it lists.  `RequestSignature` of
`sdk/sign/signature.go` sends the data to the proxy, waits, and makes a signature of what comes
back, without a look at it.  That the result verifies under the identity is up to the whole
way: the form of the request, its reading, the approval or the lease, the pool of keys at the
time, and the answer.

Here the two models are put together.  `signsHosted_of_returned` says that a run of the proxy
does what the agent relies on, and `remote_signature_verifies` what the agent then returns.
-/

namespace LunaZTrust.Sdk

open LunaZTrust.Go LunaZTrust.Ssh LunaZTrust.Auth LunaZTrust.Keystore LunaZTrust.Approval
open LunaZTrust.Api LunaZTrust.Proxy LunaZTrust.Transition
open LunaZTrust.Agent (SignatureRequest Exchange SignsHosted Ed25519 agentKeyFromPublic)

variable {Key Signer : Type} {crypto : Crypto} {ssh : Package Key Signer} {lib : Api.Library}
  {cfg : Proxy.Config} {now : Time} {as : List Proxy.Action} {s : Proxy.System Signer}
  {log : List Proxy.Event}

/-- What the proxy reads from a request of the client that has opened a transaction. -/
theorem opened_eq_received
    (hrun : (Proxy.machine crypto ssh lib cfg now).exec as = some (s, log)) {req : Request}
    {body : Bytes} (hjson : lib.unmarshalSignRequest body = some req.received)
    {session : TLSSession} {peerCertificates : List Bytes} {remoteAddr : GoString}
    {r : HttpRequest}
    (hpost : postSignOnce crypto session peerCertificates remoteAddr body = some r) {id : TxID}
    {c : Nat} {signReq : SignRequest} {input : SignInput}
    (hopen : Opened log id c r signReq input) :
    signReq = { req.received with bodyMAC := r.bodyMAC } := by
  obtain ⟨⟨-, rawBody, conn, hread⟩, -⟩ := exec_opened_input hrun hopen
  obtain ⟨hlarge, hok, -⟩ := readSignRequest_postSignOnce hjson hpost
  by_cases hsize : r.body.length ≤ maxSignRequestBody
  · cases (hok hsize).symm.trans hread
    rfl
  · obtain ⟨e, he⟩ := hlarge (Nat.lt_of_not_le hsize)
    cases he.symm.trans hread

section Returned

variable (hmode : cfg.approval.signerMode = .localKey)
  (hrun : (Proxy.machine crypto ssh lib cfg now).exec as = some (s, log)) {pub : Key}
  (hsha : (crypto.sha256 (ssh.marshal pub)).length = 32) {sdk : Library Key} {key : PopKey ssh}
  {sent : Time} {client : ClientInfo} {sigReq : SignatureRequest}
  (hfp : sigReq.hostKeyFingerprint = fingerprint crypto ssh pub) {data : Bytes} {req : Request}
  (hreq : req = signatureBody sdk key sent client sigReq data)
  (hjson : lib.unmarshalSignRequest (sdk.marshal req) = some req.received)
  {session : TLSSession} {peerCertificates : List Bytes} {remoteAddr : GoString} {r : HttpRequest}
  (hpost : postSignOnce crypto session peerCertificates remoteAddr (sdk.marshal req) = some r)
  {id : TxID} {c₀ : Nat} {signReq : SignRequest} {input : SignInput}
  (hopen : Opened log id c₀ r signReq input) {c : Nat} {res : Result}
  (hret : .store (.returned c id res) ∈ log) {t : Time} {resp : Api.WaitResponse}
  (hresp : waitReply t res = .ok resp) {x : Exchange Signer}
  (hx : x.reply = some ⟨resp.sshCertificate, resp.sshSignature⟩)

include hmode hrun hsha hfp hreq hjson hpost hopen hret hresp hx

/-- The proxy answers the request with a signature by a hosted key of the fingerprint asked for. -/
theorem signsHosted_of_returned :
    SignsHosted crypto ssh (hostedKeys crypto ssh lib cfg now as) sigReq data x := by
  obtain ⟨herr, -, hsignature⟩ := waitReply_eq_ok hresp
  obtain ⟨-, ⟨ks, hresolved⟩, -⟩ := exec_opened_input hrun hopen
  obtain ⟨signer, rand, data', sig, hhosted, hname, hdata, hsign, hblob⟩ :=
    exec_signature hmode hrun hret herr hopen
  have hreceived := opened_eq_received hrun hjson hpost hopen
  -- the hint has stood for itself, and the data is what was to be signed
  have hinput : input.hostKeyFP = fingerprint crypto ssh pub := by
    have hresolve : resolveHostKey crypto ssh cfg.approval ks signReq =
        some (fingerprint crypto ssh pub) :=
      resolveHostKey_publicKeyFingerprint hmode hsha (by rw [hreceived]; rfl)
        (by rw [hreceived, hreq]; exact hfp) ks
    exact Option.some.inj (hresolved.symm.trans hresolve)
  obtain rfl : data' = data := by
    rw [hreceived, hreq] at hdata
    exact Option.some.inj (hdata.symm.trans (Base64.stdDecode_stdEncode data))
  rw [hinput] at hname
  rintro wait hwait
  cases hx.symm.trans hwait
  refine ⟨signer, rand, sig, hhosted, ?_, hsign, ?_⟩
  · rw [hfp, ← hname]
    exact normalizeFingerprintInput_publicKeyFingerprint crypto (ssh.marshal pub)
  · rw [hsignature, hblob, Base64.stdDecode_stdEncode]

end Returned

/-! ## A run -/

/-- The hosted key, whose digest under `prefixingCrypto` is of the right length. -/
def remoteKey : Bytes := List.replicate 31 7

/-- A key of the client. -/
def remotePopKey : PopKey Agent.plainEd25519 where
  pub := [2]
  sign message := [2] ++ message
  verify_sign_iff _ _ :=
    decide_eq_true_iff.trans ((List.append_right_inj [2]).trans eq_comm)

/-- The data to be signed to log in as `deploy` in the session 1. -/
def remoteData : Bytes := { deployPayload with publicKey := ⟨remoteKey, by decide⟩ }.encode 1

/-- What the agent asks for, in that session of the host with key 9. -/
def remoteSignatureRequest : SignatureRequest :=
  deployAgent.signatureRequest prefixingCrypto
    (some (agentKeyFromPublic Agent.plainEd25519 remoteKey))
    ⟨[9], [1], [0, 0, 0, 0, 0, 0, 0, 2, 9, 1], false⟩

/-- The body of the request, sent at second 1000. -/
def remoteRequest : Request :=
  signatureBody plainSdk remotePopKey (1000 * Time.second) ⟨[], [], []⟩ remoteSignatureRequest
    remoteData

/-- A library that decodes every body to that request. -/
def remoteLibrary : Api.Library :=
  { plainLibrary with unmarshalSignRequest := fun _ ↦ some remoteRequest.received }

/-- The proxy. -/
def remoteProxy : Machine (Proxy.System Bytes) Proxy.Action Proxy.Event :=
  Proxy.machine prefixingCrypto Agent.plainEd25519 remoteLibrary hostedConfig (1000 * Time.second)

/-- The key is loaded, the request comes in, and the user approves. -/
def remoteRun : List Proxy.Action :=
  .loadPEM remoteKey [] [] ⟨true, true, true⟩ 0 :: .sign deployHttpRequest :: approvedRun.drop 2

/-- What the wait returns. -/
def remoteResult : Result where
  signature := Base64.stdEncode (remoteKey ++ remoteData)
  expiresAt := 1300 * Time.second
  leaseExpiresAt := 1300 * Time.second

end LunaZTrust.Sdk
