import LunaZTrust.Agent.Identities
import LunaZTrust.Go.Map
import LunaZTrust.Transition.Machine

/-!
# Signing in the agent

`agent/agent.go` and `agent/session_bind.go`, with what they call of the SDK: `RequestCertificate`
and `RequestSignature` of `sdk/sign`, and `NewCertSigner`.  A client asks the agent for its
identities, binds its connection to a session and has data signed for one of the
identities.

In local-key mode the proxy is asked for a signature of the hosted key that has the
fingerprint of the identity.  In the other mode the agent asks for a certificate of a new
key and signs with that, whichever identity was named.  So what it returns is a signature of the
identity in the one mode, and in the other only if the new key happens to be the
identity's (`signature_verifies_iff`).
-/

namespace LunaZTrust.Agent

open LunaZTrust.Go LunaZTrust.Ssh LunaZTrust.Keystore LunaZTrust.Transition

variable {Key Signer : Type}

/-! ## The client -/

/-- `SessionBinding`. -/
structure SessionBinding where
  hostPublicKey : Bytes := []
  sessionID : Bytes := []
  signature : Bytes := []
  forwarding : Bool := false
deriving DecidableEq, Repr

/-- `SignatureRequest`. -/
structure SignatureRequest where
  targetUser : GoString
  targetIP : GoString
  hostKeyFingerprint : GoString
  sessionBinding : SessionBinding
  destinationHostPublicKey : Bytes := []
  signatureFormat : GoString := []

/-- `WaitResponse`, as far as the client reads it. -/
structure WaitResponse where
  sshCertificate : GoString := []
  sshSignature : GoString := []
deriving DecidableEq, Repr

/-- What a request of the client meets with: the key it generates, what the proxy answers in the
end, if it does, and the random bytes that signing draws. -/
structure Exchange (Signer : Type) where
  priv : Option Signer
  reply : Option WaitResponse
  rand : Bytes
deriving DecidableEq, Repr

/-- The errors of signing. -/
inductive AgentError
  | locked
  | sessionBindRequired
  | targetRequired
  | signDataRequired
  | bindingIncomplete
  | bindingRequired
  | bindingExclusive
  | bindingForwarded
  | generateKey
  /-- Those of `postSign` and `getWait`. -/
  | proxy
  | emptyCertificate
  | parseCertificate
  | notCertificate
  | emptySignature
  | decodeSignature
  /-- Those of `ssh.NewCertSigner`. -/
  | certSigner
  /-- Those of `Signer.Sign`. -/
  | sign
deriving DecidableEq, Repr

/-- The texts of the errors; for those that wrap another error, the text in front of that. -/
def AgentError.message : AgentError → String
  | .locked => "agent locked"
  | .sessionBindRequired => "session-bind@openssh.com required for local-key signing"
  | .targetRequired => "TargetUser and TargetIP are required"
  | .signDataRequired => "signData is required"
  | .bindingIncomplete => "SessionBinding is incomplete"
  | .bindingRequired => "SessionBinding or DestinationHostPublicKey is required"
  | .bindingExclusive => "SessionBinding and DestinationHostPublicKey are mutually exclusive"
  | .bindingForwarded => "forwarded SessionBinding is not allowed"
  | .generateKey => "generate key: "
  | .proxy => ""
  | .emptyCertificate => "empty ssh_certificate in wait response"
  | .parseCertificate => "parse ssh certificate: "
  | .notCertificate => "authorized key is not an SSH certificate"
  | .emptySignature => "empty ssh_signature in wait response"
  | .decodeSignature => "decode ssh_signature: invalid base64"
  | .certSigner => ""
  | .sign => ""

section Client

variable (ssh : Package Key Signer) (parseAuthorizedKey : GoString → Option (Key ⊕ Certificate Key))

/-- `parseCertificate`, with what `ssh.ParseAuthorizedKey` reads: a key or a certificate. -/
def parseCertificate (line : GoString) : Except AgentError (Certificate Key) :=
  match parseAuthorizedKey line with
  | none => .error .parseCertificate
  | some (.inl _) => .error .notCertificate
  | some (.inr cert) => .ok cert

/-- `RequestCertificate`. -/
def requestCertificate (targetUser targetIP : GoString) (x : Exchange Signer) :
    Except AgentError (Certificate Key × Signer) :=
  if targetUser = [] ∨ targetIP = [] then .error .targetRequired
  else
    match x.priv with
    | none => .error .generateKey
    | some priv =>
        match x.reply with
        | none => .error .proxy
        | some wait =>
            if wait.sshCertificate = [] then .error .emptyCertificate
            else
              match parseCertificate parseAuthorizedKey wait.sshCertificate with
              | .error e => .error e
              | .ok cert => .ok (cert, priv)

/-- `sessionBindingFields`. -/
def SessionBinding.fields (b : SessionBinding) : Nat :=
  [b.hostPublicKey, b.sessionID, b.signature].countP (· != [])

/-- `RequestSignature`. -/
def requestSignature (req : SignatureRequest) (signData : Bytes) (x : Exchange Signer) :
    Except AgentError Signature :=
  if req.targetUser = [] ∨ req.targetIP = [] then .error .targetRequired
  else if signData = [] then .error .signDataRequired
  else if req.sessionBinding.fields ≠ 0 ∧ req.sessionBinding.fields ≠ 3 then
    .error .bindingIncomplete
  else if req.sessionBinding.fields ≠ 3 ∧ req.destinationHostPublicKey = [] then
    .error .bindingRequired
  else if req.sessionBinding.fields = 3 ∧ req.destinationHostPublicKey ≠ [] then
    .error .bindingExclusive
  else if req.sessionBinding.forwarding then .error .bindingForwarded
  else
    match x.priv with
    | none => .error .generateKey
    | some priv =>
        match x.reply with
        | none => .error .proxy
        | some wait =>
            if wait.sshSignature = [] then .error .emptySignature
            else
              match Base64.stdDecode wait.sshSignature with
              | none => .error .decodeSignature
              | some blob =>
                  .ok
                    { format :=
                        if req.signatureFormat = [] then ssh.keyType (ssh.publicKey priv)
                        else req.signatureFormat
                      blob := blob }

/-- `NewCertSigner`: the signer, which has to be that of the certificate's key. -/
def newCertSigner (cert : Certificate Key) (priv : Signer) : Except AgentError Signer :=
  if ssh.marshal cert.key = ssh.marshal (ssh.publicKey priv) then .ok priv else .error .certSigner

end Client

/-! ## The agent -/

/-- `LunaAgent`, with the mode its provider answers with. -/
structure LunaAgent where
  providerMode : GoString
  signerMode : GoString
  targetUser : GoString
  targetHost : GoString
  hostKeyFingerprint : GoString
  identities : List AgentKey
  locked : Bool := false
deriving DecidableEq, Repr

/-- `NewLunaAgent`. -/
def newLunaAgent (providerMode : GoString) (cfg : Config) (identities : List AgentKey) :
    LunaAgent where
  providerMode := providerMode
  signerMode := if cfg.signerMode = [] then signerModeLocalCA else cfg.signerMode
  targetUser := cfg.targetUser
  targetHost := cfg.targetHost
  hostKeyFingerprint := cfg.hostKeyFingerprint
  identities := identities

namespace LunaAgent

variable (crypto : Crypto) (ssh : Package Key Signer)
  (parseAuthorizedKey : GoString → Option (Key ⊕ Certificate Key)) (a : LunaAgent)

/-- `Lock` and `Unlock`. -/
def setLocked (locked : Bool) : LunaAgent := { a with locked := locked }

/-- `List`. -/
def list : List AgentKey := if a.locked then [] else a.identities

/-- The mode `signWithBinding` signs in. -/
def mode : GoString := if a.providerMode ≠ [] then a.providerMode else a.signerMode

/-- The request of `signWithBinding` in local-key mode. -/
def signatureRequest (pub : Option AgentKey) (binding : SessionBinding) : SignatureRequest where
  targetUser := a.targetUser
  targetIP := a.targetHost
  hostKeyFingerprint :=
    match pub with
    | none => a.hostKeyFingerprint
    | some pub => publicKeyFingerprint crypto pub.blob
  sessionBinding := binding

/-- `signWithBinding`. -/
def signWithBinding (pub : Option AgentKey) (data : Bytes) (binding : SessionBinding)
    (x : Exchange Signer) : Except AgentError Signature :=
  if a.locked then .error .locked
  else if a.mode = signerModeLocalKey then
    if binding.hostPublicKey = [] ∨ binding.sessionID = [] ∨ binding.signature = [] then
      .error .sessionBindRequired
    else requestSignature ssh (a.signatureRequest crypto pub binding) data x
  else
    match requestCertificate parseAuthorizedKey a.targetUser a.targetHost x with
    | .error e => .error e
    | .ok (cert, priv) =>
        match newCertSigner ssh cert priv with
        | .error e => .error e
        | .ok signer =>
            match ssh.sign signer x.rand data with
            | none => .error .sign
            | some sig => .ok sig

end LunaAgent

/-- `sessionBindExtension`. -/
def sessionBindExtension : GoString := str "session-bind@openssh.com"

/-- `Extension`: the binding it leaves, or none if it returns an error. -/
def extension (ssh : Package Key Signer) (extensionType : GoString) (contents : Bytes) :
    Option SessionBinding :=
  if extensionType ≠ sessionBindExtension then none
  else
    match ssh.unmarshal [{ kind := .string }, { kind := .string }, { kind := .string },
        { kind := .bool }] contents with
    | some [.bytes hostPublicKey, .bytes sessionID, .bytes signature, .bool forwarding] =>
        if forwarding then none
        else
          match ssh.parsePublicKey hostPublicKey,
              ssh.unmarshal [{ kind := .string }, { kind := .string }, { kind := .rest }]
                signature with
          | some hostKey, some [.bytes format, .bytes blob, .bytes rest] =>
              if ssh.verify hostKey sessionID ⟨format, blob, rest⟩ then
                some { hostPublicKey, sessionID, signature }
              else none
          | _, _ => none
    | _ => none

/-! ## The connections

A connection keeps its binding to itself and shares the agent with the others.  `SignWithFlags`
reads the binding before it waits for the agent, so that between the two anything may happen;
from there on the agent is held until the signature is there. -/

/-- A call of `SignWithFlags` that has read the binding of its connection. -/
structure Call where
  pub : Option AgentKey
  data : Bytes
  binding : SessionBinding
deriving DecidableEq, Repr

/-- The agent, the bindings of its connections and the calls that wait for it. -/
structure System where
  agent : LunaAgent
  bindings : Map Nat SessionBinding
  calls : Map Nat Call

/-- What the clients do. -/
inductive Action (Signer : Type)
  | lock
  | unlock
  | list
  | extension (conn : Nat) (extensionType : GoString) (contents : Bytes)
  | signWithFlags (id conn : Nat) (pub : Option AgentKey) (data : Bytes)
  | signWithBinding (id : Nat) (x : Exchange Signer)

/-- What they are answered. -/
inductive Event (Signer : Type)
  | listed (keys : List AgentKey)
  | signed (call : Call) (x : Exchange Signer) (sig : Signature)
  | refused (call : Call) (e : AgentError)
deriving DecidableEq, Repr

section Machine

variable (crypto : Crypto) (ssh : Package Key Signer)
  (parseAuthorizedKey : GoString → Option (Key ⊕ Certificate Key))

/-- One step of a connection. -/
def System.step (s : System) : Action Signer → Option (System × List (Event Signer))
  | .lock => some ({ s with agent := s.agent.setLocked true }, [])
  | .unlock => some ({ s with agent := s.agent.setLocked false }, [])
  | .list => some (s, [.listed s.agent.list])
  | .extension conn extensionType contents =>
      match extension ssh extensionType contents with
      | none => some (s, [])
      | some binding => some ({ s with bindings := s.bindings.insert conn binding }, [])
  | .signWithFlags id conn pub data =>
      match s.calls.lookup id with
      | some _ => none
      | none =>
          -- a connection that was never bound has the zero `SessionBinding`
          let binding := (s.bindings.lookup conn).getD {}
          some ({ s with calls := s.calls.insert id ⟨pub, data, binding⟩ }, [])
  | .signWithBinding id x =>
      match s.calls.lookup id with
      | none => none
      | some call =>
          let s' := { s with calls := s.calls.erase id }
          match s.agent.signWithBinding crypto ssh parseAuthorizedKey call.pub call.data
              call.binding x with
          | .error e => some (s', [.refused call e])
          | .ok sig => some (s', [.signed call x sig])

/-- The agent with its connections, from its start on. -/
def machine (a : LunaAgent) : Machine System (Action Signer) (Event Signer) where
  start := ⟨a, ∅, ∅⟩
  step := System.step crypto ssh parseAuthorizedKey

end Machine

/-! ## What is signed

**One call.** -/

section Calls

variable {crypto : Crypto} {ssh : Package Key Signer}
  {parseAuthorizedKey : GoString → Option (Key ⊕ Certificate Key)}

theorem requestCertificate_priv {targetUser targetIP : GoString} {x : Exchange Signer}
    {cert : Certificate Key} {priv : Signer}
    (h : requestCertificate parseAuthorizedKey targetUser targetIP x = .ok (cert, priv)) :
    x.priv = some priv := by
  rw [requestCertificate] at h
  split at h
  · exact nomatch h
  split at h
  · exact nomatch h
  next hpriv =>
    split at h
    · exact nomatch h
    split at h
    · exact nomatch h
    split at h
    · exact nomatch h
    cases h
    exact hpriv

/-- A signature the client is given is the one in the proxy's answer, under the type of the key
it generated. -/
theorem requestSignature_eq {req : SignatureRequest} {data : Bytes} {x : Exchange Signer}
    {sig : Signature} (hformat : req.signatureFormat = [])
    (h : requestSignature ssh req data x = .ok sig) :
    ∃ priv wait blob, x.reply = some wait ∧ Base64.stdDecode wait.sshSignature = some blob ∧
      sig = ⟨ssh.keyType (ssh.publicKey priv), blob, []⟩ := by
  rw [requestSignature] at h
  split at h
  · exact nomatch h
  split at h
  · exact nomatch h
  split at h
  · exact nomatch h
  split at h
  · exact nomatch h
  split at h
  · exact nomatch h
  split at h
  · exact nomatch h
  split at h
  · exact nomatch h
  next priv _ =>
    split at h
    · exact nomatch h
    next wait hreply =>
      split at h
      · exact nomatch h
      split at h
      · exact nomatch h
      next blob hblob =>
        cases h
        exact ⟨priv, wait, blob, hreply, hblob, rfl⟩

/-- **A signature is from the proxy or made with the key that was generated for it**, depending
on the mode. -/
theorem LunaAgent.signWithBinding_cases {a : LunaAgent} {pub : Option AgentKey} {data : Bytes}
    {binding : SessionBinding} {x : Exchange Signer} {sig : Signature}
    (h : a.signWithBinding crypto ssh parseAuthorizedKey pub data binding x = .ok sig) :
    a.locked = false ∧
      (a.mode = signerModeLocalKey ∧
          requestSignature ssh (a.signatureRequest crypto pub binding) data x = .ok sig ∨
        a.mode ≠ signerModeLocalKey ∧
          ∃ priv, x.priv = some priv ∧ ssh.sign priv x.rand data = some sig) := by
  rw [signWithBinding] at h
  split at h
  · exact nomatch h
  next hlocked =>
    refine ⟨Bool.eq_false_of_not_eq_true hlocked, ?_⟩
    split at h
    · next hmode =>
        split at h
        · exact nomatch h
        exact .inl ⟨hmode, h⟩
    · next hmode =>
        split at h
        · exact nomatch h
        next cert priv hcert =>
          refine .inr ⟨hmode, priv, requestCertificate_priv hcert, ?_⟩
          rw [newCertSigner] at h
          split at h
          · exact nomatch h
          next signer hsigner =>
            obtain ⟨-, hsigner⟩ | ⟨-, hsigner⟩ := ite_eq_iff.mp hsigner
            · cases hsigner
              split at h
              · exact nomatch h
              next hsign =>
                cases h
                exact hsign
            · exact nomatch hsigner

end Calls

/-! **A run.**  Apart from the lock the agent stays as it was made, so each answer of the run is
one that the agent would give at its start. -/

section Runs

variable {crypto : Crypto} {ssh : Package Key Signer}
  {parseAuthorizedKey : GoString → Option (Key ⊕ Certificate Key)} {a : LunaAgent}

variable (crypto ssh parseAuthorizedKey a) in
/-- What an answer says about the agent. -/
def Event.Judged : Event Signer → Prop
  | .listed keys => keys ⊆ a.identities
  | .signed call x sig =>
      (a.setLocked false).signWithBinding crypto ssh parseAuthorizedKey call.pub call.data
        call.binding x = .ok sig
  | .refused _ _ => True

theorem LunaAgent.setLocked_setLocked (a : LunaAgent) (locked locked' : Bool) :
    (a.setLocked locked).setLocked locked' = a.setLocked locked' := rfl

theorem LunaAgent.list_subset (a : LunaAgent) : a.list ⊆ a.identities := by
  rw [list]
  split
  · exact List.nil_subset _
  · exact List.Subset.refl _

/-- **Step.** -/
theorem System.step_judged {s s' : System} {act : Action Signer} {es : List (Event Signer)}
    {locked : Bool} (hs : s.agent = a.setLocked locked)
    (h : s.step crypto ssh parseAuthorizedKey act = some (s', es)) :
    (∃ locked', s'.agent = a.setLocked locked') ∧
      ∀ e ∈ es, e.Judged crypto ssh parseAuthorizedKey a := by
  cases act with
  | lock =>
      cases h
      refine ⟨⟨true, ?_⟩, fun e he ↦ nomatch he⟩
      rw [hs, LunaAgent.setLocked_setLocked]
  | unlock =>
      cases h
      refine ⟨⟨false, ?_⟩, fun e he ↦ nomatch he⟩
      rw [hs, LunaAgent.setLocked_setLocked]
  | list =>
      cases h
      refine ⟨⟨locked, hs⟩, fun e he ↦ ?_⟩
      rw [List.mem_singleton.mp he, hs]
      exact LunaAgent.list_subset (a.setLocked locked)
  | extension conn extensionType contents =>
      rw [step] at h
      split at h <;> cases h <;> exact ⟨⟨locked, hs⟩, fun e he ↦ nomatch he⟩
  | signWithFlags id conn pub data =>
      rw [step] at h
      split at h
      · exact nomatch h
      · cases h
        exact ⟨⟨locked, hs⟩, fun e he ↦ nomatch he⟩
  | signWithBinding id x =>
      rw [step] at h
      split at h
      · exact nomatch h
      next call _ =>
        dsimp only at h
        split at h
        · cases h
          refine ⟨⟨locked, hs⟩, fun e he ↦ ?_⟩
          rw [List.mem_singleton.mp he]
          trivial
        · next sig hsig =>
            cases h
            refine ⟨⟨locked, hs⟩, fun e he ↦ ?_⟩
            rw [List.mem_singleton.mp he]
            rw [hs] at hsig
            -- a locked agent signs nothing
            obtain rfl : locked = false := (LunaAgent.signWithBinding_cases hsig).1
            exact hsig

/-- **Run.** -/
theorem exec_judged {as : List (Action Signer)} {s : System} {log : List (Event Signer)}
    (ha : a.locked = false)
    (hrun : (machine crypto ssh parseAuthorizedKey a).exec as = some (s, log)) :
    ∀ e ∈ log, e.Judged crypto ssh parseAuthorizedKey a := by
  refine ((machine crypto ssh parseAuthorizedKey a).exec_induction
    (P := fun s log ↦ (∃ locked, s.agent = a.setLocked locked) ∧
      ∀ e ∈ log, e.Judged crypto ssh parseAuthorizedKey a) ?_ ?_ hrun).2
  · exact ⟨⟨false, by rw [← ha]; rfl⟩, fun e he ↦ nomatch he⟩
  · rintro s log act s' es ⟨⟨locked, hs⟩, hlog⟩ hstep
    obtain ⟨hs', hes⟩ := System.step_judged hs hstep
    refine ⟨hs', fun e he ↦ ?_⟩
    rcases List.mem_append.mp he with he | he
    · exact hlog e he
    · exact hes e he

end Runs

/-! ## Under which key it verifies -/

section Verification

variable (crypto : Crypto) (ssh : Package Key Signer)

/-- `ssh.KeyAlgoED25519`. -/
def keyAlgoED25519 : GoString := str "ssh-ed25519"

/-- What is taken for granted of the package: a public key can be read back, all private keys are
Ed25519, as those are that the agent generates and the proxy loads, and a signature verifies under
the public key of the private key that made it and under no other. -/
structure Ed25519 : Prop where
  parse_marshal : ∀ pub, ssh.parsePublicKey (ssh.marshal pub) = some pub
  keyType_publicKey : ∀ signer, ssh.keyType (ssh.publicKey signer) = keyAlgoED25519
  sign_eq : ∀ signer rand data sig, ssh.sign signer rand data = some sig →
    sig = ⟨keyAlgoED25519, sig.blob, []⟩
  verify_iff : ∀ signer rand data sig, ssh.sign signer rand data = some sig →
    ∀ pub, ssh.verify pub data sig = true ↔ pub = ssh.publicKey signer

/-- The proxy answers a request with a signature by a hosted key of the fingerprint asked for. -/
def SignsHosted (S : Set Bytes) (req : SignatureRequest) (data : Bytes) (x : Exchange Signer) :
    Prop :=
  ∀ wait ∈ x.reply, ∃ hosted rand sig,
    ssh.marshal (ssh.publicKey hosted) ∈ S ∧
    fingerprint crypto ssh (ssh.publicKey hosted) = req.hostKeyFingerprint ∧
    ssh.sign hosted rand data = some sig ∧ Base64.stdDecode wait.sshSignature = some sig.blob

variable {crypto ssh}

theorem Ed25519.verify_agentKey (hssh : Ed25519 ssh) (pub : Key) (data : Bytes) (sig : Signature) :
    (agentKeyFromPublic ssh pub).verify ssh data sig = ssh.verify pub data sig := by
  rw [AgentKey.verify, agentKeyFromPublic, hssh.parse_marshal]

theorem Ed25519.eq_iff_marshal_eq (hssh : Ed25519 ssh) {pub pub' : Key} :
    pub = pub' ↔ ssh.marshal pub' = ssh.marshal pub := by
  constructor
  · rintro rfl
    rfl
  · intro h
    have hparse := hssh.parse_marshal pub'
    rw [h, hssh.parse_marshal] at hparse
    exact Option.some.inj hparse

/-- A signature from the proxy is one of the key whose fingerprint was asked for. -/
theorem Ed25519.verify_requestSignature (hssh : Ed25519 ssh) {S : Set Bytes}
    (hS : Set.InjOn crypto.sha256 S) {req : SignatureRequest} {data : Bytes} {x : Exchange Signer}
    {sig : Signature} {pub : Key} (hpub : ssh.marshal pub ∈ S) (hformat : req.signatureFormat = [])
    (hfp : req.hostKeyFingerprint = fingerprint crypto ssh pub)
    (hproxy : SignsHosted crypto ssh S req data x)
    (h : requestSignature ssh req data x = .ok sig) : ssh.verify pub data sig = true := by
  obtain ⟨priv, wait, blob, hreply, hblob, rfl⟩ := requestSignature_eq hformat h
  obtain ⟨hosted, rand, sig, hhosted, hfp', hsign, hblob'⟩ := hproxy wait hreply
  -- the format the client fills in is that of the hosted key
  have hsig : sig = ⟨ssh.keyType (ssh.publicKey priv), blob, []⟩ := by
    rw [hssh.keyType_publicKey, Option.some.inj (hblob.symm.trans hblob')]
    exact hssh.sign_eq hosted rand data sig hsign
  rw [← hsig, hssh.verify_iff hosted rand data sig hsign, hssh.eq_iff_marshal_eq]
  exact marshal_eq_of_fingerprint_eq crypto ssh hS hhosted hpub (hfp'.trans hfp)

variable {parseAuthorizedKey : GoString → Option (Key ⊕ Certificate Key)}

/-- **When a signature verifies under the identity it was asked for.**  In every run of the agent,
for an identity it has listed: in local-key mode always, and otherwise exactly if the key that was
generated for the signature is the one generated for the identity. -/
theorem signature_verifies_iff (hssh : Ed25519 ssh) {S : Set Bytes}
    (hS : Set.InjOn crypto.sha256 S) {caps : Option Capabilities} {clientMode : GoString}
    {cfg : Config} {readFile : GoString → Option Bytes} {startPriv : Option Signer}
    {identities : List AgentKey}
    (hids : resolveIdentities crypto ssh caps clientMode cfg readFile startPriv = .ok identities)
    (hmem : ∀ key ∈ identities, key.blob ∈ S) {providerMode : GoString} {a : LunaAgent}
    (ha : a = newLunaAgent providerMode cfg identities)
    {as : List (Action Signer)} {s : System} {log : List (Event Signer)}
    (hrun : (machine crypto ssh parseAuthorizedKey a).exec as = some (s, log))
    (hproxy : a.mode = signerModeLocalKey → ∀ call x sig, Event.signed call x sig ∈ log →
      SignsHosted crypto ssh S (a.signatureRequest crypto call.pub call.binding) call.data x)
    {keys : List AgentKey} {pub : AgentKey} (hlisted : Event.listed keys ∈ log) (hpub : pub ∈ keys)
    {call : Call} {x : Exchange Signer} {sig : Signature} (hcall : call.pub = some pub)
    (hsigned : Event.signed call x sig ∈ log) :
    pub.verify ssh call.data sig = true ↔
      a.mode = signerModeLocalKey ∨
        ∃ priv, x.priv = some priv ∧ ssh.marshal (ssh.publicKey priv) = pub.blob := by
  have hjudged := exec_judged (by rw [ha]; rfl) hrun
  have hid : pub ∈ identities := by
    have hsub : keys ⊆ a.identities := hjudged _ hlisted
    rw [ha] at hsub
    exact hsub hpub
  have hS' := hmem pub hid
  obtain ⟨key, rfl⟩ := resolveIdentities_mem hids hid
  rw [hssh.verify_agentKey]
  obtain ⟨-, ⟨hmode, hsign⟩ | ⟨hmode, priv, hpriv, hsign⟩⟩ :=
    LunaAgent.signWithBinding_cases (hjudged _ hsigned)
  · refine iff_of_true ?_ (.inl hmode)
    refine hssh.verify_requestSignature hS hS' rfl ?_ (hproxy hmode call x sig hsigned) hsign
    rw [hcall]
    rfl
  · rw [hssh.verify_iff priv x.rand call.data sig hsign, hssh.eq_iff_marshal_eq]
    constructor
    · exact fun h ↦ .inr ⟨priv, hpriv, h⟩
    · rintro (h | ⟨priv', hpriv', h⟩)
      · exact absurd h hmode
      · cases hpriv.symm.trans hpriv'
        exact h

end Verification

/-! ## Two runs -/

/-- A package whose keys are their own wire form and their own private key, and whose signatures
are the key before the data. -/
def plainEd25519 : Package Bytes Bytes :=
  { Package.plain with
    keyType := fun _ ↦ keyAlgoED25519
    verify := fun pub data sig ↦ sig.blob = pub ++ data
    sign := fun signer _ data ↦ some ⟨keyAlgoED25519, signer ++ data, []⟩ }

theorem plainEd25519_ed25519 : Ed25519 plainEd25519 where
  parse_marshal _ := rfl
  keyType_publicKey _ := rfl
  sign_eq := by
    rintro signer rand data sig h
    cases h
    rfl
  verify_iff := by
    rintro signer rand data sig h pub
    cases h
    exact decide_eq_true_iff.trans ((List.append_left_inj data).trans eq_comm)

/-- Lines are certificates of the key they hold. -/
def readCertificate (line : GoString) : Option (Bytes ⊕ Certificate Bytes) :=
  some (.inr ⟨line, 0, [], [], 0, 0, none⟩)

/-- An agent for one user on one host. -/
def plainConfig (signerMode : GoString) : Config :=
  ⟨str "root", str "10.0.0.1", signerMode, [], []⟩

/-- The identity that a key is offered as. -/
def plainIdentity (pub : Bytes) : AgentKey := ⟨keyAlgoED25519, pub⟩

/-- The proxy has the key `k` loaded. -/
def hostedCapabilities : Capabilities :=
  ⟨signerModeLocalKey, false, [⟨[], str "k"⟩]⟩

/-- A session of the host with key 9, whose identifier is 5. -/
def sessionContents : Bytes :=
  [0, 0, 0, 1, 9, 0, 0, 0, 1, 5, 0, 0, 0, 10, 0, 0, 0, 0, 0, 0, 0, 2, 9, 5, 0]

/-- The binding to it. -/
def sessionBinding : SessionBinding := ⟨[9], [5], [0, 0, 0, 0, 0, 0, 0, 2, 9, 5], false⟩

/-- A client binds its connection and has data signed for an identity. -/
def signingRun (pub : Bytes) (x : Exchange Bytes) : List (Action Bytes) :=
  [.list, .extension 0 sessionBindExtension sessionContents,
    .signWithFlags 0 0 (some (plainIdentity pub)) [3], .signWithBinding 0 x]

/-- What it is told: the identity, and the signature. -/
def signingLog (pub : Bytes) (x : Exchange Bytes) (signer : Bytes) : List (Event Bytes) :=
  [.listed [plainIdentity pub],
    .signed ⟨some (plainIdentity pub), [3], sessionBinding⟩ x ⟨keyAlgoED25519, signer ++ [3], []⟩]

/-- The proxy answers with a signature of the hosted key. -/
def hostedExchange : Exchange Bytes :=
  ⟨some [2], some { sshSignature := Base64.stdEncode (str "k" ++ [3]) }, []⟩

/-- The agent in local-key mode. -/
def hostedAgent : LunaAgent :=
  newLunaAgent signerModeLocalKey (plainConfig signerModeLocalKey) [plainIdentity (str "k")]

theorem signature_verifies_iff_hosted :
    ∃ s, (machine Crypto.plain plainEd25519 readCertificate hostedAgent).exec
        (signingRun (str "k") hostedExchange) =
          some (s, signingLog (str "k") hostedExchange (str "k")) ∧
      (plainIdentity (str "k")).verify plainEd25519 [3] ⟨keyAlgoED25519, str "k" ++ [3], []⟩ =
        true := by
  have hlog : ((machine Crypto.plain plainEd25519 readCertificate hostedAgent).exec
      (signingRun (str "k") hostedExchange)).map Prod.snd =
        some (signingLog (str "k") hostedExchange (str "k")) := by
    decide +kernel
  obtain ⟨⟨s, log⟩, hrun, rfl⟩ := Option.map_eq_some_iff.mp hlog
  refine ⟨s, hrun, ?_⟩
  have hids : resolveIdentities Crypto.plain plainEd25519 (some hostedCapabilities) []
      (plainConfig signerModeLocalKey) (fun _ ↦ none) none = .ok [plainIdentity (str "k")] := by
    decide +kernel
  have hproxy : SignsHosted Crypto.plain plainEd25519 {str "k"}
      (hostedAgent.signatureRequest Crypto.plain (some (plainIdentity (str "k"))) sessionBinding)
      [3] hostedExchange := by
    rintro wait ⟨⟩
    exact ⟨str "k", [], ⟨keyAlgoED25519, str "k" ++ [3], []⟩, rfl, rfl, rfl, by decide +kernel⟩
  refine (signature_verifies_iff plainEd25519_ed25519 (Set.injOn_singleton _ (str "k")) hids ?_ rfl
    hrun ?_ (List.mem_cons_self ..) (List.mem_singleton_self _)
    rfl (List.mem_cons_of_mem _ (List.mem_singleton_self _))).mpr (.inl rfl)
  · rintro key hkey
    rw [List.mem_singleton.mp hkey]
    rfl
  · rintro - call x sig hsigned
    rcases List.mem_cons.mp hsigned with h | h
    · exact nomatch h
    · cases List.mem_singleton.mp h
      exact hproxy

/-- The proxy answers with a certificate of the key generated for the signature. -/
def certifiedExchange : Exchange Bytes := ⟨some [2], some { sshCertificate := [2] }, []⟩

/-- The agent in local-ca mode. -/
def certifyingAgent : LunaAgent :=
  newLunaAgent signerModeLocalCA (plainConfig signerModeLocalCA) [plainIdentity [1]]

/-- In local-ca mode the identity is the key that was generated at the start, and the signature
is by another. -/
theorem signature_of_another_key :
    resolveIdentities Crypto.plain plainEd25519 (some ⟨signerModeLocalCA, false, []⟩) []
        (plainConfig signerModeLocalCA) (fun _ ↦ none) (some [1]) = .ok [plainIdentity [1]] ∧
      ((machine Crypto.plain plainEd25519 readCertificate certifyingAgent).exec
          (signingRun [1] certifiedExchange)).map Prod.snd =
        some (signingLog [1] certifiedExchange [2]) ∧
      Ed25519 plainEd25519 ∧
      (plainIdentity [1]).verify plainEd25519 [3] ⟨keyAlgoED25519, [2] ++ [3], []⟩ = false :=
  ⟨by decide +kernel, by decide +kernel, plainEd25519_ed25519, by decide⟩

end LunaZTrust.Agent
