import LunaZTrust.Agent.Connection

/-!
# Connections and their sessions

`ConnectionAgent` of `agent/session_bind.go` keeps the binding of one connection.  `Extension`
replaces it, and `SignWithFlags` reads it before it waits for the agent that all connections
share.  So while a call waits, its own connection may be bound anew, and the others may do
anything.

None of that matters to the call.  Whatever is signed in local-key mode goes out under the
last binding of the connection that asked for it, as it was when the connection asked
(`signed_in_own_session`).
-/

namespace LunaZTrust.Agent

open LunaZTrust.Go LunaZTrust.Ssh LunaZTrust.Transition

variable {Key Signer : Type} {crypto : Crypto} {ssh : Package Key Signer}
  {parseAuthorizedKey : GoString → Option (Key ⊕ Certificate Key)} {a : LunaAgent}

/-! ## What a connection is bound with -/

variable (ssh) in
/-- The binding the action leaves on the connection, if it leaves one. -/
def Action.binds (conn : Nat) : Action Signer → Option SessionBinding
  | .extension c extensionType contents =>
      if c = conn then Agent.extension ssh extensionType contents else none
  | _ => none

variable (ssh) in
/-- The bindings of the connection, in order. -/
def sessions (conn : Nat) (as : List (Action Signer)) : List SessionBinding :=
  as.filterMap (Action.binds ssh conn)

theorem getLast?_sessions_concat (conn : Nat) (as : List (Action Signer)) (act : Action Signer) :
    (sessions ssh conn (as ++ [act])).getLast? =
      (act.binds ssh conn).or (sessions ssh conn as).getLast? := by
  rw [sessions, List.filterMap_append, List.getLast?_append]
  cases hact : act.binds ssh conn with
  | none =>
      rw [List.filterMap_cons_none hact]
      rfl
  | some binding =>
      rw [List.filterMap_cons_some hact]
      rfl

/-- What a binding proves: the holder of the host key has signed the session id. -/
structure SessionBinding.Proven (ssh : Package Key Signer) (b : SessionBinding) (hostKey : Key) :
    Prop where
  parses : ssh.parsePublicKey b.hostPublicKey = some hostKey
  signature : ∃ format blob rest,
    ssh.unmarshal [{ kind := .string }, { kind := .string }, { kind := .rest }] b.signature =
        some [.bytes format, .bytes blob, .bytes rest] ∧
      ssh.verify hostKey b.sessionID ⟨format, blob, rest⟩ = true
  forwarding : b.forwarding = false

theorem proven_of_extension {extensionType : GoString} {contents : Bytes} {b : SessionBinding}
    (h : extension ssh extensionType contents = some b) : ∃ hostKey, b.Proven ssh hostKey := by
  obtain ⟨-, h⟩ := Option.ite_none_left_eq_some.mp h
  split at h
  · obtain ⟨-, h⟩ := Option.ite_none_left_eq_some.mp h
    split at h
    · next hostKey format blob rest hkey hsig =>
        obtain ⟨hverify, h⟩ := Option.ite_none_right_eq_some.mp h
        cases h
        exact ⟨hostKey, hkey, ⟨format, blob, rest, hsig, hverify⟩, rfl⟩
    · cases h
  · cases h

theorem proven_of_mem_sessions {conn : Nat} {as : List (Action Signer)} {b : SessionBinding}
    (h : b ∈ sessions ssh conn as) : ∃ hostKey, b.Proven ssh hostKey := by
  obtain ⟨act, -, hact⟩ := List.mem_filterMap.mp h
  cases act with
  | extension c extensionType contents =>
      exact proven_of_extension (Option.ite_none_right_eq_some.mp hact).2
  | _ => cases hact

/-! ## What a step does to the connections -/

section Step

variable {s s' : System} {act : Action Signer} {es : List (Event Signer)}

/-- Bindings are changed by `Extension` only, each by its own connection. -/
theorem System.lookup_bindings_of_step
    (h : s.step crypto ssh parseAuthorizedKey act = some (s', es)) (conn : Nat) :
    AList.lookup conn s'.bindings = (act.binds ssh conn).or (AList.lookup conn s.bindings) := by
  cases act with
  | lock | unlock | list =>
      cases h
      rfl
  | extension c extensionType contents =>
      rw [step] at h
      rw [Action.binds]
      split at h
      · next hext =>
          cases h
          rw [hext, ite_self]
          rfl
      · next binding hext =>
          cases h
          rw [hext, Map.lookup_insert_eq]
          by_cases hc : conn = c
          · rw [if_pos hc, if_pos hc.symm]
            rfl
          · rw [if_neg hc, if_neg (Ne.symm hc)]
            rfl
  | signWithFlags id c pub data =>
      rw [step] at h
      split at h <;> cases h
      rfl
  | signWithBinding id x =>
      rw [step] at h
      split at h
      · cases h
      · dsimp only at h
        split at h <;> cases h <;> rfl

/-- A call that waits has been waiting, or has just read the binding of its connection. -/
theorem System.lookup_calls_of_step (h : s.step crypto ssh parseAuthorizedKey act = some (s', es))
    {id : Nat} {call : Call} (hcall : AList.lookup id s'.calls = some call) :
    AList.lookup id s.calls = some call ∨
      ∃ conn, act = .signWithFlags id conn call.pub call.data ∧
        call.binding = (AList.lookup conn s.bindings).getD {} := by
  cases act with
  | lock | unlock | list =>
      cases h
      exact .inl hcall
  | extension c extensionType contents =>
      rw [step] at h
      split at h <;> cases h <;> exact .inl hcall
  | signWithFlags id' c pub data =>
      rw [step] at h
      split at h <;> cases h
      rcases Map.lookup_insert_eq_some_iff.mp hcall with ⟨rfl, rfl⟩ | ⟨-, hcall⟩
      · exact .inr ⟨c, rfl, rfl⟩
      · exact .inl hcall
  | signWithBinding id' x =>
      rw [step] at h
      split at h
      · cases h
      · dsimp only at h
        split at h <;> cases h <;> exact .inl (Map.lookup_erase_eq_some_iff.mp hcall).2

/-- A signature is for a call that waits. -/
theorem System.call_of_step (h : s.step crypto ssh parseAuthorizedKey act = some (s', es))
    {call : Call} {x : Exchange Signer} {sig : Signature} (hmem : .signed call x sig ∈ es) :
    ∃ id, act = .signWithBinding id x ∧ AList.lookup id s.calls = some call := by
  cases act with
  | lock | unlock | list =>
      cases h
      simp at hmem
  | extension c extensionType contents =>
      rw [step] at h
      split at h <;> cases h <;> cases hmem
  | signWithFlags id' c pub data =>
      rw [step] at h
      split at h <;> cases h
      cases hmem
  | signWithBinding id x' =>
      rw [step] at h
      split at h
      · cases h
      · next call' hcall =>
          dsimp only at h
          split at h <;> cases h <;> cases List.mem_singleton.mp hmem
          exact ⟨id, rfl, hcall⟩

end Step

/-! ## Whole runs -/

variable (ssh) in
/-- The call was made on the connection, with the binding it had then. -/
def Asked (as : List (Action Signer)) (id : Nat) (call : Call) : Prop :=
  ∃ pre conn post, as = pre ++ .signWithFlags id conn call.pub call.data :: post ∧
    call.binding = ((sessions ssh conn pre).getLast?).getD {}

theorem Asked.mono {as : List (Action Signer)} {id : Nat} {call : Call} (h : Asked ssh as id call)
    (bs : List (Action Signer)) : Asked ssh (as ++ bs) id call := by
  obtain ⟨pre, conn, post, rfl, hbinding⟩ := h
  exact ⟨pre, conn, post ++ bs, by rw [List.append_assoc, List.cons_append], hbinding⟩

variable (ssh) in
/-- The state and the log in terms of what was done. -/
structure Traced (as : List (Action Signer)) (s : System) (log : List (Event Signer)) : Prop where
  bindings : ∀ conn, AList.lookup conn s.bindings = (sessions ssh conn as).getLast?
  calls : ∀ id call, AList.lookup id s.calls = some call → Asked ssh as id call
  signed : ∀ call x sig, .signed call x sig ∈ log → ∃ pre id post,
    as = pre ++ .signWithBinding id x :: post ∧ Asked ssh pre id call

/-- **Step.** -/
theorem Traced.step {as : List (Action Signer)} {s s' : System} {log es : List (Event Signer)}
    {act : Action Signer} (h : Traced ssh as s log)
    (hstep : s.step crypto ssh parseAuthorizedKey act = some (s', es)) :
    Traced ssh (as ++ [act]) s' (log ++ es) where
  bindings conn := by
    rw [System.lookup_bindings_of_step hstep, h.bindings, getLast?_sessions_concat]
  calls id call hcall := by
    rcases System.lookup_calls_of_step hstep hcall with hcall | ⟨conn, rfl, hbinding⟩
    · exact (h.calls id call hcall).mono [act]
    · exact ⟨as, conn, [], rfl, by rw [hbinding, h.bindings]⟩
  signed call x sig hmem := by
    rcases List.mem_append.mp hmem with hmem | hmem
    · obtain ⟨pre, id, post, rfl, hasked⟩ := h.signed call x sig hmem
      exact ⟨pre, id, post ++ [act], by rw [List.append_assoc, List.cons_append], hasked⟩
    · obtain ⟨id, rfl, hcall⟩ := System.call_of_step hstep hmem
      exact ⟨as, id, [], rfl, h.calls id call hcall⟩

/-- **Run.** -/
theorem exec_traced {as : List (Action Signer)} {s : System} {log : List (Event Signer)}
    (hrun : (machine crypto ssh parseAuthorizedKey a).exec as = some (s, log)) :
    Traced ssh as s log := by
  refine (machine crypto ssh parseAuthorizedKey a).exec_run_induction (P := Traced ssh) ?_ ?_ hrun
  · exact
      { bindings := fun conn ↦ AList.lookup_empty conn
        calls := fun id _ h ↦ nomatch (AList.lookup_empty id).symm.trans h
        signed := fun _ _ _ h ↦ nomatch h }
  · intro as act s log s' es _ h hstep
    exact h.step hstep

/-- In local-key mode nothing is signed without a binding. -/
theorem LunaAgent.hostPublicKey_ne_nil {pub : Option AgentKey} {data : Bytes}
    {binding : SessionBinding} {x : Exchange Signer} {sig : Signature}
    (hmode : a.mode = signerModeLocalKey)
    (h : a.signWithBinding crypto ssh parseAuthorizedKey pub data binding x = .ok sig) :
    binding.hostPublicKey ≠ [] := by
  rw [signWithBinding, if_pos hmode] at h
  split at h
  · cases h
  · split at h
    · cases h
    · next hbound => exact fun hnil ↦ hbound (.inl hnil)

/-- **Each connection signs in its own session.**  In every run in local-key mode, whatever is
signed was asked for on a connection whose last session at that point is the one it is signed
for, and the host of that session has signed the session's id. -/
theorem signed_in_own_session (ha : a.locked = false) (hmode : a.mode = signerModeLocalKey)
    {as : List (Action Signer)} {s : System} {log : List (Event Signer)}
    (hrun : (machine crypto ssh parseAuthorizedKey a).exec as = some (s, log)) {call : Call}
    {x : Exchange Signer} {sig : Signature} (h : .signed call x sig ∈ log) :
    ∃ pre id conn mid post,
      as = pre ++ .signWithFlags id conn call.pub call.data ::
        (mid ++ .signWithBinding id x :: post) ∧
      (sessions ssh conn pre).getLast? = some call.binding ∧
      ∃ hostKey, call.binding.Proven ssh hostKey := by
  obtain ⟨_, id, post, rfl, pre, conn, mid, rfl, hbinding⟩ := (exec_traced hrun).signed call x sig h
  have hbound : call.binding.hostPublicKey ≠ [] := LunaAgent.hostPublicKey_ne_nil
    (a := a.setLocked false) hmode (exec_judged ha hrun _ h)
  -- a connection that was never bound has no host key to show
  obtain ⟨b, hb⟩ : ∃ b, (sessions ssh conn pre).getLast? = some b := by
    cases hlast : (sessions ssh conn pre).getLast? with
    | none =>
        rw [hbinding, hlast] at hbound
        exact absurd rfl hbound
    | some b => exact ⟨b, rfl⟩
  obtain rfl : call.binding = b := by rw [hbinding, hb, Option.getD_some]
  refine ⟨pre, id, conn, mid, post, ?_, hb, proven_of_mem_sessions (List.mem_of_getLast? hb)⟩
  rw [List.append_assoc, List.cons_append]

/-- Another session of the host with key 9, whose identifier is 6. -/
def otherContents : Bytes :=
  [0, 0, 0, 1, 9, 0, 0, 0, 1, 6, 0, 0, 0, 10, 0, 0, 0, 0, 0, 0, 0, 2, 9, 6, 0]

/-- While a call waits, its connection and another are bound to that session. -/
def reboundRun : List (Action Bytes) :=
  [.extension 0 sessionBindExtension sessionContents,
    .signWithFlags 0 0 (some (plainIdentity (str "k"))) [3],
    .extension 0 sessionBindExtension otherContents,
    .extension 1 sessionBindExtension otherContents, .signWithBinding 0 hostedExchange]

theorem signed_in_own_session_rebound :
    ∃ pre id conn mid post,
      reboundRun = pre ++ .signWithFlags id conn (some (plainIdentity (str "k"))) [3] ::
        (mid ++ .signWithBinding id hostedExchange :: post) ∧
      (sessions plainEd25519 conn pre).getLast? = some sessionBinding := by
  have hlog : ((machine Crypto.plain plainEd25519 readCertificate hostedAgent).exec
      reboundRun).map Prod.snd =
        some [.signed ⟨some (plainIdentity (str "k")), [3], sessionBinding⟩ hostedExchange
          ⟨keyAlgoED25519, str "k" ++ [3], []⟩] := by
    decide +kernel
  obtain ⟨⟨s, log⟩, hrun, rfl⟩ := Option.map_eq_some_iff.mp hlog
  obtain ⟨pre, id, conn, mid, post, heq, hlast, -⟩ :=
    signed_in_own_session rfl (by decide) hrun (List.mem_singleton_self _)
  exact ⟨pre, id, conn, mid, post, heq, hlast⟩

end LunaZTrust.Agent
