import LunaZTrust.Proxy.Administration

/-!
# Where certificates come from

Two kinds of client certificates are issued by the proxy.  Workstations are enrolled with one, and
may load keys with it from then on; machines get one for the enrollment token, and may ask
for signatures with it.

A key that is loaded over the network was sent with a certificate that had been issued to an
administrator or an allowed peer in this run (`network_key_provenance`).  Of the tokens
sent from one address at most ten are compared in an hour, and a certificate for the token has
no role (`enroll_token_guesses`).  The latter rests on the ids of workstations, which
share the limiter with addresses: deleting a workstation never makes the limiter forget
an address.
-/

namespace LunaZTrust.Proxy.Administration

open LunaZTrust.Go LunaZTrust.Api LunaZTrust.Cli LunaZTrust.Keystore LunaZTrust.Transition

variable {Key Signer PublicKey PrivateKey : Type} {srv : Server Key Signer PublicKey PrivateKey}
  {s t : System Signer} {r : AdminRequest} {inp : Input} {route : Route} {a : Action}
  {log evs : List Event} {as : List Action} {keystore : Keystore Signer}

/-! ## What a step does to the workstations -/

/-- What begins the ids of workstations. -/
def idStart : GoString := str "cli_"

variable (srv) in
/-- The certificate for a workstation an action asks for, and its fingerprint. -/
def Action.issues (now : Time) : Action → Option (Certificate × GoString)
  | .http .cliEnroll r inp =>
      match issueCLI srv.pf srv.lib srv.csrSigner r { inp.draw with now := now } with
      | .ok (_, cert, _, fp) => some (cert, fp)
      | .error _ => none
  | .control _ req inp =>
      (Control.controlIssue srv.pf srv.csrSigner req { inp.draw with now := now }).map
        fun (_, cert, fp) ↦ (cert, fp)
  | _ => none

/-- The event says nothing of tokens, of their certificates or of loads. -/
def Event.plain : Event → Bool
  | .refused _ _ | .answered _ _ | .denied _ | .controlled _ => true
  | .compared _ _ _ _ | .issued _ | .load _ => false

variable (srv) in
/-- The action enrolls the workstation, and is of somebody who may. -/
structure Enrolls (now : Time) (a : Action) (id : GoString) (dev : Device) : Prop where
  id_eq : dev.id = id
  idStart : idStart <+: id
  authorised : a.authorised srv = true
  issues : ∃ cert, a.issues srv now = some (cert, dev.certFingerprint)

variable (srv) in
/-- The steps, as far as workstations and the limiter are concerned. -/
inductive Step (s : System Signer) (a : Action) (t : System Signer) (evs : List Event) : Prop
  /-- A workstation may be enrolled, deleted or forgotten, and nothing else happens. -/
  | change (hnow : s.quota.now ≤ t.quota.now) (hloads : t.quota.loads = s.quota.loads)
      (hcli : ∀ id dev, AList.lookup id t.quota.cli = some dev →
        AList.lookup id s.quota.cli = some dev ∨ Enrolls srv s.quota.now a id dev)
      (hforgetting : ∀ id ∈ t.quota.forgetting, id ∈ s.quota.forgetting ∨
        ∃ dev, AList.lookup id s.quota.cli = some dev)
      (hlimiter : t.quota.limiter = s.quota.limiter ∨ ∃ id dev,
        AList.lookup id s.quota.cli = some dev ∧ t.quota.limiter = s.quota.limiter.forget id)
      (hevs : ∀ e ∈ evs, e.plain = true)
  /-- A machine asks for its first certificate. -/
  | bootstrap {r : AdminRequest} {inp : Input} {limiter : LoadRateLimiter}
      (hboot : Bootstrapped srv s.quota.limiter s.quota.now r inp (limiter, evs))
      (hlimiter : t.quota.limiter = limiter)
      (hnow : t.quota.now = s.quota.now) (hcli : t.quota.cli = s.quota.cli)
      (hloads : t.quota.loads = s.quota.loads)
      (hforgetting : t.quota.forgetting = s.quota.forgetting)
  /-- A step of a load. -/
  | serve {b : LoadQuota.Action} {es : List LoadQuota.Event} (ha : a = .serve b)
      (hserved : Served srv s.quota b t.quota es) (hevs : evs = es.map .load)

/-- A step that leaves the workstations alone. -/
theorem Step.of_quota_eq (h : t.quota = s.quota) (hevs : ∀ e ∈ evs, e.plain = true) :
    Step srv s a t evs := by
  refine .change ?_ ?_ ?_ ?_ (.inl ?_) hevs
  · rw [h]
  · rw [h]
  · rw [h]
    exact fun _ _ ↦ .inl
  · rw [h]
    exact fun _ ↦ .inl
  · rw [h]

theorem Step.of_cliEnroll (ha : Action.authorised srv (.http .cliEnroll r inp) = true)
    (h : handle srv s r inp .cliEnroll = some (t, evs)) :
    Step srv s (.http .cliEnroll r inp) t evs := by
  rw [handle, handleCLIEnroll] at h
  cases hissue : issueCLI srv.pf srv.lib srv.csrSigner r { inp.draw with now := s.quota.now } with
  | error e =>
      rw [hissue] at h
      cases h
      exact .of_quota_eq rfl (List.forall_mem_singleton.mpr rfl)
  | ok issued =>
      obtain ⟨label, cert, certPEM, fp⟩ := issued
      have hissues : Action.issues srv s.quota.now (.http .cliEnroll r inp) = some (cert, fp) := by
        rw [Action.issues, hissue]
      rw [hissue] at h
      dsimp only at h
      rcases s.quota.cli.enroll_cases label fp (str "cli_" ++ inp.ulid) s.quota.now with
        ⟨e, henroll⟩ | ⟨-, henroll⟩
      · rw [henroll] at h
        have ht : t.quota = s.quota ∧ ∀ e ∈ evs, e.plain = true := by
          cases e <;> cases h <;> exact ⟨rfl, List.forall_mem_singleton.mpr rfl⟩
        exact .of_quota_eq ht.1 ht.2
      · rw [henroll] at h
        cases h
        refine .change (Int.le_refl _) rfl (fun id dev hdev ↦ ?_) (fun _ ↦ .inl) (.inl rfl)
          (List.forall_mem_singleton.mpr rfl)
        rcases Map.lookup_insert_eq_some_iff.mp hdev with ⟨rfl, rfl⟩ | ⟨-, hdev⟩
        · exact .inr ⟨rfl, List.prefix_append _ _, ha, cert, hissues⟩
        · exact .inl hdev

theorem Step.of_cliDeleteDevice (h : handle srv s r inp .cliDeleteDevice = some (t, evs)) :
    Step srv s a t evs := by
  rw [handle, handleCLIDeleteDevice] at h
  by_cases hid : r.deviceID = []
  · rw [if_pos hid] at h
    cases h
    exact .of_quota_eq rfl (List.forall_mem_singleton.mpr rfl)
  · rw [if_neg hid] at h
    cases hdev : AList.lookup r.deviceID s.quota.cli with
    | none =>
        rw [Store.delete, hdev] at h
        cases h
        exact .of_quota_eq rfl (List.forall_mem_singleton.mpr rfl)
    | some dev =>
        rw [Store.delete, hdev] at h
        cases h
        refine .change (Int.le_refl _) rfl ?_ ?_ (.inl rfl) (List.forall_mem_singleton.mpr rfl)
        · exact fun id dev hid ↦ .inl (Map.lookup_erase_eq_some_iff.mp hid).2
        · intro id hid
          rcases List.mem_cons.mp hid with rfl | hid
          · exact .inr ⟨dev, hdev⟩
          · exact .inl hid

theorem Step.of_handle (hcheck : route.gate.check srv.pf.x509 srv.cfg r.toHttpRequest = .ok ())
    (h : handle srv s r inp route = some (t, evs)) : Step srv s (.http route r inp) t evs := by
  cases route with
  | mtlsEnroll =>
      have hboot := bootstrapped_handle srv s.quota.limiter s.quota.now r inp
      rw [handle] at h
      generalize handleMTLSEnroll srv s.quota.limiter s.quota.now r inp = res at h hboot
      cases h
      exact .bootstrap hboot rfl rfl rfl rfl rfl
  | cliEnroll =>
      refine .of_cliEnroll ?_ h
      have hadmin : withAdminMTLS srv.pf.x509 srv.cfg r.toHttpRequest = .ok () := hcheck
      rw [Action.authorised, hadmin]
      rfl
  | cliDeleteDevice => exact .of_cliDeleteDevice h
  | healthz | mtlsCA | adminUnseal | adminSealStatus | cliListDevices | mobileEnroll
  | mobileDeleteDevice =>
      cases h
      exact .of_quota_eq rfl (List.forall_mem_singleton.mpr rfl)
  | capabilities | sign | wait | mobileApprove | mobileKeysPending | cliKeysLoad => cases h

/-- What an operation leaves in the registry of workstations. -/
theorem enrolls_of_cliAfter {peer : Ucred} {req : Control.Request} {inp : Control.Input}
    {cli : Cli.Store} {now : Time} {id : GoString} {dev : Device}
    (ha : Action.authorised srv (.control peer req inp) = true)
    (h : AList.lookup id (Control.cliAfter srv.pf srv.csrSigner cli req (env req inp now)) =
      some dev) :
    AList.lookup id cli = some dev ∨ Enrolls srv now (.control peer req inp) id dev := by
  rw [Control.cliAfter.eq_def] at h
  split at h
  · next hop =>
      split at h
      · exact .inl h
      · next label cert fp hissue =>
          rcases cli.enroll_cases label fp (env req inp now).id (env req inp now).now with
            ⟨e, henroll⟩ | ⟨-, henroll⟩
          · rw [henroll] at h
            exact .inl h
          · rw [henroll] at h
            rcases Map.lookup_insert_eq_some_iff.mp h with ⟨rfl, rfl⟩ | ⟨-, h⟩
            · refine .inr ⟨rfl, ?_, ha, cert, ?_⟩
              · rw [env, hop]
                exact List.prefix_append _ _
              · exact congrArg (Option.map fun x : GoString × Certificate × GoString ↦ x.2) hissue
            · exact .inl h
  · split at h
    · exact .inl h
    · rw [Store.delete] at h
      split at h
      · exact .inl h
      · exact .inl (Map.lookup_erase_eq_some_iff.mp h).2
  · exact .inl h

theorem Step.of_step (h : step srv s a = some (t, evs)) : Step srv s a t evs := by
  cases a with
  | http route r inp =>
      rw [step] at h
      split at h
      · cases h
        exact .of_quota_eq rfl (List.forall_mem_singleton.mpr rfl)
      · next hcheck => exact .of_handle hcheck h
  | control peer req inp =>
      rw [step] at h
      split at h
      · cases h
        exact .of_quota_eq rfl (List.forall_mem_singleton.mpr rfl)
      · next hpeer =>
          have ha : Action.authorised srv (.control peer req inp) = true := by
            rw [Action.authorised, hpeer]
            rfl
          have hd := Control.handled_handle srv.pf (s.deps srv) req (env req inp s.quota.now)
          generalize (s.deps srv).handle srv.pf req (env req inp s.quota.now) = res at h hd
          cases h
          refine .change (Int.le_add_of_nonneg_right (Int.natCast_nonneg _)) rfl
            (fun id dev hdev ↦ ?_) (fun _ ↦ .inl) ?_ (List.forall_mem_singleton.mpr rfl)
          · rw [hd.cli] at hdev
            exact enrolls_of_cliAfter ha hdev
          · rcases hd.limiter with hlimiter | ⟨id, dev, hdev, hlimiter⟩
            · exact .inl (by rw [hlimiter]; rfl)
            · exact .inr ⟨id, dev, hdev, by rw [hlimiter]; rfl⟩
  | upload =>
      cases h
      exact .of_quota_eq rfl (List.forall_mem_nil _)
  | serve b =>
      rw [step] at h
      split at h
      · next hserving =>
          obtain ⟨⟨quota, es⟩, hquota, heq⟩ := Option.map_eq_some_iff.mp h
          cases heq
          exact .serve rfl (served_of_step hserving hquota) rfl
      · cases h

/-! ## Where keys come from -/

variable (srv keystore) in
/-- A request of the workstation to load a key has been let in, with the registry as it was. -/
def Admitted (as : List Action) (id : GoString) : Prop :=
  ∃ pre r post s₀ log₀ dev body parsed conn, as = pre ++ .serve (.request r) :: post ∧
    (machine srv keystore).exec pre = some (s₀, log₀) ∧
    readCLIKeysLoad srv.pf.crypto srv.pf.x509 srv.loadLib srv.cfg s₀.quota.cli r =
      .ok (dev, body, parsed, conn) ∧ dev.id = id

theorem Admitted.mono {id : GoString} (h : Admitted srv keystore as id) (a : Action) :
    Admitted srv keystore (as ++ [a]) id := by
  obtain ⟨pre, r, post, s₀, log₀, dev, body, parsed, conn, rfl, h⟩ := h
  exact ⟨pre, r, post ++ [a], s₀, log₀, dev, body, parsed, conn,
    by rw [List.append_assoc, List.cons_append], h⟩

/-- A request that is let in is of a workstation in the registry, whose certificate it is. -/
theorem readCLIKeysLoad_eq_ok {crypto : Crypto} {x509 : X509 PublicKey PrivateKey}
    {lib : KeysLoadLibrary} {cfg : Config.Config} {cli : Cli.Store} {r : HttpRequest} {dev : Device}
    {rest : Bytes × ParsedCLIKeysLoad × TLSConn}
    (h : readCLIKeysLoad crypto x509 lib cfg cli r = .ok (dev, rest)) :
    ∃ raw chain, r.peerCertificates = raw :: chain ∧
      dev.certFingerprint = certFingerprint crypto (peerCertificate x509 raw) ∧
      ∃ id, AList.lookup id cli = some dev := by
  rw [readCLIKeysLoad] at h
  split at h
  · cases h
  · next raw chain hpeer =>
      dsimp only at h
      split at h
      · cases h
      · split at h
        · cases h
        · split at h
          · cases h
          · next dev' hdev =>
              obtain ⟨hmem, hfp⟩ := Store.find_eq_some hdev
              have heq : dev' = dev := by
                split at h
                · cases h
                · split at h
                  · cases h
                  · split at h
                    · cases h
                    · split at h
                      · cases h
                      · cases h
                        rfl
              subst heq
              exact ⟨raw, chain, hpeer, hfp, Store.mem_list_iff.mp hmem⟩

variable (srv keystore) in
/-- What the run says of the workstations: each was enrolled by somebody who may, and loads are
those of requests that were let in. -/
structure Registered (as : List Action) (s : System Signer) (log : List Event) : Prop where
  devices : ∀ id dev, AList.lookup id s.quota.cli = some dev → ∃ now, ∃ a ∈ as,
    Enrolls srv now a id dev
  forgetting : ∀ id ∈ s.quota.forgetting, idStart <+: id
  loads : ∀ n call, AList.lookup n s.quota.loads = some call →
    idStart <+: callDevice call ∧ Admitted srv keystore as (callDevice call)
  answered : ∀ n d fp loadedAt answeredAt recorded,
    .load (.answered n d fp loadedAt answeredAt recorded) ∈ log → Admitted srv keystore as d

theorem Registered.idStart (h : Registered srv keystore as s log) {id : GoString} {dev : Device}
    (hdev : AList.lookup id s.quota.cli = some dev) : idStart <+: id := by
  obtain ⟨now, a, -, henrolls⟩ := h.devices id dev hdev
  exact henrolls.idStart

/-- A step that starts and answers no loads. -/
theorem Registered.of_loads_eq (h : Registered srv keystore as s log)
    (hcli : ∀ id dev, AList.lookup id t.quota.cli = some dev →
      AList.lookup id s.quota.cli = some dev ∨ Enrolls srv s.quota.now a id dev)
    (hforgetting : ∀ id ∈ t.quota.forgetting, id ∈ s.quota.forgetting ∨
      ∃ dev, AList.lookup id s.quota.cli = some dev)
    (hloads : t.quota.loads = s.quota.loads) (hevs : ∀ e, .load e ∉ evs) :
    Registered srv keystore (as ++ [a]) t (log ++ evs) := by
  constructor
  · intro id dev hdev
    rcases hcli id dev hdev with hdev | henrolls
    · obtain ⟨now, a', ha', henrolls⟩ := h.devices id dev hdev
      exact ⟨now, a', List.mem_append_left _ ha', henrolls⟩
    · exact ⟨s.quota.now, a, List.mem_append_right _ List.mem_cons_self, henrolls⟩
  · intro id hid
    rcases hforgetting id hid with hid | ⟨dev, hdev⟩
    · exact h.forgetting id hid
    · exact h.idStart hdev
  · rw [hloads]
    exact fun n call hn ↦ ⟨(h.loads n call hn).1, (h.loads n call hn).2.mono a⟩
  · intro n d fp loadedAt answeredAt recorded hmem
    rcases List.mem_append.mp hmem with hmem | hmem
    · exact (h.answered n d fp loadedAt answeredAt recorded hmem).mono a
    · exact absurd hmem (hevs _)

/-- **Step.** -/
theorem Registered.step (h : Registered srv keystore as s log)
    (hrun : (machine srv keystore).exec as = some (s, log)) (hs : Step srv s a t evs) :
    Registered srv keystore (as ++ [a]) t (log ++ evs) := by
  cases hs with
  | change hnow hloads hcli hforgetting hlimiter hevs =>
      exact h.of_loads_eq hcli hforgetting hloads fun e hmem ↦ nomatch hevs _ hmem
  | bootstrap hboot hlimiter hnow hcli hloads hforgetting =>
      refine h.of_loads_eq ?_ ?_ hloads fun e hmem ↦ ?_
      · rw [hcli]
        exact fun _ _ ↦ .inl
      · rw [hforgetting]
        exact fun _ ↦ .inl
      · cases hboot with
        | refused => simp at hmem
        | compared _ _ hes => rcases hes with ⟨e', rfl⟩ | ⟨cert, certPEM, rfl, -⟩ <;> simp at hmem
  | @serve b es ha hserved hevs =>
      subst ha hevs
      constructor
      · rw [hserved.cli]
        intro id dev hdev
        obtain ⟨now, a', ha', henrolls⟩ := h.devices id dev hdev
        exact ⟨now, a', List.mem_append_left _ ha', henrolls⟩
      · exact fun id hid ↦ h.forgetting id (hserved.forgetting id hid)
      · intro n call hn
        rcases hserved.loads n call hn with
          ⟨call', hn', hdev⟩ | ⟨r, dev, body, parsed, conn, rfl, hr, hdev⟩
        · rw [← hdev]
          exact ⟨(h.loads n call' hn').1, (h.loads n call' hn').2.mono _⟩
        · obtain ⟨-, -, -, -, id, hlookup⟩ := readCLIKeysLoad_eq_ok hr
          obtain ⟨now, a', -, henrolls⟩ := h.devices id dev hlookup
          rw [hdev, henrolls.id_eq]
          exact ⟨henrolls.idStart, as, r, [], s, log, dev, body, parsed, conn, rfl, hrun, hr,
            henrolls.id_eq⟩
      · intro n d fp loadedAt answeredAt recorded hmem
        rcases List.mem_append.mp hmem with hmem | hmem
        · exact (h.answered n d fp loadedAt answeredAt recorded hmem).mono _
        · obtain ⟨e, he, heq⟩ := List.mem_map.mp hmem
          cases heq
          obtain ⟨call, hn, rfl⟩ := hserved.answered n d fp loadedAt answeredAt recorded he
          exact (h.loads n call hn).2.mono _

/-- **Run.** -/
theorem exec_registered (hrun : (machine srv keystore).exec as = some (s, log)) :
    Registered srv keystore as s log := by
  refine (machine srv keystore).exec_run_induction (P := Registered srv keystore) ?_
    (fun as a s log t evs hrun h hs ↦ h.step hrun (.of_step hs)) hrun
  exact
    { devices := fun id _ h ↦ nomatch (AList.lookup_empty id).symm.trans h
      forgetting := List.forall_mem_nil _
      loads := fun n _ h ↦ nomatch (AList.lookup_empty n).symm.trans h
      answered := fun _ _ _ _ _ _ h ↦ absurd h List.not_mem_nil }

theorem certFingerprint_of_sign {x509 : X509 PublicKey PrivateKey} {crypto : Crypto}
    {signer : CSRSigner PrivateKey} {csrPEM : Bytes} {draw : Draw} {cert : Certificate}
    {pem : Bytes} {fp : GoString} (h : signer.sign x509 crypto csrPEM draw = .ok (cert, pem, fp)) :
    fp = certFingerprint crypto cert := by
  obtain ⟨csr, -, h⟩ := bind_eq_ok_iff.mp h
  obtain ⟨_, -, h⟩ := bind_eq_ok_iff.mp h
  rw [CSRSigner.signCSRWithTTL] at h
  split at h
  · cases h
  · split at h
    · cases h
    · cases h
      rfl

/-- What is issued over the network is signed by the signer. -/
theorem issueCLI_eq_ok {draw : Draw} {label : GoString} {cert : Certificate} {certPEM : Bytes}
    {fp : GoString}
    (h : issueCLI srv.pf srv.lib srv.csrSigner r draw = .ok (label, cert, certPEM, fp)) :
    ∃ signer csrPEM, srv.csrSigner = some signer ∧
      signer.sign srv.pf.x509 srv.pf.crypto csrPEM draw = .ok (cert, certPEM, fp) := by
  rw [issueCLI.eq_def] at h
  split at h
  · cases h
  · next signer hsigner =>
      split at h
      · cases h
      · split at h
        · cases h
        · split at h
          · cases h
          · split at h
            · cases h
            · split at h
              · cases h
              · next hsign =>
                  cases h
                  exact ⟨signer, _, hsigner, hsign⟩

/-- What is issued on the control socket is signed by the signer. -/
theorem controlIssue_eq_some {req : Control.Request} {draw : Draw} {label : GoString}
    {cert : Certificate} {fp : GoString}
    (h : Control.controlIssue srv.pf srv.csrSigner req draw = some (label, cert, fp)) :
    ∃ signer csrPEM certPEM, srv.csrSigner = some signer ∧
      signer.sign srv.pf.x509 srv.pf.crypto csrPEM draw = .ok (cert, certPEM, fp) := by
  obtain ⟨signer, hsigner, h⟩ := Option.bind_eq_some_iff.mp h
  obtain ⟨inp, -, h⟩ := Option.bind_eq_some_iff.mp h
  obtain ⟨-, h⟩ := Option.ite_none_left_eq_some.mp h
  split at h
  · next certPEM _ _ hsign =>
      cases h
      exact ⟨signer, _, _, hsigner, hsign⟩
  · cases h

/-- What an action issues is a certificate of the signer. -/
theorem issues_eq_some {now : Time} {cert : Certificate} {fp : GoString}
    (h : a.issues srv now = some (cert, fp)) :
    fp = certFingerprint srv.pf.crypto cert ∧
      ∃ signer, srv.csrSigner = some signer ∧
        cert.subject.organizationalUnit = [signer.requiredOU] := by
  rw [Action.issues.eq_def] at h
  split at h
  · split at h
    · next hissue =>
        cases h
        obtain ⟨signer, _, hsigner, hsign⟩ := issueCLI_eq_ok hissue
        exact ⟨certFingerprint_of_sign hsign, signer, hsigner, organizationalUnit_of_sign hsign⟩
    · cases h
  · obtain ⟨⟨label, cert', fp'⟩, hissue, heq⟩ := Option.map_eq_some_iff.mp h
    cases heq
    obtain ⟨signer, _, _, hsigner, hsign⟩ := controlIssue_eq_some hissue
    exact ⟨certFingerprint_of_sign hsign, signer, hsigner, organizationalUnit_of_sign hsign⟩
  · cases h

/-- An administrator enrolls a workstation, which loads a key. -/
def loadRun : List Action :=
  [enrollWorkstation, .serve (.request (LoadQuota.loadRequest 0)), .serve (.validate 0),
    .serve (.allow 0), .serve (.load 0 ⟨true, true, true⟩ 0), .serve (.record 0 0)]

/-- The answer to the workstation. -/
def loadedKey : Event := .load (.answered 0 (str "cli_1") (str "AQ") 0 0 true)

/-! ## Guesses -/

/-- A token from the address is compared, in a request that read the clock at an instant or
later. -/
def Event.comparesSince (ip : GoString) (b : Time) : Event → Bool
  | .compared sourceIP _ startedAt _ => sourceIP == ip && decide (b ≤ startedAt)
  | _ => false

/-- The limiter has all comparisons of the last hour. -/
def Guessed (s : System Signer) (log : List Event) : Prop :=
  ∀ ip b, s.quota.now - loadRateLimitWindow < b →
    log.countP (Event.comparesSince ip b) ≤
      (s.quota.limiter.times (LoadQuota.bootstrapKey ip)).countP fun ts ↦ decide (b ≤ ts)

/-- The key of an address is not the id of a workstation. -/
theorem bootstrapKey_ne {id : GoString} (h : idStart <+: id) (ip : GoString) :
    id ≠ LoadQuota.bootstrapKey ip := by
  rintro rfl
  obtain ⟨rest, hrest⟩ := h
  have hhead : idStart.head? = (str "mtls-enroll:").head? := by
    have := congrArg (List.head? <| ·.take 1) hrest
    rwa [LoadQuota.bootstrapKey, List.take_append_of_le_length (by decide),
      List.take_append_of_le_length (by decide)] at this
  exact absurd hhead (by decide)

/-- **Step.** -/
theorem Guessed.step (h : Guessed s log) (hreg : Registered srv keystore as s log)
    (hs : Step srv s a t evs) : Guessed t (log ++ evs) := by
  intro ip b hb
  rw [List.countP_append]
  cases hs with
  | change hnow hloads hcli hforgetting hlimiter hevs =>
      have hzero : evs.countP (Event.comparesSince ip b) = 0 := by
        refine List.countP_eq_zero.mpr fun e he ↦ ?_
        cases e with
        | compared => exact nomatch hevs _ he
        | _ => exact Bool.false_ne_true
      have hlog := h ip b (Int.lt_of_le_of_lt (Int.sub_le_sub_right hnow _) hb)
      rw [hzero, Nat.add_zero]
      rcases hlimiter with hlimiter | ⟨id, dev, hdev, hlimiter⟩
      · rwa [hlimiter]
      · have hne := bootstrapKey_ne (hreg.idStart hdev) ip
        rwa [hlimiter, LoadRateLimiter.times_forget_of_ne hne.symm]
  | @bootstrap r inp limiter hboot hlimiter hnow hcli hloads hforgetting =>
      rw [hnow] at hb
      rw [hlimiter]
      cases hboot with
      | refused hmore => exact (h ip b hb).trans (hmore _ b hb)
      | @compared sourceIP kept es hkept hroom hes =>
          have hzero : es.countP (Event.comparesSince ip b) = 0 := by
            rcases hes with ⟨e, rfl⟩ | ⟨cert, certPEM, rfl, -⟩ <;> rfl
          rw [(hkept b hb).countP_insert, List.countP_cons, hzero, Nat.zero_add]
          refine Nat.add_le_add (h ip b hb) ?_
          by_cases hcmp : Event.comparesSince ip b
              (.compared sourceIP r.enrollToken (s.quota.now - inp.lag) s.quota.now) = true
          · obtain ⟨hip, hle⟩ := Bool.and_eq_true_iff.mp hcmp
            rw [if_pos hcmp, if_pos ⟨by rw [eq_of_beq hip], of_decide_eq_true hle⟩]
          · rw [if_neg hcmp]
            exact Nat.zero_le _
  | @serve b' es ha hserved hevs =>
      have hzero : evs.countP (Event.comparesSince ip b) = 0 := by
        rw [hevs, List.countP_map]
        exact List.countP_eq_zero.mpr fun _ _ ↦ Bool.false_ne_true
      have hnow : s.quota.now ≤ t.quota.now := by
        rw [hserved.now]
        exact Int.le_add_of_nonneg_right (Int.natCast_nonneg _)
      rw [hzero, Nat.add_zero, hserved.limiter _ ?_ ?_ b hb]
      · exact h ip b (Int.lt_of_le_of_lt (Int.sub_le_sub_right hnow _) hb)
      · exact fun id hid ↦ bootstrapKey_ne (hreg.forgetting id hid) ip
      · exact fun n call hn ↦ bootstrapKey_ne (hreg.loads n call hn).1 ip

variable (srv) in
/-- Before a comparison there have been less than ten in the hour, and before a certificate there
was one with the right token. -/
def Judged (pre : List Event) : Event → Prop
  | .compared ip _ _ comparedAt => ∀ b, comparedAt - loadRateLimitWindow < b →
      pre.countP (Event.comparesSince ip b) < loadRateLimitCount
  | .issued cert => cert.subject.organizationalUnit = [] ∧
      ∃ pre' ip token startedAt comparedAt,
        pre = pre' ++ [.compared ip token startedAt comparedAt] ∧
        Strings.trimSpace token = Strings.trimSpace srv.cfg.mtlsEnrollToken ∧
        Strings.trimSpace token ≠ []
  | _ => True

theorem Guessed.judged (h : Guessed s log) (hs : Step srv s a t evs) :
    Along (fun pre ↦ Judged srv (log ++ pre)) evs := by
  have htrivial : ∀ (evs : List Event), (∀ e ∈ evs, ∀ pre, Judged srv pre e) →
      Along (fun pre ↦ Judged srv (log ++ pre)) evs := by
    rintro evs hevs pre e post rfl
    exact hevs e (List.mem_append_right _ List.mem_cons_self) _
  cases hs with
  | change hnow hloads hcli hforgetting hlimiter hevs =>
      refine htrivial evs fun e he pre ↦ ?_
      cases e with
      | compared | issued => exact nomatch hevs _ he
      | _ => exact trivial
  | bootstrap hboot hlimiter hnow hcli hloads hforgetting =>
      cases hboot with
      | refused => exact along_singleton trivial
      | @compared sourceIP kept es hkept hroom hes =>
          refine along_cons_iff.mpr ⟨fun b hb ↦ ?_, ?_⟩
          · rw [List.append_nil]
            calc log.countP (Event.comparesSince sourceIP b)
                ≤ (s.quota.limiter.times (LoadQuota.bootstrapKey sourceIP)).countP
                    fun ts ↦ decide (b ≤ ts) := h sourceIP b hb
              _ = (kept.times (LoadQuota.bootstrapKey sourceIP)).countP
                    fun ts ↦ decide (b ≤ ts) := ((hkept b hb).countP _).symm
              _ ≤ (kept.times (LoadQuota.bootstrapKey sourceIP)).length := List.countP_le_length
              _ < loadRateLimitCount := hroom
          · rcases hes with ⟨e, rfl⟩ | ⟨cert, certPEM, rfl, htoken, hne, hou⟩
            · exact along_singleton_iff.mpr trivial
            · refine along_cons_iff.mpr ⟨⟨hou, log, _, _, _, _, rfl, htoken, hne⟩, ?_⟩
              exact along_singleton_iff.mpr trivial
  | @serve b es ha hserved hevs =>
      subst hevs
      refine htrivial _ fun e he pre ↦ ?_
      obtain ⟨e', -, rfl⟩ := List.mem_map.mp he
      exact trivial

/-- **Run.** -/
theorem exec_judged (hrun : (machine srv keystore).exec as = some (s, log)) :
    Along (Judged srv) log := by
  refine ((machine srv keystore).exec_run_induction
    (P := fun _ s log ↦ Guessed s log ∧ Along (Judged srv) log)
    ⟨fun _ _ _ ↦ Nat.zero_le _, along_nil _⟩ ?_ hrun).2
  rintro as a s log t evs hrun ⟨hguessed, hjudged⟩ hstep
  exact ⟨hguessed.step (exec_registered hrun) (.of_step hstep),
    along_append_iff.mpr ⟨hjudged, hguessed.judged (.of_step hstep)⟩⟩

/-- A token from the address is compared in a span, in a request that read the clock in it. -/
def Event.compares (ip : GoString) (a b : Time) : Event → Bool
  | .compared sourceIP _ startedAt comparedAt =>
      sourceIP == ip && decide (a ≤ startedAt) && decide (comparedAt ≤ b)
  | _ => false

/-- **Guessing the enrollment token.**  In every run, at most ten tokens sent from an address are
compared with the right one in a span shorter than an hour, whatever workstations are enrolled,
deleted and forgotten meanwhile.  A certificate is issued only right after the comparison of
a token that is the right one, and it has no role. -/
theorem enroll_token_guesses (hrun : (machine srv keystore).exec as = some (s, log))
    {ip : GoString} {a b : Time} (hspan : b - a < loadRateLimitWindow) :
    log.countP (Event.compares ip a b) ≤ loadRateLimitCount ∧
      ∀ pre cert post, log = pre ++ .issued cert :: post →
        (∀ ou, clientAllowed ou cert = false) ∧
        ∃ pre' ip token startedAt comparedAt,
          pre = pre' ++ [.compared ip token startedAt comparedAt] ∧
          Strings.trimSpace token = Strings.trimSpace srv.cfg.mtlsEnrollToken ∧
          Strings.trimSpace token ≠ [] := by
  have hj := exec_judged hrun
  constructor
  · refine countP_le_of_along fun pre e post hlog he ↦ ?_
    cases e with
    | compared sourceIP token startedAt comparedAt =>
        simp only [Event.compares, Bool.and_eq_true, beq_iff_eq, decide_eq_true_eq] at he
        obtain ⟨⟨rfl, -⟩, hb⟩ := he
        have hless := hj pre _ post hlog a
          (Int.sub_left_lt_of_lt_add (Int.lt_of_le_of_lt hb (Int.lt_add_of_sub_right_lt hspan)))
        refine Nat.lt_of_le_of_lt (List.countP_mono_left fun e' _ he' ↦ ?_) hless
        -- what is compared in the span was begun since its start
        cases e' with
        | compared =>
            simp only [Event.compares, Bool.and_eq_true] at he'
            simp only [Event.comparesSince, Bool.and_eq_true]
            exact he'.1
        | _ => exact nomatch he'
    | _ => cases he
  · intro pre cert post hlog
    obtain ⟨hou, htoken⟩ := hj pre _ post hlog
    refine ⟨fun ou ↦ ?_, htoken⟩
    rw [← Bool.not_eq_true, clientAllowed_iff, hou]
    exact fun h ↦ List.not_mem_nil h.2

/-- An address sends a wrong token. -/
def guess : Action := .http .mtlsEnroll (requestAs "luna-cli" [] (str "guess") []) plainInput

/-- Six guesses, then a workstation is enrolled, deleted and forgotten, and six more. -/
def guesses : List Action :=
  List.replicate 6 guess ++
    [enrollWorkstation,
      .http .cliDeleteDevice (requestAs "luna-admin" [] [] (str "cli_1")) plainInput,
      .serve (.forget (str "cli_1"))] ++ List.replicate 6 guess

/-- Ten of the twelve are compared. -/
theorem enroll_token_guesses_twelve :
    ∃ s log, plainMachine.exec guesses = some (s, log) ∧
      log.countP (Event.compares (str "10.0.0.7:1") 0 0) = 10 ∧
      log.countP (Event.compares (str "10.0.0.7:1") 0 0) ≤ loadRateLimitCount := by
  have hrun : (plainMachine.exec guesses).map
      (fun r ↦ r.2.countP (Event.compares (str "10.0.0.7:1") 0 0)) = some 10 := by
    decide +kernel
  obtain ⟨⟨s, log⟩, hexec, hcount⟩ := Option.map_eq_some_iff.mp hrun
  exact ⟨s, log, hexec, hcount, (enroll_token_guesses hexec (by decide)).1⟩

end LunaZTrust.Proxy.Administration
