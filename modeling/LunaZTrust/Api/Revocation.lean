import LunaZTrust.Api.LoadQuota
import LunaZTrust.Cli.StoreHistory

/-!
# Revoking a workstation

`handleCLIKeysLoad` looks the client certificate up in the registry of workstations before it
reads the body.  Once the workstation is deleted, its certificate is refused there
until it is enrolled again (`cli_revocation`).
-/

namespace LunaZTrust.Api

open LunaZTrust.Go LunaZTrust.Cli LunaZTrust.Config LunaZTrust.Transition

variable {PublicKey PrivateKey : Type} {crypto : Crypto} {x509 : X509 PublicKey PrivateKey}
  {lib : KeysLoadLibrary} {cfg : Config} {s : Cli.Store}

/-- The codes with which a client certificate is refused. -/
def certRefusals : List String := ["FORBIDDEN_ADMIN", "FORBIDDEN_CLI_CERT", "UNKNOWN_DEVICE"]

/-- A certificate that is not registered is refused, whatever is in the body. -/
theorem readCLIKeysLoad_of_unknown {r : HttpRequest} {raw : Bytes} {rest : List Bytes}
    (hpeer : r.peerCertificates = raw :: rest)
    (hnone : cliDeviceFromPeer crypto s (peerCertificate x509 raw) = none) :
    ∃ e : KeysLoadError, e.status = Http.statusForbidden ∧ e.code ∈ certRefusals ∧
      ∀ body bodyFails, readCLIKeysLoad crypto x509 lib cfg s
        { r with body := body, bodyFails := bodyFails } = .error e := by
  simp only [readCLIKeysLoad, hpeer, hnone]
  split
  · exact ⟨_, rfl, by decide, fun _ _ ↦ rfl⟩
  · split
    · exact ⟨_, rfl, by decide, fun _ _ ↦ rfl⟩
    · exact ⟨_, rfl, by decide, fun _ _ ↦ rfl⟩

variable {as : List (Time × Store.Call)} {clock now₀ : Time} {log : Store.History}

/-- **A deleted workstation is refused.**  After any calls of `Enroll` and `Delete`, no two devices
have one fingerprint, and a lookup by fingerprint finds the device that was enrolled with it last
and has not been deleted, in whatever order the map is gone through.  From the deletion of the
device enrolled with a certificate until the next enrollment with it, `handleCLIKeysLoad`
refuses the certificate, whatever the body is.  An enrollment that is refused changes
nothing. -/
theorem cli_revocation (h : (Store.object.machine now₀).exec as = some ((s, clock), log)) :
    (∀ id id' dev dev', AList.lookup id s = some dev → AList.lookup id' s = some dev' →
      dev.certFingerprint = dev'.certFingerprint → id = id') ∧
    (∀ fp order, order.Perm s.list →
      (∀ dev, Store.find order fp = some dev ↔ Store.Live log fp dev) ∧
      (Store.find order fp = none ↔ ∀ dev, ¬Store.Live log fp dev)) ∧
    (∀ (cert : Certificate) pre p post dev, log = pre ++ p :: post →
      Store.Live pre (certFingerprint crypto cert) dev → Store.Deleted dev.id p →
      (∀ q ∈ post, ∀ dev', ¬Store.Enrolled (certFingerprint crypto cert) dev' q) →
        ∀ cfg (r : HttpRequest) raw rest, r.peerCertificates = raw :: rest →
          peerCertificate x509 raw = cert →
          ∃ e : KeysLoadError, e.status = Http.statusForbidden ∧ e.code ∈ certRefusals ∧
            ∀ body bodyFails, readCLIKeysLoad crypto x509 lib cfg s
              { r with body := body, bodyFails := bodyFails } = .error e) ∧
    ∀ (s : Cli.Store) label fp id now e s', s.enroll label fp id now = (.error e, s') → s' = s := by
  have hreg := Store.exec_registers h
  have hnone : ∀ fp order, order.Perm s.list →
      (Store.find order fp = none ↔ ∀ dev, ¬Store.Live log fp dev) := by
    intro fp order horder
    rw [Option.eq_none_iff_forall_ne_some]
    exact forall_congr' fun dev ↦ not_congr (hreg.find_eq_some_iff horder)
  refine ⟨hreg.unique, fun fp order horder ↦ ⟨fun dev ↦ hreg.find_eq_some_iff horder,
    hnone fp order horder⟩, ?_, ?_⟩
  · intro cert pre p post dev hlog hlive hp hpost cfg r raw rest hpeer hcert
    refine readCLIKeysLoad_of_unknown hpeer ?_
    rw [hcert]
    refine (hnone _ _ (List.Perm.refl _)).mpr fun dev' ↦ ?_
    rw [hlog]
    exact Store.not_live_of_deleted hlive hp hpost
  · intro s label fp id now e s' henroll
    rcases s.enroll_cases label fp id now with ⟨e', hsame⟩ | ⟨-, hok⟩
    · exact (Prod.mk.inj (henroll.symm.trans hsame)).2
    · cases henroll.symm.trans hok

/-- The workstation is enrolled and deleted, and another one enrolled. -/
def enrollDelete : List (Time × Store.Call) :=
  [(0, .enroll (str "ws") (certFingerprint Crypto.plain (peerCertificate X509.plain
      LoadQuota.workstation)) (str "cli_1")),
    (1, .delete (str "cli_1")), (2, .enroll (str "ws") (str "other") (str "cli_2"))]

/-- The device it was enrolled as. -/
def deletedWorkstation : Device :=
  ⟨str "cli_1", str "ws", certFingerprint Crypto.plain (peerCertificate X509.plain
    LoadQuota.workstation), 0⟩

/-- Its requests are refused. -/
theorem cli_revocation_enrollDelete :
    ∃ s clock log, (Store.object.machine 0).exec enrollDelete = some ((s, clock), log) ∧
      s.list.map Device.id = [str "cli_2"] ∧
      ∃ e : KeysLoadError, e.code ∈ certRefusals ∧ ∀ body bodyFails,
        readCLIKeysLoad Crypto.plain X509.plain LoadQuota.plainLibrary LoadQuota.plainConfig s
          { LoadQuota.loadRequest 0 with body := body, bodyFails := bodyFails } = .error e := by
  have hrun : (Store.object.machine 0).exec enrollDelete = some _ := rfl
  refine ⟨_, _, _, hrun, by decide +kernel, ?_⟩
  have hlive : Store.Live [⟨0, _, .enroll (.ok deletedWorkstation)⟩]
      (certFingerprint Crypto.plain (peerCertificate X509.plain LoadQuota.workstation))
      deletedWorkstation :=
    ⟨[], _, [], rfl, ⟨⟨str "ws", str "cli_1", rfl⟩, rfl⟩, List.forall_mem_nil _⟩
  have hpost : ∀ q ∈ [(⟨2, .enroll (str "ws") (str "other") (str "cli_2"), .enroll (.ok
      ⟨str "cli_2", str "ws", str "other", 2⟩)⟩ : Performed Time Store.Call Store.Result)], 
      ∀ dev', ¬Store.Enrolled (certFingerprint Crypto.plain (peerCertificate X509.plain
        LoadQuota.workstation)) dev' q := by
    rw [List.forall_mem_singleton]
    intro dev' hq
    exact absurd (Store.enrolled_iff.mp hq).1 (by decide +kernel)
  obtain ⟨e, -, he, hread⟩ := (cli_revocation hrun).2.2.1 _ _ ⟨1, .delete (str "cli_1"), .delete
    (.ok ())⟩ _ deletedWorkstation rfl hlive ⟨rfl, rfl⟩ hpost LoadQuota.plainConfig
      (LoadQuota.loadRequest 0) LoadQuota.workstation [] rfl rfl
  exact ⟨e, he, hread⟩

end LunaZTrust.Api
