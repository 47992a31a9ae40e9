import LunaZTrust.Cli.Csr

/-!
# Roles

`auth_cli.go` and `admin_handler.go` of `proxy/internal/api`: a client certificate has a
role if its subject names the role's organizational unit.

What is issued for automation has neither role.  What the enrollment signer issues has
the role of a command-line client and not that of an administrator exactly if the
configuration names the two roles and names them differently
(`enrolled_role_separation`), and `configFromViper` asks for neither.
-/

namespace LunaZTrust.Api

open LunaZTrust.Go LunaZTrust.Config LunaZTrust.Cli

/-- The subject of the certificate names the unit, if one is required at all. -/
def clientAllowed (requiredOU : GoString) (cert : Certificate) : Bool :=
  if requiredOU = [] then false
  else cert.subject.organizationalUnit.any (· == requiredOU)

/-- `cliClientAllowed`. -/
def cliClientAllowed (requiredOU : GoString) (cert : Certificate) : Bool :=
  clientAllowed requiredOU cert

/-- `adminClientAllowed`. -/
def adminClientAllowed (requiredOU : GoString) (cert : Certificate) : Bool :=
  clientAllowed requiredOU cert

theorem clientAllowed_iff {requiredOU : GoString} {cert : Certificate} :
    clientAllowed requiredOU cert = true ↔
      requiredOU ≠ [] ∧ requiredOU ∈ cert.subject.organizationalUnit := by
  rw [clientAllowed]
  split
  · next h => exact ⟨(nomatch ·), fun hne ↦ absurd h hne.1⟩
  · next h => rw [List.any_beq', List.contains_iff_mem, and_iff_right h]

/-! ## What is issued -/

variable {PublicKey PrivateKey : Type} {x509 : X509 PublicKey PrivateKey} {crypto : Crypto}
  {s : CSRSigner PrivateKey} {csrPEM : Bytes} {draw : Draw} {cert : Certificate} {pem : Bytes}
  {fp : GoString}

theorem organizationalUnit_of_signCSRWithTTL {csr : CertificateRequest PublicKey} {ttl : Duration}
    {subject : Name} (h : s.signCSRWithTTL x509 crypto csr ttl subject draw = .ok (cert, pem, fp)) :
    cert.subject.organizationalUnit = subject.organizationalUnit := by
  rw [CSRSigner.signCSRWithTTL] at h
  split at h
  · exact nomatch h
  · next der hder =>
      split at h
      · exact nomatch h
      · next cert' hcert =>
          obtain ⟨rfl, -⟩ := Prod.mk.inj (Except.ok.inj h)
          exact x509.parse_create hder hcert

/-- A certificate for automation names no unit. -/
theorem organizationalUnit_of_signAutomation
    (h : s.signAutomation x509 crypto csrPEM draw = .ok (cert, pem, fp)) :
    cert.subject.organizationalUnit = [] := by
  obtain ⟨csr, -, h⟩ := bind_eq_ok_iff.mp h
  obtain ⟨_, -, h⟩ := bind_eq_ok_iff.mp h
  exact organizationalUnit_of_signCSRWithTTL h

/-- A certificate for a command-line client names the unit the signer requires. -/
theorem organizationalUnit_of_sign (h : s.sign x509 crypto csrPEM draw = .ok (cert, pem, fp)) :
    cert.subject.organizationalUnit = [s.requiredOU] := by
  obtain ⟨csr, -, h⟩ := bind_eq_ok_iff.mp h
  obtain ⟨_, -, h⟩ := bind_eq_ok_iff.mp h
  exact organizationalUnit_of_signCSRWithTTL h

theorem requiredOU_of_newCSRSignerFromConfig {readFile : GoString → Option Bytes} {cfg : Config}
    (h : newCSRSignerFromConfig x509 readFile cfg = .ok (some s)) :
    s.requiredOU = requiredOU cfg := by
  rw [newCSRSignerFromConfig] at h
  split at h
  · exact nomatch h
  · split at h
    · exact nomatch h
    · obtain ⟨_, -, h⟩ := bind_eq_ok_iff.mp h
      obtain rfl := Option.some.inj (Except.ok.inj h)
      rfl

theorem adminClientOU_ne_nil {host : Host} {v : Viper} {cfg : Config}
    (h : configFromViper host v = .ok cfg) : cfg.adminClientOU ≠ [] := by
  rw [(configFromViper_eq_ok h).1, orDefault]
  split
  · exact (by decide +kernel : defaultAdminClientOU ≠ [])
  · next hne => exact hne

/-- The unit the signer requires is the one of the configuration, if that has one. -/
theorem requiredOU_eq {host : Host} {v : Viper} {cfg : Config}
    (h : configFromViper host v = .ok cfg) (hcli : cfg.cliClientOU ≠ []) :
    requiredOU cfg = cfg.cliClientOU := by
  have htrim : Strings.trimSpace cfg.cliClientOU = cfg.cliClientOU := by
    rw [(configFromViper_eq_ok h).2, Strings.trimSpace_trimSpace]
  rw [requiredOU, htrim, orDefault, if_neg hcli]

/-- **Role separation.**  With an accepted configuration, a certificate for automation has
neither role, and one from the enrollment signer has its role alone exactly if the
configuration names both roles and names them differently. -/
theorem enrolled_role_separation {host : Host} {v : Viper} {cfg : Config}
    (hcfg : configFromViper host v = .ok cfg) :
    (∀ (s : CSRSigner PrivateKey) csrPEM draw cert pem fp,
      s.signAutomation x509 crypto csrPEM draw = .ok (cert, pem, fp) →
        adminClientAllowed cfg.adminClientOU cert = false ∧
          cliClientAllowed cfg.cliClientOU cert = false) ∧
    ∀ readFile s csrPEM draw cert pem fp,
      newCSRSignerFromConfig x509 readFile cfg = .ok (some s) →
      s.sign x509 crypto csrPEM draw = .ok (cert, pem, fp) →
        (cliClientAllowed cfg.cliClientOU cert = true ∧
            adminClientAllowed cfg.adminClientOU cert = false ↔
          cfg.cliClientOU ≠ [] ∧ cfg.adminClientOU ≠ cfg.cliClientOU) := by
  constructor
  · intro s csrPEM draw cert pem fp hsign
    have hnone : ∀ ou, clientAllowed ou cert = false := by
      intro ou
      rw [← Bool.not_eq_true, clientAllowed_iff, organizationalUnit_of_signAutomation hsign]
      exact fun h ↦ List.not_mem_nil h.2
    exact ⟨hnone _, hnone _⟩
  · intro readFile s csrPEM draw cert pem fp hs hsign
    have hou := organizationalUnit_of_sign hsign
    rw [requiredOU_of_newCSRSignerFromConfig hs] at hou
    have hallowed : ∀ ou, clientAllowed ou cert = true ↔ ou ≠ [] ∧ ou = requiredOU cfg := by
      intro ou
      rw [clientAllowed_iff, hou, List.mem_singleton]
    rw [cliClientAllowed, adminClientAllowed, ← Bool.not_eq_true, hallowed, hallowed, and_assoc]
    refine and_congr_right fun hcli ↦ ?_
    rw [requiredOU_eq hcfg hcli, and_iff_right rfl, and_iff_right (adminClientOU_ne_nil hcfg)]

/-! ## Two configurations -/

/-- A host on which every file is there. -/
def plainHost : Host := ⟨fun _ ↦ some (60 * Time.second), fun _ ↦ true, some, str "control.sock"⟩

/-- Settings of a development setup with a certificate authority and the given unit for
command-line clients. -/
def roleSettings (cliClientOU : GoString) : Viper := fun key ↦
  if key = str "env" then str "dev"
  else if key = str "cli_client_ou" then cliClientOU
  else if key = str "mtls_ca_cert_path" then str "ca.crt"
  else if key = str "mtls_ca_key_path" then str "ca.key"
  else []

/-- The files of that authority. -/
def caFile (path : GoString) : Option Bytes := if path = str "ca.crt" then some [0] else some [1]

/-- With the units of the defaults every enrolled client has its role alone. -/
theorem enrolled_role_separation_default :
    ∃ cfg, configFromViper plainHost (roleSettings (str "luna-cli")) = .ok cfg ∧
      ∀ readFile s csrPEM draw cert pem fp,
        newCSRSignerFromConfig X509.plain readFile cfg = .ok (some s) →
        s.sign X509.plain Crypto.plain csrPEM draw = .ok (cert, pem, fp) →
          cliClientAllowed cfg.cliClientOU cert = true ∧
            adminClientAllowed cfg.adminClientOU cert = false := by
  have hroles : (configFromViper plainHost (roleSettings (str "luna-cli"))).toOption.map
      (fun cfg ↦ decide (cfg.cliClientOU ≠ [] ∧ cfg.adminClientOU ≠ cfg.cliClientOU)) =
        some true := by
    decide +kernel
  obtain ⟨cfg, hcfg, hne⟩ := Option.map_eq_some_iff.mp hroles
  cases hload : configFromViper plainHost (roleSettings (str "luna-cli")) with
  | error e => rw [hload] at hcfg; exact nomatch hcfg
  | ok cfg' =>
      rw [hload] at hcfg
      obtain rfl := Option.some.inj hcfg
      refine ⟨cfg', rfl, fun readFile s csrPEM draw cert pem fp hs hsign ↦ ?_⟩
      exact ((enrolled_role_separation hload).2 readFile s csrPEM draw cert pem fp hs hsign).mpr
        (of_decide_eq_true hne)

/-- Enroll a client whose request names the unit the configuration requires: the roles of the
certificate, as an administrator and as a command-line client. -/
def enrolledRoles (cliClientOU : GoString) : Option (Bool × Bool) :=
  match configFromViper plainHost (roleSettings cliClientOU) with
  | .error _ => none
  | .ok cfg =>
      match newCSRSignerFromConfig X509.plain caFile cfg with
      | .ok (some s) =>
          match s.sign X509.plain Crypto.plain s.requiredOU ⟨7, [], 0⟩ with
          | .ok (cert, _, _) =>
              some
                (adminClientAllowed cfg.adminClientOU cert, cliClientAllowed cfg.cliClientOU cert)
          | .error _ => none
      | _ => none

/-- With one unit for both roles an enrolled client is an administrator; with a blank unit it
is not even a command-line client. -/
theorem enrolled_roles_collapse :
    enrolledRoles (str "luna-admin") = some (true, true) ∧
      enrolledRoles (str " ") = some (false, false) := by
  decide +kernel

end LunaZTrust.Api
