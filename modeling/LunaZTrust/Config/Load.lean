import LunaZTrust.Go.Strings
import LunaZTrust.Go.Time

/-!
# The configuration

`proxy/internal/config`: the settings of the proxy as `configFromViper` reads, trims,
completes and checks them.  `viper` has merged defaults, files and environment
variables by then; it is a function from keys to strings.
-/

-- package `config` has a type `Config`
set_option linter.dupNamespace false

namespace LunaZTrust.Config

open LunaZTrust.Go LunaZTrust.Go.Strings

/-- `Config`. -/
structure Config where
  env : GoString
  approvalTimeout : Duration
  listenAddr : GoString
  telegramBotToken : GoString
  telegramWebhookSecret : GoString
  telegramChatID : GoString
  telegramUserIDs : GoString
  adminClientOU : GoString
  cliClientOU : GoString
  keyPath : GoString
  signerMode : GoString
  allowedTTLSeconds : List Int
  mtlsServerCert : GoString
  mtlsServerKey : GoString
  mtlsClientCA : GoString
  mtlsCACertPath : GoString
  mtlsCAKeyPath : GoString
  mtlsEnrollToken : GoString
  fcmCredentials : GoString
  controlSocket : GoString
  controlSocketGroup : GoString
deriving DecidableEq, Repr

/-- What loading takes from the operating system and the standard library. -/
structure Host where
  /-- `time.ParseDuration`. -/
  parseDuration : GoString → Option Duration
  /-- Whether `os.Stat` finds the path. -/
  stat : GoString → Bool
  /-- `filepath.Abs`, cleaned. -/
  abs : GoString → Option GoString
  /-- `DefaultControlSocket`. -/
  defaultControlSocket : GoString

/-- `viper.Viper`, through `GetString`. -/
abbrev Viper := GoString → GoString

/-- The errors of loading. -/
inductive ConfigError
  | approvalTimeout
  | missing (names : List String)
  | abs (name : String)
  | testdataCA (name : String) (path : GoString)
  | stat (name : String) (path : GoString)
deriving DecidableEq, Repr

/-- `defaultListenAddr`. -/
def defaultListenAddr : GoString := str ":8443"

/-- `defaultAdminClientOU`. -/
def defaultAdminClientOU : GoString := str "luna-admin"

/-- `defaultSignerMode`. -/
def defaultSignerMode : GoString := str "local-key"

/-- `defaultAllowedTTLSeconds`. -/
def defaultAllowedTTLSeconds : List Int := [180, 300, 900]

/-- `ProductionControlSocket`. -/
def productionControlSocket : GoString := str "/run/luna/control.sock"

/-- `isDevOrTestEnv`. -/
def isDevOrTestEnv (env : GoString) : Bool :=
  trimSpace env == str "dev" || trimSpace env == str "test"

/-- A setting, or what is used in its place if it is empty. -/
def orDefault (value fallback : GoString) : GoString := if value = [] then fallback else value

/-- `ProductionCertPath`. -/
def productionCertPath (name : GoString) : GoString := str "/etc/luna/certs/" ++ name

/-- `devCertPath`. -/
def devCertPath (host : Host) (name : GoString) : GoString :=
  if host.stat (str "testdata/ca/" ++ name) then str "testdata/ca/" ++ name
  else if host.stat (str "../../testdata/ca/" ++ name) then str "../../testdata/ca/" ++ name
  else str "testdata/ca/" ++ name

/-- `applyMTLSDefaults`. -/
def applyMTLSDefaults (host : Host) (cfg : Config) : Config :=
  if isDevOrTestEnv cfg.env then
    { cfg with
      mtlsServerCert := orDefault cfg.mtlsServerCert (devCertPath host (str "server.crt"))
      mtlsServerKey := orDefault cfg.mtlsServerKey (devCertPath host (str "server.key"))
      mtlsClientCA := orDefault cfg.mtlsClientCA (devCertPath host (str "ca.crt")) }
  else
    { cfg with
      mtlsServerCert := orDefault cfg.mtlsServerCert (productionCertPath (str "server.crt"))
      mtlsServerKey := orDefault cfg.mtlsServerKey (productionCertPath (str "server.key"))
      mtlsClientCA := orDefault cfg.mtlsClientCA (productionCertPath (str "ca.crt"))
      mtlsCACertPath := orDefault cfg.mtlsCACertPath (productionCertPath (str "ca.crt"))
      mtlsCAKeyPath := orDefault cfg.mtlsCAKeyPath (productionCertPath (str "ca.key")) }

/-- `applyRuntimeDefaults`. -/
def applyRuntimeDefaults (host : Host) (cfg : Config) : Config :=
  { cfg with
    controlSocketGroup := orDefault cfg.controlSocketGroup (str "luna-admin")
    controlSocket := orDefault cfg.controlSocket
      (if isDevOrTestEnv cfg.env then host.defaultControlSocket else productionControlSocket) }

/-- `rejectTestdataCAPath`, followed by the check that the file is there. -/
def checkPath (host : Host) (name : String) (path : GoString) : Except ConfigError Unit :=
  match host.abs path with
  | none => .error (.abs name)
  | some abs =>
      if contains abs (str "/testdata/ca/") then .error (.testdataCA name path)
      else if !host.stat path then .error (.stat name path)
      else .ok ()

/-- `validateMTLS`. -/
def validateMTLS (host : Host) (cfg : Config) : Except ConfigError Unit :=
  if isDevOrTestEnv cfg.env then .ok ()
  else
    let missing :=
      (if cfg.mtlsServerCert = [] then ["mtls_server_cert (LUNA_MTLS_SERVER_CERT)"] else []) ++
      (if cfg.mtlsServerKey = [] then ["mtls_server_key (LUNA_MTLS_SERVER_KEY)"] else []) ++
      (if cfg.mtlsClientCA = [] then ["mtls_client_ca (LUNA_MTLS_CLIENT_CA)"] else [])
    if missing ≠ [] then .error (.missing missing)
    else do
      checkPath host "mtls_server_cert" cfg.mtlsServerCert
      checkPath host "mtls_server_key" cfg.mtlsServerKey
      checkPath host "mtls_client_ca" cfg.mtlsClientCA

/-- The settings as they are read, before any default is applied. -/
def readConfig (v : Viper) (approvalTimeout : Duration) : Config where
  env := trimSpace (v (str "env"))
  approvalTimeout := approvalTimeout
  listenAddr := trimSpace (v (str "listen_addr"))
  telegramBotToken := trimSpace (v (str "telegram_bot_token"))
  telegramWebhookSecret := trimSpace (v (str "telegram_webhook_secret"))
  telegramChatID := trimSpace (v (str "telegram_chat_id"))
  telegramUserIDs := trimSpace (v (str "telegram_user_ids"))
  adminClientOU := trimSpace (v (str "admin_client_ou"))
  cliClientOU := trimSpace (v (str "cli_client_ou"))
  keyPath := trimSpace (v (str "key_path"))
  signerMode := trimSpace (v (str "signer_mode"))
  allowedTTLSeconds := defaultAllowedTTLSeconds
  mtlsServerCert := trimSpace (v (str "mtls_server_cert"))
  mtlsServerKey := trimSpace (v (str "mtls_server_key"))
  mtlsClientCA := trimSpace (v (str "mtls_client_ca"))
  mtlsCACertPath := trimSpace (v (str "mtls_ca_cert_path"))
  mtlsCAKeyPath := trimSpace (v (str "mtls_ca_key_path"))
  mtlsEnrollToken := trimSpace (v (str "mtls_enroll_token"))
  fcmCredentials := trimSpace (v (str "fcm_credentials"))
  controlSocket := trimSpace (v (str "control_socket"))
  controlSocketGroup := trimSpace (v (str "control_socket_group"))

/-- `configFromViper`.  The defaults of the listen address, the administrators' OU and
the signer mode are applied to blank settings as well as to missing ones; the OU of
the command-line clients has no such default. -/
def configFromViper (host : Host) (v : Viper) : Except ConfigError Config := do
  let approvalTimeout ←
    match host.parseDuration (v (str "approval_timeout")) with
    | none => throw .approvalTimeout
    | some d => pure d
  let cfg := readConfig v approvalTimeout
  let cfg := { cfg with
    listenAddr := orDefault cfg.listenAddr defaultListenAddr
    adminClientOU := orDefault cfg.adminClientOU defaultAdminClientOU
    signerMode := orDefault cfg.signerMode defaultSignerMode }
  let cfg := applyRuntimeDefaults host (applyMTLSDefaults host cfg)
  validateMTLS host cfg
  return cfg

/-! ## The two roles -/

variable {host : Host} {cfg : Config}

/-- The defaults of paths and sockets leave the roles alone. -/
theorem adminClientOU_applyDefaults :
    (applyRuntimeDefaults host (applyMTLSDefaults host cfg)).adminClientOU = cfg.adminClientOU := by
  rw [applyRuntimeDefaults, applyMTLSDefaults]
  split <;> rfl

theorem cliClientOU_applyDefaults :
    (applyRuntimeDefaults host (applyMTLSDefaults host cfg)).cliClientOU = cfg.cliClientOU := by
  rw [applyRuntimeDefaults, applyMTLSDefaults]
  split <;> rfl

/-- An accepted configuration names the two roles as they are set, with the default
for an administrators' OU that is blank. -/
theorem configFromViper_eq_ok {v : Viper} (h : configFromViper host v = .ok cfg) :
    cfg.adminClientOU = orDefault (trimSpace (v (str "admin_client_ou"))) defaultAdminClientOU ∧
      cfg.cliClientOU = trimSpace (v (str "cli_client_ou")) := by
  rw [configFromViper] at h
  split at h
  · exact nomatch h
  · obtain ⟨_, -, h⟩ := bind_eq_ok_iff.mp h
    obtain ⟨_, -, h⟩ := bind_eq_ok_iff.mp h
    obtain rfl := Except.ok.inj h
    rw [adminClientOU_applyDefaults, cliClientOU_applyDefaults, readConfig]
    exact ⟨rfl, rfl⟩

end LunaZTrust.Config
