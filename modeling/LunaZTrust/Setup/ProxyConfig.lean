import LunaZTrust.Go.Strings
import LunaZTrust.Yaml.DoubleQuoted

/-!
# The generated configuration

`renderProxyConfig` of `proxy/internal/setup/proxy_config.go`: the text of `proxy.yml`.  Most
values are written with the verb `%q`; the secrets are put between quotes by `yamlQuote`, which
escapes a quote and nothing else.

So a secret with a backslash is not what the proxy reads: the backslash and what follows it are
an escape, and one at the end takes the closing quote with it (`backslash_secrets_change`).
Neither are secrets with line breaks or other control characters, or that are not UTF-8.  All
others are read as they are (`secret_read_iff`).
-/

namespace LunaZTrust.Setup

open LunaZTrust.Go LunaZTrust.Yaml

/-- `ProxyConfigOptions`, as far as it is rendered. -/
structure ProxyConfigOptions where
  env : GoString
  hostname : GoString
  listenAddr : GoString
  signerMode : GoString
  keyPath : GoString
  telegramBotToken : GoString
  telegramChatID : GoString
  controlSocket : GoString
  controlSocketGroup : GoString
  adminClientOU : GoString
  approvalTimeout : GoString

/-- `config.DefaultCertsDir`. -/
def defaultCertsDir : GoString := str "/etc/luna/certs"

/-- `defaultPublicProxyURL`. -/
def defaultPublicProxyURL (hostname listenAddr : GoString) : GoString :=
  let port :=
    if Strings.hasPrefix listenAddr (str ":") then Strings.trimPrefix listenAddr (str ":")
    else str "8443"
  str "https://" ++ hostname ++ str ":" ++ port

/-- `yamlQuote`. -/
def yamlQuote (s : GoString) : GoString :=
  str "\"" ++ Strings.replaceAll s 0x22 (str "\\\"") ++ str "\""

section Render

-- the verb `%q` of `fmt`
variable (quoted : GoString → GoString) (enrollToken : GoString) (opts : ProxyConfigOptions)

/-- A value written with `%q`. -/
def quotedLine (key : String) (value : GoString) : GoString :=
  str key ++ str ": " ++ quoted value ++ str "\n"

/-- The comments about the host. -/
def hostnameComments : GoString :=
  if opts.hostname ≠ [] then
    str "# Public hostname: " ++ opts.hostname ++ str " (mTLS server certificate SAN)\n" ++
      (str "# Agent proxy_url: " ++ defaultPublicProxyURL opts.hostname opts.listenAddr ++ str "\n")
  else []

/-- `renderProxyConfig` up to the secrets. -/
def renderSettings : GoString :=
  str "# Luna Z-Trust — luna-proxy\n" ++ str "# Generated by luna-proxy setup\n" ++
  hostnameComments opts ++ str "#\n" ++
  (str "# Agent bootstrap: export LUNA_MTLS_ENROLL_TOKEN='" ++ enrollToken ++ str "'\n\n") ++
  (quotedLine quoted "env" opts.env ++ str "\n") ++
  quotedLine quoted "listen_addr" opts.listenAddr ++
  quotedLine quoted "control_socket" opts.controlSocket ++
  (quotedLine quoted "control_socket_group" opts.controlSocketGroup ++ str "\n") ++
  quotedLine quoted "signer_mode" opts.signerMode ++
  quotedLine quoted "key_path" opts.keyPath ++
  quotedLine quoted "admin_client_ou" opts.adminClientOU ++
  (str "approval_timeout: " ++ opts.approvalTimeout ++ str "\n\n")

/-- `renderProxyConfig` after the secrets. -/
def renderPaths : GoString :=
  str "# mTLS cert paths default to /etc/luna/certs/ after setup (override if --dir differs):\n" ++
  (str "# mtls_server_cert: " ++ defaultCertsDir ++ str "/server.crt\n") ++
  (str "# mtls_server_key: " ++ defaultCertsDir ++ str "/server.key\n") ++
  (str "# mtls_client_ca: " ++ defaultCertsDir ++ str "/ca.crt\n") ++
  (str "# mtls_ca_cert_path: " ++ defaultCertsDir ++ str "/ca.crt\n") ++
  (str "# mtls_ca_key_path: " ++ defaultCertsDir ++ str "/ca.key\n")

/-- `renderProxyConfig`. -/
def renderProxyConfig : GoString :=
  renderSettings quoted enrollToken opts ++
  (str "telegram_bot_token: " ++ yamlQuote opts.telegramBotToken ++ str "\n") ++
  (str "telegram_chat_id: " ++ yamlQuote opts.telegramChatID ++ str "\n\n") ++
  (str "mtls_enroll_token: " ++ yamlQuote enrollToken ++ str "\n\n") ++
  renderPaths

end Render

/-! ## The secrets -/

/-- The values between quotes. -/
inductive Secret
  | botToken
  | chatID
  | enrollToken
deriving DecidableEq, Repr

namespace Secret

/-- What stands before the value on its line. -/
def key : Secret → GoString
  | .botToken => str "telegram_bot_token: "
  | .chatID => str "telegram_chat_id: "
  | .enrollToken => str "mtls_enroll_token: "

/-- The value the operator has chosen. -/
def value (token : GoString) (opts : ProxyConfigOptions) : Secret → GoString
  | .botToken => opts.telegramBotToken
  | .chatID => opts.telegramChatID
  | .enrollToken => token

/-- The file before the line. -/
def before (quoted : GoString → GoString) (token : GoString) (opts : ProxyConfigOptions) :
    Secret → GoString
  | .botToken => renderSettings quoted token opts
  | .chatID =>
      renderSettings quoted token opts ++
        (str "telegram_bot_token: " ++ yamlQuote opts.telegramBotToken ++ str "\n")
  | .enrollToken =>
      renderSettings quoted token opts ++
        (str "telegram_bot_token: " ++ yamlQuote opts.telegramBotToken ++ str "\n") ++
        (str "telegram_chat_id: " ++ yamlQuote opts.telegramChatID ++ str "\n\n")

/-- The file after the closing quote. -/
def after (token : GoString) (opts : ProxyConfigOptions) : Secret → GoString
  | .botToken =>
      str "\n" ++ (str "telegram_chat_id: " ++ yamlQuote opts.telegramChatID ++ str "\n\n") ++
        (str "mtls_enroll_token: " ++ yamlQuote token ++ str "\n\n") ++ renderPaths
  | .chatID =>
      str "\n\n" ++ (str "mtls_enroll_token: " ++ yamlQuote token ++ str "\n\n") ++ renderPaths
  | .enrollToken => str "\n\n" ++ renderPaths

end Secret

variable {quoted : GoString → GoString} {token : GoString} {opts : ProxyConfigOptions}

/-- Where a secret stands in the file. -/
theorem renderProxyConfig_eq (k : Secret) :
    renderProxyConfig quoted token opts =
      k.before quoted token opts ++ k.key ++
        (yamlQuote (k.value token opts) ++ k.after token opts) := by
  cases k <;>
    simp only [renderProxyConfig, Secret.before, Secret.key, Secret.value, Secret.after,
      List.append_assoc]

theorem yamlQuote_append (s t : GoString) :
    yamlQuote s ++ t = 0x22 :: escapeQuotes s ++ 0x22 :: t := by
  rw [yamlQuote, List.append_assoc]
  rfl

/-- **What is read of a secret.**  The scalar that is written for it ends at the quote that was
written last and decodes to the secret, exactly if the secret is UTF-8 without backslashes and
without control characters other than the tab. -/
theorem secret_read_iff (k : Secret) :
    renderProxyConfig quoted token opts =
        k.before quoted token opts ++ k.key ++
          (yamlQuote (k.value token opts) ++ k.after token opts) ∧
      ∀ n, readDoubleQuoted n (yamlQuote (k.value token opts) ++ k.after token opts) =
          some (k.value token opts, k.after token opts) ↔
        Utf8.valid (k.value token opts) = true ∧
          ∀ b ∈ k.value token opts, b ≠ 0x5c ∧ (b = 0x09 ∨ 0x20 ≤ b) := by
  refine ⟨renderProxyConfig_eq k, fun n ↦ ?_⟩
  have hplain : ∀ b, plain b = true ↔ b ≠ 0x5c ∧ (b = 0x09 ∨ 0x20 ≤ b) := by
    intro b
    rw [plain, Bool.and_eq_true, Bool.or_eq_true, decide_eq_true_iff, decide_eq_true_iff,
      beq_iff_eq]
  rw [yamlQuote_append, readDoubleQuoted_iff]
  exact and_congr_right fun _ ↦ forall₂_congr fun b _ ↦ hplain b

/-- Options with a bot token, and defaults. -/
def optionsWithToken (botToken : GoString) : ProxyConfigOptions where
  env := str "production"
  hostname := []
  listenAddr := str ":8443"
  signerMode := str "local-ca"
  keyPath := str "/etc/luna/ca_key"
  telegramBotToken := botToken
  telegramChatID := str "42"
  controlSocket := str "/run/luna/control.sock"
  controlSocketGroup := str "luna-admin"
  adminClientOU := str "luna-admin"
  approvalTimeout := str "60s"

/-- The file from the bot token on. -/
def fromToken (botToken : GoString) : GoString :=
  yamlQuote botToken ++ Secret.botToken.after [] (optionsWithToken botToken)

/-- A backslash and a letter are read as a line break.  A backslash at the end takes the closing
quote for a part of the value, which then goes on into the next line, where it is not indented;
a reader that ignores this takes the quote before the chat id for the closing one. -/
theorem backslash_secrets_change :
    readDoubleQuoted 1 (fromToken (str "12:a\\nb")) =
        some (str "12:a\nb", Secret.botToken.after [] (optionsWithToken (str "12:a\\nb"))) ∧
      readDoubleQuoted 1 (fromToken (str "12:a\\")) = none ∧
      (readDoubleQuoted 0 (fromToken (str "12:a\\"))).map Prod.fst =
        some (str "12:a\" telegram_chat_id: ") := by
  decide +kernel

end LunaZTrust.Setup
