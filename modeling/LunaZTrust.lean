import LunaZTrust.Agent.Connection
import LunaZTrust.Api.CliHandler
import LunaZTrust.Api.LeaseExpiry
import LunaZTrust.Api.LoadQuota
import LunaZTrust.Api.ReportedLease
import LunaZTrust.Api.Roles
import LunaZTrust.Approval.DroppedWait
import LunaZTrust.Approval.LeaseCommit
import LunaZTrust.Approval.Retention
import LunaZTrust.Auth.ReplayWindow
import LunaZTrust.Auth.UserAuthGrammar
import LunaZTrust.Cli.RateLimit
import LunaZTrust.Control.Exclusion
import LunaZTrust.Control.Framing
import LunaZTrust.Proxy.KeyIntegrity
import LunaZTrust.Telegram.Poller
import LunaZTrust.Telegram.Reports
import LunaZTrust.Api.Timestamp
import LunaZTrust.Go.Strconv
import LunaZTrust.Auth.Pop
import LunaZTrust.Approval.CallbackGrammar
import LunaZTrust.Telegram.Keyboard
import LunaZTrust.Telegram.Prompt
import LunaZTrust.Lease.History
import LunaZTrust.Auth.ReplayHistory
import LunaZTrust.Keystore.PendingBalance
import LunaZTrust.Keystore.PendingHistory
import LunaZTrust.Approval.Expiry
import LunaZTrust.Proxy.GrantedTTL
import LunaZTrust.Cli.RateLimitHistory
import LunaZTrust.Api.LockoutSources
import LunaZTrust.Api.Revocation
import LunaZTrust.Keystore.Naming
import LunaZTrust.Go.Json
import LunaZTrust.Api.KeysPendingHandler
import LunaZTrust.Telegram.Notifier
import LunaZTrust.Yaml.DoubleQuoted
import LunaZTrust.Setup.ProxyConfig
import LunaZTrust.Agent.Bootstrap
import LunaZTrust.Go.BitStrings
import LunaZTrust.Go.WhiteSpace
import LunaZTrust.Api.AdminHandler
import LunaZTrust.Telegram.Updates
import LunaZTrust.Transition.Simulation
import LunaZTrust.Control.Devices
import LunaZTrust.Proxy.Administration
import LunaZTrust.Proxy.Enrollment
import LunaZTrust.Agent.Sessions
import LunaZTrust.Approval.Results
import LunaZTrust.Proxy.Credentials
import LunaZTrust.Sdk.RemoteSigning
import LunaZTrust.Approval.Duties
import LunaZTrust.Approval.Liveness
import LunaZTrust.Proxy.Prompted
import LunaZTrust.Sdk.Capabilities
