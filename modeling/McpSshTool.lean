import McpSshTool.Connector.ReadsOnly
import McpSshTool.Http.SessionLimit
import McpSshTool.Remote.ActionDeadlines
import McpSshTool.Remote.ActionReplay
import McpSshTool.Remote.AgentTable
import McpSshTool.Remote.ApiAuthorisation
import McpSshTool.Remote.AuditReplay
import McpSshTool.Remote.EnrollmentRoundTrip
import McpSshTool.Remote.ExecutionOrigin
import McpSshTool.Remote.OAuth.Logins
import McpSshTool.Remote.Operands
import McpSshTool.Remote.OutputCap
import McpSshTool.Remote.PathSafety
import McpSshTool.Remote.PolicyConvergence
import McpSshTool.Remote.PolicyLimits
import McpSshTool.Remote.PolicyRollback
import McpSshTool.Remote.ResultFrame
import McpSshTool.Remote.Tenancy.Isolation
import McpSshTool.Remote.WebSocketMessages
import McpSshTool.Remote.WebSocketSilence
import McpSshTool.Ssh.AtomicDownload
import McpSshTool.Ssh.BindHosts
import McpSshTool.Ssh.ConfigCache
import McpSshTool.Ssh.Confinement
import McpSshTool.Ssh.DenyPrefixes
import McpSshTool.Ssh.FailedOpens
import McpSshTool.Ssh.InnerShells
import McpSshTool.Ssh.MakeDirectories
import McpSshTool.Ssh.PathSoundness
import McpSshTool.Ssh.PowerShellQuoting
import McpSshTool.Ssh.PrivilegedVariants
import McpSshTool.Ssh.RateLimiter
import McpSshTool.Ssh.ReadTransports
import McpSshTool.Ssh.RedactedMessages
import McpSshTool.Ssh.Retry
import McpSshTool.Ssh.SessionAccounting
import McpSshTool.Ssh.ShellListing
import McpSshTool.Ssh.StreamChunking
import McpSshTool.Ssh.SudoCoverage
import McpSshTool.Ssh.TrustOnFirstUse
import McpSshTool.Ssh.TunnelClosing
import McpSshTool.Ssh.WorkingDirectory
