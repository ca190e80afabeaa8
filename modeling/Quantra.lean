import Quantra.Journal.Entry
import Quantra.Journal.Ingestion
import Quantra.Journal.Query
import Quantra.Lib.Attempts
import Quantra.Lib.Bits
import Quantra.Lib.Changes
import Quantra.Lib.Climb
import Quantra.Lib.Effects
import Quantra.Lib.FileTree
import Quantra.Lib.Generations
import Quantra.Lib.HashChain
import Quantra.Lib.JsonText
import Quantra.Lib.LineFile
import Quantra.Lib.Nla
import Quantra.Lib.PathWalk
import Quantra.Lib.Settings
import Quantra.Lib.Sha256
import Quantra.Lib.Slots
import Quantra.Lib.Timeline
import Quantra.Lib.TpmCommand
import Quantra.Lib.Utf8
import Quantra.Logind.ActiveSession
import Quantra.Logind.Bridge
import Quantra.Logind.Cleanup
import Quantra.Logind.Deadlock
import Quantra.Logind.Delay
import Quantra.Logind.EventStream
import Quantra.Logind.HostnameLocale
import Quantra.Logind.Idling
import Quantra.Logind.Inhibition
import Quantra.Logind.Linger
import Quantra.Logind.PidLookup
import Quantra.Logind.Refusals
import Quantra.Logind.Utmp
import Quantra.Net.AutoConfig
import Quantra.Net.Batch
import Quantra.Net.Config
import Quantra.Net.Dhcp.Codec6
import Quantra.Net.Dhcp.Configured
import Quantra.Net.Dhcp.Timers
import Quantra.Net.DnsCache
import Quantra.Net.DnsResponse
import Quantra.Net.Fallback
import Quantra.Net.Firewall
import Quantra.Net.Framing
import Quantra.Net.LinkEvents
import Quantra.Net.Masquerade
import Quantra.Net.PeerAuth
import Quantra.Net.ResolvConf
import Quantra.Net.WifiCalls
import Quantra.Net.WifiConnect
import Quantra.Net.WifiScan
import Quantra.Net.WireGuard.Ack
import Quantra.Net.WireGuard.Key
import Quantra.Net.WireGuard.RoundTrip
import Quantra.Process.ActivationFds
import Quantra.Process.BoundingSet
import Quantra.Process.Capabilities
import Quantra.Process.Cidr
import Quantra.Process.IpFilter
import Quantra.Process.Limits
import Quantra.Process.NftFilter
import Quantra.Process.Quoting
import Quantra.Ramfs.LuksTiers
import Quantra.Ramfs.MeasuredBoot
import Quantra.Ramfs.NetworkBoot
import Quantra.Ramfs.RootStrategies
import Quantra.Ramfs.Roothash
import Quantra.Ramfs.Sha256
import Quantra.Ramfs.Switch
import Quantra.Ramfs.Tpm2
import Quantra.Ramfs.Tpm2Handles
import Quantra.Ramfs.Tpm2Wire
import Quantra.Ramfs.Uevent
import Quantra.Ramfs.Verity
import Quantra.Ramfs.VerityCmdline
import Quantra.Services.CalendarGrammar
import Quantra.Services.Chain
import Quantra.Services.CrashLoop
import Quantra.Services.Descriptors
import Quantra.Services.DynamicUser
import Quantra.Services.Enable
import Quantra.Services.Healthcheck
import Quantra.Services.LogTail
import Quantra.Services.Logger
import Quantra.Services.Markers
import Quantra.Services.Notify
import Quantra.Services.OnDemand
import Quantra.Services.Ownership
import Quantra.Services.Timer
import Quantra.Services.Validation
import Quantra.Signals.SelfPipe
import Quantra.Signals.Shutdown
import Quantra.Signals.Waiters
import Quantra.System.Coredump
import Quantra.System.FileCalls
import Quantra.System.MountUnits
import Quantra.System.TimeSync
import Quantra.System.Tmpfiles.Apply
import Quantra.System.Tmpfiles.Entry
import Quantra.System.Tmpfiles.ModeOwner
import Quantra.System.Tmpfiles.Wipe
