import RustDesk.Api.AccountExpiry
import RustDesk.Api.BatchUsers
import RustDesk.Api.CacheReads
import RustDesk.Api.CacheRoom
import RustDesk.Api.DeviceDeletion
import RustDesk.Api.DeviceSessions
import RustDesk.Api.LdapLookups
import RustDesk.Api.LegacySyncExact
import RustDesk.Api.LoginRequests
import RustDesk.Api.OauthBindings
import RustDesk.Api.OauthTokens
import RustDesk.Api.PasswordResetRuns
import RustDesk.Api.Scheduler
import RustDesk.Api.SharedCollections
import RustDesk.Api.TokenExpiry
import RustDesk.Api.Topology
import RustDesk.Client.AudioPlayback
import RustDesk.Client.HeldKeys
import RustDesk.Clipboard.ConstructFileList
import RustDesk.Clipboard.FileListRoundTrip
import RustDesk.Clipboard.HostileRequests
import RustDesk.Config.MalformedStorage
import RustDesk.Config.OptionLayers
import RustDesk.Config.PeerFileRoundTrip
import RustDesk.Config.Reencryption
import RustDesk.Config.ServerNames
import RustDesk.Config.TrustedDeviceRuns
import RustDesk.Connection.AuthSoundness
import RustDesk.Connection.CmApproval
import RustDesk.Connection.OsCredentialPolicy
import RustDesk.Connection.TemporaryPassword
import RustDesk.Connection.WrongGuessesInMinute
import RustDesk.FileTransfer.Compression
import RustDesk.FileTransfer.Confinement
import RustDesk.Handshake.Agreement
import RustDesk.Handshake.LoginToken
import RustDesk.Handshake.SessionSecrecy
import RustDesk.Net.Authenticity
import RustDesk.Net.DuplicateRequests
import RustDesk.Net.HttpProxy
import RustDesk.PortForward.TunnelBytes
import RustDesk.Portable.Package
import RustDesk.Server.IdentityBinding
import RustDesk.Server.IpBlocker
import RustDesk.Server.OnlineQuery
import RustDesk.Server.RawRelay
import RustDesk.Server.RelayScores
import RustDesk.Server.SecuredTcp
import RustDesk.Server.SessionLimit
import RustDesk.Server.SignedKeys
import RustDesk.Server.TcpFaults
import RustDesk.Server.WsPeers
import RustDesk.Services.CaptureDisplays
import RustDesk.Services.CodecNegotiation
import RustDesk.Services.DelayResponse
import RustDesk.Services.KeysDown
import RustDesk.Services.Snapshot
import RustDesk.Terminal.Reconnect
import RustDesk.Terminal.WholeCharacters
