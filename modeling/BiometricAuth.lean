import BiometricAuth.Codec.AesInverse
import BiometricAuth.Codec.AesLoop
import BiometricAuth.Codec.Base64Loop
import BiometricAuth.Common.DriverList
import BiometricAuth.Common.DriverOps
import BiometricAuth.Common.FiledRows
import BiometricAuth.Common.FreeIndex
import BiometricAuth.Common.Gallery
import BiometricAuth.Common.Hotplug
import BiometricAuth.Common.IndexRuns
import BiometricAuth.Common.Messages
import BiometricAuth.Common.RenameFrame
import BiometricAuth.Common.SampleNo
import BiometricAuth.Common.StatusSetters
import BiometricAuth.Config.DiscoverRuns
import BiometricAuth.Config.Tool
import BiometricAuth.Daemon.Authorisation
import BiometricAuth.Daemon.Bodies
import BiometricAuth.Daemon.CaptureReply
import BiometricAuth.Daemon.CleanAll
import BiometricAuth.Daemon.DiscoveredStart
import BiometricAuth.Daemon.Interleaving
import BiometricAuth.Daemon.Recognition
import BiometricAuth.Daemon.Refusals
import BiometricAuth.Daemon.RenameReply
import BiometricAuth.Daemon.Sequential
import BiometricAuth.Daemon.StatusSignals
import BiometricAuth.Daemon.VerifyNothing
import BiometricAuth.Daemon.Visibility
import BiometricAuth.Driver.Budget
import BiometricAuth.Driver.Discover
import BiometricAuth.Driver.Enroll
import BiometricAuth.Driver.Idle
import BiometricAuth.Driver.KeyFile
import BiometricAuth.Driver.OpsTable
import BiometricAuth.Driver.SearchRounds
import BiometricAuth.Driver.Session
import BiometricAuth.Driver.SharedContext
import BiometricAuth.Driver.StopRace
import BiometricAuth.Driver.StopResult
import BiometricAuth.Driver.StopWait
import BiometricAuth.Driver.Verify
import BiometricAuth.Driver.Worded
import BiometricAuth.Lib.Announce
import BiometricAuth.Lib.FileSystem
import BiometricAuth.Lib.Uuid
import BiometricAuth.Storage.Atomic
import BiometricAuth.Storage.Clean
import BiometricAuth.Storage.Creation
import BiometricAuth.Storage.Directories
import BiometricAuth.Storage.Print
import BiometricAuth.Storage.ReaderUids
import BiometricAuth.Storage.RoundTrip
import BiometricAuth.Storage.UserFeatures
import BiometricAuth.Storage.UserUuid
import BiometricAuth.Storage.Utf8
