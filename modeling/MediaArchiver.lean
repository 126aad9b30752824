import MediaArchiver.Lib.Machine
import MediaArchiver.Lib.Table
import MediaArchiver.Lib.OutStream
import MediaArchiver.Lib.InStream
import MediaArchiver.Lib.Memory
import MediaArchiver.Server
import MediaArchiver.Store.SQLite
import MediaArchiver.Store.Statuses
import MediaArchiver.Store.AddFile
import MediaArchiver.Store.WellFormed
import MediaArchiver.Store.Reservation
import MediaArchiver.Store.Runs
import MediaArchiver.Store.Retries
import MediaArchiver.Store.Frame
import MediaArchiver.Store.Choice
import MediaArchiver.Store.Reports
import MediaArchiver.Store.Rediscovery
import MediaArchiver.Store.Settlement
import MediaArchiver.Lib.Script
import MediaArchiver.Store.Statements
import MediaArchiver.Store.Crashes
import MediaArchiver.Lib.SqlText
import MediaArchiver.Store.SqlTexts
import MediaArchiver.Lib.Matching
import MediaArchiver.Store.Pairing
import MediaArchiver.Lib.Text
import MediaArchiver.Lib.Paths
import MediaArchiver.Daemon.Names
import MediaArchiver.Watcher.Watcher
import MediaArchiver.Watcher.Vanished
import MediaArchiver.Watcher.Discovery
import MediaArchiver.Watcher.Moves
import MediaArchiver.Watcher.Tree
import MediaArchiver.Watcher.Deletion
import MediaArchiver.Watcher.NewFolders
import MediaArchiver.Watcher.Buffer
import MediaArchiver.Watcher.Poller
import MediaArchiver.Watcher.Delivery
import MediaArchiver.Watcher.Stop
import MediaArchiver.Daemon.Session
import MediaArchiver.Daemon.Upload
import MediaArchiver.Daemon.Mover
import MediaArchiver.Daemon.Connections
import MediaArchiver.Daemon.System
import MediaArchiver.Daemon.Sessions
import MediaArchiver.Daemon.Moves
import MediaArchiver.Lib.Shell
import MediaArchiver.Lib.Folders
import MediaArchiver.Daemon.MoveCommand
import MediaArchiver.Daemon.MoverLoop
import MediaArchiver.Daemon.Stopping
import MediaArchiver.Daemon.Ownership
import MediaArchiver.Daemon.Archives
import MediaArchiver.Daemon.Feedback
import MediaArchiver.Daemon.Discovery
import MediaArchiver.Daemon.ArchiveNames
import MediaArchiver.Lib.Exceptions
import MediaArchiver.Lib.Transactions
import MediaArchiver.Daemon.SqlErrors
import MediaArchiver.Store.Setup
import MediaArchiver.Store.Restarts
import MediaArchiver.Daemon.Handlers
import MediaArchiver.Daemon.Candidates
import MediaArchiver.Daemon.Custody
import MediaArchiver.Daemon.FileTimes
import MediaArchiver.Daemon.Release
import MediaArchiver.Daemon.Lengths
import MediaArchiver.Daemon.Calls
import MediaArchiver.Daemon.OneClient
import MediaArchiver.Daemon.Isolation
import MediaArchiver.Lib.Descriptors
import MediaArchiver.Daemon.CopyFile
import MediaArchiver.Client.Client
import MediaArchiver.Client.Encoder
import MediaArchiver.Client.Link
import MediaArchiver.Client.Process
import MediaArchiver.Client.Line
import MediaArchiver.Client.Handles
import MediaArchiver.Client.Runs
import MediaArchiver.Client.Authentication
import MediaArchiver.Client.Resources
import MediaArchiver.Client.Results
import MediaArchiver.Client.Verdict
import MediaArchiver.Client.Residue
import MediaArchiver.Client.TempFiles
import MediaArchiver.Client.Exceptions
import MediaArchiver.Client.Network
import MediaArchiver.Client.Idleness
import MediaArchiver.Client.Shutdown
import MediaArchiver.Client.Download
import MediaArchiver.Client.LateChunks
import MediaArchiver.Client.Transmit
import MediaArchiver.Client.Recovery
import MediaArchiver.Lib.Lines
import MediaArchiver.Config.ConfigFile
import MediaArchiver.Config.Settings
import MediaArchiver.Watcher.Setting
import MediaArchiver.Watcher.Startup
import MediaArchiver.Client.Jobs
import MediaArchiver.Client.Archival
import MediaArchiver.Client.Output
import MediaArchiver.Lib.Stdio
