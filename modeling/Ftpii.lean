import Ftpii.StateProgram
import Ftpii.Ownership
import Ftpii.CString
import Ftpii.Components
import Ftpii.Scanf
import Ftpii.Platform
import Ftpii.Files
import Ftpii.Console
import Ftpii.Net
import Ftpii.Partitions
import Ftpii.VirtualPath
import Ftpii.AbsPath
import Ftpii.Commands
import Ftpii.Server
import Ftpii.NetFootprint
import Ftpii.Footprint
import Ftpii.EventFootprint
import Ftpii.Handles
import Ftpii.ClientTable
import Ftpii.Runs
import Ftpii.ServerFootprint
import Ftpii.Framing
import Ftpii.Histories
import Ftpii.ControlStream
import Ftpii.PeerIdentity
import Ftpii.Tenancy
import Ftpii.Replying
import Ftpii.ReplyDiscipline
import Ftpii.Authentication
import Ftpii.DataSetup
import Ftpii.RestartMarker
import Ftpii.Alike
import Ftpii.Parties
import Ftpii.PassivePorts
import Ftpii.FreshSession
import Ftpii.Renaming
import Ftpii.Sending
import Ftpii.DataTraffic
import Ftpii.FailedSends
import Ftpii.ExactTransfer
import Ftpii.Uploads
import Ftpii.Downloads
import Ftpii.Confinement
import Ftpii.PathBounds
import Ftpii.Resolution
import Ftpii.RootListing
import Ftpii.Directories
import Ftpii.OpenFiles
import Ftpii.ClientSockets
import Ftpii.OpenSockets
import Ftpii.SocketModes
import Ftpii.OwnStreams
import Ftpii.OwnSockets
import Ftpii.Isolation
import Ftpii.Connections
import Ftpii.FileAccess
import Ftpii.ActivePort
import Ftpii.Words
import Ftpii.Tokenizer
import Ftpii.SplitBuffers
import Ftpii.Passwords
import Ftpii.Buffers
import Ftpii.Offsets
import Ftpii.AddressSpace
import Ftpii.DolImage
import Ftpii.RemountMachine
import Ftpii.DeviceMonitor
import Ftpii.DiscMount
import Ftpii.MainProgram
import Ftpii.Resources
import Ftpii.Loader
