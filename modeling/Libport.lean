import Libport.Lib.Action
import Libport.Lib.Text
import Libport.Common.Utils
import Libport.Proto.Message
import Libport.Server.Metadata
import Libport.Server.Manager
import Libport.Server.Plan
import Libport.Server.Registry
import Libport.Server.Dispatch
import Libport.Server.Robustness
import Libport.Server.Privilege
import Libport.Server.Verdict
import Libport.Server.Acceptance
import Libport.Server.Speaker
import Libport.Common.Transfer
import Libport.Lib.Bytes
import Libport.Proto.Comm
import Libport.Server.Session
import Libport.Server.Transport
import Libport.Server.PeerCred
import Libport.Lib.OrderedMap
import Libport.Lib.Segments
import Libport.PortManager.Def
import Libport.PortManager.Partition
import Libport.Client.Post
import Libport.Client.Ports
import Libport.Lib.Ledger
import Libport.PortManager.Change
import Libport.PortManager.Coalesce
import Libport.PortManager.History
import Libport.PortManager.Complete
import Libport.Lib.Run
import Libport.Server.Concurrent
import Libport.Server.Failure
import Libport.Client.Endorse
import Libport.Server.Framing
import Libport.Server.Lifecycle
import Libport.Client.Release
import Libport.PortManager.Canonical
import Libport.Lib.Padding
import Libport.PortManager.Degenerate
import Libport.PortManager.Reads
import Libport.Server.Deletion
import Libport.Server.ObjectAcl
import Libport.Client.Lookup
import Libport.Client.Bookkeeping
import Libport.Client.Config
import Libport.Server.Lengths
import Libport.Lib.Numeral
import Libport.Common.Numeral
import Libport.Server.Serialization
import Libport.Server.Malformed
import Libport.Server.Names
import Libport.Server.Identity
import Libport.Lib.Pump
import Libport.Common.Loops
import Libport.Lib.Scan
import Libport.Tools.MetadataStub
import Libport.Tools.Resolution
import Libport.Tools.Updates
import Libport.Server.Accept
import Libport.Server.Stream
import Libport.Client.Call
import Libport.Client.Remote
import Libport.Tools.Grants
import Libport.Tools.Addresses
import Libport.Tools.Backed
import Libport.Tools.Policy
import Libport.Tools.Client
import Libport.Tools.Decisions
import Libport.Tools.EndToEnd
import Libport.Client.Init
import Libport.Tools.Ownership
import Libport.Client.Startup
import Libport.Tools.Unregistered
import Libport.Server.Instances
import Libport.Lib.Linearize
import Libport.Server.Linearizable
import Libport.Server.Logging
import Libport.Client.Worker
