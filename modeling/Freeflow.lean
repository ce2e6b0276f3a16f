import Freeflow.Lib.Run
import Freeflow.Lib.Fifo
import Freeflow.Lib.KeyMap
import Freeflow.Lib.Buckets
import Freeflow.Lib.Heap
import Freeflow.Lib.Chain
import Freeflow.Lib.Slots
import Freeflow.Lib.Trace
import Freeflow.Lib.ParserRules
import Freeflow.Lib.StateParser
import Freeflow.Flowpath.Ring
import Freeflow.Flowpath.Hash
import Freeflow.Flowpath.Correctness.RingFifo
import Freeflow.Flowpath.Correctness.HashMap
import Freeflow.Flowpath.Correctness.HashSafety
import Freeflow.Flowpath.Correctness.HashGrowth
import Freeflow.Flowpath.Correctness.HashOrder
import Freeflow.Flowpath.Correctness.HashUpdate
import Freeflow.Json.Correctness.Bounds
import Freeflow.Json.Grammar
import Freeflow.Json.Correctness.Reading
import Freeflow.Json.Correctness.Soundness
import Freeflow.Json.Correctness.RoundTrip
import Freeflow.Json.Correctness.Tally
import Freeflow.Json.Correctness.Documented
import Freeflow.Json.Correctness.Nodes
import Freeflow.Json.Correctness.Completeness
import Freeflow.Json.Correctness.Rfc
import Freeflow.Json.Object
import Freeflow.Json.Correctness.Lookup
import Freeflow.Json.Correctness.MapKeys
import Freeflow.Json.Correctness.Build
import Freeflow.Json.Document
import Freeflow.Json.Correctness.Built
import Freeflow.Json.Correctness.Chains
import Freeflow.Flowmgr.Correctness.Listeners
import Freeflow.Flowmgr.Correctness.Replies
import Freeflow.Flowmgr.Correctness.Encoding
import Freeflow.Flowmgr.Correctness.Missing
import Freeflow.Flowmgr.Correctness.Arena
import Freeflow.Flowctl.Command
import Freeflow.Flowctl.Correctness.Arguments
import Freeflow.Memory.Allocator
import Freeflow.Memory.Correctness.Disjoint
import Freeflow.Flowpath.Correctness.Framing
import Freeflow.Flowpath.Correctness.StaleReply
import Freeflow.Flowpath.Nadk
import Freeflow.Flowpath.Correctness.NadkReceive
import Freeflow.Flowpath.NadkSend
import Freeflow.Flowpath.Correctness.NadkTransmit
import Freeflow.Flowpath.Correctness.BufferRelease
import Freeflow.Flowpath.Port
import Freeflow.Flowpath.Correctness.PortIds
import Freeflow.Flowpath.Dataplane
import Freeflow.Flowpath.Wire
import Freeflow.Flowpath.Correctness.DataplaneMap
import Freeflow.Flowpath.Correctness.DataplaneSteps
import Freeflow.Flowpath.Correctness.UpDown
import Freeflow.Flowpath.Correctness.ActiveWire
import Freeflow.Flowpath.Correctness.WirePorts
import Freeflow.Flowpath.Correctness.PortList
import Freeflow.Flowpath.Correctness.Forwarding
import Freeflow.Flowpath.Cleanup
import Freeflow.Flowpath.Correctness.FailedLoad
import Freeflow.Flowpath.Requests
import Freeflow.Flowpath.Correctness.Names
import Freeflow.Flowpath.Correctness.PortAdd
import Freeflow.Flowpath.Correctness.PortDelete
import Freeflow.Flowpath.HashNodes
import Freeflow.Flowpath.HashTrace
import Freeflow.Flowpath.Correctness.HashRemove
import Freeflow.Flowpath.Correctness.HashLog
import Freeflow.Flowpath.Correctness.HashTermination
import Freeflow.Flowpath.Udp
import Freeflow.Flowpath.Correctness.UdpNames
import Freeflow.Flowpath.NadkInit
import Freeflow.Flowpath.Correctness.NadkPorts
import Freeflow.Flowpath.Correctness.RingRemove
import Freeflow.Flowpath.Correctness.PortSearch
import Freeflow.Flowpath.Correctness.Management
import Freeflow.Lib.Pipe
import Freeflow.Stack.Exchange
import Freeflow.Stack.Correctness.Exchange
import Freeflow.Flowmgr.Correctness.Clients
import Freeflow.Flowmgr.Reply
import Freeflow.Stack.Command
import Freeflow.Stack.Correctness.Translation
import Freeflow.Stack.Correctness.Session
import Freeflow.Flowpath.Correctness.Relay
import Freeflow.Flowpath.Correctness.UdpPackets
import Freeflow.Flowpath.Correctness.WireRelay
import Freeflow.Flowctl.Correctness.SearchPath
import Freeflow.Flowpath.Correctness.Main
import Freeflow.Flowpath.Correctness.NadkDirect
import Freeflow.Memory.Correctness.Release
import Freeflow.Flowpath.HashMemory
import Freeflow.Flowpath.Correctness.HashLeak
