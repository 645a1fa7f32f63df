import PWOSPF.Framework.SwapErase
import PWOSPF.Framework.HopDistance
import PWOSPF.Framework.FirstLeast
import PWOSPF.Framework.History
import PWOSPF.Framework.Lines
import PWOSPF.Framework.Execution
import PWOSPF.Framework.Bytes
import PWOSPF.Framework.OnesComplement
import PWOSPF.Framework.LastSeen
import PWOSPF.Framework.Leases
import PWOSPF.Framework.TimedMap
import PWOSPF.Framework.Tally
import PWOSPF.Framework.Flood
import PWOSPF.Framework.NextHops
import PWOSPF.Framework.Blocks
import PWOSPF.Framework.Gather
import PWOSPF.Packet.ByteOrder
import PWOSPF.Topology.State
import PWOSPF.Packet.Frame
import PWOSPF.Packet.Checksum
import PWOSPF.Packet.InetChecksum
import PWOSPF.Topology.Edit
import PWOSPF.Topology.WellFormed
import PWOSPF.Topology.Advert
import PWOSPF.Topology.AdvertSpec
import PWOSPF.Topology.MergeSpec
import PWOSPF.Topology.Pruning
import PWOSPF.Topology.Recording
import PWOSPF.Topology.Dijkstra
import PWOSPF.Topology.ShortestPaths
import PWOSPF.Topology.SmallestUnknown
import PWOSPF.Topology.Ftable
import PWOSPF.Topology.Routes
import PWOSPF.Topology.RouteData
import PWOSPF.Topology.Expiry
import PWOSPF.Topology.Additions
import PWOSPF.Subsystem.Handlers
import PWOSPF.Subsystem.HelloSpec
import PWOSPF.Subsystem.Runs
import PWOSPF.Subsystem.Symmetry
import PWOSPF.Subsystem.OwnSubnets
import PWOSPF.Subsystem.SupportedLinks
import PWOSPF.Subsystem.RouterExpiry
import PWOSPF.Subsystem.SenderOnly
import PWOSPF.Subsystem.Rebuilds
import PWOSPF.Subsystem.UsableHops
import PWOSPF.Subsystem.InStep
import PWOSPF.Subsystem.Packets
import PWOSPF.Subsystem.LsuFormat
import PWOSPF.Subsystem.HopCounts
import PWOSPF.Subsystem.LsuRelay
import PWOSPF.Subsystem.LsuSurvival
import PWOSPF.Subsystem.PacketRuns
import PWOSPF.Subsystem.Duplicates
import PWOSPF.Subsystem.Neighbors
import PWOSPF.Subsystem.ReadBounds
import PWOSPF.Subsystem.FloodStep
import PWOSPF.Subsystem.Silence
import PWOSPF.Subsystem.HelloFormat
import PWOSPF.Subsystem.Corruption
import PWOSPF.Subsystem.NeighborTable
import PWOSPF.Subsystem.LinkEdits
import PWOSPF.Subsystem.LinkExpiry
import PWOSPF.Subsystem.LinkReturn
import PWOSPF.Subsystem.LockDiscipline
import PWOSPF.Subsystem.Capacity
import PWOSPF.Firewall.FlowTable
import PWOSPF.Firewall.FlowRuns
import PWOSPF.Firewall.Admission
import PWOSPF.Firewall.RulesFile
import PWOSPF.Firewall.InterfacesFile
import PWOSPF.Arp.Cache
import PWOSPF.Arp.Buffers
import PWOSPF.Arp.HostUnreachable
import PWOSPF.Arp.Pending
import PWOSPF.Arp.OneCycle
import PWOSPF.Arp.Accounting
import PWOSPF.Arp.Flush
import PWOSPF.Arp.GivingUp
import PWOSPF.Arp.Input
import PWOSPF.Forwarding.RouteChoice
import PWOSPF.Forwarding.LongestPrefix
import PWOSPF.Forwarding.Icmp
import PWOSPF.Forwarding.Datagram
import PWOSPF.Forwarding.Gate
import PWOSPF.Forwarding.Replies
import PWOSPF.Forwarding.Paths
import PWOSPF.Forwarding.ForwardedDatagram
import PWOSPF.Forwarding.IcmpMessages
import PWOSPF.Forwarding.Answers
import PWOSPF.Forwarding.IcmpErrors
import PWOSPF.Forwarding.EchoReply
import PWOSPF.Area.Copies
import PWOSPF.Area.Network
import PWOSPF.Area.Neighbors
import PWOSPF.Area.Provenance
import PWOSPF.Area.Integrity
import PWOSPF.Area.Coverage
import PWOSPF.Area.HopByHop
import PWOSPF.Forwarding.Journey
import PWOSPF.Area.Delivery
import PWOSPF.Vns.Sha1
import PWOSPF.Vns.Sha1Spec
import PWOSPF.Vns.AuthReply
import PWOSPF.Vns.Commands
import PWOSPF.Vns.Session
import PWOSPF.Vns.Handshake
import PWOSPF.Vns.PacketMessages
import PWOSPF.Vns.Stations
import PWOSPF.Vns.Hardware
import PWOSPF.Vns.Conversation
import PWOSPF.Vns.Neighborhood
import PWOSPF.Vns.RouteFile
import PWOSPF.Vns.Template
