import Vde.Proofs.ArpLookups
import Vde.Proofs.BitBlocks
import Vde.Proofs.BlockedPorts
import Vde.Proofs.CabPolls
import Vde.Proofs.ComLists
import Vde.Proofs.ConnectedRoutes
import Vde.Proofs.CryptcabAuth
import Vde.Proofs.DelayQueue
import Vde.Proofs.DhcpLeases
import Vde.Proofs.DhcpOptions
import Vde.Proofs.EventPairs
import Vde.Proofs.IplogTables
import Vde.Proofs.IpnBinds
import Vde.Proofs.IpnBroadcast
import Vde.Proofs.IpnInjectLock
import Vde.Proofs.IpnMembers
import Vde.Proofs.IpnPools
import Vde.Proofs.IpnReaders
import Vde.Proofs.IpnResizes
import Vde.Proofs.JobQueue
import Vde.Proofs.KernelHashBounds
import Vde.Proofs.KvdeForward
import Vde.Proofs.L3ArpCache
import Vde.Proofs.L3NextHop
import Vde.Proofs.LinkTable
import Vde.Proofs.MainPass
import Vde.Proofs.MarkovRows
import Vde.Proofs.MgmtTables
import Vde.Proofs.NsNames
import Vde.Proofs.NsQueueRuns
import Vde.Proofs.OlsrDgrams
import Vde.Proofs.OlsrFlooding
import Vde.Proofs.OlsrFreshness
import Vde.Proofs.PacketQueues
import Vde.Proofs.PortAccess
import Vde.Proofs.PortTables
import Vde.Proofs.QtimerRuns
import Vde.Proofs.QueuePlaces
import Vde.Proofs.RateLimits
import Vde.Proofs.RedLaw
import Vde.Proofs.RootElection
import Vde.Proofs.RouterFilter
import Vde.Proofs.SendChunks
import Vde.Proofs.SendUdpBounds
import Vde.Proofs.StreamBounds
import Vde.Proofs.TbfRates
import Vde.Proofs.TokenRate
import Vde.Proofs.TokenTimers
import Vde.Proofs.TunnelReplies
import Vde.Proofs.TypeTables
import Vde.Proofs.UdpSockets
import Vde.Proofs.UtmTemplates
import Vde.Proofs.VdeOpens
import Vde.Proofs.VdehistEdit
import Vde.Proofs.VdehistOutputs
import Vde.Proofs.VdemgmtEvents
import Vde.Proofs.VlanIsolation
import Vde.Proofs.VxlanInputs
import Vde.Proofs.VxlanOverlay
import Vde.Proofs.WirePair
