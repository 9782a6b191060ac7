import Int2Dds.Discovery.Liveliness
import Int2Dds.History.CoherentSets
import Int2Dds.History.MirroredHistories
import Int2Dds.Infrastructure.LostWakeup
import Int2Dds.Reader.AckMonotone
import Int2Dds.Reader.Overflow
import Int2Dds.Rtps.Duration
import Int2Dds.Shm.Fifo
import Int2Dds.Shm.Interleaving
import Int2Dds.Sql.Between
import Int2Dds.Sql.Exactness
import Int2Dds.Subscription.Autopurge
import Int2Dds.Subscription.InstanceRecords
import Int2Dds.Subscription.OrderBy
import Int2Dds.Subscription.OrderedAccess
import Int2Dds.Subscription.TimerOwners
import Int2Dds.System.Acknowledgement
import Int2Dds.System.Batches
import Int2Dds.System.FragmentBudget
import Int2Dds.System.FragmentPlan
import Int2Dds.System.Reassembly
import Int2Dds.Tcp.Chunking
import Int2Dds.Writer.SendPlan
import Int2Dds.Writer.WriterLimits
import Int2Dds.XTypes.CdrReaders
import Int2Dds.XTypes.DependencyPages
import Int2Dds.XTypes.DynamicSerialization
import Int2Dds.XTypes.KeyRoundTrip
import Int2Dds.XTypes.TypeRegistry
