import Nucleo.L1Encoding.BenchmarkCsv
import Nucleo.L2Machine.Epoch
import Nucleo.L2Machine.Frame
import Nucleo.L2Machine.Control
import Nucleo.L2Machine.ReplyBudget
import Nucleo.L2Machine.Profiling
import Nucleo.L2Machine.Publications
import Nucleo.L2Machine.Tenant
import Nucleo.L3Protocol.LeaseSafety
import Nucleo.L3Protocol.Equivalence
import Nucleo.L3Protocol.Capacity
import Nucleo.L2Machine.Confirm
import Nucleo.L3Protocol.Staging
import Nucleo.L1Encoding.CsvGrammar
import Nucleo.L1Encoding.PyFraming
import Nucleo.L1Encoding.PeerValidators
import Nucleo.L2Machine.CommandPolicy
import Nucleo.L2Machine.Publishers
import Nucleo.L2Machine.Freshness
import Nucleo.L1Encoding.CheckContract
import Nucleo.L2Machine.RunReport
import Nucleo.Core.Binary64
import Nucleo.L3Protocol.SoakLoop
import Nucleo.L2Machine.Pacing
import Nucleo.L2Machine.Histogram
import Nucleo.L3Protocol.IntervalEvidence
import Nucleo.L2Machine.Truncation
import Nucleo.L2Machine.StopAndWait
import Nucleo.L2Machine.DeviceStreams
import Nucleo.Core.Dwell
import Nucleo.L3Protocol.StreamReplay
import Nucleo.L2Machine.Expiry
import Nucleo.L3Protocol.Reconcile
import Nucleo.L2Machine.Commands
import Nucleo.L2Machine.Sendable
import Nucleo.L1Encoding.Protobuf
import Nucleo.L1Encoding.RoundTrip
import Nucleo.L3Protocol.Coordinator
import Nucleo.L3Protocol.BootChecks
