import Cant.Network.NetBuffer
import Cant.Network.Response
import Cant.Network.FlowControl
import Cant.Network.Parsers
import Cant.Network.BufferManager
import Cant.Network.MessageSender
import Cant.Protocols.IsotpLink
import Cant.Protocols.IsotpBounds
import Cant.Diagnostic.TransportErrors
import Cant.Diagnostic.Router
import Cant.Diagnostic.Filter
import Cant.Diagnostic.SessionManager
import Cant.Diagnostic.DiagSession
import Cant.Diagnostic.UdsLockout
import Cant.Diagnostic.UdsTimeout
import Cant.Diagnostic.SecurityManager
import Cant.Diagnostic.Security.SecurityManager
import Cant.Diagnostics.SessionManager
import Cant.Diagnostics.DtcHandler
import Cant.Memory.Tiling
import Cant.Memory.Reallocation
import Cant.Memory.Aligned
import Cant.Memory.PoolUsage
import Cant.Memory.MemPool
import Cant.Memory.RtClient
import Cant.Utils.CrcBursts
import Cant.Safety.E2EDetection
import Cant.Safety.E2EBounds
import Cant.Safety.Corruption
import Cant.Diagnostic.MemoryManager
import Cant.Diagnostic.DiagServices
import Cant.Diagnostic.DtcFreezeFrame
import Cant.Diagnostic.EventRound
import Cant.Diagnostic.SecureStorage
import Cant.Diagnostic.ResponseQueue
import Cant.Diagnostic.Data.DiagData
import Cant.Diagnostic.Data.DiagDataManager
import Cant.Diagnostic.DiagSecurity
import Cant.Diagnostic.Session.SessionFsm
import Cant.Protocols.J1939Session
import Cant.Safety.Watchdog
import Cant.Safety.FlowTiming
import Cant.Safety.FlowValidation
import Cant.Safety.FlowStack
import Cant.Safety.AliveStates
import Cant.Safety.FlashCrc
import Cant.Safety.RamTests
import Cant.Hardware.DmaRx
import Cant.Diagnostic.DiagRecorder
import Cant.Diagnostic.RouteTable
import Cant.Diagnostic.Statistics
import Cant.Watchdog.Watchdog
import Cant.Compiler.Optimizer
import Cant.Compiler.Semantic
