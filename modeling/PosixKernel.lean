import PosixKernel.Accepting
import PosixKernel.Credentials
import PosixKernel.Dispositions
import PosixKernel.FailedCreate
import PosixKernel.ForkRoundTrip
import PosixKernel.HostHandles
import PosixKernel.LineEditing
import PosixKernel.ListenerClose
import PosixKernel.LockPaths
import PosixKernel.MappingRuns
import PosixKernel.MaskRuns
import PosixKernel.MqueueHolders
import PosixKernel.MqueueIdentity
import PosixKernel.MqueueOrder
import PosixKernel.NetHandles
import PosixKernel.OpenWaits
import PosixKernel.PipeQueue
import PosixKernel.PipeRuns
import PosixKernel.PollScratch
import PosixKernel.Positioned
import PosixKernel.PtyEnds
import PosixKernel.RefCount
import PosixKernel.Semaphores
import PosixKernel.SharedThreads
import PosixKernel.SignalQueues
import PosixKernel.SysvMessages
import PosixKernel.TemporaryMasks
import PosixKernel.TerminalSignals
import PosixKernel.Timeouts
import PosixKernel.Timerfds
import PosixKernel.DescriptorNumbers
import PosixKernel.Eventfds
import PosixKernel.PathResolution
import PosixKernel.DeviceQueues
import PosixKernel.Lifecycle
