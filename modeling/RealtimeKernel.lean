import RealtimeKernel.Lib.Runs
import RealtimeKernel.KernelTrip
import RealtimeKernel.Rendezvous
import RealtimeKernel.Tournament
import RealtimeKernel.ServerLoops
import RealtimeKernel.ClockArithmetic
import RealtimeKernel.RefreshTimer
import RealtimeKernel.IdleReport
import RealtimeKernel.MessageCopies
import RealtimeKernel.PriorityQueues
import RealtimeKernel.StackBlocks
import RealtimeKernel.InterruptWakeups
import RealtimeKernel.LostTicks
import RealtimeKernel.ExactlyOnce
import RealtimeKernel.BoundedQueue
import RealtimeKernel.ChunkAddresses
import RealtimeKernel.InterruptEnables
import RealtimeKernel.Conversions
import RealtimeKernel.TaskLists
import RealtimeKernel.DelayQueues
import RealtimeKernel.Uart
import RealtimeKernel.K3Clients
import RealtimeKernel.PrintfIntegers
import RealtimeKernel.PrintfReads
import RealtimeKernel.KernelStops
import RealtimeKernel.ProcessTree
