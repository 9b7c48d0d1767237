import LowLatency.Basic
import LowLatency.LFQueue.Basic
import LowLatency.LFQueue.Spsc
import LowLatency.LFQueue.Progress
import LowLatency.MemPool.Basic
import LowLatency.MemPool.Run
import LowLatency.MemPool.Heap
import LowLatency.Logger.Element
import LowLatency.Logger.Format
import LowLatency.Logger.Flush
import LowLatency.Logger.Shutdown
import LowLatency.Logger.Delivery
import LowLatency.Socket.Create
import LowLatency.Socket.Mcast
import LowLatency.Socket.McastRun
import LowLatency.Reactor.Poll
import LowLatency.Reactor.Tick
import LowLatency.Thread.Affinity
