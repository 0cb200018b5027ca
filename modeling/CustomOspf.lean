import CustomOspf.KeepAlive
import CustomOspf.NextHops
import CustomOspf.Interleaving
import CustomOspf.Loops
import CustomOspf.ShortestPaths
import CustomOspf.Representation
import CustomOspf.Selection
import CustomOspf.Replay
import CustomOspf.Cancellation
import CustomOspf.Handlers
import CustomOspf.Locks
import CustomOspf.Lifecycle
import CustomOspf.QueryAnswers
import CustomOspf.Installs
import CustomOspf.SingleRoute
import CustomOspf.Metrics
import CustomOspf.Liveness
import CustomOspf.PendingRequests
import CustomOspf.Convergence
import CustomOspf.Delivery
import CustomOspf.Deadlines
import CustomOspf.SharedTable
import CustomOspf.ForeignRoutes
import CustomOspf.DataPlane
import CustomOspf.LiveTasks
import CustomOspf.History
import CustomOspf.UpdateSize
import CustomOspf.TaskConvergence
import CustomOspf.TaskDelivery
