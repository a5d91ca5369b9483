import AegisGate.Config.Grammar
import AegisGate.Gateway.MailboxCapacity
import AegisGate.Health.Migration
import AegisGate.Health.OutcomeCapacity
import AegisGate.Health.OutcomeDelivery
import AegisGate.Health.ProbeClaims
import AegisGate.Http.HeadReframing
import AegisGate.Http.RequestRoundTrip
import AegisGate.Net.Buffer
import AegisGate.Net.EventLoop
import AegisGate.Net.ResponseOrder
import AegisGate.Observability.LogAccounting
import AegisGate.Observability.WriterWakes
import AegisGate.Proxy.Cancellation
import AegisGate.Proxy.ConnectionAccount
import AegisGate.Proxy.DeadlineAttempt
import AegisGate.Proxy.DeadlineBound
import AegisGate.Proxy.RequestForwarding
import AegisGate.Proxy.Streaming
import AegisGate.Proxy.StreamingRead
import AegisGate.Proxy.Terminal
import AegisGate.Resilience.CreditPool
import AegisGate.Resilience.Inflight
import AegisGate.Resilience.TokenBucket
import AegisGate.Resilience.WindowAccounting
import AegisGate.Runtime.Fairness
import AegisGate.Runtime.LastLease
import AegisGate.Runtime.LeaseConservation
import AegisGate.Runtime.RateLimit
import AegisGate.Runtime.ReloadThreads
import AegisGate.Runtime.ReloadWatcher
import AegisGate.Runtime.RouteChoice
import AegisGate.Runtime.Terminals
import AegisGate.Runtime.WorkerQueue
