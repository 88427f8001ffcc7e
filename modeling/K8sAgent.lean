import K8sAgent.Lib.Interaction
import K8sAgent.Lib.Coupling
import K8sAgent.Lib.JsonTree
import K8sAgent.Lib.JsonPath
import K8sAgent.Lib.JsonText
import K8sAgent.Lib.JsonMachine
import K8sAgent.Lib.SharedTree
import K8sAgent.Lib.Encoding
import K8sAgent.Lib.Base64
import K8sAgent.Lib.FifoWindow
import K8sAgent.Lib.Greedy
import K8sAgent.Lib.Interleave
import K8sAgent.Lib.Lines
import K8sAgent.Lib.LineScanner
import K8sAgent.Lib.Outbox
import K8sAgent.Lib.Transition
import K8sAgent.Lib.Replica
import K8sAgent.Lib.Retry
import K8sAgent.Lib.VersionedStore
import K8sAgent.Lib.Journal
import K8sAgent.Protocol.Types
import K8sAgent.Protocol.Wire
import K8sAgent.Protocol.Config
import K8sAgent.Protocol.Env
import K8sAgent.Protocol.Sign
import K8sAgent.Protocol.Binding
import K8sAgent.Protocol.Validator
import K8sAgent.Receiver.NonceCache
import K8sAgent.Receiver.Process
import K8sAgent.Receiver.ReportQueue
import K8sAgent.Receiver.Replay
import K8sAgent.Receiver.Ideal
import K8sAgent.Receiver.Race
import K8sAgent.Receiver.Isolation
import K8sAgent.Channel.Pace
import K8sAgent.Channel.Client
import K8sAgent.Channel.Keepalive
import K8sAgent.Channel.Closing
import K8sAgent.Receiver.Poll
import K8sAgent.Executor.Unstructured
import K8sAgent.Executor.Drift
import K8sAgent.Executor.Stamp
import K8sAgent.Executor.Merge
import K8sAgent.Executor.Overlay
import K8sAgent.Executor.Adoption
import K8sAgent.Executor.Reconcile
import K8sAgent.Executor.Redeploy
import K8sAgent.Executor.Cluster
import K8sAgent.Executor.Apply
import K8sAgent.Executor.Handle
import K8sAgent.Executor.Requests
import K8sAgent.Executor.Conduct
import K8sAgent.Executor.Verbs
import K8sAgent.Executor.Outcomes
import K8sAgent.Executor.DryRun
import K8sAgent.Executor.Refusal
import K8sAgent.Executor.FailStop
import K8sAgent.Executor.Scope
import K8sAgent.Executor.Drain
import K8sAgent.Executor.Termination
import K8sAgent.Executor.Disclosure
import K8sAgent.Executor.Namespaces
import K8sAgent.Executor.DriftGate
import K8sAgent.Executor.Concurrent
import K8sAgent.Agent.Policy
import K8sAgent.Agent.Reports
import K8sAgent.Agent.Intake
import K8sAgent.Agent.Service
import K8sAgent.Informers.Manager
import K8sAgent.Informers.Redaction
import K8sAgent.Uploader.Spill
import K8sAgent.Uploader.Run
import K8sAgent.Uploader.Batching
import K8sAgent.Uploader.Budget
import K8sAgent.Uploader.SpillFaults
import K8sAgent.Uploader.Backoff
import K8sAgent.Uploader.Conservation
import K8sAgent.Uploader.Bound
import K8sAgent.Uploader.Order
import K8sAgent.Uploader.Seq
import K8sAgent.Uploader.Restart
import K8sAgent.Uploader.Queue
import K8sAgent.Agent.Inventory
import K8sAgent.Agent.Convergence
import K8sAgent.Agent.Exposure
import K8sAgent.Agent.Liveness
import K8sAgent.Channel.Frames
import K8sAgent.Lib.JsonCut
import K8sAgent.Protocol.Http
import K8sAgent.Server.Mock
import K8sAgent.Agent.EndToEnd
