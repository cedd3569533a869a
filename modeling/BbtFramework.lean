import BbtFramework.Library.Machine
import BbtFramework.Library.Program
import BbtFramework.Library.Interference
import BbtFramework.Library.Table
import BbtFramework.Library.DepthFirst
import BbtFramework.Library.Tally
import BbtFramework.Library.Totals
import BbtFramework.Library.Trim
import BbtFramework.Library.Decimal
import BbtFramework.Library.FieldText
import BbtFramework.Library.RoundRobin
import BbtFramework.Library.Waiter
import BbtFramework.Library.WaitList
import BbtFramework.Library.KeyedStacks
import BbtFramework.Library.IndexedRows
import BbtFramework.Library.IntegerText
import BbtFramework.Library.Gate
import BbtFramework.Library.Holders
import BbtFramework.Error
import BbtFramework.Coroutine
import BbtFramework.App.Registry
import BbtFramework.App.EntryTable
import BbtFramework.App.World
import BbtFramework.App.Operations
import BbtFramework.App.Role
import BbtFramework.App.Conduct
import BbtFramework.App.Effects
import BbtFramework.App.Steps
import BbtFramework.App.System
import BbtFramework.App.Admission
import BbtFramework.App.Aging
import BbtFramework.App.Edges
import BbtFramework.App.ScopeConfinement
import BbtFramework.App.Progress
import BbtFramework.App.ProgressConduct
import BbtFramework.App.Transitions
import BbtFramework.App.StopComplete
import BbtFramework.App.StateBalance
import BbtFramework.App.StateAgreement
import BbtFramework.App.StopLog
import BbtFramework.App.StopOrder
import BbtFramework.App.DependencyCycles
import BbtFramework.App.Generations
import BbtFramework.App.Accounts
import BbtFramework.App.Drained
import BbtFramework.App.BorrowAccounting
import BbtFramework.App.BorrowWaits
import BbtFramework.App.ComponentTable
import BbtFramework.App.TableAgreement
import BbtFramework.App.Subjects
import BbtFramework.App.ServiceBindings
import BbtFramework.App.DeclaredBindings
import BbtFramework.App.QueuedStops
import BbtFramework.App.RetriedStop
import BbtFramework.App.HooksInFlight
import BbtFramework.App.OperationStems
import BbtFramework.App.OperationsApart
import BbtFramework.App.BorrowGate
import BbtFramework.App.BindingSubjects
import BbtFramework.App.OwnedScopes
import BbtFramework.App.Handles
import BbtFramework.App.HookContext
import BbtFramework.App.ShutdownWait
import BbtFramework.Rpc.Envelope
import BbtFramework.Ordered.Grant
import BbtFramework.Ordered.Ingress
import BbtFramework.Ordered.IngressCache
import BbtFramework.Ordered.IngressInvariant
import BbtFramework.Ordered.IngressRun
import BbtFramework.Ordered.IngressAtomicity
import BbtFramework.Ordered.CacheRemovals
import BbtFramework.Ordered.CacheRepresentation
import BbtFramework.Ordered.TracedRun
import BbtFramework.Ordered.IngressLedger
import BbtFramework.Ordered.IngressOrder
import BbtFramework.Ordered.IngressReplay
import BbtFramework.Ordered.IngressRevocation
import BbtFramework.Ordered.SequenceEnd
import BbtFramework.Ordered.Session
import BbtFramework.Ordered.SessionRegistry
import BbtFramework.Ordered.TicketNumbering
import BbtFramework.Ordered.SessionReaders
import BbtFramework.Ordered.OneSender
import BbtFramework.Rpc.CallSend
import BbtFramework.Rpc.RuntimeSend
import BbtFramework.Rpc.DynamicRoutes
import BbtFramework.Rpc.CallAtomicity
import BbtFramework.Rpc.Resend
import BbtFramework.Inbound.Request
import BbtFramework.Ordered.EndToEnd
import BbtFramework.Ordered.RequestDigest
import BbtFramework.Inbound.SequenceText
import BbtFramework.Inbound.Mailbox
import BbtFramework.Inbound.MailboxRun
import BbtFramework.Inbound.Dispatch
import BbtFramework.Rpc.HttpBridge
import BbtFramework.Inbound.CallBudget
import BbtFramework.Inbound.DispatchTickets
import BbtFramework.Inbound.DispatchOrder
import BbtFramework.Inbound.SettlementMoves
import BbtFramework.Inbound.Settlement
import BbtFramework.Inbound.TracedSettlement
import BbtFramework.Inbound.FaithfulReplay
import BbtFramework.Inbound.MetadataAgreement
import BbtFramework.Inbound.RequestScope
import BbtFramework.Inbound.AdmissionGate
import BbtFramework.Actor.Registry
import BbtFramework.Observe.Records
import BbtFramework.Observe.Barrier
import BbtFramework.Observe.SelfWait
import BbtFramework.Observe.TokenLifetime
import BbtFramework.Observe.DrainWakeups
import BbtFramework.Observe.DeliveryHistory
import BbtFramework.Observe.Delivery
import BbtFramework.Host.HandlerDrain
import BbtFramework.Host.HandlerGate
import BbtFramework.Host.ShutdownRequest
import BbtFramework.Host.Lifecycle
import BbtFramework.Host.ShutdownTrace
import BbtFramework.Host.ShutdownOrder
import BbtFramework.Host.CoApp
import BbtFramework.Host.ResourceClose
import BbtFramework.Host.ResourceLifecycle
import BbtFramework.Host.Services
import BbtFramework.Host.Binding
import BbtFramework.Host.Assembly
import BbtFramework.Host.AssemblyEnds
import BbtFramework.Host.LifeMoves
import BbtFramework.Host.Process
import BbtFramework.Host.ProcessDiscipline
import BbtFramework.Host.ProcessInvariant
import BbtFramework.Host.ProcessSteps
import BbtFramework.Host.ProcessLifecycle
import BbtFramework.Host.MonitorReports
import BbtFramework.Host.Monitors
import BbtFramework.Library.Methods
import BbtFramework.Host.EngineHost
import BbtFramework.Host.EngineSteps
import BbtFramework.Host.EngineThreads
import BbtFramework.Ecommerce.Storage
import BbtFramework.Ecommerce.Cluster
import BbtFramework.Ecommerce.Orders
import BbtFramework.Ecommerce.Agreement
import BbtFramework.Ecommerce.Replay
