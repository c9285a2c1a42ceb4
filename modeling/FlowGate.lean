import FlowGate.Main
import FlowGate.Proofs.GateSafety
import FlowGate.Proofs.Ownership
import FlowGate.Proofs.WaitOutcomes
import FlowGate.Proofs.PlainQueue
import FlowGate.Proofs.CallOrder
import FlowGate.Proofs.GateMoves
import FlowGate.Proofs.CapacityBound
import FlowGate.Proofs.QueueLog
import FlowGate.Proofs.AbsentTicket
import FlowGate.Proofs.AbsentCaller
import FlowGate.Proofs.AbsentCallerSteps
import FlowGate.Proofs.ParallelSessions
import FlowGate.Proofs.NoTrace
import FlowGate.Proofs.GateRefill
import FlowGate.Proofs.RemovalOrder
import FlowGate.Proofs.CapacityChanges
import FlowGate.Proofs.SessionClock
import FlowGate.Proofs.SnapshotHoldings
import FlowGate.Proofs.GracePeriod
import FlowGate.Proofs.DemotedTicket
import FlowGate.Proofs.DemotedCaller
import FlowGate.Proofs.DemotedCallerSteps
import FlowGate.Proofs.DemotedCallerCourse
import FlowGate.Proofs.PriorityRaise
import FlowGate.Proofs.PollOrder
import FlowGate.Proofs.SessionTally
import FlowGate.Proofs.SimulationCleanup
import FlowGate.Proofs.SimulationProgress
import FlowGate.Proofs.EndpointOrder
import FlowGate.Proofs.ByteOrder
import FlowGate.Proofs.NumericOrder
import FlowGate.Proofs.SnapshotContents
import FlowGate.Proofs.SnapshotReading
import FlowGate.Proofs.ColumnAlignment
import FlowGate.Proofs.EndpointParts
import FlowGate.Proofs.WrittenNumbers
import FlowGate.Proofs.OptionGroups
import FlowGate.Proofs.EffectiveSettings
import FlowGate.Proofs.FiledPairs
import FlowGate.Proofs.SimulationSteps
import FlowGate.Proofs.SimulationFlows
