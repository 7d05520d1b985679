import Klein.BarrierAlignerForward
import Klein.Coordinator.Transactions
import Klein.Coordinator.DomainSlots
import Klein.EdgeIncarnations
import Klein.RuntimeRescaleOutcomes
import Klein.RescaleFenceCut
import Klein.DeliveryLaneRecovery
import Klein.InboxPumpAgreement
import Klein.InboxPumpGates
import Klein.WeightedInbox
import Klein.State.PhysicalKeys
import Klein.EventTime.IntervalJoinRuns
import Klein.EventTime.AlignedWindows
import Klein.EventTime.SessionWindows
import Klein.State.KeyedStateRescaling
import Klein.InputBufferAdmission
import Klein.Graph.BarrierFlow
import Klein.Graph.UnionDelivery
import Klein.Dataflow.EdgeAccounting
import Klein.Dataflow.UdfPolicy
import Klein.Dataflow.EventTimestamps
import Klein.State.TimerLoop
import Klein.State.FiredTimers
import Klein.Sql.RegularJoin
import Klein.Sql.AggregateChangelog
import Klein.Sql.JsonPathMeaning
import Klein.Sql.RowEvaluator
import Klein.Sql.TopN
import Klein.Sql.LikePattern
import Klein.Kafka.CanalJsonResume
import Klein.Kafka.CanalJson
import Klein.JobManager.RescaleAnswers
import Klein.JobManager.RestartStrategy
import Klein.Dataflow.InputBatches
import Klein.Dataflow.RankReduce
import Klein.Dataflow.WireRows
import Klein.Dataflow.FilterOperator
import Klein.Dataflow.RowRouting
import Klein.CheckpointRoundTrip
import Klein.State.KeyGroupPartition
import Klein.Redis.RedisSinkRuns
