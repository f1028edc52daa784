import ThesisTrace.Library.Execution
import ThesisTrace.Library.Transaction
import ThesisTrace.Library.Outcomes
import ThesisTrace.Library.OrdinalLog
import ThesisTrace.ResearchRun.Schema
import ThesisTrace.ResearchRun.Transactions
import ThesisTrace.ResearchRun.Lifecycle
import ThesisTrace.ResearchRun.Effects
import ThesisTrace.ResearchRun.Invariant
import ThesisTrace.ResearchRun.Fencing
import ThesisTrace.ResearchRun.CheckpointRelease
import ThesisTrace.ResearchRun.LockOrder
import ThesisTrace.ResearchBatch.Schema
import ThesisTrace.ResearchBatch.Transactions
import ThesisTrace.ResearchBatch.Lifecycle
import ThesisTrace.ResearchBatch.DeletedChildren
import ThesisTrace.Library.IndexLoop
import ThesisTrace.Library.OrderedMap
import ThesisTrace.Library.DecimalContext
import ThesisTrace.Library.Dataflow
import ThesisTrace.Library.SlidingWindow
import ThesisTrace.Library.Ranking
import ThesisTrace.Library.LockOrder
import ThesisTrace.Library.Pagination
import ThesisTrace.Strategy.Metrics
import ThesisTrace.Strategy.MetricsStreaming
import ThesisTrace.Strategy.Orders
import ThesisTrace.Strategy.Session
import ThesisTrace.Strategy.Execution
import ThesisTrace.Strategy.OrderExecution
import ThesisTrace.Strategy.SessionExecution
import ThesisTrace.Strategy.Conservation
import ThesisTrace.Strategy.Solvency
import ThesisTrace.Strategy.ChildOrders
import ThesisTrace.Strategy.Affordability
import ThesisTrace.Strategy.Reordering
import ThesisTrace.Strategy.Report
import ThesisTrace.Strategy.ChunkInvariance
import ThesisTrace.Alpha.Numeric
import ThesisTrace.Alpha.Builtins
import ThesisTrace.Alpha.Rolling
import ThesisTrace.Alpha.Expression
import ThesisTrace.Alpha.Typing
import ThesisTrace.Alpha.Plan
import ThesisTrace.Alpha.Compilation
import ThesisTrace.Alpha.Subexpressions
import ThesisTrace.Alpha.Evaluation
import ThesisTrace.Alpha.Meaning
import ThesisTrace.Alpha.BuiltinRefinement
import ThesisTrace.Alpha.ColumnarRefinement
import ThesisTrace.Alpha.RowRefinement
import ThesisTrace.Alpha.Shapes
import ThesisTrace.Alpha.RowShapes
import ThesisTrace.Alpha.Exposure
import ThesisTrace.Alpha.TypeSoundness
import ThesisTrace.Alpha.WindowDefinitions
import ThesisTrace.Alpha.Rounding
import ThesisTrace.Alpha.EvaluatorAgreement
import ThesisTrace.Alpha.Lookback
import ThesisTrace.Data.HeadSwap
import ThesisTrace.Data.HeadSwapAtomicity
import ThesisTrace.Publication.Tables
import ThesisTrace.Publication.Inventory
import ThesisTrace.Publication.Collection
import ThesisTrace.Publication.CollectionSafety
import ThesisTrace.Evidence.EventPages
import ThesisTrace.Evidence.EventPagination
import ThesisTrace.Library.AsOf
import ThesisTrace.Data.FinancialRows
import ThesisTrace.Data.FinancialSeries
import ThesisTrace.Data.FinancialStates
import ThesisTrace.Data.FinancialConsensus
import ThesisTrace.Data.FinancialTracking
import ThesisTrace.Data.FinancialAgreement
import ThesisTrace.Data.FinancialCache
import ThesisTrace.Data.FinancialNumbers
import ThesisTrace.Data.FinancialPointInTime
import ThesisTrace.Library.FirstError
import ThesisTrace.Factor.Labels
import ThesisTrace.Factor.LabelAgreement
import ThesisTrace.Library.Windows
import ThesisTrace.Factor.Chunks
import ThesisTrace.Factor.ChunkResolution
import ThesisTrace.Factor.ChunkIndependence
import ThesisTrace.Factor.Periods
import ThesisTrace.Factor.PeriodConsistency
import ThesisTrace.ResearchRun.Capacity
import ThesisTrace.ResearchRun.FairClaiming
import ThesisTrace.ResearchRun.Planning
import ThesisTrace.Evidence.HoldingPages
import ThesisTrace.Evidence.HoldingPagination
import ThesisTrace.Publication.Recorded
import ThesisTrace.Publication.Sweep
import ThesisTrace.Publication.SweepSafety
import ThesisTrace.Library.RatioText
import ThesisTrace.Library.DecimalText
import ThesisTrace.Strategy.PortfolioWeighting
import ThesisTrace.Strategy.WeightValidity
import ThesisTrace.Strategy.WeightSelection
import ThesisTrace.Strategy.RiskManagement
import ThesisTrace.Strategy.PortfolioDrawdown
import ThesisTrace.Strategy.DrawdownCycle
import ThesisTrace.Strategy.OneDirection
import ThesisTrace.Strategy.TargetReduction
import ThesisTrace.Strategy.FillConservation
import ThesisTrace.Strategy.TakeProfit
import ThesisTrace.Strategy.HoldingMoves
import ThesisTrace.Strategy.TakeProfitCycle
import ThesisTrace.Library.JsonText
import ThesisTrace.Library.JsonDepth
import ThesisTrace.Library.CanonicalJson
import ThesisTrace.DailyTrack.Slots
import ThesisTrace.DailyTrack.SlotSelection
import ThesisTrace.Library.LruCache
import ThesisTrace.Library.SortedRuns
import ThesisTrace.Data.HistoryProjection
import ThesisTrace.Data.HistoryTransparency
import ThesisTrace.DailyTrack.ObservationState
import ThesisTrace.ResearchRun.Queries
import ThesisTrace.ResearchRun.RunPagination
import ThesisTrace.DailyTrack.WorkingCache
import ThesisTrace.DailyTrack.CacheExactness
import ThesisTrace.ResearchRun.ResultSections
import ThesisTrace.ResearchRun.ResultPagination
import ThesisTrace.DailyTrack.RerunSources
import ThesisTrace.DailyTrack.Advances
import ThesisTrace.DailyTrack.CostConservation
import ThesisTrace.Data.LiquidityUniverses
import ThesisTrace.Evidence.HoldingSegments
import ThesisTrace.Evidence.SegmentMerging
import ThesisTrace.Data.CollectionResumption
import ThesisTrace.Data.VersionStability
import ThesisTrace.Data.IndicatorResolution
import ThesisTrace.Factor.AlphaMatrix
import ThesisTrace.Factor.PendingAlpha
import ThesisTrace.Library.PythonDecimal
import ThesisTrace.ResearchKernel.CanonicalDecimal
