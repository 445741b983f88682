import BurstIoT.Approximation
import BurstIoT.BlockFront
import BurstIoT.Burst
import BurstIoT.BurstDataset
import BurstIoT.CanonicalForm
import BurstIoT.CapturePieces
import BurstIoT.CheckArray
import BurstIoT.Chronology
import BurstIoT.Classifier
import BurstIoT.ClosestLabel
import BurstIoT.Combiner
import BurstIoT.Context
import BurstIoT.Converter
import BurstIoT.DatasetFiles
import BurstIoT.DatasetPaths
import BurstIoT.DeviceBurstGenerator
import BurstIoT.DeviceIds
import BurstIoT.Distance
import BurstIoT.DistanceBounds
import BurstIoT.DistanceMetric
import BurstIoT.DistanceRange
import BurstIoT.DistanceSymmetry
import BurstIoT.Division
import BurstIoT.DivisionLimits
import BurstIoT.Experiment
import BurstIoT.FlowOrder
import BurstIoT.Instrumentor
import BurstIoT.Isolation
import BurstIoT.KnownNames
import BurstIoT.Library.Confluence
import BurstIoT.Library.FloatRounding
import BurstIoT.Library.Interleaving
import BurstIoT.Library.MachineInt
import BurstIoT.Library.Memo
import BurstIoT.Library.MixedRadix
import BurstIoT.Library.Representatives
import BurstIoT.Library.RunningMinimum
import BurstIoT.Library.Runs
import BurstIoT.Library.Segments
import BurstIoT.Library.Separated
import BurstIoT.Library.Spelling
import BurstIoT.Library.TaskPool
import BurstIoT.Library.Tiling
import BurstIoT.LongTermExperiment
import BurstIoT.MergeChoices
import BurstIoT.MergeCoverage
import BurstIoT.MergeSeparation
import BurstIoT.MergeTies
import BurstIoT.MergeWeight
import BurstIoT.MergedBlock
import BurstIoT.NameFlow
import BurstIoT.NearestSearch
import BurstIoT.PacketDataset
import BurstIoT.ParallelPrediction
import BurstIoT.PlainPrediction
import BurstIoT.Prediction
import BurstIoT.PredictionOutcome
import BurstIoT.PredictionProgress
import BurstIoT.PredictionRaces
import BurstIoT.PredictionTasks
import BurstIoT.Profiling
import BurstIoT.Ranking
import BurstIoT.RawClasses
import BurstIoT.RawReading
import BurstIoT.ReadingInvariant
import BurstIoT.ReadingMoves
import BurstIoT.ReadingSafety
import BurstIoT.ReadingStart
import BurstIoT.Recall
import BurstIoT.Registry
import BurstIoT.Reloading
import BurstIoT.Reproducibility
import BurstIoT.ResultFiles
import BurstIoT.ResultLines
import BurstIoT.ResultTable
import BurstIoT.ScheduleIndependence
import BurstIoT.ScheduledExperiment
import BurstIoT.ScoreBookkeeping
import BurstIoT.ScoreDenominators
import BurstIoT.ScoreLog
import BurstIoT.SearchWindow
import BurstIoT.Separation
import BurstIoT.SplitVector
import BurstIoT.Stamps
import BurstIoT.StartTimes
import BurstIoT.Storing
import BurstIoT.StrictMerging
import BurstIoT.Tokens
import BurstIoT.TrainBounds
import BurstIoT.TrainOrder
import BurstIoT.TrainTable
import BurstIoT.Training
import BurstIoT.Verdicts
import BurstIoT.VoteShares
import BurstIoT.Votes
