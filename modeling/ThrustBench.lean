import ThrustBench.Incident.Report
import ThrustBench.Launch
import ThrustBench.Main
import ThrustBench.Routine.Window
import ThrustBench.Session.Action
import ThrustBench.Watch
import ThrustBench.Proofs.Recognition
import ThrustBench.Proofs.Rendering
import ThrustBench.Proofs.ScriptLanguage
import ThrustBench.Proofs.Acts
import ThrustBench.Proofs.Jobs
import ThrustBench.Proofs.Running
import ThrustBench.Proofs.Cancellation
import ThrustBench.Proofs.Accepted
import ThrustBench.Proofs.RunHistory
import ThrustBench.Proofs.Completion
import ThrustBench.Proofs.Interleaving
import ThrustBench.Proofs.Latest
import ThrustBench.Proofs.WholeDoubles
import ThrustBench.Proofs.ChannelHistory
import ThrustBench.Proofs.Zeroing
import ThrustBench.Proofs.Commanded
import ThrustBench.Proofs.RecordedCells
import ThrustBench.Proofs.ScriptCommands
import ThrustBench.Proofs.HandRows
import ThrustBench.Proofs.Unrolling
import ThrustBench.Proofs.Endings
import ThrustBench.Proofs.Stopping
import ThrustBench.Proofs.ByteStream
import ThrustBench.Proofs.RoutineTerminals
import ThrustBench.Proofs.Productions
import ThrustBench.Proofs.RoutineReading
import ThrustBench.Proofs.RoutineTerms
import ThrustBench.Proofs.RoutineWriting
import ThrustBench.Proofs.CurrentPort
import ThrustBench.Proofs.SessionFrames
import ThrustBench.Proofs.ScriptButton
import ThrustBench.Proofs.ReaderLife
import ThrustBench.Proofs.NearestDoubles
import ThrustBench.Proofs.ShortestDecimals
import ThrustBench.Proofs.CellValues
import ThrustBench.Proofs.SheetRows
import ThrustBench.Proofs.RecordsInStep
import ThrustBench.Proofs.RunningTime
import ThrustBench.Proofs.LatestSamples
import ThrustBench.Proofs.ScriptRows
import ThrustBench.Proofs.ThreadSteps
import ThrustBench.Proofs.WindowThread
import ThrustBench.Proofs.OrderedDoubles
import ThrustBench.Proofs.LastGroup
import ThrustBench.Proofs.RecentHistory
import ThrustBench.Proofs.Framing
import ThrustBench.Proofs.Overlong
import ThrustBench.Proofs.ClosestDoubles
import ThrustBench.Proofs.DecimalReadings
import ThrustBench.Proofs.Waits
import ThrustBench.Proofs.Attempts
import ThrustBench.Proofs.Expectations
import ThrustBench.Proofs.Beginnings
import ThrustBench.Proofs.Mismatches
import ThrustBench.Proofs.RoutineNumbers
import ThrustBench.Proofs.BuiltRoutines
import ThrustBench.Proofs.LeadingZeros
