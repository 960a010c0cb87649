import PlayDiagram.Main
import PlayDiagram.Number.Exact
import PlayDiagram.Playback.Clock
import PlayDiagram.Play.Edit
import PlayDiagram.Wire.EncodePlayback
import PlayDiagram.Proofs.Play.PhaseEdits
import PlayDiagram.Proofs.Play.EditHistory
import PlayDiagram.Proofs.Playback.Compilation
import PlayDiagram.Proofs.Playback.LookBack
import PlayDiagram.Proofs.Playback.FrameOrder
import PlayDiagram.Proofs.Playback.Moves
import PlayDiagram.Proofs.Playback.Placement
import PlayDiagram.Proofs.Playback.ReferenceFrame
import PlayDiagram.Proofs.Playback.RollOver
import PlayDiagram.Proofs.Playback.ClockPosition
import PlayDiagram.Proofs.Playback.ClockEmbedding
import PlayDiagram.Proofs.Number.FiniteDouble
import PlayDiagram.Proofs.Number.ClampedDouble
import PlayDiagram.Proofs.Number.FiniteExtendedRat
import PlayDiagram.Proofs.Wire.RoundTrip
import PlayDiagram.Proofs.Wire.Decoded
import PlayDiagram.Proofs.Wire.SaveLoad
import PlayDiagram.Proofs.Wire.SavedEdits
import PlayDiagram.Proofs.Playback.ClockRuns
import PlayDiagram.Proofs.Playback.TickSize
import PlayDiagram.Proofs.Playback.TimeMap
import PlayDiagram.Proofs.Playback.ClockMap
import PlayDiagram.Proofs.Playback.Windows
import PlayDiagram.Proofs.Playback.SpeedChange
import PlayDiagram.Proofs.Playback.Seams
import PlayDiagram.Proofs.Play.FirstDefect
import PlayDiagram.Proofs.Playback.LocalEdits
import PlayDiagram.Proofs.Playback.BallCarriers
import PlayDiagram.Proofs.Playback.RestingPlace
import PlayDiagram.Proofs.Playback.NextPhase
import PlayDiagram.Proofs.Playback.ShownPosition
import PlayDiagram.Proofs.Playback.Redrawing
import PlayDiagram.Proofs.Play.FirstOwner
import PlayDiagram.Proofs.Playback.ObjectOrder
import PlayDiagram.Proofs.Play.Renaming
import PlayDiagram.Proofs.Playback.RenamedPlay
import PlayDiagram.Proofs.Playback.Completion
import PlayDiagram.Proofs.Playback.LayOut
import PlayDiagram.Proofs.Playback.Roots
import PlayDiagram.Proofs.Playback.Delays
import PlayDiagram.Proofs.Number.DoubleOrder
import PlayDiagram.Proofs.Number.DoubleRounding
import PlayDiagram.Proofs.Number.RoundedValue
import PlayDiagram.Proofs.Number.LawfulScalar
import PlayDiagram.Proofs.Number.DoubleSum
import PlayDiagram.Proofs.Play.Warnings
import PlayDiagram.Proofs.Playback.MappedEntries
import PlayDiagram.Proofs.Playback.DrawnPoints
import PlayDiagram.Proofs.Playback.ConnectedPaths
import PlayDiagram.Proofs.Playback.FirstPass
import PlayDiagram.Proofs.Playback.MutedPasses
import PlayDiagram.Proofs.Playback.WindowBounds
import PlayDiagram.Proofs.Playback.HandOverTime
import PlayDiagram.Proofs.Play.EditChecks
import PlayDiagram.Proofs.Play.RemovedObjects
import PlayDiagram.Proofs.Play.UndoneAdditions
import PlayDiagram.Proofs.Play.OnCourt
import PlayDiagram.Proofs.Playback.TrackPartition
import PlayDiagram.Proofs.Playback.GuardedFrames
import PlayDiagram.Proofs.Playback.GuardedClock
import PlayDiagram.Proofs.Playback.IneffectiveTicks
import PlayDiagram.Proofs.Playback.Dwells
import PlayDiagram.Proofs.Number.DoubleBounds
import PlayDiagram.Proofs.Playback.TimeRange
import PlayDiagram.Proofs.Playback.ClockOrder
import PlayDiagram.Proofs.CommandLine.Calls
import PlayDiagram.Proofs.CommandLine.WarningReport
import PlayDiagram.Proofs.Number.FixedText
import PlayDiagram.Proofs.CommandLine.FrameReport
import PlayDiagram.Proofs.Wire.Variations
import PlayDiagram.Proofs.Wire.Tolerance
