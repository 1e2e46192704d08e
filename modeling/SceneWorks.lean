import SceneWorks.Library.Json
import SceneWorks.Library.JsonNumber
import SceneWorks.Library.Float64
import SceneWorks.Library.JsonIndex
import SceneWorks.Library.Text
import SceneWorks.Library.Table
import SceneWorks.Library.Run
import SceneWorks.Library.Fallible
import SceneWorks.Library.Crash
import SceneWorks.Library.StableSort
import SceneWorks.Library.Framing
import SceneWorks.Contracts
import SceneWorks.Time
import SceneWorks.Ids
import SceneWorks.HfRepoId
import SceneWorks.JobsStore.VideoRouting
import SceneWorks.JobsStore.ClaimFacts
import SceneWorks.JobsStore.Rows
import SceneWorks.JobsStore.Lifecycle
import SceneWorks.JobsStore.Workers
import SceneWorks.JobsStore.Claim
import SceneWorks.JobsStore.Progress
import SceneWorks.JobsStore.Steps
import SceneWorks.JobsStore.Stats
import SceneWorks.JobsStore.Terminal
import SceneWorks.JobsStore.Termination
import SceneWorks.JobsStore.Ownership
import SceneWorks.JobsStore.GpuExclusive
import SceneWorks.JobsStore.Heartbeat
import SceneWorks.JobsStore.Fleet
import SceneWorks.JobsStore.Handoff
import SceneWorks.JobsStore.Reclaim
import SceneWorks.JobsStore.Freshness
import SceneWorks.JobsStore.Prioritize
import SceneWorks.JobsStore.Samples
import SceneWorks.JobsStore.Selection
import SceneWorks.JobsStore.Startup
import SceneWorks.JobsStore.Dispatch
import SceneWorks.WorkflowPng.Strip
import SceneWorks.WorkflowPng.Read
import SceneWorks.WorkflowPng.Walk
import SceneWorks.WorkflowPng.Excision
import SceneWorks.FilmTimeline.Reconcile
import SceneWorks.FilmTimeline.Metadata
import SceneWorks.FilmTimeline.Slots
import SceneWorks.FilmTimeline.Deliver
import SceneWorks.FilmTimeline.Marks
import SceneWorks.FilmTimeline.Merge
import SceneWorks.FilmTimeline.Frame
import SceneWorks.FilmTimeline.ShotView
import SceneWorks.FilmTimeline.Attempts
import SceneWorks.ProjectStore.Timelines
import SceneWorks.ProjectStore.Settle
import SceneWorks.ProjectStore.Savable
import SceneWorks.ProjectStore.TimelineFiles
import SceneWorks.ProjectStore.TimelineFrame
import SceneWorks.ProjectStore.Deletions
import SceneWorks.FilmTimeline.Replay
import SceneWorks.ResolvedCache.Journal
import SceneWorks.ResolvedCache.Metadata
import SceneWorks.ResolvedCache.Generations
import SceneWorks.ResolvedCache.Eviction
import SceneWorks.ResolvedCache.Convergence
import SceneWorks.Library.JsonRecord
import SceneWorks.Library.Reducer
import SceneWorks.WorkflowEnvelope.Labels
import SceneWorks.H3Veda
import SceneWorks.ImageRequest.Flux3
import SceneWorks.WorkflowEnvelope.Shapes
import SceneWorks.WorkflowEnvelope.Settles
import SceneWorks.WorkflowEnvelope.Envelope
import SceneWorks.WorkflowEnvelope.RoundTrip
import SceneWorks.Library.JsonTexts
import SceneWorks.WorkflowEnvelope.Locations
import SceneWorks.WorkflowEnvelope.Smuggling
import SceneWorks.FilmRun.Record
import SceneWorks.FilmRun.World
import SceneWorks.FilmRun.Attempts
import SceneWorks.FilmRun.Sound
import SceneWorks.FilmRun.Export
import SceneWorks.FilmRun.Actions
import SceneWorks.FilmRun.Calls
import SceneWorks.FilmRun.Evolution
import SceneWorks.FilmRun.Dispatch
import SceneWorks.FilmRun.Work
import SceneWorks.FilmRun.Invocations
import SceneWorks.FilmRun.Reachable
import SceneWorks.FilmRun.Selection
import SceneWorks.FilmRun.Apart
import SceneWorks.FilmRun.Verdict
import SceneWorks.Tickets
import SceneWorks.ModelCache
import SceneWorks.FilmRun.Lease
import SceneWorks.LoadProgress.Session
import SceneWorks.LoadProgress.Cancellation
import SceneWorks.LoadProgress.Consistency
import SceneWorks.Library.Debug
import SceneWorks.FilmCompile.Documents
import SceneWorks.FilmCompile.Pictures
import SceneWorks.FilmCompile.Assets
import SceneWorks.FilmCompile.References
import SceneWorks.Library.BigEndian
import SceneWorks.WorkflowMp4.Boxes
import SceneWorks.WorkflowMp4.Bounds
import SceneWorks.WorkflowMp4.Trees
import SceneWorks.Library.FirstSeen
import SceneWorks.Library.FloatText
import SceneWorks.FilmCompile.Prompt
import SceneWorks.FilmCompile.Compile
import SceneWorks.FilmCompile.Conformance
import SceneWorks.Library.DepthFirst
import SceneWorks.SvgSanitize.StaticSource
import SceneWorks.SvgSanitize.ReferenceGraph
import SceneWorks.SvgSanitize.Expansion
import SceneWorks.SvgSanitize.ExpansionBudget
import SceneWorks.Library.FloatReading
import SceneWorks.TimelineExport.Segments
import SceneWorks.TimelineExport.Clock
import SceneWorks.TimelineExport.Standing
import SceneWorks.TimelineExport.OnShot
import SceneWorks.ResolvedCache.Removal
import SceneWorks.ResolvedCache.Accounting
import SceneWorks.ResolvedCache.Retention
import SceneWorks.ResolvedCache.Sweep
import SceneWorks.ResolvedCache.Validation
import SceneWorks.ResolvedCache.Recovery
import SceneWorks.ResolvedCache.RecoverTwice
import SceneWorks.ResolvedCache.Liveness
import SceneWorks.Library.Window
import SceneWorks.SessionLog.Redact
import SceneWorks.SessionLog.Buffer
import SceneWorks.SessionLog.History
import SceneWorks.Library.Tiling
import SceneWorks.FilmAssembly.Delivery
import SceneWorks.FilmAssembly.Pictures
import SceneWorks.FilmAssembly.Sound
import SceneWorks.FilmAssembly.Arrivals
import SceneWorks.FilmAssembly.AnyOrder
import SceneWorks.H3Codec.Architecture
import SceneWorks.H3Codec.Bounds
import SceneWorks.Library.JsonString
import SceneWorks.WorkflowEnvelope.Parameters
import SceneWorks.WorkflowEnvelope.Gallery
import SceneWorks.WorkflowEnvelope.GalleryRoundTrip
import SceneWorks.WorkflowEnvelope.PhaseAim
import SceneWorks.Yue2Score.Abc
import SceneWorks.Yue2Score.ParseScore
import SceneWorks.Library.Covering
import SceneWorks.Yue2Score.Timeline
import SceneWorks.Library.CycleSearch
import SceneWorks.Library.Unfolding
import SceneWorks.FilmPlan.Dependencies
import SceneWorks.Jsonc
import SceneWorks.FilmCompile.Recovery
import SceneWorks.FilmCompile.Labels
import SceneWorks.Library.LittleEndian
import SceneWorks.Library.RangeSweep
import SceneWorks.Safetensors
import SceneWorks.Library.Utf8
import SceneWorks.TensorArtifact.Header
import SceneWorks.TensorArtifact.Readers
import SceneWorks.TensorArtifact.RoundTrip
import SceneWorks.SvgSanitize.Numbers
import SceneWorks.SvgSanitize.CanonicalElement
import SceneWorks.Library.Ledger
import SceneWorks.SvgSanitize.AttributeReading
import SceneWorks.SvgSanitize.AttributeOrder
import SceneWorks.Library.FirstRefusal
import SceneWorks.ResolvedCache.Listing
import SceneWorks.CheckpointStore.PlanStore
import SceneWorks.CheckpointStore.Teardown
import SceneWorks.Library.FixedDigits
import SceneWorks.Library.Gregorian
import SceneWorks.TimeRoundTrip
import SceneWorks.CheckpointImport.ExactInteger
import SceneWorks.Library.GreedyChoice
import SceneWorks.PersonTrack.Tracker
import SceneWorks.PersonTrack.Identities
import SceneWorks.PersonTrack.Rounds
import SceneWorks.Library.ForwardScan
import SceneWorks.Library.Rounding
import SceneWorks.PersonTrack.Sampling
import SceneWorks.FilmSequence.Layout
import SceneWorks.FilmSequence.Passes
import SceneWorks.FilmSequence.Relayout
import SceneWorks.FilmSequence.Sequence
import SceneWorks.ModelArtifacts.Closure
import SceneWorks.ModelArtifacts.Admission
import SceneWorks.ModelArtifacts.Canonical
import SceneWorks.ModelArtifacts.Paths
