import Mathlib.Algebra.Order.Ring.Nat
import Mathlib.Data.Fin.VecNotation
import Mathlib.Data.List.Basic
import Mathlib.Data.List.MinMax
import Mathlib.Data.List.Nodup
import Mathlib.Data.List.Perm.Basic
import Mathlib.Data.Nat.ModEq
import Mathlib.Data.Vector.Defs
import Mathlib.Logic.Function.Basic
import Mathlib.Order.Antisymmetrization
import Mathlib.Order.Basic
import Mathlib.Order.Nat
import Mathlib.Tactic.Linarith
import Mathlib.Tactic.Ring
import CodebaseGraph.Coordinator.AtMostOnce
import CodebaseGraph.Execution.Panics
import CodebaseGraph.Maintenance.Confirmation
import CodebaseGraph.Maintenance.Pacing
import CodebaseGraph.Maintenance.Waiting
import CodebaseGraph.Partition.Provenance
import CodebaseGraph.Protocol.Compatibility
import CodebaseGraph.Refresh.Acknowledged
import CodebaseGraph.Refresh.Edits
import CodebaseGraph.Staging.Refinement
import CodebaseGraph.Storage.CrashAtomic
import CodebaseGraph.Storage.DirectAtomic
import CodebaseGraph.Storage.DirectResidue
import CodebaseGraph.Storage.LinearHistory
import CodebaseGraph.Storage.OvertakenRuns
import CodebaseGraph.Partition.Artifacts
import CodebaseGraph.Partition.Transparent
import CodebaseGraph.Collections.SortedMap
import CodebaseGraph.Wiki.Model
import CodebaseGraph.Wiki.Text
import CodebaseGraph.Wiki.Compiler
import CodebaseGraph.Wiki.CompiledGraph
import CodebaseGraph.Wiki.LinkTargets
import CodebaseGraph.GraphRead.SearchHits
import CodebaseGraph.GraphRead.ContextSearch
import CodebaseGraph.Hashing.TableDigest
import CodebaseGraph.Wiki.HeadingSlugs
import CodebaseGraph.Wiki.Projection
import CodebaseGraph.Wiki.Publication
import CodebaseGraph.Wiki.RequestedProjection
import CodebaseGraph.Collections.Layout
import CodebaseGraph.Concurrency.FileLocks
import CodebaseGraph.Crash.Program
import CodebaseGraph.Collections.Lists
import CodebaseGraph.Basic
import CodebaseGraph.Transition.Runs
import CodebaseGraph.Storage.Maintenance.ControlCodec
import CodebaseGraph.Storage.Maintenance.ControlCombinations
import CodebaseGraph.Storage.Maintenance.CrashAtomicRegister
import CodebaseGraph.Storage.Maintenance.EpochStamp
import CodebaseGraph.Storage.Maintenance.SoundEpoch
import CodebaseGraph.Wiki.NewestGeneration
import CodebaseGraph.Wiki.Documents
import CodebaseGraph.Wiki.SampleLibrary
import CodebaseGraph.Refresh.BatchInvariant
import CodebaseGraph.Refresh.Descent
import CodebaseGraph.Refresh.WatchFilter
import CodebaseGraph.Refresh.Pruning
import CodebaseGraph.Parser.Markdown
import CodebaseGraph.Search.Lookup
import CodebaseGraph.Refresh.Wildcards
import CodebaseGraph.Coordinator.Frames
import CodebaseGraph.Storage.Maintenance.RetirementLeaf
import CodebaseGraph.Syntax.Preorder
import CodebaseGraph.Syntax.TreeCopy
import CodebaseGraph.Syntax.Building
import CodebaseGraph.Syntax.BuildingWalk
import CodebaseGraph.Syntax.Resolution
import CodebaseGraph.Storage.Maintenance.LegacyHeader
import CodebaseGraph.Wiki.Render.HeadingAnchors
import CodebaseGraph.Wiki.Render.ChangeList
import CodebaseGraph.Wiki.Render.PageSlots
import CodebaseGraph.Wiki.Render.RouteCollisions
import CodebaseGraph.Wiki.Render.AuthoredNames
import CodebaseGraph.Setup.HookMerge
import CodebaseGraph.Transition.Fallible
import CodebaseGraph.Collections.Occurrences
import CodebaseGraph.Collections.Offsets
import CodebaseGraph.Wiki.Search.SearchIndex
import CodebaseGraph.Wiki.Search.Snippets
import CodebaseGraph.Mcp.Stdio
import CodebaseGraph.Mcp.StdioAnswers
import CodebaseGraph.Transition.Submitting
import CodebaseGraph.DbWriter.Write
import CodebaseGraph.DbWriter.Schedule
import CodebaseGraph.DbWriter.Agreement
import CodebaseGraph.DbWriter.WritesAgree
import CodebaseGraph.Daemon.Readers
import CodebaseGraph.Daemon.SystemdWords
import CodebaseGraph.Daemon.Manifests
import CodebaseGraph.Daemon.ConfiguredStarts
import CodebaseGraph.Collections.CyclicVisits
import CodebaseGraph.Storage.Maintenance.Cursor
import CodebaseGraph.Storage.Maintenance.FairSelection
import CodebaseGraph.Storage.Maintenance.FairRounds
import CodebaseGraph.Storage.Maintenance.GenerationRecords
import CodebaseGraph.Storage.Maintenance.GateRecords
import CodebaseGraph.Storage.Maintenance.WorkspaceRecords
import CodebaseGraph.Storage.Maintenance.WorkspaceState
import CodebaseGraph.Storage.Maintenance.FixedRecords
import CodebaseGraph.Sorting.StableMerge
import CodebaseGraph.Staging.Records
import CodebaseGraph.Staging.Metered
import CodebaseGraph.Staging.MeteredBalance
import CodebaseGraph.Collections.NumberedNames
import CodebaseGraph.Storage.Maintenance.CleanupMemory
import CodebaseGraph.Partition.Planning
