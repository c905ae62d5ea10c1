import RootedHeap.Allocator.Basic
import RootedHeap.Allocator.Bump
import RootedHeap.Allocator.Choice
import RootedHeap.Allocator.MarkSweep
import RootedHeap.Allocator.Marking
import RootedHeap.Allocator.RootsOnly
import RootedHeap.Allocator.Scripted
import RootedHeap.Allocator.Strategy
import RootedHeap.Assignment
import RootedHeap.CommandLine.Options
import RootedHeap.CommandLine.Request
import RootedHeap.CommandLine.Session
import RootedHeap.Config.Basic
import RootedHeap.Config.Printing
import RootedHeap.Config.Reading
import RootedHeap.Config.Storage
import RootedHeap.Duration
import RootedHeap.Fault
import RootedHeap.Files
import RootedHeap.Heap.Basic
import RootedHeap.Heap.Cell
import RootedHeap.Heap.Command
import RootedHeap.Log
import RootedHeap.Machine.Basic
import RootedHeap.Machine.Calls
import RootedHeap.Machine.Objects
import RootedHeap.Main
import RootedHeap.Program.Action
import RootedHeap.Program.Basic
import RootedHeap.Program.Script
import RootedHeap.Program.Threads
import RootedHeap.Proofs.RunCleanup
import RootedHeap.Proofs.Agreement
import RootedHeap.Proofs.Alone
import RootedHeap.Proofs.Banks
import RootedHeap.Proofs.Workbenches
import RootedHeap.Proofs.Bookkeeping
import RootedHeap.Proofs.PastIndependence
import RootedHeap.Proofs.LinkedLists
import RootedHeap.Proofs.Churning
import RootedHeap.Proofs.Collectors
import RootedHeap.Proofs.Counts
import RootedHeap.Proofs.Courses
import RootedHeap.Proofs.Crew
import RootedHeap.Proofs.Crowds
import RootedHeap.Proofs.CellSafety
import RootedHeap.Proofs.AllocatorSteps
import RootedHeap.Proofs.Descents
import RootedHeap.Proofs.Documents
import RootedHeap.Proofs.Ensembles
import RootedHeap.Proofs.Exactness
import RootedHeap.Proofs.Exhaustion
import RootedHeap.Proofs.Gatehouse
import RootedHeap.Proofs.Genuine
import RootedHeap.Proofs.GrantedOperations
import RootedHeap.Proofs.MethodCalls
import RootedHeap.Proofs.Holdings
import RootedHeap.Proofs.Images
import RootedHeap.Proofs.Instructions
import RootedHeap.Proofs.Lockstep
import RootedHeap.Proofs.Lone
import RootedHeap.Proofs.LoneChurns
import RootedHeap.Proofs.Mirrors
import RootedHeap.Proofs.Mutators
import RootedHeap.Proofs.Nesting
import RootedHeap.Proofs.Operations
import RootedHeap.Proofs.Outcomes
import RootedHeap.Proofs.Overlays
import RootedHeap.Proofs.Passages
import RootedHeap.Proofs.Peers
import RootedHeap.Proofs.WorkingFrames
import RootedHeap.Proofs.Progress
import RootedHeap.Proofs.Quiescence
import RootedHeap.Proofs.RandomGraphs
import RootedHeap.Proofs.SpareCells
import RootedHeap.Proofs.Reach
import RootedHeap.Proofs.Readback
import RootedHeap.Proofs.Readers
import RootedHeap.Proofs.Refusals
import RootedHeap.Proofs.Requests
import RootedHeap.Proofs.Retirement
import RootedHeap.Proofs.RootMaps
import RootedHeap.Proofs.Rooting
import RootedHeap.Proofs.StackOwnership
import RootedHeap.Proofs.Roundtrips
import RootedHeap.Proofs.Safety
import RootedHeap.Proofs.Schedules
import RootedHeap.Proofs.Sessions
import RootedHeap.Proofs.RetiredPast
import RootedHeap.Proofs.Shapes
import RootedHeap.Proofs.MemoryShares
import RootedHeap.Proofs.Slots
import RootedHeap.Proofs.Solo
import RootedHeap.Proofs.Spellings
import RootedHeap.Proofs.ProgramLogic
import RootedHeap.Proofs.Starvation
import RootedHeap.Proofs.RunEffects
import RootedHeap.Proofs.ListOperations
import RootedHeap.Proofs.AllocatorAnswers
import RootedHeap.Proofs.Survival
import RootedHeap.Proofs.Tables
import RootedHeap.Proofs.Tagging
import RootedHeap.Proofs.Tallies
import RootedHeap.Proofs.StackReach
import RootedHeap.Proofs.Transfers
import RootedHeap.Proofs.Transparency
import RootedHeap.Proofs.Truthful
import RootedHeap.Proofs.Turns
import RootedHeap.Proofs.ListVerification
import RootedHeap.Proofs.ListWalks
import RootedHeap.Proofs.Words
import RootedHeap.Proofs.Worklists
import RootedHeap.Random.ChaCha
import RootedHeap.Random.Draws
import RootedHeap.Roots.CallStacks
import RootedHeap.Roots.Frame
import RootedHeap.Roots.Gate
import RootedHeap.Text.Invisible
import RootedHeap.Text.Layout
import RootedHeap.Text.Quoted
import RootedHeap.Text.Reader
import RootedHeap.Toml.Document
import RootedHeap.Toml.Scalar
import RootedHeap.Toml.Table
import RootedHeap.Toml.Value
import RootedHeap.Word
import RootedHeap.Workbench.Basic
import RootedHeap.Workbench.Command
import RootedHeap.Workload.Lists
import RootedHeap.Workload.RandomGraph
import RootedHeap.Workload.Reachability
import RootedHeap.Workload.Report
import RootedHeap.Workload.Size
import RootedHeap.Workload.Slots
