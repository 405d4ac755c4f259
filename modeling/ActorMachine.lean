import ActorMachine.Assembly.Resolve
import ActorMachine.Chunk.File
import ActorMachine.Config.Document
import ActorMachine.Inspection.Endpoint
import ActorMachine.Scheduler.Run
import ActorMachine.Proofs.Heap.Lookup
import ActorMachine.Proofs.Ensures
import ActorMachine.Proofs.Heap.Tracing
import ActorMachine.Proofs.Heap.Actions
import ActorMachine.Proofs.Payload
import ActorMachine.Proofs.Stack
import ActorMachine.Proofs.Capacity
import ActorMachine.Proofs.Actor.Sound
import ActorMachine.Proofs.Builtin
import ActorMachine.Proofs.Actor.Call
import ActorMachine.Proofs.Actor.Recovery
import ActorMachine.Proofs.Machine.Execute
import ActorMachine.Proofs.Machine.Invoke
import ActorMachine.Proofs.Machine.Step
import ActorMachine.Proofs.Machine.Reached
import ActorMachine.Proofs.Machine.Frames
import ActorMachine.Proofs.Machine.Isolation
import ActorMachine.Proofs.Machine.Protection
import ActorMachine.Proofs.Scheduler.Protection
import ActorMachine.Proofs.Scheduler.Turn
import ActorMachine.Proofs.Scheduler.Bookkeeping
import ActorMachine.Proofs.Traversals
import ActorMachine.Proofs.Loader.Linking
import ActorMachine.Proofs.Loader.Sets
import ActorMachine.Proofs.Heap.Ages
import ActorMachine.Proofs.Heap.Objects
import ActorMachine.Proofs.Heap.Operations
import ActorMachine.Proofs.Heap.Collection
import ActorMachine.Proofs.Heap.Effects
import ActorMachine.Proofs.Heap.Vectors
import ActorMachine.Proofs.Heap.Tended
import ActorMachine.Proofs.Heap.Accounts
import ActorMachine.Proofs.Heap.Granting
import ActorMachine.Proofs.Heap.Handles
import ActorMachine.Proofs.Content
import ActorMachine.Proofs.Rebuilding
import ActorMachine.Proofs.Copying
import ActorMachine.Proofs.Actor.Ages
import ActorMachine.Proofs.Machine.Ages
import ActorMachine.Proofs.Machine.Outcomes
import ActorMachine.Proofs.Scheduler.Delivery
import ActorMachine.Proofs.Scheduler.History
import ActorMachine.Proofs.Scheduler.Messages
import ActorMachine.Proofs.Scheduler.Wakeups
import ActorMachine.Proofs.Scheduler.Stops
import ActorMachine.Proofs.Scheduler.Happenings
import ActorMachine.Proofs.Scheduler.Observers
import ActorMachine.Proofs.Scheduler.Lives
import ActorMachine.Proofs.Scheduler.Lifecycle
import ActorMachine.Proofs.Scheduler.Isolation
import ActorMachine.Proofs.Chunk.Nesting
import ActorMachine.Proofs.Chunk.Reading
import ActorMachine.Proofs.Chunk.Grammar
import ActorMachine.Proofs.Assembly.Building
import ActorMachine.Proofs.Assembly.Editing
import ActorMachine.Proofs.Heap.Routines
import ActorMachine.Proofs.Actor.Routines
import ActorMachine.Proofs.Machine.Routines
import ActorMachine.Proofs.Loader.Usage
import ActorMachine.Proofs.Scheduler.Routines
import ActorMachine.Proofs.Scheduler.Reclaiming
import ActorMachine.Proofs.Checked.Basic
import ActorMachine.Proofs.Checked.Stack
import ActorMachine.Proofs.Checked.Heap
import ActorMachine.Proofs.Checked.Payload
import ActorMachine.Proofs.Checked.Actor
import ActorMachine.Proofs.Checked.Builtin
import ActorMachine.Proofs.Checked.Loader
import ActorMachine.Proofs.Checked.Machine
import ActorMachine.Proofs.Checked.Life
import ActorMachine.Proofs.Scheduler.Courses
import ActorMachine.Proofs.Scheduler.Queue
import ActorMachine.Proofs.Machine.Receives
import ActorMachine.Proofs.Scheduler.Timers
import ActorMachine.Proofs.Machine.Dated
import ActorMachine.Proofs.Machine.Timeless
import ActorMachine.Proofs.Scheduler.Pausing
import ActorMachine.Proofs.Actor.Cleared
import ActorMachine.Proofs.Loader.Cleared
import ActorMachine.Proofs.Machine.Cleared
import ActorMachine.Proofs.Scheduler.Breakpoints
import ActorMachine.Proofs.Actor.Starting
import ActorMachine.Proofs.Scheduler.Starting
import ActorMachine.Proofs.Inspection.Modules
import ActorMachine.Proofs.Machine.Deadlines
import ActorMachine.Proofs.Mailbox
import ActorMachine.Proofs.Machine.Upkeep
import ActorMachine.Proofs.Machine.Room
import ActorMachine.Proofs.Machine.Growth
import ActorMachine.Proofs.Machine.Suspension
import ActorMachine.Proofs.Chunk.Truncation
import ActorMachine.Proofs.Mailbox.Selection
import ActorMachine.Proofs.Stack.Bounded
import ActorMachine.Proofs.Machine.Entering
import ActorMachine.Proofs.Assembly.Interning
import ActorMachine.Proofs.Assembly.Resolving
import ActorMachine.Proofs.Assembly.Naming
import ActorMachine.Proofs.Heap.Closures
import ActorMachine.Proofs.Capturing
import ActorMachine.Proofs.Actor.Protecting
import ActorMachine.Proofs.Loader.Leftovers
import ActorMachine.Proofs.Shortage
import ActorMachine.Proofs.Heap.Restarting
