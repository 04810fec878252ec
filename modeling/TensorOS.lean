import TensorOS.Lib.Transition
import TensorOS.Lib.Rooted
import TensorOS.Lib.CString
import TensorOS.Lib.Partiality
import TensorOS.Lib.Volume
import TensorOS.Lib.ByteMem
import TensorOS.Lib.Fnv
import TensorOS.Fs.Basic
import TensorOS.Fs.Path
import TensorOS.Fs.Ops
import TensorOS.Fs.Validate
import TensorOS.Fs.Walk
import TensorOS.Fs.Invariant
import TensorOS.Fs.Spec
import TensorOS.Fs.Preserve
import TensorOS.Fs.ValidateSpec
import TensorOS.Fs.Run
import TensorOS.Lib.Scan
import TensorOS.Fs.Reading
import TensorOS.Fs.Failure
import TensorOS.Fs.Content
import TensorOS.Image.Format
import TensorOS.Image.ValidateSpec
import TensorOS.Image.Tamper
import TensorOS.Image.Import
import TensorOS.Image.Export
import TensorOS.Image.RoundTrip
import TensorOS.Lib.RbTree
import TensorOS.Lib.LinkedTree
import TensorOS.Sched.ReadyQueue
import TensorOS.Sched.Rebalance
import TensorOS.Sched.QueueSpec
import TensorOS.Sched.Process
import TensorOS.Sched.Scheduler
import TensorOS.Sched.Sync
import TensorOS.Sched.QueueRun
import TensorOS.Sched.Moves
import TensorOS.Sched.Invariant
import TensorOS.Sched.ExitStatus
import TensorOS.Sched.Fair
import TensorOS.Sched.Leaving
import TensorOS.Sched.Preempt
import TensorOS.Lib.Segments
import TensorOS.Mem.Kmem
import TensorOS.Mem.Heap
import TensorOS.Mem.HeapRun
import TensorOS.Lib.Tally
import TensorOS.Ipc.WaitQueue
import TensorOS.Ipc.Coop
import TensorOS.Ipc.Places
import TensorOS.Ipc.Mailbox
import TensorOS.Ipc.Semaphore
import TensorOS.Ipc.Mutex
import TensorOS.Ipc.Service
import TensorOS.Ipc.Handshake
import TensorOS.Ipc.Replies
import TensorOS.Ipc.Waiters
import TensorOS.Fs.Access
import TensorOS.Fs.Zeroed
import TensorOS.Syscall.Dispatch
import TensorOS.Syscall.Isolation
import TensorOS.Syscall.Moves
import TensorOS.Syscall.Objects
import TensorOS.Syscall.Files
import TensorOS.Syscall.Sessions
import TensorOS.Lib.Ledger
import TensorOS.Lib.Ring
import TensorOS.Ui.Input
import TensorOS.Ui.Timers
import TensorOS.Sched.Foreground
import TensorOS.Sched.Accounting
import TensorOS.Lib.Overwrite
import TensorOS.Display.Surface
import TensorOS.Lib.Naming
import TensorOS.Fs.Paths
import TensorOS.Fs.Scan
import TensorOS.Fs.Rename
import TensorOS.Image.Addressable
import TensorOS.Fs.Corrupt
import TensorOS.Lib.Checks
import TensorOS.Image.Guarded
import TensorOS.Syscall.Release
import TensorOS.Mem.Sizes
import TensorOS.Ipc.Destroy
import TensorOS.Lib.Signed
import TensorOS.Lib.Snapshot
import TensorOS.Display.Clip
import TensorOS.Display.Damage
import TensorOS.Lib.TextBuffer
import TensorOS.Lib.Pieces
import TensorOS.Shell.Path
import TensorOS.Loader.Resource
import TensorOS.Lib.Numeral
import TensorOS.Manage.Tokens
import TensorOS.Lib.Triple
import TensorOS.Manage.Execute
import TensorOS.Manage.Listing
import TensorOS.Manage.Typed
import TensorOS.Manage.Line
import TensorOS.Manage.Table
import TensorOS.Lib.Riscv
import TensorOS.Arch.Assembly
import TensorOS.Arch.ContextSwitch
import TensorOS.Arch.Tasks
import TensorOS.Arch.Traps
import TensorOS.Arch.Start
import TensorOS.Panel.Spi
import TensorOS.Panel.Controller
import TensorOS.Panel.Gc9a01
import TensorOS.Panel.Frames
import TensorOS.Lib.PathTree
import TensorOS.Fs.Store
import TensorOS.Fs.View
import TensorOS.Fs.Refine
import TensorOS.Image.Checkpoint
import TensorOS.Drivers.Console
import TensorOS.Display.Text
