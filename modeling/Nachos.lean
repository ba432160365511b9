import Nachos.Lib.Routine
import Nachos.Lib.Bytes
import Nachos.Fault
import Nachos.KernelLib.Bitmap
import Nachos.KernelLib.BitmapSets
import Nachos.FileSys.Disk
import Nachos.FileSys.FileHeader
import Nachos.FileSys.HeaderChain
import Nachos.FileSys.Allocation
import Nachos.FileSys.OpenFile
import Nachos.FileSys.Transfer
import Nachos.FileSys.Directory
import Nachos.FileSys.PersistentBitmap
import Nachos.FileSys.FileSystem
import Nachos.FileSys.Layout
import Nachos.FileSys.Creation
import Nachos.FileSys.Removal
import Nachos.FileSys.Format
import Nachos.FileSys.World
import Nachos.Lib.Runs
import Nachos.FileSys.Consistency
import Nachos.FileSys.Ownership
import Nachos.FileSys.Leaks
import Nachos.FileSys.Outcomes
import Nachos.FileSys.Handles
import Nachos.FileSys.NamedFiles
import Nachos.FileSys.Refinement
import Nachos.FileSys.SystemCalls
import Nachos.FileSys.Descriptors
import Nachos.Lib.Insertion
import Nachos.Threads.ReadyQueue
import Nachos.Threads.QueueSteps
import Nachos.Threads.Scheduling
import Nachos.Threads.PriorityOrder
import Nachos.Threads.TimeOrder
import Nachos.Lib.Counting
import Nachos.Lib.RingBuffer
import Nachos.Pthreads.FirstInFirstOut
import Nachos.Pthreads.WakeUps
import Nachos.UserProg.Mp2.AddrSpace
import Nachos.UserProg.Mp2.Placement
import Nachos.UserProg.Mp2.LoadOutcome
import Nachos.UserProg.Mp2.LoadedImage
import Nachos.KernelLib.Ownership
import Nachos.UserProg.Mp2.FrameOwnership
import Nachos.UserProg.Mp2.SystemCalls
import Nachos.UserProg.Mp2.UserBuffers
import Nachos.UserProg.Mp3.AddrSpace
import Nachos.UserProg.Mp3.Admission
import Nachos.UserProg.Mp3.Copying
import Nachos.UserProg.Mp3.LoadIsolation
import Nachos.Threads.Kernel
import Nachos.Threads.KernelSteps
import Nachos.Threads.Switching
import Nachos.Threads.LifeCycle
import Nachos.UserProg.FrameReturn
import Nachos.KernelLib.LinkedList
import Nachos.KernelLib.ListPaths
import Nachos.Threads.LinkedQueue
import Nachos.Threads.Promotion
import Nachos.KernelLib.SortedList
import Nachos.Machine.Interrupt
import Nachos.Lib.Outcome
import Nachos.Machine.Delivery
import Nachos.Machine.Timeline
import Nachos.FileSysStub.Host
import Nachos.FileSysStub.OpenFileTable
import Nachos.FileSysStub.OpenFiles
import Nachos.FileSysStub.TableRefinement
import Nachos.KernelLib.SynchDevice
import Nachos.KernelLib.SerialAccess
import Nachos.FileSys.SynchDisk
import Nachos.UserProg.ConsoleOutput
import Nachos.UserProg.ConsoleInput
import Nachos.Threads.BegunThreads
import Nachos.Threads.RunningPrograms
import Nachos.Threads.ExecAll
import Nachos.Threads.Mp4.Books
import Nachos.Threads.Mp4.Operations
import Nachos.Threads.Mp4.TimeSlicing
import Nachos.Pthreads.BoundedQueue
import Nachos.Pthreads.Pipeline
import Nachos.Pthreads.Conservation
import Nachos.Pthreads.Progress
import Nachos.Pthreads.Rounds
import Nachos.Pthreads.Lifetimes
import Nachos.Threads.AgingCalls
import Nachos.FileSys.ByteRanges
import Nachos.FileSys.RequestSizes
import Nachos.FileSys.AllocatedHeaders
import Nachos.FileSys.DirectoryMap
import Nachos.FileSys.CopyPrint
import Nachos.Threads.KernelOutcomes
import Nachos.Threads.Preemption
import Nachos.Threads.LinkedPreemption
import Nachos.Threads.SemaphoreAccounts
import Nachos.Threads.LockSafety
import Nachos.Threads.SynchList
import Nachos.Threads.SynchListTurns
import Nachos.Threads.ConditionWaiters
import Nachos.Threads.SynchListSafety
import Nachos.FileSysStub.TransferCounts
import Nachos.KernelLib.ListSegments
import Nachos.Threads.BurstTimes
import Nachos.KernelLib.ListInvariant
import Nachos.Lib.DoubleWords
import Nachos.Machine.DiskLatency
import Nachos.Machine.Multiplication
import Nachos.Machine.Mips
import Nachos.Machine.Computing
import Nachos.Lib.Words
import Nachos.Machine.Conformance
import Nachos.Machine.Translation
import Nachos.Machine.UnalignedWords
import Nachos.Threads.CommandLine
import Nachos.Coff2Noff.Conversion
import Nachos.Coff2Noff.MemoryImage
import Nachos.Lib.SideBySide
import Nachos.Machine.Locality
import Nachos.Machine.VirtualMemory
import Nachos.UserProg.Mp2.Programs
import Nachos.UserProg.Mp2.ProgramsAlone
import Nachos.KernelLib.DeviceLog
import Nachos.KernelLib.HashTable
import Nachos.KernelLib.HashTableMap
import Nachos.KernelLib.HashTableRuns
import Nachos.Lib.OrderedDelivery
import Nachos.Lib.WordRecords
import Nachos.Network.Guarantees
import Nachos.Network.Sending
import Nachos.FileSys.DiskFile
import Nachos.FileSys.Durability
import Nachos.Machine.LoadDelay
