import ModernOS.Lib.Transition
import ModernOS.Lib.SlotTable
import ModernOS.Lib.FirstFit
import ModernOS.Lib.BitField
import ModernOS.Lib.LoggedArray
import ModernOS.Lib.LastWrite
import ModernOS.Lib.ByteMemory
import ModernOS.Lib.ByteBuffer
import ModernOS.Lib.Numeral
import ModernOS.Lib.CString
import ModernOS.Lib.Terminal
import ModernOS.Lib.PaperRoll
import ModernOS.Lib.Interaction
import ModernOS.Lib.Transcript
import ModernOS.Lib.Ledger
import ModernOS.Lib.FirstMaximum
import ModernOS.Lib.Layout
import ModernOS.Lib.Ownership
import ModernOS.Lib.Coroutine
import ModernOS.Lib.Rounding
import ModernOS.Lib.IA32
import ModernOS.Lib.X86.Machine
import ModernOS.Lib.X86.Program
import ModernOS.Lib.X86.Stack
import ModernOS.Lib.X86.Stores
import ModernOS.Lib.X86.Interrupt
import ModernOS.Memory.Model
import ModernOS.Memory.Allocator
import ModernOS.Memory.FreePage
import ModernOS.Memory.Accounting
import ModernOS.Memory.MapPage
import ModernOS.Memory.Init
import ModernOS.Memory.InitWords
import ModernOS.Memory.Backing
import ModernOS.Memory.OutOfMemory
import ModernOS.Memory.Paged
import ModernOS.Process.Model
import ModernOS.Process.Events
import ModernOS.Process.Lifecycle
import ModernOS.Process.Switch
import ModernOS.Process.RoundRobin
import ModernOS.Process.AddressSpace
import ModernOS.Process.Pids
import ModernOS.Process.Creation
import ModernOS.Process.FailurePid
import ModernOS.Process.AfterInit
import ModernOS.Process.Backing
import ModernOS.Process.Capability
import ModernOS.Process.Handle
import ModernOS.Process.Task
import ModernOS.FileSystem.Model
import ModernOS.FileSystem.Mounts
import ModernOS.FileSystem.MountedOnce
import ModernOS.FileSystem.Unmount
import ModernOS.FileSystem.Inodes
import ModernOS.FileSystem.Permissions
import ModernOS.FileSystem.Handle
import ModernOS.FileSystem.Blocks
import ModernOS.Console.Model
import ModernOS.Console.Bounds
import ModernOS.Console.Terminal
import ModernOS.Console.Syscall
import ModernOS.Console.Hex
import ModernOS.Console.Legacy
import ModernOS.Console.Decimal
import ModernOS.Console.LegacyBounds
import ModernOS.Console.Scroll
import ModernOS.Console.Scrollback
import ModernOS.Interrupt.Model
import ModernOS.Interrupt.AreEnabled
import ModernOS.Interrupt.CriticalSection
import ModernOS.Interrupt.Guards
import ModernOS.Interrupt.Gates
import ModernOS.Interrupt.EmptyGates
import ModernOS.Interrupt.Dispatch
import ModernOS.Interrupt.LongMode
import ModernOS.Entry.Model
import ModernOS.Entry.Start
import ModernOS.Entry.Bss
import ModernOS.Entry.Syscall
import ModernOS.Entry.SyscallReturn
import ModernOS.Entry.SyscallStores
import ModernOS.Entry.Exception
import ModernOS.Entry.Frame
import ModernOS.Boot.Firmware
import ModernOS.Boot.Model
import ModernOS.Boot.Steps
import ModernOS.Boot.Regions
import ModernOS.Boot.MapKey
import ModernOS.Boot.Resources
import ModernOS.Boot.LoadKernel
import ModernOS.Boot.Graphics
import ModernOS.Boot.Results
import ModernOS.Boot.Holdings
import ModernOS.Boot.KernelEntry
import ModernOS.KernelMemory.Model
import ModernOS.KernelMemory.UefiMap
import ModernOS.KernelMemory.Addresses
import ModernOS.Kernel.Model
import ModernOS.Kernel.Log
import ModernOS.Kernel.Order
import ModernOS.Kernel.Stop
import ModernOS.Kernel.Idle
import ModernOS.SimpleOS.Model
import ModernOS.SimpleOS.Pages
import ModernOS.SimpleOS.KernelMain
