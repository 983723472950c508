import SwitchOs.Lib.Prog
import SwitchOs.Lib.Cells
import SwitchOs.Lib.LongMode
import SwitchOs.Lib.Exchange
import SwitchOs.Lib.Runs
import SwitchOs.Lib.Chain
import SwitchOs.Lib.Register
import SwitchOs.Lib.Reading
import SwitchOs.Lib.Arc
import SwitchOs.Lib.InStep
import SwitchOs.Core.Header
import SwitchOs.Core.DumpHeader
import SwitchOs.Core.Dump
import SwitchOs.Core.Extents
import SwitchOs.Core.StoreSpec
import SwitchOs.Core.SwitchSpec
import SwitchOs.Core.Main
import SwitchOs.Core.TwoSlot
import SwitchOs.Core.HeaderChecks
import SwitchOs.Core.Walk
import SwitchOs.Core.Resume
import SwitchOs.Core.SwitchFailure
import SwitchOs.Core.StoreCrash
import SwitchOs.Core.LoadSwitch
import SwitchOs.Core.Alloc
import SwitchOs.Core.HeapRuns
import SwitchOs.Core.Calloc
import SwitchOs.Core.Alignment
import SwitchOs.Core.Paging
import SwitchOs.Virtio.Queue
import SwitchOs.Virtio.Blk
import SwitchOs.Virtio.Request
import SwitchOs.Virtio.Exact
import SwitchOs.Virtio.QueueRuns
import SwitchOs.Virtio.Faulty
import SwitchOs.Virtio.Conserve
import SwitchOs.Virtio.Setup
import SwitchOs.Virtio.CapScan
import SwitchOs.Virtio.Talking
import SwitchOs.Virtio.Leftover
import SwitchOs.Virtio.Located
import SwitchOs.Uefi.Types
import SwitchOs.Pci.Config
import SwitchOs.Pci.Lookup
import SwitchOs.Pci.Access
import SwitchOs.Pci.Bars
import SwitchOs.Pci.Caps
import SwitchOs.Uefi.InsertDesc
import SwitchOs.Uefi.RamAreas
import SwitchOs.Uefi.Merged
import SwitchOs.Hooks.SetVariable
import SwitchOs.Hooks.Commands
import SwitchOs.Hooks.WakingVector
import SwitchOs.Hooks.Session
import SwitchOs.Hooks.GetMemoryMap
import SwitchOs.Uefi.Services
import SwitchOs.Acpi.PkgLength
import SwitchOs.Acpi.Tables
import SwitchOs.Acpi.FindTables
import SwitchOs.Acpi.Dsdt
import SwitchOs.Acpi.Append
import SwitchOs.Acpi.Reserved
import SwitchOs.Acpi.Method
import SwitchOs.Acpi.FindMethod
import SwitchOs.Uefi.App
import SwitchOs.Uefi.FailedStart
import SwitchOs.Uefi.HookPts
import SwitchOs.Uefi.Agreement
import SwitchOs.Uefi.FacsWords
import SwitchOs.Core.Return
import SwitchOs.Cycle.Machine
import SwitchOs.Cycle.Stuck
import SwitchOs.Cycle.Vectors
import SwitchOs.Cycle.Kernel
import SwitchOs.Cli.Osl
import SwitchOs.Cli.Commands
import SwitchOs.Hooks.VirtualMap
import SwitchOs.Hooks.Mapped
import SwitchOs.Cycle.Boot
import SwitchOs.Virtio.Dump
import SwitchOs.Virtio.DumpAgrees
import SwitchOs.Virtio.Lockstep
import SwitchOs.Virtio.Slots
import SwitchOs.Virtio.BigStore
