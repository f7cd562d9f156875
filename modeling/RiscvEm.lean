import RiscvEm.Lib.BitScan
import RiscvEm.Lib.ByteCodec
import RiscvEm.Lib.Formats
import RiscvEm.Lib.Gf2
import RiscvEm.Lib.HexText
import RiscvEm.Lib.ParentLinks
import RiscvEm.Lib.Pext
import RiscvEm.Lib.Runs
import RiscvEm.Lib.WordArith
import RiscvEm.Lib.Rv64i
import RiscvEm.Lib.X86
import RiscvEm.Lib.X86Run
import RiscvEm.Defines
import RiscvEm.Memory.MemoryMap
import RiscvEm.Memory.Layout
import RiscvEm.Memory.Accessors
import RiscvEm.Memory.Cells
import RiscvEm.Memory.Areas
import RiscvEm.Decode.Fields
import RiscvEm.Decode.Table
import RiscvEm.Decode.Lut
import RiscvEm.Decode.Decoder
import RiscvEm.Jit.Encode
import RiscvEm.Jit.Emitter
import RiscvEm.Jit.Templates
import RiscvEm.Jit.Context
import RiscvEm.Hart.State
import RiscvEm.Memory.Mmio
import RiscvEm.Jit.Run
import RiscvEm.Memory.DeviceWindows
import RiscvEm.Decode.Cache
import RiscvEm.Decode.Select
import RiscvEm.Decode.Expansion
import RiscvEm.Decode.Immediates
import RiscvEm.Decode.BaseInstructions
import RiscvEm.Decode.Subsets
import RiscvEm.Jit.Encoded
import RiscvEm.Jit.Allocator
import RiscvEm.Jit.Simulation
import RiscvEm.Jit.Frames
import RiscvEm.Jit.StoreCode
import RiscvEm.Hart.Trap
import RiscvEm.Sets.Common
import RiscvEm.Sets.Bitmanip
import RiscvEm.Sets.Rv64a
import RiscvEm.Sets.Rv64c
import RiscvEm.Sets.Float
import RiscvEm.Sets.Rv64f
import RiscvEm.Sets.Rv64d
import RiscvEm.Sets.Rv64i
import RiscvEm.Sets.Rv64m
import RiscvEm.Sets.System
import RiscvEm.Sets.Exec
import RiscvEm.Jit.TemplateValues
import RiscvEm.Jit.StoreRuns
import RiscvEm.Jit.AllocatorRuns
import RiscvEm.Jit.BlockSizes
import RiscvEm.Jit.Entries
import RiscvEm.Jit.BlockBytes
import RiscvEm.Hart.Tick
import RiscvEm.Jit.BlockRefines
import RiscvEm.Jit.RegisterPrograms
import RiscvEm.Jit.RegisterBlocks
import RiscvEm.Jit.StoreEquals
import RiscvEm.Sets.Effects
import RiscvEm.Hart.Machine
import RiscvEm.Sets.Traps
import RiscvEm.Hart.Precise
import RiscvEm.Hart.CsrControl
import RiscvEm.Hart.InstructionFrame
import RiscvEm.Hart.RamBytes
import RiscvEm.Hart.BaseExecution
import RiscvEm.Hart.Eval
import RiscvEm.Hart.PcAlignment
import RiscvEm.Sets.Returns
import RiscvEm.Hart.RegisterWidth
import RiscvEm.Hart.PcRuns
import RiscvEm.Hart.FreshBlocks
import RiscvEm.Hart.CalledBlocks
import RiscvEm.Hart.BlockWords
import RiscvEm.Hart.PageVersions
import RiscvEm.Hart.StaleBlocks
import RiscvEm.Hart.FloatUnit
import RiscvEm.Hart.FloatState
import RiscvEm.Hart.FloatFlags
import RiscvEm.Hart.Interrupts
import RiscvEm.Hart.GuestRuns
import RiscvEm.Hart.Instret
import RiscvEm.Hart.Privilege
import RiscvEm.Hart.Reservations
import RiscvEm.Hart.ReservedEncodings
import RiscvEm.Hart.SupervisorViews
import RiscvEm.Sets.Atomics
import RiscvEm.Sets.BitmanipResults
import RiscvEm.Sets.CboZero
import RiscvEm.Sets.Clmul
import RiscvEm.Sets.Compressed
import RiscvEm.Sets.MulDiv
import RiscvEm.Sets.SignInjection
import RiscvEm.Sets.NanBoxing
import RiscvEm.Devices.Plic
import RiscvEm.Devices.PlicRuns
import RiscvEm.Devices.PlicPending
import RiscvEm.Devices.VirtioBlk
import RiscvEm.Devices.VirtQueue
import RiscvEm.Devices.VirtioSafety
import RiscvEm.Devices.BlkRequest
import RiscvEm.Devices.BlkStores
import RiscvEm.Devices.DiskWrites
import RiscvEm.Devices.BlkFrame
import RiscvEm.Devices.BlkReset
import RiscvEm.Devices.BlkSubmit
import RiscvEm.Devices.Clint
import RiscvEm.Devices.ClintRegisters
import RiscvEm.Devices.ClintTime
import RiscvEm.Devices.DiskCapacity
import RiscvEm.Devices.DiskRoundTrip
import RiscvEm.Devices.Framebuffer
import RiscvEm.Devices.I2c
import RiscvEm.Devices.ReportDescriptor
import RiscvEm.Devices.HidOverI2c
import RiscvEm.Devices.HidReports
import RiscvEm.Devices.I2cInterrupt
import RiscvEm.Devices.I2cAcknowledge
import RiscvEm.Devices.PlicClaims
import RiscvEm.Devices.PlicIndexing
import RiscvEm.Devices.Uart
import RiscvEm.Devices.UartState
import RiscvEm.Devices.UartReception
import RiscvEm.Fdt.Tree
import RiscvEm.Fdt.Format
import RiscvEm.Fdt.Emit
import RiscvEm.Fdt.Phandles
import RiscvEm.Fdt.Serializer
import RiscvEm.Fdt.RoundTrip
import RiscvEm.Gdb.Stub
import RiscvEm.Gdb.Registers
import RiscvEm.Machine.WorkLoop
import RiscvEm.Gdb.Server
import RiscvEm.Gdb.Breakpoints
import RiscvEm.Gdb.Threads
import RiscvEm.Gdb.Continue
import RiscvEm.Gdb.TargetXml
import RiscvEm.Gdb.MemoryAccess
import RiscvEm.Gdb.Stops
import RiscvEm.Machine.Loader
import RiscvEm.Machine.ElfImage
import RiscvEm.Machine.LoaderSafety
import RiscvEm.Machine.ElfSegments
import RiscvEm.Machine.Reset
import RiscvEm.Machine.HartVector
import RiscvEm.Machine.SysconTicks
import RiscvEm.Machine.WriteFdt
