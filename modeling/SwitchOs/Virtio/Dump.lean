import SwitchOs.Virtio.Exact
import SwitchOs.Core.Main

/-!
# Dumps, over the driver

`core/dump.c` and `core_main` as they run on the machine: a block request is a call of the virtio
driver, which takes its header from the heap and waits for the device, and the `struct dump_header`
of a function is a local variable in memory, which the device writes to and reads from, and whose
entries the loops read one by one (`areas_size` is read once for each loop). The state is that of
the driver (`Hw`) with the core header and `kernel_waking_vector`.

`Wiring` says where the build has put core's own data; `DiskDevice` is the device during one
execution of core. Of `init_virtio_blk_dev` the model has the queue; the rest comes down to whether
a device is found.
-/

namespace SwitchOs

open Virtio

/-- The functions with a local `struct dump_header`. -/
inductive DumpCall where
  | store
  | contains
  | load
  | switch
  deriving DecidableEq, Repr

/-- The byte `x` lies in a `struct dump_header` at `header`. -/
def InHeader (header : UInt64) (x : ℕ) : Prop :=
  header.toNat ≤ x ∧ x < header.toNat + DUMP_HEADER_SIZE

/-- How large core is, which `load_core` checks, and where its data lies: the heap, `switch_buf` and
the local headers on the stack, all in core's own memory, the heap apart from the rest. -/
structure Wiring where
  sizes : CoreSizes
  layout : Layout
  switchBuf : ℕ
  header : DumpCall → UInt64
  switchBuf_ge : CORE_PHYS_ADDR ≤ switchBuf
  switchBuf_le : switchBuf + SWITCH_BUF_SIZE ≤ CORE_PHYS_ADDR + sizes.core
  sizes_le : sizes.core ≤ CORE_MAX_PHYS_MEM_SIZE
  heap_core : ∀ x, InHeap layout x → CoreMemory sizes x
  header_core : ∀ f x, InHeader (header f) x → CoreMemory sizes x
  header_heap : ∀ f x, InHeader (header f) x → ¬ InHeap layout x
  switchBuf_heap : ∀ x, switchBuf ≤ x → x < switchBuf + SWITCH_BUF_SIZE → ¬ InHeap layout x
  switchBuf_header : ∀ f x, switchBuf ≤ x → x < switchBuf + SWITCH_BUF_SIZE →
    ¬ InHeader (header f) x

/-- The block device during one execution of core: whether `init_virtio_blk_dev` finds it and it
takes its features, the size of the queue it reports, what it does while core waits for the response
to each request, and how often core looks for a response. -/
structure DiskDevice where
  found : Bool
  queueSize : UInt16
  serve : ℕ → Schedule
  looks : ℕ

/-- The device sees to every request while core waits for it, and reports success. -/
def DiskDevice.Serves (D : DiskDevice) : Prop :=
  ∀ k, ∃ j < D.looks, (∀ i < j, D.serve k i = none) ∧ D.serve k j = some VIRTIO_BLK_S_OK

/-- The driver, the core header, the requests issued so far, and `kernel_waking_vector`. -/
structure Driven where
  hw : Hw
  core : CoreHeader
  issued : ℕ
  kernelWakingVector : UInt32

/-- Memory. -/
def Driven.mem (s : Driven) : ℕ → UInt8 := s.hw.heap.mem

def Driven.disk (s : Driven) : ℕ → UInt8 := s.hw.disk

/-- The state with another memory. -/
def Driven.setMem (s : Driven) (mem : ℕ → UInt8) : Driven :=
  { s with hw := { s.hw with heap := { s.hw.heap with mem := mem } } }

/-- The state with another heap. -/
def Driven.setHeap (s : Driven) (heap : Heap) : Driven := { s with hw := { s.hw with heap := heap } }

@[simp] theorem Driven.setMem_mem (s : Driven) (mem : ℕ → UInt8) : (s.setMem mem).mem = mem := rfl

abbrev DrivenCore (α : Type) : Type := Prog Err Driven α

namespace Driven

/-- Run the driver. -/
def onHw {α : Type} (x : Driver α) : DrivenCore α :=
  Prog.zoom (fun s => s.hw) (fun hw s => { s with hw := hw }) x

theorem onHw_eq {α : Type} {x : Driver α} {s : Driven} {r : Except Err α} {hw : Hw}
    (h : x s.hw = some (r, hw)) : onHw x s = some (r, { s with hw := hw }) := by
  rw [onHw, Prog.zoom, h]

section Dump

variable (W : Wiring) (D : DiskDevice)

/-- A request, and the `consume_response_virtio_blk` after it. -/
def request (r : Request) : DrivenCore Unit := do
  let s ← Prog.get
  Prog.modify fun s => { s with issued := s.issued + 1 }
  onHw (completeRequest W.layout r (D.serve s.issued) D.looks)

/-- `read_virtio_blk` and its response. -/
def readVirtioBlk (sector data size : UInt64) : DrivenCore Unit :=
  request W D ⟨true, sector, data, size⟩

/-- `write_virtio_blk` and its response. -/
def writeVirtioBlk (sector data size : UInt64) : DrivenCore Unit :=
  request W D ⟨false, sector, data, size⟩

/-- The local `struct dump_header` of `f`. -/
def headerOf (f : DumpCall) (s : Driven) : DumpHeader := fun x => s.mem ((W.header f).toNat + x)

/-- Assign to the local `struct dump_header` of `f`. -/
def setHeader (f : DumpCall) (header : DumpHeader) (s : Driven) : Driven :=
  s.setMem (blit s.mem (W.header f).toNat header 0 DUMP_HEADER_SIZE)

/-- `read_dump_header`. -/
def readDumpHeader (f : DumpCall) : DrivenCore Unit :=
  readVirtioBlk W D 0 (W.header f) (UInt64.ofNat DUMP_HEADER_SIZE)

/-- `write_dump_header`. -/
def writeDumpHeader (f : DumpCall) : DrivenCore Unit :=
  writeVirtioBlk W D 0 (W.header f) (UInt64.ofNat DUMP_HEADER_SIZE)

/-- `fill_dump_header`. Where it fails, what it has filled in is lost with its caller. -/
def fillHeader (f : DumpCall) : DrivenCore Unit := do
  let s ← Prog.get
  let header ← Prog.lift (fillDumpHeader s.core s.mem (headerOf W f s))
  Prog.modify (setHeader W f header)

/-- One area of the loop of `disk_store_dump`. -/
def storeArea (i : ℕ) : DrivenCore Unit := do
  let s ← Prog.get
  let diskArea := (headerOf W .store s).areas i
  writeVirtioBlk W D diskArea.sector.toUInt64 diskArea.area.start diskArea.area.size

/-- `disk_store_dump`. -/
def diskStoreDump : DrivenCore Unit := do
  fillHeader W .store
  let s ← Prog.get
  Prog.forEach (storeArea W D) (List.range (headerOf W .store s).areasSize.toNat)
  writeDumpHeader W D .store

/-- `does_disk_contain_dump`. -/
def doesDiskContainDump : DrivenCore Bool := do
  readDumpHeader W D .contains
  let s ← Prog.get
  pure (isDumpHeaderValid s.core (headerOf W .contains s))

/-- One area of the loop of `disk_load_dump`. -/
def loadArea (i : ℕ) : DrivenCore Unit := do
  let s ← Prog.get
  let diskArea := (headerOf W .load s).areas i
  readVirtioBlk W D diskArea.sector.toUInt64 diskArea.area.start diskArea.area.size

/-- `disk_load_dump`. -/
def diskLoadDump : DrivenCore Unit := do
  readDumpHeader W D .load
  let s ← Prog.get
  check (isDumpHeaderValid s.core (headerOf W .load s))
  Prog.forEach (loadArea W D) (List.range (headerOf W .load s).areasSize.toNat)
  Prog.modify fun s => { s with kernelWakingVector := (headerOf W .load s).wakingVector }

/-- The body of the loop of `switch_memory_area`. -/
def switchChunk (sector addr readSize : UInt64) : DrivenCore Unit := do
  readVirtioBlk W D sector (UInt64.ofNat W.switchBuf) readSize
  writeVirtioBlk W D sector addr readSize
  Prog.modify fun s => s.setMem (copyCells s.mem addr.toNat W.switchBuf readSize.toNat)

/-- The loop of `switch_memory_area`, for at most `fuel` iterations. -/
def switchChunks (stop : UInt64) : ℕ → UInt64 → UInt64 → DrivenCore Unit
  | fuel, addr, sector =>
    if addr < stop then
      match fuel with
      | 0 => Prog.diverge
      | fuel + 1 => do
        let readSize := min (UInt64.ofNat SWITCH_BUF_SIZE) (stop - addr)
        check (readSize % 512 == 0)
        switchChunk W D sector addr readSize
        switchChunks stop fuel (addr + UInt64.ofNat SWITCH_BUF_SIZE) (sector + readSize / 512)
    else pure ()

/-- `switch_memory_area` of area `i`. -/
def switchMemoryArea (fuel : ℕ) (i : ℕ) : DrivenCore Unit := do
  let s ← Prog.get
  let diskArea := (headerOf W .switch s).areas i
  switchChunks W D (diskArea.area.start + diskArea.area.size) fuel diskArea.area.start
    diskArea.sector.toUInt64

/-- `disk_switch_dump`. -/
def diskSwitchDump (fuel : ℕ) : DrivenCore Unit := do
  readDumpHeader W D .switch
  let s ← Prog.get
  check (isDumpHeaderValid s.core (headerOf W .switch s))
  Prog.forEach (switchMemoryArea W D fuel) (List.range (headerOf W .switch s).areasSize.toNat)
  Prog.modify fun s => { s with kernelWakingVector := (headerOf W .switch s).wakingVector }
  let s ← Prog.get
  let wakingVector ← Prog.lift (findOriginalWakingVector s.core s.mem)
  Prog.modify fun s => setHeader W .switch ((headerOf W .switch s).setWakingVector wakingVector) s
  writeDumpHeader W D .switch

/-- The `switch` statement of `core_main`. -/
def coreAction (fuel : ℕ) : DrivenCore Unit := do
  let s ← Prog.get
  if s.core.action = CoreAction.CORE_ACTION_STORE.toUInt32 then
    diskStoreDump W D
  else if s.core.action = CoreAction.CORE_ACTION_SWITCH.toUInt32 then do
    let containsDump ← doesDiskContainDump W D
    check containsDump
    diskSwitchDump W D fuel
  else
    Prog.throw .ERR_INVALID

/-- `core_init_allocators`. -/
def initAllocators (s : Driven) : Driven := s.setHeap (coreInitAllocators W.layout s.hw.heap)

/-- `core_main` from `core_init_allocators` on, up to its `cleanup` label. -/
def coreMainBody (fuel : ℕ) : DrivenCore Unit := do
  Prog.modify (initAllocators W)
  let s ← Prog.get
  check (isCoreHeaderValid s.core)
  let wakingVector ← Prog.lift (findOriginalWakingVector s.core s.mem)
  Prog.modify fun s => { s with kernelWakingVector := wakingVector }
  check D.found
  onHw (initVirtioBlkQueue D.queueSize)
  coreAction W D fuel

/-- `core_main`, up to `acpi_return_kernel` as in `SwitchOs.coreMain`. -/
def coreMain (fuel : ℕ) (s : Driven) : Option Driven :=
  (coreMainBody W D fuel { s with issued := 0, kernelWakingVector := 0 }).map Prod.snd

end Dump

end Driven

/-- What the model of the dumps knows of the device. -/
def DiskDevice.blk (D : DiskDevice) : BlkDev := ⟨D.found, fun _ => false⟩

/-- What it knows of the build, when the local header of a store holds what memory holds in `s`. -/
def Wiring.platform (W : Wiring) (s : Driven) : Platform :=
  ⟨W.sizes, W.switchBuf, Driven.headerOf W .store s, W.switchBuf_ge, W.switchBuf_le⟩

end SwitchOs
