import SwitchOs.Virtio.Queue
import SwitchOs.Pci.Bars
import SwitchOs.Pci.Caps

/-!
# Bringing up the disk

`init_virtio_blk_dev` of `core/drivers/virtio/virtio_blk.c` and what it calls, on the fields of the
`struct virtio_blk_dev` that it is given. `core_main` passes one from its stack that nothing has been
written to, so every field that is read here before it is set holds what was there before.

The accesses to the device go to a log: those to its configuration space, and those to the memory
behind `common_cfg`. What the device answers to a read of its memory is a parameter (`Device`).
Barriers are left out: the log is in program order.
-/

namespace SwitchOs.Virtio

/-- One access to the device, with its size in bytes. -/
inductive Access where
  | pciRead (bytes : ℕ) (addr : PciDevAddr) (offset : ℕ)
  | pciWrite (bytes : ℕ) (addr : PciDevAddr) (offset : ℕ) (value : UInt32)
  | read (bytes : ℕ) (addr : UInt64)
  | write (bytes : ℕ) (addr : UInt64) (value : UInt32)
  deriving DecidableEq, Repr

/-- The access is to memory. -/
def Access.isMemory : Access → Bool
  | pciRead _ _ _ => false
  | pciWrite _ _ _ _ => false
  | read _ _ => true
  | write _ _ _ => true

/-- What the device answers to a read of its memory, given its configuration space and the accesses
to its memory up to this one. -/
abbrev Device : Type := PciSpace → List Access → UInt32

/-- `struct virtio_queue`. -/
structure QueueStruct where
  num : UInt16
  size : UInt16
  seenUsed : UInt16
  notifyOff : UInt64
  freeHead : UInt16
  desc : UInt64
  avail : UInt64
  used : UInt64
  deriving DecidableEq, Repr

/-- `struct virtio_blk_dev`. -/
structure BlkStruct where
  pciDev : PciDev
  commonCfg : UInt64
  queue : QueueStruct
  notifyOff : UInt64
  notifyMultiplier : UInt32
  status : UInt8
  features : UInt64
  deriving DecidableEq, Repr

/-- What the initialisation works on: the struct of its caller, the configuration space, core's heap,
and the accesses so far. -/
structure SetupState where
  dev : BlkStruct
  pci : PciSpace
  heap : Heap
  log : List Access

abbrev Setup (α : Type) : Type := Prog Err SetupState α

namespace SetupState

/-- The accesses to memory so far. -/
def memoryLog (s : SetupState) : List Access := s.log.filter Access.isMemory

/-- After one more access. -/
def logged (s : SetupState) (a : Access) : SetupState := { s with log := s.log ++ [a] }

/-- The struct is given these fields. -/
def setDev (f : BlkStruct → BlkStruct) (s : SetupState) : SetupState := { s with dev := f s.dev }

/-- `queue` is given these fields. -/
def setQueue (f : QueueStruct → QueueStruct) (s : SetupState) : SetupState :=
  s.setDev fun dev => { dev with queue := f dev.queue }

/-- The heap's memory is changed. -/
def setMem (f : (ℕ → UInt8) → ℕ → UInt8) (s : SetupState) : SetupState :=
  { s with heap := { s.heap with mem := f s.heap.mem } }

end SetupState

namespace Setup

/-! ## Accesses -/

def pciRead8 (offset : ℕ) : Setup UInt8 := fun s =>
  some (.ok (SwitchOs.pciRead8 s.pci s.dev.pciDev.addr offset),
    s.logged (.pciRead 1 s.dev.pciDev.addr offset))

def pciRead16 (offset : ℕ) : Setup UInt16 := fun s =>
  some (.ok (SwitchOs.pciRead16 s.pci s.dev.pciDev.addr offset),
    s.logged (.pciRead 2 s.dev.pciDev.addr offset))

def pciRead32 (offset : ℕ) : Setup UInt32 := fun s =>
  some (.ok (SwitchOs.pciRead32 s.pci s.dev.pciDev.addr offset),
    s.logged (.pciRead 4 s.dev.pciDev.addr offset))

def pciWrite16 (offset : ℕ) (value : UInt16) : Setup Unit :=
  Prog.modify fun s => { s.logged (.pciWrite 2 s.dev.pciDev.addr offset value.toUInt32) with
    pci := SwitchOs.pciWrite16 s.dev.pciDev.addr offset value s.pci }

def pciWrite32 (offset : ℕ) (value : UInt32) : Setup Unit :=
  Prog.modify fun s => { s.logged (.pciWrite 4 s.dev.pciDev.addr offset value) with
    pci := SwitchOs.pciWrite32 s.dev.pciDev.addr offset value s.pci }

/-- A read of the device's memory. -/
def read (D : Device) (bytes : ℕ) (addr : UInt64) : Setup UInt32 := fun s =>
  some (.ok (D s.pci (s.logged (.read bytes addr)).memoryLog), s.logged (.read bytes addr))

/-- A write to the device's memory. -/
def write (bytes : ℕ) (addr : UInt64) (value : UInt32) : Setup Unit :=
  Prog.modify fun s => s.logged (.write bytes addr value)

def setDev (f : BlkStruct → BlkStruct) : Setup Unit := Prog.modify fun s => s.setDev f

def setQueue (f : QueueStruct → QueueStruct) : Setup Unit := Prog.modify fun s => s.setQueue f

/-- `core_calloc`. -/
def calloc (count size : ℕ) : Setup UInt64 := fun s =>
  some (.ok (coreCalloc count size s.heap).1, { s with heap := (coreCalloc count size s.heap).2 })

/-! ## Finding the device and its capabilities -/

/-- `init_pci_dev`. -/
def initPciDev : Setup Unit := do
  let vendorId ← pciRead16 PCI_VENDOR_ID
  setDev fun dev => { dev with pciDev := { dev.pciDev with vendorId := vendorId } }
  let deviceId ← pciRead16 PCI_DEVICE_ID
  setDev fun dev => { dev with pciDev := { dev.pciDev with deviceId := deviceId } }
  let header ← pciRead8 PCI_HEADER_TYPE
  let headerType := header &&& PCI_HEADER_TYPE_MASK
  setDev fun dev => { dev with pciDev := { dev.pciDev with headerType := headerType } }
  check (headerType == PCI_HEADER_TYPE_NORMAL || headerType == PCI_HEADER_TYPE_BRIDGE ||
    headerType == PCI_HEADER_TYPE_CARDBUS)

/-- `pci_get_bar`. -/
def pciGetBar (barNum : UInt8) : Setup PciBar := do
  check (decide (barNum.toNat < PCI_BASE_ADDRESS_NUM))
  let bar ← pciRead32 (PCI_BASE_ADDRESS_0 + barNum.toNat * 4)
  check (bar != PCI_BASE_ADDRESS_INVALID)
  if bar &&& PCI_BASE_ADDRESS_SPACE = PCI_BASE_ADDRESS_SPACE_IO then
    pure ⟨bar.toUInt64 &&& PCI_BASE_ADDRESS_IO_MASK, PciBarType.PCI_BAR_IO⟩
  else if bar &&& PCI_BASE_ADDRESS_SPACE = PCI_BASE_ADDRESS_SPACE_MEMORY then
    if bar &&& PCI_BASE_ADDRESS_MEM_TYPE_MASK = PCI_BASE_ADDRESS_MEM_TYPE_64 then do
      check (decide (barNum.toNat + 1 < PCI_BASE_ADDRESS_NUM))
      let barNext ← pciRead32 (PCI_BASE_ADDRESS_0 + (barNum.toNat + 1) * 4)
      pure ⟨(bar.toUInt64 &&& PCI_BASE_ADDRESS_MEM_MASK) + (barNext.toUInt64 <<< 32),
        .PCI_BAR_MEMORY⟩
    else pure ⟨bar.toUInt64 &&& PCI_BASE_ADDRESS_MEM_MASK, .PCI_BAR_MEMORY⟩
  else Prog.throw .ERR_INVALID

/-- An offset of the capability list that has just been read, checked by `is_cap_valid`. -/
def validOff (capOff : UInt8) : Setup UInt8 :=
  if capOff < 0x40 then pure 0
  else do
    let capId ← pciRead8 capOff.toNat
    pure (if capId = 0xff then 0 else capOff)

/-- `pci_cap_iter_init`. -/
def pciCapIterInit : Setup UInt8 := do
  let first ← pciRead8 PCI_CAPABILITY_LIST
  validOff first

/-- `pci_cap_iter_next`. -/
def pciCapIterNext (off : UInt8) : Setup UInt8 := do
  let next ← pciRead8 (off.toNat + PCI_CAPABILITY_PTR_OFFSET)
  validOff next

end Setup

def VIRTIO_PCI_CAP_VENDOR : UInt8 := 0x09
def VIRTIO_PCI_CAP_COMMON_CFG : UInt8 := 1
def VIRTIO_PCI_CAP_NOTIFY_CFG : UInt8 := 2

/-- The values of `cfg_type` that the driver knows. -/
def virtioCfgTypes : List UInt8 := [1, 2, 3, 4, 5, 8, 9]

/-- The offsets of the fields of `struct virtio_pci_cap` and `struct virtio_pci_notify_cap`. -/
def CAP_VNDR : ℕ := 0
def CAP_CFG_TYPE : ℕ := 3
def CAP_BAR : ℕ := 4
def CAP_OFFSET : ℕ := 8
def CAP_NOTIFY_OFF_MULTIPLIER : ℕ := 16

/-- The offsets of the fields of `struct virtio_pci_common_cfg`. -/
def DEVICE_FEATURE_SELECT : UInt64 := 0
def DEVICE_FEATURE : UInt64 := 4
def DRIVER_FEATURE_SELECT : UInt64 := 8
def DRIVER_FEATURE : UInt64 := 12
def DEVICE_STATUS : UInt64 := 20
def QUEUE_SELECT : UInt64 := 22
def QUEUE_SIZE : UInt64 := 24
def QUEUE_ENABLE : UInt64 := 28
def QUEUE_NOTIFY_OFF : UInt64 := 30
def QUEUE_DESC_LO : UInt64 := 32
def QUEUE_DESC_HI : UInt64 := 36
def QUEUE_DRIVER_LO : UInt64 := 40
def QUEUE_DRIVER_HI : UInt64 := 44
def QUEUE_DEVICE_LO : UInt64 := 48
def QUEUE_DEVICE_HI : UInt64 := 52

def VIRTIO_STATUS_RESET : UInt8 := 0
def VIRTIO_STATUS_ACKNOWLEDGE : UInt8 := 1
def VIRTIO_STATUS_DRIVER : UInt8 := 2
def VIRTIO_STATUS_DRIVER_OK : UInt8 := 4
def VIRTIO_STATUS_FEATURES_OK : UInt8 := 8
def VIRTIO_STATUS_FAILED : UInt8 := 128

def VIRTIO_BLK_REQUESTED_FEATURES : UInt64 := 0

def VIRTQ_AVAIL_F_NO_INTERRUPT : UInt16 := 1

namespace Setup

/-- The body of the loop of `parse_virtio_blk_caps`. -/
def parseCap (off : UInt8) : Setup Unit := do
  let vndr ← pciRead8 (off.toNat + CAP_VNDR)
  if vndr ≠ VIRTIO_PCI_CAP_VENDOR then pure ()
  else do
    let cfgType ← pciRead8 (off.toNat + CAP_CFG_TYPE)
    check (virtioCfgTypes.contains cfgType)
    let barNum ← pciRead8 (off.toNat + CAP_BAR)
    let bar ← pciGetBar barNum
    if cfgType = VIRTIO_PCI_CAP_COMMON_CFG then do
      check (bar.type == .PCI_BAR_MEMORY)
      setDev fun dev => { dev with commonCfg := bar.addr }
    else if cfgType = VIRTIO_PCI_CAP_NOTIFY_CFG then do
      check (bar.type == .PCI_BAR_MEMORY)
      let offset ← pciRead32 (off.toNat + CAP_OFFSET)
      setDev fun dev => { dev with notifyOff := bar.addr + offset.toUInt64 }
      let multiplier ← pciRead32 (off.toNat + CAP_NOTIFY_OFF_MULTIPLIER)
      setDev fun dev => { dev with notifyMultiplier := multiplier }
    else pure ()

/-- The loop of `parse_virtio_blk_caps`, for a number of steps. -/
def parseLoop : ℕ → UInt8 → Setup Unit
  | 0, _ => Prog.diverge
  | n + 1, off =>
    if off = 0 then pure ()
    else do
      parseCap off
      let next ← pciCapIterNext off
      parseLoop n next

/-- `parse_virtio_blk_caps`: the list has ended within these steps, or never ends. -/
def parseVirtioBlkCaps : Setup Unit := do
  let status ← pciRead16 PCI_STATUS
  check (status &&& PCI_STATUS_CAP_LIST != 0)
  let first ← pciCapIterInit
  parseLoop CAP_STEPS first

/-! ## Talking to the device -/

variable (D : Device) (L : Layout)

/-- `init_virtio_status`. -/
def initVirtioStatus : Setup Unit := do
  let s ← Prog.get
  let status := VIRTIO_STATUS_RESET
  write 1 (s.dev.commonCfg + DEVICE_STATUS) status.toUInt32
  let status := status ||| VIRTIO_STATUS_ACKNOWLEDGE
  write 1 (s.dev.commonCfg + DEVICE_STATUS) status.toUInt32
  let status := status ||| VIRTIO_STATUS_DRIVER
  write 1 (s.dev.commonCfg + DEVICE_STATUS) status.toUInt32
  setDev fun dev => { dev with status := status }

/-- `virtio_blk_dev->status |= bits`, written to the device. -/
def addStatus (bits : UInt8) : Setup Unit := do
  setDev fun dev => { dev with status := dev.status ||| bits }
  let s ← Prog.get
  write 1 (s.dev.commonCfg + DEVICE_STATUS) s.dev.status.toUInt32

/-- `negotiate_virtio_features`. -/
def negotiateVirtioFeatures : Setup Unit := do
  let s ← Prog.get
  let requested := VIRTIO_BLK_REQUESTED_FEATURES
  write 4 (s.dev.commonCfg + DEVICE_FEATURE_SELECT) 0
  let low ← read D 4 (s.dev.commonCfg + DEVICE_FEATURE)
  write 4 (s.dev.commonCfg + DEVICE_FEATURE_SELECT) 1
  let high ← read D 4 (s.dev.commonCfg + DEVICE_FEATURE)
  let available := low.toUInt64 ||| (high.toUInt64 <<< 32)
  check (requested &&& available == requested)
  write 4 (s.dev.commonCfg + DRIVER_FEATURE_SELECT) 0
  write 4 (s.dev.commonCfg + DRIVER_FEATURE) (requested &&& 0xffffffff).toUInt32
  write 4 (s.dev.commonCfg + DRIVER_FEATURE_SELECT) 1
  write 4 (s.dev.commonCfg + DRIVER_FEATURE) (requested >>> 32).toUInt32
  addStatus VIRTIO_STATUS_FEATURES_OK
  let status ← read D 1 (s.dev.commonCfg + DEVICE_STATUS)
  check (status.toUInt8 &&& VIRTIO_STATUS_FEATURES_OK != 0)
  setDev fun dev => { dev with features := requested }

/-- `configure_queue_ptrs`. -/
def configureQueuePtrs : Setup Unit := do
  let s ← Prog.get
  write 2 (s.dev.commonCfg + QUEUE_SELECT) s.dev.queue.num.toUInt32
  write 4 (s.dev.commonCfg + QUEUE_DESC_LO) s.dev.queue.desc.toUInt32
  write 4 (s.dev.commonCfg + QUEUE_DESC_HI) (s.dev.queue.desc >>> 32).toUInt32
  write 4 (s.dev.commonCfg + QUEUE_DRIVER_LO) s.dev.queue.avail.toUInt32
  write 4 (s.dev.commonCfg + QUEUE_DRIVER_HI) (s.dev.queue.avail >>> 32).toUInt32
  write 4 (s.dev.commonCfg + QUEUE_DEVICE_LO) s.dev.queue.used.toUInt32
  write 4 (s.dev.commonCfg + QUEUE_DEVICE_HI) (s.dev.queue.used >>> 32).toUInt32

/-- `init_queue_notify_off`: the product has 32 bits. -/
def initQueueNotifyOff : Setup Unit := do
  let s ← Prog.get
  check (s.dev.notifyOff != 0)
  let queueNotifyOff ← read D 2 (s.dev.commonCfg + QUEUE_NOTIFY_OFF)
  setQueue fun queue => { queue with notifyOff := s.dev.notifyOff +
    (queueNotifyOff.toUInt16.toUInt32 * s.dev.notifyMultiplier).toUInt64 }

/-- `queue->desc[i].next = next`, in the descriptor table at `desc`. -/
def putNext (desc : UInt64) (i : ℕ) (next : UInt16) (mem : ℕ → UInt8) : ℕ → UInt8 :=
  put16 mem (desc.toNat + 16 * i + 14) next

/-- What `init_virtio_blk_queue` does once its three parts are allocated. -/
def startQueue (queueSize : UInt16) : Setup Unit := do
  Prog.modify fun s => s.setMem fun mem => put16 mem s.dev.queue.avail.toNat
    (get16 mem s.dev.queue.avail.toNat ||| VIRTQ_AVAIL_F_NO_INTERRUPT)
  configureQueuePtrs
  Prog.modify fun s => s.setMem fun mem =>
    putNext s.dev.queue.desc (queueSize.toNat - 1) VIRTIO_INVALID_FREE_HEAD
      ((List.range queueSize.toNat).foldl
        (fun mem i => putNext s.dev.queue.desc i (UInt16.ofNat (i + 1)) mem) mem)
  setQueue fun queue => { queue with freeHead := 0 }
  setQueue fun queue => { queue with seenUsed := 0 }
  initQueueNotifyOff D
  let s ← Prog.get
  write 2 (s.dev.commonCfg + QUEUE_ENABLE) 1

/-- `init_virtio_blk_queue` up to its `cleanup` label. -/
def initVirtioBlkQueueBody : Setup Unit := do
  let s ← Prog.get
  write 2 (s.dev.commonCfg + QUEUE_SELECT) s.dev.queue.num.toUInt32
  let size ← read D 2 (s.dev.commonCfg + QUEUE_SIZE)
  let queueSize := size.toUInt16
  check (queueSize != VIRTIO_INVALID_QUEUE_SIZE && decide (queueSize > 0))
  setQueue fun queue => { queue with size := queueSize }
  let desc ← calloc 16 queueSize.toNat
  setQueue fun queue => { queue with desc := desc }
  check (desc != 0)
  let avail ← calloc (4 + 2 * queueSize.toNat) 1
  setQueue fun queue => { queue with avail := avail }
  check (avail != 0)
  let used ← calloc (4 + 8 * queueSize.toNat) 1
  setQueue fun queue => { queue with used := used }
  check (used != 0)
  startQueue D queueSize

/-- The `cleanup` label of `init_virtio_blk_queue`, after an error. -/
def freeQueue (s : SetupState) : SetupState :=
  { s with heap := coreFree L s.dev.queue.used (coreFree L s.dev.queue.avail
      (coreFree L s.dev.queue.desc s.heap)) }

/-- `init_virtio_blk_queue`. -/
def initVirtioBlkQueue : Setup Unit := (initVirtioBlkQueueBody D).orCleanup (freeQueue L)

/-- `init_virtio_blk_dev` up to the capabilities. -/
def findVirtioBlkDev (core : CoreHeader) : Setup Unit := do
  setDev fun dev => { dev with pciDev := { dev.pciDev with addr := core.diskAddr } }
  initPciDev
  let s ← Prog.get
  check (s.dev.pciDev.vendorId == VIRTIO_BLK_VENDOR_ID &&
    s.dev.pciDev.deviceId == VIRTIO_BLK_DEVICE_ID)
  Prog.forEach (fun i => pciWrite32 (PCI_BASE_ADDRESS_0 + 4 * i) (core.diskPci.bars i))
    (List.range PCI_BASE_ADDRESS_NUM)
  check (s.dev.pciDev.headerType == PCI_HEADER_TYPE_NORMAL)

/-- `init_virtio_blk_dev` from the capabilities on. -/
def startVirtioBlkDev : Setup Unit := do
  let s ← Prog.get
  check (s.dev.commonCfg != 0 && s.dev.notifyOff != 0)
  let command ← pciRead16 PCI_COMMAND
  pciWrite16 PCI_COMMAND (command ||| PCI_COMMAND_MEMORY)
  initVirtioStatus
  negotiateVirtioFeatures D
  setQueue fun queue => { queue with num := 0 }
  initVirtioBlkQueue D L
  addStatus VIRTIO_STATUS_DRIVER_OK

/-- `init_virtio_blk_dev` up to its `cleanup` label. -/
def initVirtioBlkDevBody (core : CoreHeader) : Setup Unit := do
  findVirtioBlkDev core
  parseVirtioBlkCaps
  startVirtioBlkDev D L

/-- The `cleanup` label of `init_virtio_blk_dev`, after an error: two bytes go to the status. -/
def failDev (s : SetupState) : SetupState :=
  if s.dev.commonCfg ≠ 0 then
    s.logged (.write 2 (s.dev.commonCfg + DEVICE_STATUS) VIRTIO_STATUS_FAILED.toUInt32)
  else s

/-- `init_virtio_blk_dev`. -/
def initVirtioBlkDev (core : CoreHeader) : Setup Unit :=
  (initVirtioBlkDevBody D L core).orCleanup failDev

end Setup

end SwitchOs.Virtio
