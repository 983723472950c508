import SwitchOs.Core.Header
import SwitchOs.Lib.Register

/-!
# PCI configuration space

`shared/src/pci/pci.c`: finding a device, and reading its base address registers. A register of the
configuration space keeps its read-only bits when it is written.
-/

namespace SwitchOs

/-- `struct pci_dev_addr`. -/
structure PciDevAddr where
  bus : UInt8
  device : UInt8
  function : UInt8
  deriving DecidableEq, Repr

/-- The configuration space of every function, and which bits of each of its dwords can be written.
A space has 256 bytes: the cells behind them are what an access of several bytes sees that begins in
the last ones, which none at a multiple of its width does. -/
structure PciSpace where
  config : PciDevAddr → ℕ → UInt8
  writable : PciDevAddr → ℕ → UInt32

def PCI_VENDOR_ID : ℕ := 0x00
def PCI_DEVICE_ID : ℕ := 0x02
def PCI_HEADER_TYPE : ℕ := 0x0e
def PCI_BASE_ADDRESS_0 : ℕ := 0x10

def PCI_HEADER_TYPE_MASK : UInt8 := 0x7f
def PCI_HEADER_TYPE_NORMAL : UInt8 := 0
def PCI_HEADER_TYPE_BRIDGE : UInt8 := 1
def PCI_HEADER_TYPE_CARDBUS : UInt8 := 2

def PCI_VENDOR_ID_INVALID : UInt16 := 0xffff

def PCI_BASE_ADDRESS_NUM : ℕ := 6
def PCI_BASE_ADDRESS_INVALID : UInt32 := 0xffffffff
def PCI_BASE_ADDRESS_SPACE : UInt32 := 0x01
def PCI_BASE_ADDRESS_SPACE_IO : UInt32 := 0x01
def PCI_BASE_ADDRESS_SPACE_MEMORY : UInt32 := 0x00
def PCI_BASE_ADDRESS_MEM_TYPE_MASK : UInt32 := 0x06
def PCI_BASE_ADDRESS_MEM_TYPE_64 : UInt32 := 0x04

/-- `~0x0fUL`, a 64-bit constant. -/
def PCI_BASE_ADDRESS_MEM_MASK : UInt64 := 0xfffffffffffffff0

/-- `~0x03UL`, a 64-bit constant. -/
def PCI_BASE_ADDRESS_IO_MASK : UInt64 := 0xfffffffffffffffc

def PCI_MAX_BUS : ℕ := 256
def PCI_MAX_DEVICE : ℕ := 32
def PCI_MAX_FUNCTION : ℕ := 8

/-- The function that `PCI_CONF_ADDR` selects: the bits that an offset has above its low byte are ORed
into those of the function. -/
def PciDevAddr.selected (addr : PciDevAddr) (offset : ℕ) : PciDevAddr :=
  { addr with function := addr.function ||| UInt8.ofNat (offset / 256) }

def pciRead8 (s : PciSpace) (addr : PciDevAddr) (offset : ℕ) : UInt8 :=
  s.config (addr.selected offset) (offset % 256)

def pciRead16 (s : PciSpace) (addr : PciDevAddr) (offset : ℕ) : UInt16 :=
  get16 (s.config (addr.selected offset)) (offset % 256)

def pciRead32 (s : PciSpace) (addr : PciDevAddr) (offset : ℕ) : UInt32 :=
  get32 (s.config (addr.selected offset)) (offset % 256)

/-- `pci_write_32`, and what the device makes of it. -/
def pciWrite32 (addr : PciDevAddr) (offset : ℕ) (value : UInt32) (s : PciSpace) : PciSpace :=
  let target := addr.selected offset
  { s with config := Function.update s.config target (put32 (s.config target) (offset % 256)
      ⟨maskedWrite (s.writable target (offset % 256)).toBitVec (pciRead32 s addr offset).toBitVec
        value.toBitVec⟩) }

/-- `pci_write_16` at the low half of a dword, and what the device makes of it. -/
def pciWrite16 (addr : PciDevAddr) (offset : ℕ) (value : UInt16) (s : PciSpace) : PciSpace :=
  let target := addr.selected offset
  { s with config := Function.update s.config target (put16 (s.config target) (offset % 256)
      ⟨maskedWrite (s.writable target (offset % 256)).toUInt16.toBitVec
        (pciRead16 s addr offset).toBitVec value.toBitVec⟩) }

section Below

variable {addr : PciDevAddr} {offset : ℕ}

/-- An offset in the space of the function leaves the address alone. -/
theorem PciDevAddr.selected_of_lt (h : offset < 256) : addr.selected offset = addr := by
  obtain ⟨bus, device, function⟩ := addr
  rw [selected, Nat.div_eq_of_lt h]
  simp

theorem pciRead8_of_lt (s : PciSpace) (h : offset < 256) :
    pciRead8 s addr offset = s.config addr offset := by
  rw [pciRead8, PciDevAddr.selected_of_lt h, Nat.mod_eq_of_lt h]

theorem pciRead16_of_lt (s : PciSpace) (h : offset < 256) :
    pciRead16 s addr offset = get16 (s.config addr) offset := by
  rw [pciRead16, PciDevAddr.selected_of_lt h, Nat.mod_eq_of_lt h]

theorem pciRead32_of_lt (s : PciSpace) (h : offset < 256) :
    pciRead32 s addr offset = get32 (s.config addr) offset := by
  rw [pciRead32, PciDevAddr.selected_of_lt h, Nat.mod_eq_of_lt h]

theorem pciWrite32_of_lt (value : UInt32) (s : PciSpace) (h : offset < 256) :
    pciWrite32 addr offset value s =
      { s with config := Function.update s.config addr (put32 (s.config addr) offset
          ⟨maskedWrite (s.writable addr offset).toBitVec (get32 (s.config addr) offset).toBitVec
            value.toBitVec⟩) } := by
  simp only [pciWrite32, pciRead32, PciDevAddr.selected_of_lt h, Nat.mod_eq_of_lt h]

end Below

/-! ## Devices -/

/-- `struct pci_dev_id`. -/
structure PciDevId where
  vendorId : UInt16
  deviceId : UInt16
  deriving DecidableEq, Repr

/-- `struct pci_dev`. -/
structure PciDev where
  addr : PciDevAddr
  vendorId : UInt16
  deviceId : UInt16
  headerType : UInt8
  deriving DecidableEq, Repr

/-- `init_pci_dev`. -/
def initPciDev (s : PciSpace) (addr : PciDevAddr) : Except Err PciDev :=
  let headerType := pciRead8 s addr PCI_HEADER_TYPE &&& PCI_HEADER_TYPE_MASK
  if headerType = PCI_HEADER_TYPE_NORMAL ∨ headerType = PCI_HEADER_TYPE_BRIDGE ∨
      headerType = PCI_HEADER_TYPE_CARDBUS then
    .ok ⟨addr, pciRead16 s addr PCI_VENDOR_ID, pciRead16 s addr PCI_DEVICE_ID, headerType⟩
  else .error .ERR_INVALID

/-- The innermost loop of `lookup_pci_dev`: the functions of one device, up to one that is not
there. -/
def lookupFunction (s : PciSpace) (id : PciDevId) (bus device : UInt8) :
    List ℕ → Option PciDevAddr
  | [] => none
  | function :: functions =>
    let addr : PciDevAddr := ⟨bus, device, UInt8.ofNat function⟩
    if pciRead16 s addr PCI_VENDOR_ID = PCI_VENDOR_ID_INVALID then none
    else if id.vendorId = pciRead16 s addr PCI_VENDOR_ID ∧
        id.deviceId = pciRead16 s addr PCI_DEVICE_ID then some addr
    else lookupFunction s id bus device functions

/-- `lookup_pci_dev`. -/
def lookupPciDev (s : PciSpace) (id : PciDevId) : Except Err PciDev :=
  let found := (List.range PCI_MAX_BUS).findSome? fun bus =>
    (List.range PCI_MAX_DEVICE).findSome? fun device =>
      lookupFunction s id (UInt8.ofNat bus) (UInt8.ofNat device) (List.range PCI_MAX_FUNCTION)
  match found with
  | some addr => initPciDev s addr
  | none => .error .ERR_INVALID

/-- The address that `lookup_pci_dev` fills in is that of a device with the identity looked for. -/
theorem lookupFunction_id {s : PciSpace} {id : PciDevId} {bus device : UInt8} {addr : PciDevAddr} :
    ∀ {functions : List ℕ}, lookupFunction s id bus device functions = some addr →
      pciRead16 s addr PCI_VENDOR_ID = id.vendorId ∧
        pciRead16 s addr PCI_DEVICE_ID = id.deviceId
  | [], h => nomatch h
  | function :: functions, h => by
    rw [lookupFunction] at h
    split_ifs at h with hinvalid hid
    · obtain rfl := Option.some.inj h
      exact ⟨hid.1.symm, hid.2.symm⟩
    · exact lookupFunction_id h

theorem lookupPciDev_ok {s : PciSpace} {id : PciDevId} {dev : PciDev}
    (h : lookupPciDev s id = .ok dev) :
    initPciDev s dev.addr = .ok dev ∧ dev.vendorId = id.vendorId ∧ dev.deviceId = id.deviceId := by
  simp only [lookupPciDev] at h
  split at h
  case h_2 => cases h
  case h_1 addr hfound =>
    obtain ⟨bus, -, hbus⟩ := List.exists_of_findSome?_eq_some hfound
    obtain ⟨device, -, hdevice⟩ := List.exists_of_findSome?_eq_some hbus
    obtain ⟨hvendor, hdev⟩ := lookupFunction_id hdevice
    have hinit := h
    rw [initPciDev] at h
    split_ifs at h
    obtain rfl := Except.ok.inj h
    exact ⟨hinit, hvendor, hdev⟩

/-! ## Base address registers -/

/-- `enum pci_bar_type`. -/
inductive PciBarType where
  | PCI_BAR_IO
  | PCI_BAR_MEMORY
  deriving DecidableEq, Repr

/-- `struct pci_bar`. -/
structure PciBar where
  addr : UInt64
  type : PciBarType
  deriving DecidableEq, Repr

/-- Base address register `i` of the function. -/
def barReg (s : PciSpace) (addr : PciDevAddr) (i : ℕ) : UInt32 :=
  pciRead32 s addr (PCI_BASE_ADDRESS_0 + i * 4)

/-- `pci_get_bar`. -/
def pciGetBar (s : PciSpace) (addr : PciDevAddr) (barNum : ℕ) : Except Err PciBar :=
  let bar := barReg s addr barNum
  if ¬ barNum < PCI_BASE_ADDRESS_NUM then .error .ERR_INVALID
  else if bar = PCI_BASE_ADDRESS_INVALID then .error .ERR_INVALID
  else if bar &&& PCI_BASE_ADDRESS_SPACE = PCI_BASE_ADDRESS_SPACE_IO then
    .ok ⟨bar.toUInt64 &&& PCI_BASE_ADDRESS_IO_MASK, PciBarType.PCI_BAR_IO⟩
  else if bar &&& PCI_BASE_ADDRESS_SPACE = PCI_BASE_ADDRESS_SPACE_MEMORY then
    -- a 64-bit bar takes the next register for its upper half
    if bar &&& PCI_BASE_ADDRESS_MEM_TYPE_MASK = PCI_BASE_ADDRESS_MEM_TYPE_64 then
      if barNum + 1 < PCI_BASE_ADDRESS_NUM then
        .ok ⟨(bar.toUInt64 &&& PCI_BASE_ADDRESS_MEM_MASK) +
          ((barReg s addr (barNum + 1)).toUInt64 <<< 32), .PCI_BAR_MEMORY⟩
      else .error .ERR_INVALID
    else .ok ⟨bar.toUInt64 &&& PCI_BASE_ADDRESS_MEM_MASK, .PCI_BAR_MEMORY⟩
  else .error .ERR_INVALID

end SwitchOs
