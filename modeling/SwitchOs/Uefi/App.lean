import SwitchOs.Acpi.Method
import SwitchOs.Pci.Bars
import SwitchOs.Uefi.RamAreas
import SwitchOs.Uefi.Services

/-!
# The UEFI application

`efi_main` of `uefi/app.c` and the stages it goes through: `load_core` puts core into memory,
`find_acpi_tables` and `hook_services` are those of the other modules, `create_or_hook_pts` patches
the DSDT, and `fill_core_header` tells core where it is. If a stage fails, the services are unhooked
and nothing else.
-/

namespace SwitchOs

open Acpi

def EFI_LOAD_ERROR : UInt64 := 0x8000000000000001

def AML_ZERO_OP : UInt8 := 0x00

/-- An entry of `SSDT__OffsetTable`, the fields that are read. -/
structure OffsetEntry where
  pathname : List UInt8
  offset : UInt32

/-- What the build and the firmware decide: the binaries of core, the tables that the ASL compiler
makes of `pts_hook.asl`, and what the boot services answer. `AllocateAddress` gives pages that are
free, or fails. -/
structure AppSetup where
  coreRaw : List UInt8
  rmRaw : List UInt8
  pmRaw : List UInt8
  ssdtHeader : List UInt8
  ssdtPts : List UInt8
  ssdtOffsetTable : List OffsetEntry
  compareGuid : Guid → Guid → Bool
  allocateAddress : AcpiState → ℕ → ℕ → Bool
  allocateAddress_free : ∀ {s start pages}, allocateAddress s start pages = true →
    ∀ x, inPages start pages x = true → s.free x = true
  pages : PageServices
  boot : BootServices
  pci : PciSpace
  map : MemoryMap

/-- The sizes of the binaries. -/
def AppSetup.sizes (A : AppSetup) : CoreSizes := ⟨A.coreRaw.length, A.rmRaw.length, A.pmRaw.length⟩

/-- The state of the application: the header of core, in its place in memory; the tables and the rest
of memory; the services; and `SSDT___PTS_FACS`, which is patched before it is appended. -/
structure AppState where
  core : CoreHeader
  acpi : AcpiState
  services : Services
  ssdtPtsFacs : List UInt8

abbrev AppM := Prog Err AppState

/-! ## The stages -/

section Stages

variable {α : Type}

def onCore (x : Prog Err CoreHeader α) : AppM α :=
  Prog.zoom AppState.core (fun core s => { s with core := core }) x

def onAcpi (x : AcpiM α) : AppM α :=
  Prog.zoom AppState.acpi (fun acpi s => { s with acpi := acpi }) x

def onServices (x : Prog Err Services α) : AppM α :=
  Prog.zoom AppState.services (fun services s => { s with services := services }) x

end Stages

/-- The pages from `start` on are allocated, as `EfiReservedMemoryType`. -/
def reserved (start pages : ℕ) (s : AcpiState) : AcpiState :=
  { s with
    free := fun x => s.free x && !inPages start pages x
    isReserved := fun x => s.isReserved x || inPages start pages x }

/-- The bytes are written to memory. -/
def written (addr : ℕ) (buf : List UInt8) (s : AcpiState) : AcpiState :=
  s.setMem (blit s.mem addr (fun i => buf.getD i 0) 0 buf.length)

/-- `reserve_memory`. -/
def reserveMemory (A : AppSetup) (start size : ℕ) : AcpiM Unit := do
  let s ← Prog.get
  check (A.allocateAddress s start (alignUp size PAGE_SIZE / PAGE_SIZE))
  Prog.modify (reserved start (alignUp size PAGE_SIZE / PAGE_SIZE))

/-- `load_memory`. -/
def loadMemory (A : AppSetup) (addr : ℕ) (buf : List UInt8) : AcpiM Unit := do
  reserveMemory A addr buf.length
  Prog.modify (written addr buf)

/-- `load_core`. The binary of core starts with its header. -/
def loadCore (A : AppSetup) : AppM Unit := do
  check (decide (A.coreRaw.length ≤ CORE_MAX_PHYS_MEM_SIZE))
  check (decide (A.rmRaw.length ≤ CORE_MAX_RM_PHYS_MEM_SIZE))
  check (decide (A.pmRaw.length ≤ CORE_MAX_PM_PHYS_MEM_SIZE))
  onAcpi (loadMemory A CORE_PHYS_ADDR A.coreRaw)
  onCore (Prog.modify fun _ => emptyCore)
  onAcpi (loadMemory A CORE_RM_PHYS_ADDR A.rmRaw)
  onAcpi (loadMemory A CORE_PM_PHYS_ADDR A.pmRaw)
  let s ← Prog.get
  check (isCoreHeaderMagicValid s.core.magic)

/-- `"_PTS.FACS"`. -/
def pathFacs : List UInt8 := [0x5f, 0x50, 0x54, 0x53, 0x2e, 0x46, 0x41, 0x43, 0x53]

/-- `facs_addr_reloc_offset`, after the loop over `SSDT__OffsetTable`. -/
def AppSetup.facsAddrRelocOffset (A : AppSetup) : UInt64 :=
  A.ssdtOffsetTable.foldl (fun offset entry =>
    if entry.pathname = pathFacs then
      entry.offset.toUInt64 - UInt64.ofNat A.ssdtHeader.length - UInt64.ofNat A.ssdtPts.length
    else offset) (-1)

/-- `*facs_addr_reloc = facs`. -/
def AppState.relocateFacs (offset : UInt64) (s : AppState) : AppState :=
  { s with
    ssdtPtsFacs := window (put32 (fun i => s.ssdtPtsFacs.getD i 0) offset.toNat
      (UInt32.ofNat s.acpi.gFacs)) 0 s.ssdtPtsFacs.length }

/-- `pts_relocate_facs_addr`. -/
def ptsRelocateFacsAddr (A : AppSetup) : AppM Unit := do
  check (A.facsAddrRelocOffset != -1)
  let s ← Prog.get
  check (decide (A.facsAddrRelocOffset + 4 ≤ UInt64.ofNat s.ssdtPtsFacs.length))
  Prog.modify (AppState.relocateFacs A.facsAddrRelocOffset)

/-- The last bytes of `SSDT___PTS_FACS`, which call `SPTS`, become ZeroOps. -/
def AppState.dropCall (s : AppState) : AppState :=
  let callSptsByteCount := AML_METHOD_NAME_LEN + 1
  { s with
    ssdtPtsFacs := s.ssdtPtsFacs.take (s.ssdtPtsFacs.length - callSptsByteCount) ++
      List.replicate callSptsByteCount AML_ZERO_OP }

/-- `create_or_hook_pts`, once the address of the FACS is relocated. -/
def patchPts (A : AppSetup) : AppM Unit := do
  if ← Prog.succeeds (onAcpi (findMethod namePts)) then
    let s ← Prog.get
    onAcpi (hookMethod A.pages namePts nameSpts [A.ssdtPts, s.ssdtPtsFacs])
  else
    Prog.modify AppState.dropCall
    let s ← Prog.get
    onAcpi (appendMethod A.pages [A.ssdtPts, s.ssdtPtsFacs])

/-- `create_or_hook_pts`. -/
def createOrHookPts (A : AppSetup) : AppM Unit := do
  ptsRelocateFacsAddr A
  patchPts A

/-- `fill_rsdp`. -/
def fillRsdp (gRsdp : ℕ) (core : CoreHeader) : CoreHeader :=
  { core with rsdp := UInt64.ofNat gRsdp }

/-- `fill_facs`. -/
def fillFacs (gFacs : ℕ) (core : CoreHeader) : CoreHeader :=
  { core with facs := UInt64.ofNat gFacs }

/-- `fill_core_header`. -/
def fillCoreHeader (A : AppSetup) : AppM Unit := do
  let s ← Prog.get
  onCore do
    Prog.modify (fillRsdp s.acpi.gRsdp)
    Prog.modify (fillFacs s.acpi.gFacs)
    fillDiskPci A.pci
    fillRamAreas A.map

/-- The stages of `efi_main`. -/
def efiStages (A : AppSetup) : AppM Unit := do
  loadCore A
  onAcpi (findAcpiTables A.compareGuid)
  onServices (hookServices A.boot)
  createOrHookPts A
  fillCoreHeader A

/-- `efi_main`. -/
def efiMain (A : AppSetup) (s : AppState) : Option (UInt64 × AppState) :=
  match efiStages A s with
  | none => none
  | some (.ok (), s') => some (EFI_SUCCESS, s')
  | some (.error _, s') =>
    some (EFI_LOAD_ERROR, { s' with services := unhookServices A.boot s'.services })

/-! ## The application returns -/

section Returns

variable {A : AppSetup}

end Returns

end SwitchOs
