import SwitchOs.Lib.Cells
import SwitchOs.Lib.Prog

/-!
# The core header

`struct core_header` (`shared/include/core/header.h`): what the UEFI application tells core, kept
in core's own memory across every suspend. `isCoreHeaderValid` is the check `core_main` starts with.
-/

namespace SwitchOs

/-- `err_t` without `SUCCESS`. -/
inductive Err where
  | ERR_INVALID
  deriving DecidableEq, Repr

/-- `CHECK`: leave with `ERR_INVALID` unless `c` holds. -/
abbrev check {σ : Type} (c : Bool) : Prog Err σ Unit := Prog.check c .ERR_INVALID

/-- `struct mem_area`. -/
structure MemArea where
  start : UInt64
  size : UInt64
  deriving DecidableEq, Repr

def CORE_HEADER_MAGIC : UInt32 := 0x12345678
def CORE_DISK_DUMP_MAGIC : UInt32 := 0xabcdef12

def CORE_PHYS_ADDR : ℕ := 0x41000000
def CORE_MAX_PHYS_MEM_SIZE : ℕ := 0x3000000
def CORE_RM_PHYS_ADDR : ℕ := 0x1000
def CORE_MAX_RM_PHYS_MEM_SIZE : ℕ := 0x1000
def CORE_PM_PHYS_ADDR : ℕ := 0x40000000
def CORE_MAX_PM_PHYS_MEM_SIZE : ℕ := 0x1000000

def CORE_WAKEUP_PHYS_ADDR : UInt32 := 0x1000

/-- The sizes of core's three binaries, as the build makes them: core, its realmode stub and its
protected mode stub. They have core's heap, `switch_buf`, the stack and the page tables in them. -/
structure CoreSizes where
  core : ℕ
  rm : ℕ
  pm : ℕ
  deriving DecidableEq, Repr

/-- The byte `x` is one of core's own: the loader puts each binary at its address. -/
def CoreMemory (S : CoreSizes) (x : ℕ) : Prop :=
  (CORE_PHYS_ADDR ≤ x ∧ x < CORE_PHYS_ADDR + S.core) ∨
    (CORE_RM_PHYS_ADDR ≤ x ∧ x < CORE_RM_PHYS_ADDR + S.rm) ∨
      (CORE_PM_PHYS_ADDR ≤ x ∧ x < CORE_PM_PHYS_ADDR + S.pm)

/-- `enum core_action`. The header holds it as a raw `uint32_t`, see `CoreHeader.action`. -/
inductive CoreAction where
  | CORE_ACTION_NOOP
  | CORE_ACTION_STORE
  | CORE_ACTION_SWITCH
  deriving DecidableEq, Repr

def CORE_ACTION_MAX : UInt32 := 3

def CoreAction.toUInt32 : CoreAction → UInt32
  | CORE_ACTION_NOOP => 0
  | CORE_ACTION_STORE => 1
  | CORE_ACTION_SWITCH => 2

def MAX_RAM_AREAS : ℕ := 64

/-- The `disk_pci` part of the core header: where the disk is, and the values of its BARs. -/
structure DiskPci where
  bus : UInt8
  device : UInt8
  function : UInt8
  bars : ℕ → UInt32

/-- `struct core_header`. `ramAreas i` for `i` from `MAX_RAM_AREAS` on is what lies in memory behind
the table; nothing but a check that comes too late reads it. -/
structure CoreHeader where
  magic : UInt32
  action : UInt32
  facs : UInt64
  rsdp : UInt64
  diskPci : DiskPci
  ramAreasSize : UInt32
  ramAreas : ℕ → MemArea

/-- `g_core_header` as core is built, before the UEFI application fills it. -/
def emptyCore : CoreHeader where
  magic := CORE_HEADER_MAGIC
  action := CoreAction.CORE_ACTION_NOOP.toUInt32
  facs := 0
  rsdp := 0
  diskPci := ⟨0, 0, 0, fun _ => 0⟩
  ramAreasSize := 0
  ramAreas _ := ⟨0, 0⟩

/-- `g_core_header.action = action`. -/
def CoreHeader.setAction (core : CoreHeader) (action : UInt32) : CoreHeader :=
  { core with action := action }

@[simp] theorem CoreHeader.setAction_action (core : CoreHeader) (action : UInt32) :
    (core.setAction action).action = action := rfl

def isCoreHeaderMagicValid (magic : UInt32) : Bool := magic == CORE_HEADER_MAGIC

def isCoreHeaderActionValid (action : UInt32) : Bool := decide (action < CORE_ACTION_MAX)

def isCoreHeaderFacsValid (facs : UInt64) : Bool := facs != 0

def isCoreHeaderRsdpValid (rsdp : UInt64) : Bool := rsdp != 0

def isCoreHeaderRamAreasValid (ramAreas : ℕ → MemArea) (ramAreasSize : UInt32) : Bool :=
  if ramAreasSize.toNat > MAX_RAM_AREAS then false
  else (List.range ramAreasSize.toNat).all fun i => (ramAreas i).size != 0

def isCoreHeaderValid (h : CoreHeader) : Bool :=
  isCoreHeaderMagicValid h.magic && isCoreHeaderActionValid h.action &&
    isCoreHeaderFacsValid h.facs && isCoreHeaderRsdpValid h.rsdp &&
    isCoreHeaderRamAreasValid h.ramAreas h.ramAreasSize

theorem isCoreHeaderActionValid_toUInt32 (a : CoreAction) :
    isCoreHeaderActionValid a.toUInt32 = true := by
  cases a <;> decide

/-- The valid raw actions are those of the enumeration. -/
theorem exists_action_of_valid {action : UInt32} (h : isCoreHeaderActionValid action = true) :
    ∃ a : CoreAction, a.toUInt32 = action := by
  have hlt : action.toNat < 3 := by
    simpa [isCoreHeaderActionValid, CORE_ACTION_MAX, UInt32.lt_iff_toNat_lt] using h
  have hcases : action.toNat = 0 ∨ action.toNat = 1 ∨ action.toNat = 2 := by omega
  rcases hcases with h0 | h1 | h2
  · exact ⟨.CORE_ACTION_NOOP, UInt32.toNat_inj.mp h0.symm⟩
  · exact ⟨.CORE_ACTION_STORE, UInt32.toNat_inj.mp h1.symm⟩
  · exact ⟨.CORE_ACTION_SWITCH, UInt32.toNat_inj.mp h2.symm⟩

theorem ramAreasSize_le {h : CoreHeader} (hv : isCoreHeaderValid h = true) :
    h.ramAreasSize.toNat ≤ MAX_RAM_AREAS := by
  simp only [isCoreHeaderValid, isCoreHeaderRamAreasValid, Bool.and_eq_true] at hv
  have hr := hv.2
  split_ifs at hr with hlt
  omega

theorem action_of_valid {h : CoreHeader} (hv : isCoreHeaderValid h = true) :
    isCoreHeaderActionValid h.action = true := by
  simp only [isCoreHeaderValid, Bool.and_eq_true] at hv
  exact hv.1.1.1.2

/-- Setting a valid action keeps a valid header valid. -/
theorem isCoreHeaderValid_setAction {h : CoreHeader} {action : UInt32}
    (hv : isCoreHeaderValid h = true) (ha : isCoreHeaderActionValid action = true) :
    isCoreHeaderValid (h.setAction action) = true := by
  simp only [isCoreHeaderValid, Bool.and_eq_true] at hv ⊢
  exact ⟨⟨⟨⟨hv.1.1.1.1, ha⟩, hv.1.1.2⟩, hv.1.2⟩, hv.2⟩

end SwitchOs
