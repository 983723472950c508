import SwitchOs.Uefi.Types

/-!
# ACPI tables

`uefi/acpi/tables.c` and `patch_utils.c`: how the UEFI application finds the tables of the firmware,
and their checksums. The tables are bytes of memory, and the fields of their structs are read and
written at their offsets.
-/

namespace SwitchOs.Acpi

/-! ## Layout -/

/-- `sizeof(struct acpi_table_header)`, which is also `sizeof(struct acpi_dsdt)`. -/
def TABLE_HEADER_SIZE : ℕ := 36

def TABLE_LENGTH : ℕ := 4
def TABLE_CHECKSUM : ℕ := 9

def RSDP_REVISION : ℕ := 15
def RSDP_RSDT_ADDR : ℕ := 16
def RSDP_XSDT_ADDR : ℕ := 24

def FADT_FIRMWARE_CTRL : ℕ := 36
def FADT_DSDT : ℕ := 40

/-- The 64-bit addresses lie behind a `struct acpi_gas`, which is packed. -/
def FADT_X_FIRMWARE_CTRL : ℕ := 132
def FADT_X_DSDT : ℕ := 140

/-- The end of the fields of `struct acpi_fadt` that are used. -/
def FADT_USED_SIZE : ℕ := 148

/-- `hdr.length`. -/
def tableLength (mem : ℕ → UInt8) (table : ℕ) : UInt32 := get32 mem (table + TABLE_LENGTH)

/-- `DSDT_AML_SIZE`. -/
def dsdtAmlSize (mem : ℕ → UInt8) (dsdt : ℕ) : ℕ :=
  ((tableLength mem dsdt).toUInt64 - UInt64.ofNat TABLE_HEADER_SIZE).toNat

/-- `hdr.signature`. -/
def tableSignature (mem : ℕ → UInt8) (table : ℕ) : List UInt8 := window mem table 4

/-- The bytes of a table. -/
def tableBytes (mem : ℕ → UInt8) (table : ℕ) : List UInt8 :=
  window mem table (tableLength mem table).toNat

/-- The sum of the bytes of a table. -/
def tableSum (mem : ℕ → UInt8) (table : ℕ) : UInt8 := byteSum mem table (tableLength mem table).toNat

/-! ## State -/

/-- A call of a page service of the firmware, with its answer. -/
inductive PageCall where
  | allocatePages (pages : ℕ) (answer : Option ℕ)
  | freePages (addr pages : ℕ) (answer : Bool)
  deriving DecidableEq, Repr

/-- Physical memory, which of it the firmware may hand out, which of it is allocated as
`EfiReservedMemoryType`, the tables that the UEFI system table lists, the globals of `tables.c` and
`dsdt.c`, and the calls of page services so far. A null pointer is address 0. -/
structure AcpiState where
  mem : ℕ → UInt8
  free : ℕ → Bool
  isReserved : ℕ → Bool
  configurationTable : Option (List (Guid × ℕ))
  gRsdp : ℕ
  gRxsdt : ℕ
  gFadt : ℕ
  gFacs : ℕ
  gDsdt : ℕ
  isDsdtPatched : Bool
  calls : List PageCall

abbrev AcpiM := Prog Err AcpiState

/-! ## Finding the tables -/

def ACPI_20_TABLE_GUID : Guid :=
  ⟨0x8868e871, 0xe4f1, 0x11d3, [0xbc, 0x22, 0x00, 0x80, 0xc7, 0x3c, 0x88, 0x81]⟩

/-- `find_rsdp`. `CompareGuid` comes from the EFI library. -/
def findRsdp (compareGuid : Guid → Guid → Bool) : AcpiM Unit := do
  let s ← Prog.get
  match s.configurationTable with
  | none => Prog.throw .ERR_INVALID
  | some tables =>
    Prog.forEach (fun (vendorGuid, vendorTable) =>
      if compareGuid vendorGuid ACPI_20_TABLE_GUID then do
        let s ← Prog.get
        check (s.gRsdp == 0)
        Prog.modify fun s => { s with gRsdp := vendorTable }
      else pure ()) tables
    let s ← Prog.get
    check (s.gRsdp != 0)

/-- `find_rxsdt`. -/
def findRxsdt (rsdp : ℕ) : AcpiM Unit := do
  let s ← Prog.get
  let xsdtAddr := get64 s.mem (rsdp + RSDP_XSDT_ADDR)
  if s.mem (rsdp + RSDP_REVISION) > 1 && xsdtAddr != 0 then
    Prog.modify fun s => { s with gRxsdt := xsdtAddr.toNat }
  else
    Prog.modify fun s => { s with gRxsdt := (get32 s.mem (rsdp + RSDP_RSDT_ADDR)).toNat }
  let s ← Prog.get
  check (s.gRxsdt != 0)

/-- `is_xsdt`. -/
def isXsdt (mem : ℕ → UInt8) (rxsdt : ℕ) : Bool :=
  tableSignature mem rxsdt == [0x58, 0x53, 0x44, 0x54]

/-- The signature `"FACP"` of the FADT. -/
def FADT_SIGNATURE : List UInt8 := [0x46, 0x41, 0x43, 0x50]

/-- The body of the loop of `scan_rxsdt`. -/
def scanEntry (entry : ℕ) : AcpiM Unit := do
  check (entry != 0)
  let s ← Prog.get
  if tableSignature s.mem entry == FADT_SIGNATURE then
    check (s.gFadt == 0)
    Prog.modify fun s => { s with gFadt := entry }

/-- The addresses in the RSDT or XSDT: one every `entrySize` bytes that fits. -/
def rxsdtEntries (mem : ℕ → UInt8) (rxsdt : ℕ) : List ℕ :=
  let entrySize := if isXsdt mem rxsdt then 8 else 4
  let entriesBytes := ((tableLength mem rxsdt).toUInt64 - UInt64.ofNat TABLE_HEADER_SIZE).toNat
  (List.range (entriesBytes / entrySize)).map fun k =>
    getLE mem (rxsdt + TABLE_HEADER_SIZE + k * entrySize) entrySize

/-- `scan_rxsdt`. -/
def scanRxsdt (rxsdt : ℕ) : AcpiM Unit := do
  let s ← Prog.get
  Prog.forEach scanEntry (rxsdtEntries s.mem rxsdt)

/-- The FACS that a FADT names. -/
def fadtFacs (mem : ℕ → UInt8) (fadt : ℕ) : ℕ :=
  let xFirmwareCtrl := get64 mem (fadt + FADT_X_FIRMWARE_CTRL)
  if xFirmwareCtrl ≠ 0 then xFirmwareCtrl.toNat else (get32 mem (fadt + FADT_FIRMWARE_CTRL)).toNat

/-- The DSDT that a FADT names. -/
def fadtDsdt (mem : ℕ → UInt8) (fadt : ℕ) : ℕ :=
  let xDsdt := get64 mem (fadt + FADT_X_DSDT)
  if xDsdt ≠ 0 then xDsdt.toNat else (get32 mem (fadt + FADT_DSDT)).toNat

/-- `find_facs`. -/
def findFacs (fadt : ℕ) : AcpiM Unit :=
  Prog.modify fun s => { s with gFacs := fadtFacs s.mem fadt }

/-- `find_dsdt`. -/
def findDsdt (fadt : ℕ) : AcpiM Unit :=
  Prog.modify fun s => { s with gDsdt := fadtDsdt s.mem fadt }

/-- `find_acpi_tables`. -/
def findAcpiTables (compareGuid : Guid → Guid → Bool) : AcpiM Unit := do
  findRsdp compareGuid
  let s ← Prog.get
  findRxsdt s.gRsdp
  let s ← Prog.get
  scanRxsdt s.gRxsdt
  let s ← Prog.get
  check (s.gFadt != 0)
  findFacs s.gFadt
  findDsdt s.gFadt

/-! ## Checksums -/

/-- `fix_table_checksum`. -/
def fixTableChecksum (table : ℕ) (mem : ℕ → UInt8) : ℕ → UInt8 :=
  let mem := setCell mem (table + TABLE_CHECKSUM) 0
  let checksum := byteSum mem table (tableLength mem table).toNat
  setCell mem (table + TABLE_CHECKSUM) (-checksum)

variable {mem : ℕ → UInt8} {table x : ℕ}

theorem fixTableChecksum_ne (h : x ≠ table + TABLE_CHECKSUM) :
    fixTableChecksum table mem x = mem x := by
  rw [fixTableChecksum, setCell_ne _ _ h, setCell_ne _ _ h]

theorem tableLength_congr {mem' : ℕ → UInt8} {table' : ℕ}
    (h : ∀ i < 4, mem' (table' + TABLE_LENGTH + i) = mem (table + TABLE_LENGTH + i)) :
    tableLength mem' table' = tableLength mem table := by
  rw [tableLength, tableLength, get32_congr h]

@[simp] theorem tableLength_fixTableChecksum :
    tableLength (fixTableChecksum table mem) table = tableLength mem table :=
  tableLength_congr fun i hi =>
    fixTableChecksum_ne (by simp only [TABLE_LENGTH, TABLE_CHECKSUM]; omega)

/-- **The checksum is right**: a table that contains its checksum sums up to zero. -/
theorem tableSum_fixTableChecksum (h : TABLE_CHECKSUM < (tableLength mem table).toNat) :
    tableSum (fixTableChecksum table mem) table = 0 := by
  have hlen : tableLength (setCell mem (table + TABLE_CHECKSUM) 0) table = tableLength mem table :=
    tableLength_congr fun i hi => setCell_ne _ _ (by simp only [TABLE_LENGTH, TABLE_CHECKSUM]; omega)
  have hzero : ∀ v, setCell (setCell mem (table + TABLE_CHECKSUM) 0) (table + TABLE_CHECKSUM) v =
      setCell mem (table + TABLE_CHECKSUM) v := by
    intro v
    funext y
    by_cases hy : y = table + TABLE_CHECKSUM
    · rw [hy, setCell_self, setCell_self]
    · rw [setCell_ne _ _ hy, setCell_ne _ _ hy, setCell_ne _ _ hy]
  rw [tableSum, tableLength_fixTableChecksum, fixTableChecksum]
  simp only [hlen, hzero]
  rw [byteSum_setCell _ _ h, UInt8.add_comm, UInt8.add_left_neg]

end SwitchOs.Acpi
