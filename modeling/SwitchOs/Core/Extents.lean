import SwitchOs.Core.Dump
import SwitchOs.Lib.Exchange

/-!
# Where a dump lies

The geometry that a dump is made for: RAM areas that are whole sectors, meet neither each other nor
core nor the FACS, and fit on the disk behind the header (`Geometry`). A memory holds an image of
the RAM areas (`ramImage`), a disk the image and the waking vector that its header describes
(`diskDump`), and an area and its extent are exchanged in chunks of at most `SWITCH_BUF_SIZE`
(`allChunks`).
-/

namespace SwitchOs

open DumpHeader

/-- `sizeof(struct acpi_facs)`. -/
def FACS_SIZE : ℕ := 64

namespace CoreHeader

/-- The first address of RAM area `i`. -/
def areaStart (core : CoreHeader) (i : ℕ) : ℕ := (core.ramAreas i).start.toNat

/-- The number of bytes of RAM area `i`. -/
def areaSize (core : CoreHeader) (i : ℕ) : ℕ := (core.ramAreas i).size.toNat

def areaCount (core : CoreHeader) : ℕ := core.ramAreasSize.toNat

/-- The byte `x` lies in a RAM area. -/
def InRam (core : CoreHeader) (x : ℕ) : Prop :=
  ∃ i < core.areaCount, core.areaStart i ≤ x ∧ x < core.areaStart i + core.areaSize i

/-- The byte `x` lies in the FACS. -/
def InFacs (core : CoreHeader) (x : ℕ) : Prop :=
  core.facs.toNat ≤ x ∧ x < core.facs.toNat + FACS_SIZE

/-- The byte `x` lies in the saved waking vector. -/
def InSavedVector (core : CoreHeader) (x : ℕ) : Prop :=
  core.facs.toNat + FACS_RSVD1 ≤ x ∧ x < core.facs.toNat + FACS_RSVD1 + 4

/-- The saved waking vector, zero if there is none. -/
def savedVector (core : CoreHeader) (mem : ℕ → UInt8) : UInt32 :=
  get32 mem (core.facs.toNat + FACS_RSVD1)

end CoreHeader

/-- The header and the extents take fewer than 2^32 sectors. -/
def Fits (core : CoreHeader) : Prop := sectorOf core core.areaCount < 2 ^ 32

/-- The RAM areas that a dump is made for. -/
structure Geometry (S : CoreSizes) (core : CoreHeader) : Prop where
  nonempty : core.ramAreasSize ≠ 0
  count_le : core.areaCount ≤ MAX_RAM_AREAS
  aligned : AreasAligned core
  no_wrap : ∀ i < core.areaCount, core.areaStart i + core.areaSize i ≤ 2 ^ 64
  disjoint : ∀ i < core.areaCount, ∀ j < core.areaCount, i ≠ j →
    core.areaStart i + core.areaSize i ≤ core.areaStart j ∨
      core.areaStart j + core.areaSize j ≤ core.areaStart i
  apart_core : ∀ x, core.InRam x → ¬ CoreMemory S x
  apart_facs : ∀ x, core.InRam x → ¬ core.InFacs x
  facs_apart_core : ∀ x, core.InFacs x → ¬ CoreMemory S x
  fits : Fits core

variable {S : CoreSizes} {core : CoreHeader}

theorem CoreHeader.InSavedVector.inFacs {x : ℕ} (h : core.InSavedVector x) : core.InFacs x := by
  simp only [CoreHeader.InSavedVector, CoreHeader.InFacs, FACS_RSVD1, FACS_SIZE] at h ⊢
  omega

/-- The saved vector only depends on its own bytes. -/
theorem savedVector_congr {mem mem' : ℕ → UInt8}
    (h : ∀ x, core.InSavedVector x → mem x = mem' x) :
    core.savedVector mem = core.savedVector mem' :=
  get32_congr fun i hi => h _ ⟨by omega, by omega⟩

theorem findOriginalWakingVector_ok {mem : ℕ → UInt8} (h : core.savedVector mem ≠ 0) :
    findOriginalWakingVector core mem = .ok (core.savedVector mem) :=
  findOriginalWakingVector_eq h

/-! ## Extents -/

/-- The first byte on the disk of area `i`. -/
def extentPos (core : CoreHeader) (i : ℕ) : ℕ := sectorPos (sectorOf core i)

/-- The extents follow each other without a gap. -/
theorem extentPos_succ (haligned : AreasAligned core) {i : ℕ} (hi : i < core.areaCount) :
    extentPos core (i + 1) = extentPos core i + core.areaSize i := by
  have hmod := (haligned i hi).2
  simp only [extentPos, sectorPos, sectorOf, CoreHeader.areaSize, VIRTIO_BLK_SECTOR_SIZE] at hmod ⊢
  omega

theorem extentPos_zero : extentPos core 0 = DUMP_HEADER_SIZE := by
  simp [extentPos, sectorPos, sectorOf, DUMP_HEADER_SECTORS_SIZE, DUMP_HEADER_SIZE,
    VIRTIO_BLK_SECTOR_SIZE]

theorem extentPos_mono (haligned : AreasAligned core) {i j : ℕ} (hij : i ≤ j)
    (hj : j ≤ core.areaCount) : extentPos core i ≤ extentPos core j := by
  induction j, hij using Nat.le_induction with
  | base => exact le_rfl
  | succ j hij ih =>
    have h := extentPos_succ haligned (i := j) (by omega)
    have := ih (by omega)
    omega

/-- An extent ends where a later one starts, or before. -/
theorem extent_end_le (haligned : AreasAligned core) {i j : ℕ} (hij : i < j)
    (hj : j ≤ core.areaCount) : extentPos core i + core.areaSize i ≤ extentPos core j := by
  rw [← extentPos_succ haligned (by omega)]
  exact extentPos_mono haligned hij hj

theorem header_le_extentPos (haligned : AreasAligned core) {i : ℕ} (hi : i ≤ core.areaCount) :
    DUMP_HEADER_SIZE ≤ extentPos core i := by
  rw [← extentPos_zero]
  exact extentPos_mono haligned (Nat.zero_le i) hi

/-- Under `Fits` the sector of an area is not cut. -/
theorem toNat_sector (haligned : AreasAligned core) (hfits : Fits core) {i : ℕ}
    (hi : i < core.areaCount) : (UInt32.ofNat (sectorOf core i)).toNat = sectorOf core i := by
  have hmono := extentPos_mono haligned (le_of_lt hi) le_rfl
  simp only [extentPos, sectorPos, VIRTIO_BLK_SECTOR_SIZE] at hmono
  rw [UInt32.toNat_ofNat']
  exact Nat.mod_eq_of_lt (by unfold Fits at hfits; omega)

/-! ## Images -/

/-- The contents of the RAM areas, one list of bytes for each. -/
abbrev Image := List (List UInt8)

/-- The contents of the RAM areas in a memory. -/
def ramImage (core : CoreHeader) (mem : ℕ → UInt8) : Image :=
  (List.range core.areaCount).map fun i => window mem (core.areaStart i) (core.areaSize i)

/-- The contents of the extents that the header on a disk names. -/
def dumpImage (disk : ℕ → UInt8) : Image :=
  (List.range (areasSize disk).toNat).map fun i =>
    window disk (sectorPos (areas disk i).sector.toNat) (areas disk i).area.size.toNat

/-- The image and the waking vector that a disk describes. -/
def diskDump (disk : ℕ → UInt8) : Image × UInt32 := (dumpImage disk, wakingVector disk)

theorem dumpImage_laidOut {v : UInt32} {disk : ℕ → UInt8} (hl : LaidOut core v disk)
    (haligned : AreasAligned core) (hfits : Fits core) :
    dumpImage disk =
      (List.range core.areaCount).map fun i => window disk (extentPos core i) (core.areaSize i) := by
  rw [dumpImage, hl.areasSize]
  refine List.map_congr_left fun i hi => ?_
  rw [List.mem_range] at hi
  rw [hl.areas i hi, toNat_sector haligned hfits hi]
  rfl

/-- Two memories hold the same image if they agree on the RAM areas. -/
theorem ramImage_eq_iff {mem mem' : ℕ → UInt8} :
    ramImage core mem = ramImage core mem' ↔ ∀ i < core.areaCount,
      window mem (core.areaStart i) (core.areaSize i) =
        window mem' (core.areaStart i) (core.areaSize i) := by
  simp only [ramImage, List.map_inj_left, List.mem_range]

/-! ## Chunks -/

/-- The chunks in which area `i` is exchanged. -/
def areaChunks (core : CoreHeader) (i : ℕ) : List Chunk :=
  chunksOf SWITCH_BUF_SIZE (core.areaStart i) (extentPos core i) (core.areaSize i)

/-- The chunks of a whole switch, in the order of their exchange. -/
def allChunks (core : CoreHeader) : List Chunk :=
  (List.range core.areaCount).flatMap (areaChunks core)

theorem mem_allChunks {c : Chunk} (hc : c ∈ allChunks core) :
    ∃ i < core.areaCount, c ∈ areaChunks core i := by
  obtain ⟨i, hi, hci⟩ := List.mem_flatMap.mp hc
  exact ⟨i, List.mem_range.mp hi, hci⟩

/-- A chunk lies in a RAM area. -/
theorem inRam_of_mem_allChunks {c : Chunk} (hc : c ∈ allChunks core) {x : ℕ} (hx : c.InMem x) :
    core.InRam x := by
  obtain ⟨i, hi, hci⟩ := mem_allChunks hc
  have hb := mem_chunksOf_bounds hci
  have := hx.1
  have := hx.2
  exact ⟨i, hi, by omega, by omega⟩

/-- A chunk lies behind the header. -/
theorem header_le_of_mem_allChunks (haligned : AreasAligned core) {c : Chunk}
    (hc : c ∈ allChunks core) : DUMP_HEADER_SIZE ≤ c.pos := by
  obtain ⟨i, hi, hci⟩ := mem_allChunks hc
  have hb := mem_chunksOf_bounds hci
  have := header_le_extentPos haligned (le_of_lt hi)
  omega

/-- The chunks of a switch do not meet. -/
theorem allChunks_pairwise (hg : Geometry S core) : (allChunks core).Pairwise Chunk.Separate := by
  refine chunksOf_flatMap_pairwise (fun i j hij hj => ?_) fun i j hij hj => ?_
  · exact hg.disjoint i (by omega) j hj (by omega)
  · exact Or.inl (extent_end_le hg.aligned hij (le_of_lt hj))

/-- What holds cell by cell of every chunk holds cell by cell of the areas and extents, and back. -/
theorem forall_allChunks (R : ℕ → ℕ → Prop) :
    (∀ c ∈ allChunks core, ∀ i < c.len, R (c.addr + i) (c.pos + i)) ↔
      ∀ i < core.areaCount, ∀ k < core.areaSize i,
        R (core.areaStart i + k) (extentPos core i + k) := by
  simp only [allChunks, List.mem_flatMap, List.mem_range, forall_exists_index, and_imp]
  constructor
  · intro h i hi
    exact (forall_chunksOf (by decide) R _ _ _).mp fun c hc => h c i hi hc
  · intro h c i hi hc
    exact (forall_chunksOf (by decide) R _ _ _).mpr (h i hi) c hc

/-- A memory and a laid out disk hold the same image if they agree chunk by chunk. -/
theorem ramImage_eq_dumpImage_iff {v : UInt32} {mem disk : ℕ → UInt8} (hl : LaidOut core v disk)
    (haligned : AreasAligned core) (hfits : Fits core) :
    ramImage core mem = dumpImage disk ↔
      ∀ c ∈ allChunks core, window mem c.addr c.len = window disk c.pos c.len := by
  rw [dumpImage_laidOut hl haligned hfits]
  simp only [ramImage, List.map_inj_left, List.mem_range, window_eq_window]
  exact (forall_allChunks fun x y => mem x = disk y).symm

theorem ramImage_eq_ramImage_iff {mem mem' : ℕ → UInt8} :
    ramImage core mem = ramImage core mem' ↔
      ∀ c ∈ allChunks core, window mem c.addr c.len = window mem' c.addr c.len := by
  simp only [ramImage_eq_iff, window_eq_window]
  exact (forall_allChunks fun x _ => mem x = mem' x).symm

theorem dumpImage_eq_dumpImage_iff {v v' : UInt32} {disk disk' : ℕ → UInt8}
    (hl : LaidOut core v disk) (hl' : LaidOut core v' disk') (haligned : AreasAligned core)
    (hfits : Fits core) :
    dumpImage disk = dumpImage disk' ↔
      ∀ c ∈ allChunks core, window disk c.pos c.len = window disk' c.pos c.len := by
  rw [dumpImage_laidOut hl haligned hfits, dumpImage_laidOut hl' haligned hfits]
  simp only [List.map_inj_left, List.mem_range, window_eq_window]
  exact (forall_allChunks fun _ y => disk y = disk' y).symm

/-! ## The action does not matter -/

theorem sectorOf_setAction (action : UInt32) (i : ℕ) :
    sectorOf (core.setAction action) i = sectorOf core i := by
  induction i with
  | zero => rfl
  | succ i ih =>
    rw [sectorOf, sectorOf, ih]
    rfl

theorem Geometry.setAction (hg : Geometry S core) (action : UInt32) :
    Geometry S (core.setAction action) :=
  ⟨hg.nonempty, hg.count_le, hg.aligned, hg.no_wrap, hg.disjoint, hg.apart_core, hg.apart_facs,
    hg.facs_apart_core, by
      rw [Fits, sectorOf_setAction]
      exact hg.fits⟩

theorem laidOut_setAction {v : UInt32} {h : DumpHeader} (action : UInt32) :
    LaidOut (core.setAction action) v h ↔ LaidOut core v h := by
  constructor
  · rintro ⟨hm, hv, hs, ha⟩
    exact ⟨hm, hv, hs, fun i hi => by rw [ha i hi, sectorOf_setAction]; rfl⟩
  · rintro ⟨hm, hv, hs, ha⟩
    exact ⟨hm, hv, hs, fun i hi => by rw [ha i hi, sectorOf_setAction]; rfl⟩

theorem isDumpHeaderValid_setAction (action : UInt32) (h : DumpHeader) :
    isDumpHeaderValid (core.setAction action) h = isDumpHeaderValid core h := rfl

/-! ## One page of RAM -/

/-- A core header for a single page of RAM. -/
def onePage (start : UInt64) : CoreHeader where
  magic := CORE_HEADER_MAGIC
  action := 0
  facs := 0x3000
  rsdp := 0x4000
  diskPci := ⟨0, 0, 0, fun _ => 0⟩
  ramAreasSize := 1
  ramAreas := fun _ => ⟨start, 4096⟩

theorem onePage_valid (start : UInt64) : isCoreHeaderValid (onePage start) = true := by
  simp [isCoreHeaderValid, isCoreHeaderRamAreasValid, onePage, isCoreHeaderMagicValid,
    isCoreHeaderActionValid, isCoreHeaderFacsValid, isCoreHeaderRsdpValid, MAX_RAM_AREAS,
    CORE_ACTION_MAX]

/-- Core with 9 MiB, and stubs that end long before the memory they may take. -/
def sampleSizes : CoreSizes := ⟨0x900000, 0x200, 0x20e000⟩

theorem coreMemory_sampleSizes {x : ℕ} (h : CoreMemory sampleSizes x) :
    0x1000 ≤ x ∧ x < 0x2000 ∨ 0x40000000 ≤ x ∧ x < 0x41900000 := by
  simp only [CoreMemory, sampleSizes, CORE_PHYS_ADDR, CORE_RM_PHYS_ADDR, CORE_PM_PHYS_ADDR] at h
  omega

/-- A page that neither wraps nor meets core or the FACS makes a geometry. -/
theorem onePage_geometry {start : UInt64}
    (hstart : start.toNat + 4096 ≤ 0x40000000 ∧ 0x4000 ≤ start.toNat ∨
      0x41900000 ≤ start.toNat ∧ start.toNat + 4096 ≤ 2 ^ 64) :
    Geometry sampleSizes (onePage start) := by
  have hcount : (onePage start).areaCount = 1 := rfl
  have hsize : ∀ i, (onePage start).areaSize i = 4096 := fun _ => rfl
  have hstart' : ∀ i, (onePage start).areaStart i = start.toNat := fun _ => rfl
  have hram : ∀ x, (onePage start).InRam x ↔ start.toNat ≤ x ∧ x < start.toNat + 4096 := by
    intro x
    simp [CoreHeader.InRam, hcount, hsize, hstart']
  have hfacs : (onePage start).facs.toNat = 0x3000 := rfl
  have hone : (1 : UInt32) ≠ 0 := by decide
  have hpage : (4096 : UInt64) ≠ 0 ∧ (4096 : UInt64).toNat % VIRTIO_BLK_SECTOR_SIZE = 0 := by decide
  have hfits : Fits (onePage start) := by
    show DUMP_HEADER_SECTORS_SIZE + (4096 : UInt64).toNat / VIRTIO_BLK_SECTOR_SIZE < 2 ^ 32
    decide
  have hinFacs : ∀ x, (onePage start).InFacs x → 0x3000 ≤ x ∧ x < 0x3040 := by
    intro x hx
    simp only [CoreHeader.InFacs, hfacs, FACS_SIZE] at hx
    omega
  refine ⟨hone, by rw [hcount]; decide, fun i _ => hpage, ?_, ?_, ?_, ?_, ?_, hfits⟩
  · intro i hi
    rw [hsize, hstart']
    omega
  · intro i hi j hj
    omega
  · intro x hx hcore
    have hpage := (hram x).mp hx
    have hown := coreMemory_sampleSizes hcore
    omega
  · intro x hx hin
    have hpage := (hram x).mp hx
    have hfacs := hinFacs x hin
    omega
  · intro x hx hcore
    have hfacs := hinFacs x hx
    have hown := coreMemory_sampleSizes hcore
    omega

end SwitchOs
