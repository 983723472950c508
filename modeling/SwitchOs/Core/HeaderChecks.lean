import SwitchOs.Core.Main
import SwitchOs.Core.StoreSpec
import SwitchOs.Lib.Reading

/-!
# What the checks of a header promise

`fill_dump_header` gives every area the sector behind the areas before it, `is_dump_header_valid`
compares a header with the RAM areas of core. The extents do not meet if and only if no sector number
is cut to its 32 bits (`fillDumpHeader_extentsApart_iff`); the validator does not look at the sector
numbers (`accepted_overlap`), trusts the number of areas on the disk until it has looked at all
their sizes (`dumpHeader_reads_iff`), and refuses the header of a store without areas
(`store_recognised_iff`).
-/

namespace SwitchOs

open DumpHeader

/-! ## What is accepted by `fill_dump_header` -/

section Fill

variable {core : CoreHeader} {mem : ℕ → UInt8} {h h' : DumpHeader} {v : UInt32}

theorem fillDiskAreas_eq_ok (n : ℕ) : ∀ (i : ℕ) (h : DumpHeader) (next : UInt64),
    fillDiskAreas core h next i n = .ok h' → ∀ j, i ≤ j → j < i + n →
      (core.ramAreas j).size ≠ 0 ∧ (core.ramAreas j).size.toNat % VIRTIO_BLK_SECTOR_SIZE = 0 := by
  induction n with
  | zero =>
    intro i h next _ j hj hj'
    omega
  | succ n ih =>
    intro i h next hok j hj hj'
    rw [fillDiskAreas] at hok
    split_ifs at hok with hzero hmod
    rcases Nat.eq_or_lt_of_le hj with rfl | hlt
    · rw [not_not, ← UInt64.toNat_inj, UInt64.toNat_mod] at hmod
      exact ⟨hzero, hmod⟩
    · exact ih _ _ _ hok j hlt (by omega)

/-- **What `fill_dump_header` accepts** is what it can lay out. -/
theorem fillDumpHeader_eq_ok (hok : fillDumpHeader core mem h = .ok h') :
    ∃ v, findOriginalWakingVector core mem = .ok v ∧ core.ramAreasSize.toNat ≤ MAX_RAM_AREAS ∧
      AreasAligned core ∧ LaidOut core v h' := by
  have hrun := hok
  simp only [fillDumpHeader, bind, Except.bind] at hok
  cases hv : findOriginalWakingVector core mem with
  | error e =>
    rw [hv] at hok
    cases hok
  | ok v =>
    rw [hv] at hok
    simp only at hok
    split_ifs at hok with hmax
    have haligned : AreasAligned core := fun i hi =>
      fillDiskAreas_eq_ok _ _ _ _ hok i (Nat.zero_le i) (by omega)
    obtain ⟨h'', hfill, hl⟩ := fillDumpHeader_laidOut h hv (by omega) haligned
    obtain rfl := Except.ok.inj (hrun.symm.trans hfill)
    exact ⟨v, rfl, by omega, haligned, hl⟩

end Fill

/-! ## Extents -/

section Extents

variable {core : CoreHeader} {mem : ℕ → UInt8} {h h' : DumpHeader} {i j : ℕ}

/-- The first sector of entry `i`, as stored. -/
def DumpHeader.sector (h : DumpHeader) (i : ℕ) : ℕ := (h.areas i).sector.toNat

/-- The number of whole sectors of entry `i`. -/
def DumpHeader.sectors (h : DumpHeader) (i : ℕ) : ℕ :=
  (h.areas i).area.size.toNat / VIRTIO_BLK_SECTOR_SIZE

/-- The extents that a header names meet neither each other nor the sectors of the header. -/
structure ExtentsApart (h : DumpHeader) : Prop where
  behind : ∀ i < h.areasSize.toNat, DUMP_HEADER_SECTORS_SIZE ≤ h.sector i
  apart : ∀ i < h.areasSize.toNat, ∀ j < h.areasSize.toNat, i ≠ j →
    h.sector i + h.sectors i ≤ h.sector j ∨ h.sector j + h.sectors j ≤ h.sector i

theorem sectorOf_mono (core : CoreHeader) (hij : i ≤ j) : sectorOf core i ≤ sectorOf core j := by
  induction j, hij using Nat.le_induction with
  | base => exact le_rfl
  | succ j _ ih => exact le_trans ih (Nat.le_add_right _ _)

/-- Entries in order, with the sectors that lie behind everything before them, are apart. -/
theorem extentsApart_of_sectorOf (hcount : h.areasSize.toNat = core.ramAreasSize.toNat)
    (hsize : ∀ i < core.ramAreasSize.toNat, (h.areas i).area = core.ramAreas i)
    (hsector : ∀ i < core.ramAreasSize.toNat, h.sector i = sectorOf core i) : ExtentsApart h := by
  have hend : ∀ {i j : ℕ}, i < j → j < core.ramAreasSize.toNat →
      h.sector i + h.sectors i ≤ h.sector j := by
    intro i j hij hj
    have hmono := sectorOf_mono core (show i + 1 ≤ j from hij)
    rw [hsector i (by omega), hsector j hj, DumpHeader.sectors, hsize i (by omega)]
    exact hmono
  rw [← hcount] at hend
  refine ⟨fun i hi => ?_, fun i hi j hj hne => ?_⟩
  · rw [hsector i (by omega)]
    exact sectorOf_mono core (Nat.zero_le i)
  · rcases Nat.lt_or_gt_of_ne hne with hlt | hgt
    · exact Or.inl (hend hlt hj)
    · exact Or.inr (hend hgt hi)

/-- Where the counter passes a sector, an area before it takes that sector. -/
theorem exists_extent_of_lt {s : ℕ} (hs : DUMP_HEADER_SECTORS_SIZE ≤ s) :
    ∀ i, s < sectorOf core i → ∃ j < i, sectorOf core j ≤ s ∧ s < sectorOf core (j + 1) := by
  intro i
  induction i with
  | zero =>
    intro hlt
    rw [sectorOf] at hlt
    omega
  | succ i ih =>
    intro hlt
    by_cases hi : s < sectorOf core i
    · obtain ⟨j, hj, hle, hlt'⟩ := ih hi
      exact ⟨j, by omega, hle, hlt'⟩
    · exact ⟨i, by omega, by omega, hlt⟩

/-- **When the layout does not overlap**: if and only if every area begins at a sector below 2^32. -/
theorem fillDumpHeader_extentsApart_iff (hok : fillDumpHeader core mem h = .ok h') :
    ExtentsApart h' ↔ ∀ i < core.ramAreasSize.toNat, sectorOf core i < 2 ^ 32 := by
  obtain ⟨v, -, -, haligned, hl⟩ := fillDumpHeader_eq_ok hok
  have hcount : h'.areasSize.toNat = core.ramAreasSize.toNat := by rw [hl.areasSize]
  have hstored : ∀ i < core.ramAreasSize.toNat, h'.sector i = sectorOf core i % 2 ^ 32 := by
    intro i hi
    rw [DumpHeader.sector, hl.areas i hi, UInt32.toNat_ofNat']
  have hsectors : ∀ i < core.ramAreasSize.toNat,
      sectorOf core (i + 1) = sectorOf core i + h'.sectors i := by
    intro i hi
    rw [DumpHeader.sectors, hl.areas i hi]
    rfl
  have hpos : ∀ i < core.ramAreasSize.toNat, 0 < h'.sectors i := by
    intro i hi
    obtain ⟨hne, hmod⟩ := haligned i hi
    have hne' : (core.ramAreas i).size.toNat ≠ 0 := fun h0 => hne (UInt64.toNat_inj.mp h0)
    rw [DumpHeader.sectors, hl.areas i hi]
    simp only [VIRTIO_BLK_SECTOR_SIZE] at hmod ⊢
    omega
  constructor
  · intro hapart i
    -- the first area that is cut falls on the header or on an area before it
    induction i using Nat.strong_induction_on with
    | _ i ih =>
      intro hi
      by_contra hcut
      have hbehind := hapart.behind i (by omega)
      have hlt : h'.sector i < sectorOf core i := by
        rw [hstored i hi]
        omega
      obtain ⟨j, hj, hle, hlt'⟩ := exists_extent_of_lt hbehind i hlt
      have hkept : h'.sector j = sectorOf core j := by
        rw [hstored j (by omega), Nat.mod_eq_of_lt (ih j hj (by omega))]
      have hnext := hsectors j (by omega)
      have hsize := hpos i hi
      rcases hapart.apart i (by omega) j (by omega) (by omega) with hmeet | hmeet
      · omega
      · omega
  · intro hlt
    refine extentsApart_of_sectorOf hcount (fun i hi => by rw [hl.areas i hi]) fun i hi => ?_
    rw [hstored i hi, Nat.mod_eq_of_lt (hlt i hi)]

/-- A core header for two areas of RAM. -/
def twoAreas (first second : MemArea) : CoreHeader :=
  { onePage first.start with
    ramAreasSize := 2
    ramAreas := fun i => if i = 0 then first else second }

/-- RAM of 2^41 bytes, and of 512 bytes behind it. -/
def hugeAreas : CoreHeader := twoAreas ⟨0x100000000, 0x20000000000⟩ ⟨0x20100000000, 512⟩

theorem fillDumpHeader_hugeAreas : ∃ h', fillDumpHeader hugeAreas (fun _ => 1) (fun _ => 0) = .ok h' ∧
    LaidOut hugeAreas 0x1010101 h' := by
  refine fillDumpHeader_laidOut _ rfl (by decide) fun i hi => ?_
  have hcount : hugeAreas.ramAreasSize.toNat = 2 := rfl
  have hcases : i = 0 ∨ i = 1 := by omega
  rcases hcases with rfl | rfl
  · decide
  · decide

theorem fillDumpHeader_extentsApart_iff_hugeAreas : ∃ h',
    fillDumpHeader hugeAreas (fun _ => 1) (fun _ => 0) = .ok h' ∧
      (ExtentsApart h' ↔ ∀ i < hugeAreas.ramAreasSize.toNat, sectorOf hugeAreas i < 2 ^ 32) := by
  obtain ⟨h', hok, -⟩ := fillDumpHeader_hugeAreas
  exact ⟨h', hok, fillDumpHeader_extentsApart_iff hok⟩

/-- **An extent over another**: the second area begins at sector 2^32 + 4, and is stored at sector 4. -/
theorem hugeAreas_overlap : ∃ h', fillDumpHeader hugeAreas (fun _ => 1) (fun _ => 0) = .ok h' ∧
    ¬ ExtentsApart h' := by
  obtain ⟨h', hok, hl⟩ := fillDumpHeader_hugeAreas
  refine ⟨h', hok, fun hapart => ?_⟩
  have hcount : h'.areasSize.toNat = 2 := by
    rw [hl.areasSize]
    rfl
  have hfirst : h'.sector 0 = 4 ∧ h'.sectors 0 = 2 ^ 32 := by
    rw [DumpHeader.sector, DumpHeader.sectors, hl.areas 0 (by decide)]
    decide
  have hsecond : h'.sector 1 = 4 ∧ h'.sectors 1 = 1 := by
    rw [DumpHeader.sector, DumpHeader.sectors, hl.areas 1 (by decide)]
    decide
  have hmeet := hapart.apart 0 (by omega) 1 (by omega) (by decide)
  omega

/-! ## What the validator does not look at -/

/-- An accepted header whose sectors are those that `fill_dump_header` gives to its areas has extents
that are apart. -/
theorem accepted_extentsApart (hvalid : isDumpHeaderValid core h = true)
    (hsector : ∀ i < core.ramAreasSize.toNat, h.sector i = sectorOf core i) : ExtentsApart h := by
  obtain ⟨-, -, -, hcount, hareas⟩ := isDumpHeaderValid_iff.mp hvalid
  exact extentsApart_of_sectorOf (by rw [hcount]) (fun i hi => (hareas i hi).2) hsector

/-- Two pages of RAM. -/
def twoPages : CoreHeader := twoAreas ⟨0x10000, 4096⟩ ⟨0x20000, 4096⟩

/-- A header for the two pages, at the given sectors. -/
def twoPagesAt (first second : UInt32) : DumpHeader :=
  DumpHeader.setArea (DumpHeader.setArea (setAreasSize (setWakingVector
    (setMagic (fun _ => 0) CORE_DISK_DUMP_MAGIC) 1) 2) 0 ⟨⟨0x10000, 4096⟩, first⟩) 1
    ⟨⟨0x20000, 4096⟩, second⟩

theorem twoPagesAt_areas (first second : UInt32) :
    (twoPagesAt first second).areas 0 = ⟨⟨0x10000, 4096⟩, first⟩ ∧
      (twoPagesAt first second).areas 1 = ⟨⟨0x20000, 4096⟩, second⟩ := by
  refine ⟨?_, areas_setArea_self _ _⟩
  rw [twoPagesAt, areas_setArea_ne _ _ (by decide), areas_setArea_self]

theorem twoPagesAt_areasSize (first second : UInt32) : (twoPagesAt first second).areasSize = 2 := by
  simp [twoPagesAt]

theorem twoPagesAt_valid (first second : UInt32) :
    isDumpHeaderValid twoPages (twoPagesAt first second) = true := by
  obtain ⟨hfirst, hsecond⟩ := twoPagesAt_areas first second
  refine isDumpHeaderValid_iff.mpr ⟨by simp [twoPagesAt], by simp [twoPagesAt], ?_, ?_, ?_⟩
  · rw [twoPagesAt_areasSize]
    decide
  · rw [twoPagesAt_areasSize]
    rfl
  · intro i hi
    have hcount : twoPages.ramAreasSize.toNat = 2 := rfl
    have hcases : i = 0 ∨ i = 1 := by omega
    have hpage : (4096 : UInt64) ≠ 0 := by decide
    rcases hcases with rfl | rfl
    · rw [hfirst]
      exact ⟨hpage, rfl⟩
    · rw [hsecond]
      exact ⟨hpage, rfl⟩

theorem twoPagesAt_extentsApart : ExtentsApart (twoPagesAt 4 12) := by
  refine accepted_extentsApart (twoPagesAt_valid 4 12) fun i hi => ?_
  obtain ⟨hfirst, hsecond⟩ := twoPagesAt_areas 4 12
  have hcount : twoPages.ramAreasSize.toNat = 2 := rfl
  have hcases : i = 0 ∨ i = 1 := by omega
  rcases hcases with rfl | rfl
  · rw [DumpHeader.sector, hfirst]
    decide
  · rw [DumpHeader.sector, hsecond]
    decide

/-- **A header with two areas at one sector is accepted.** -/
theorem accepted_overlap :
    isDumpHeaderValid twoPages (twoPagesAt 4 4) = true ∧ ¬ ExtentsApart (twoPagesAt 4 4) := by
  refine ⟨twoPagesAt_valid 4 4, fun hapart => ?_⟩
  obtain ⟨hfirst, hsecond⟩ := twoPagesAt_areas 4 4
  have hcount : (twoPagesAt 4 4).areasSize.toNat = 2 := by
    rw [twoPagesAt_areasSize]
    rfl
  have hmeet := hapart.apart 0 (by omega) 1 (by omega) (by decide)
  rw [DumpHeader.sector, DumpHeader.sectors, DumpHeader.sector, DumpHeader.sectors, hfirst,
    hsecond] at hmeet
  exact absurd hmeet (by decide)

end Extents

/-! ## What the validator reads -/

section Reads

variable {core : CoreHeader} {h : DumpHeader}

/-- An entry of `header->areas`, or of `g_core_header.ram_areas`. -/
inductive AreaEntry where
  | header (i : ℕ)
  | ram (i : ℕ)
  deriving DecidableEq

def AreaEntry.index : AreaEntry → ℕ
  | header i => i
  | ram i => i

/-- The entries of the two tables. -/
def areaEntries (core : CoreHeader) (h : DumpHeader) : AreaEntry → MemArea
  | .header i => (h.areas i).area
  | .ram i => core.ramAreas i

/-- The first loop of `is_dump_header_valid`, at entry `i`. -/
def sizeIsZero (i : ℕ) : Reading AreaEntry MemArea Bool := do
  let area ← Reading.look (.header i)
  pure (area.size == 0)

/-- The second loop of `is_dump_header_valid`, at entry `i`. -/
def areaDiffers (i : ℕ) : Reading AreaEntry MemArea Bool := do
  let ramArea ← Reading.look (.ram i)
  let area ← Reading.look (.header i)
  pure (ramArea.start != area.start || ramArea.size != area.size)

/-- `is_dump_header_valid`, as a computation that looks at the entries of the two tables. -/
def readDumpHeaderValid (ramAreasSize : UInt32) (h : DumpHeader) :
    Reading AreaEntry MemArea Bool :=
  if h.magic ≠ CORE_DISK_DUMP_MAGIC then pure false
  else if h.wakingVector = 0 then pure false
  else if h.areasSize = 0 then pure false
  else do
    if ← Reading.anyLook sizeIsZero (List.range h.areasSize.toNat) then
      pure false
    else if h.areasSize ≠ ramAreasSize then
      pure false
    else if ← Reading.anyLook areaDiffers (List.range h.areasSize.toNat) then
      pure false
    else
      pure true

/-- The reading is that of `is_dump_header_valid`. -/
theorem run_readDumpHeaderValid (core : CoreHeader) (h : DumpHeader) :
    (readDumpHeaderValid core.ramAreasSize h).run (areaEntries core h) =
      isDumpHeaderValid core h := by
  simp only [readDumpHeaderValid, isDumpHeaderValid, Reading.run_ite, Reading.run_bind,
    Reading.run_pure, Reading.run_anyLook, sizeIsZero, areaDiffers, Reading.run_look, areaEntries]

/-- The validator looks at entries below `MAX_RAM_AREAS` only. -/
def ReadsInBounds (core : CoreHeader) (h : DumpHeader) : Prop :=
  ∀ entry ∈ (readDumpHeaderValid core.ramAreasSize h).reads (areaEntries core h),
    entry.index < MAX_RAM_AREAS

theorem mem_reads_sizeIsZero {i : ℕ} {entry : AreaEntry} :
    entry ∈ (sizeIsZero i).reads (areaEntries core h) ↔ entry = .header i := by
  simp [sizeIsZero]

theorem index_of_mem_reads_areaDiffers {i : ℕ} {entry : AreaEntry}
    (hentry : entry ∈ (areaDiffers i).reads (areaEntries core h)) : entry.index = i := by
  simp only [areaDiffers, Reading.reads_bind, Reading.reads_look, Reading.reads_pure,
    List.append_nil, List.mem_append, List.mem_singleton] at hentry
  rcases hentry with rfl | rfl
  · rfl
  · rfl

/-- The second loop is bounded by the number of areas of core. -/
theorem reads_areaDiffers_lt (hmax : h.areasSize.toNat ≤ MAX_RAM_AREAS) :
    ∀ entry ∈ (Reading.anyLook areaDiffers (List.range h.areasSize.toNat)).reads
      (areaEntries core h), entry.index < MAX_RAM_AREAS := by
  intro entry hentry
  rw [Reading.reads_anyLook, List.mem_flatMap] at hentry
  obtain ⟨i, hi, hread⟩ := hentry
  have hrange := (Reading.upToFirst_range_lt_iff _ _ _).mpr (Or.inl (le_refl _)) i hi
  rw [index_of_mem_reads_areaDiffers hread]
  omega

/-- The first loop comes to every entry that no empty one is before. -/
theorem header_mem_reads (hmagic : h.magic = CORE_DISK_DUMP_MAGIC) (hvector : h.wakingVector ≠ 0)
    {i : ℕ} (hi : i < h.areasSize.toNat) (hbefore : ∀ j < i, (h.areas j).area.size ≠ 0) :
    AreaEntry.header i ∈ (readDumpHeaderValid core.ramAreasSize h).reads (areaEntries core h) := by
  have hzero : h.areasSize ≠ 0 := by
    intro h0
    rw [h0] at hi
    exact absurd hi (Nat.not_lt_zero i)
  rw [readDumpHeaderValid, if_neg (not_not.mpr hmagic), if_neg hvector, if_neg hzero,
    Reading.reads_bind]
  refine List.mem_append_left _ ?_
  rw [Reading.reads_anyLook, List.mem_flatMap]
  refine ⟨i, ?_, mem_reads_sizeIsZero.mpr rfl⟩
  rw [List.range_eq_range', Reading.mem_upToFirst_range']
  exact ⟨Nat.zero_le i, by omega, fun j _ hj => beq_eq_false_iff_ne.mpr (hbefore j hj)⟩

/-- **When validation stays in bounds**: if one of the first checks refuses the header, or it has no
more than 64 areas, or one of its first 64 entries is empty. -/
theorem dumpHeader_reads_iff (hcore : isCoreHeaderValid core = true) :
    ReadsInBounds core h ↔ h.magic ≠ CORE_DISK_DUMP_MAGIC ∨ h.wakingVector = 0 ∨
      h.areasSize.toNat ≤ MAX_RAM_AREAS ∨ ∃ i < MAX_RAM_AREAS, (h.areas i).area.size = 0 := by
  constructor
  · intro hreads
    by_contra hcon
    simp only [not_or, not_not, not_le, not_exists, not_and] at hcon
    obtain ⟨hmagic, hvector, hmany, hsizes⟩ := hcon
    exact absurd (hreads _ (header_mem_reads hmagic hvector hmany hsizes)) (lt_irrefl MAX_RAM_AREAS)
  · intro hcond entry hentry
    rw [readDumpHeaderValid] at hentry
    by_cases hmagic : h.magic ≠ CORE_DISK_DUMP_MAGIC
    case pos =>
      rw [if_pos hmagic] at hentry
      cases hentry
    by_cases hvector : h.wakingVector = 0
    case pos =>
      rw [if_neg hmagic, if_pos hvector] at hentry
      cases hentry
    by_cases hzero : h.areasSize = 0
    case pos =>
      rw [if_neg hmagic, if_neg hvector, if_pos hzero] at hentry
      cases hentry
    rw [if_neg hmagic, if_neg hvector, if_neg hzero] at hentry
    rw [Reading.reads_bind, List.mem_append, Reading.reads_anyLook, List.mem_flatMap] at hentry
    have hloop : h.areasSize.toNat ≤ MAX_RAM_AREAS ∨ ∃ i < MAX_RAM_AREAS,
        (sizeIsZero i).run (areaEntries core h) = true := by
      rcases hcond with hne | heq | hmax | ⟨i, hi, hsize⟩
      · exact absurd hne hmagic
      · exact absurd heq hvector
      · exact Or.inl hmax
      · exact Or.inr ⟨i, hi, beq_iff_eq.mpr hsize⟩
    rcases hentry with ⟨i, hi, hread⟩ | hentry
    · rw [mem_reads_sizeIsZero.mp hread]
      exact (Reading.upToFirst_range_lt_iff _ _ _).mpr hloop i hi
    · split_ifs at hentry with hany hcount
      · cases hentry
      · cases hentry
      · -- the number of areas is now that of core
        have hmax : h.areasSize.toNat ≤ MAX_RAM_AREAS := by
          rw [not_not.mp hcount]
          exact ramAreasSize_le hcore
        rw [Reading.reads_bind, List.mem_append] at hentry
        rcases hentry with hentry | hentry
        · exact reads_areaDiffers_lt hmax entry hentry
        · split_ifs at hentry <;> cases hentry

theorem dumpHeader_reads_iff_twoPages :
    isCoreHeaderValid (onePage 0x10000) = true ∧ (ReadsInBounds (onePage 0x10000) (twoPagesAt 4 12) ↔
      (twoPagesAt 4 12).magic ≠ CORE_DISK_DUMP_MAGIC ∨ (twoPagesAt 4 12).wakingVector = 0 ∨
        (twoPagesAt 4 12).areasSize.toNat ≤ MAX_RAM_AREAS ∨
          ∃ i < MAX_RAM_AREAS, ((twoPagesAt 4 12).areas i).area.size = 0) :=
  ⟨onePage_valid 0x10000, dumpHeader_reads_iff (onePage_valid 0x10000)⟩

/-- A header with 65 areas. -/
def manyAreas : DumpHeader := setAreasSize (setMagic (fun _ => 1) CORE_DISK_DUMP_MAGIC) 65

/-- **A read past the table**: a header with 65 areas, none of them empty, is read to the end. -/
theorem manyAreas_overrun :
    isCoreHeaderValid (onePage 0x10000) = true ∧ ¬ ReadsInBounds (onePage 0x10000) manyAreas := by
  refine ⟨onePage_valid 0x10000, fun hreads => ?_⟩
  have hmagic : manyAreas.magic = CORE_DISK_DUMP_MAGIC := by simp [manyAreas]
  have hvector : manyAreas.wakingVector ≠ 0 := by decide
  have hcount : manyAreas.areasSize.toNat = 65 := by
    rw [manyAreas, areasSize_setAreasSize]
    rfl
  have hsize : ∀ j, (manyAreas.areas j).area.size ≠ 0 := by
    intro j
    have hones : (manyAreas.areas j).area.size = get64 (fun _ => 1) (areaOffset j + 8) := by
      simp only [DumpHeader.areas, manyAreas, setAreasSize, setMagic, areaOffset]
      rw [get64_put32_outside (by omega), get64_put32_outside (by omega)]
    have hsame : get64 (fun _ => 1) (areaOffset j + 8) = get64 (fun _ => 1) 0 :=
      get64_congr fun _ _ => rfl
    rw [hones, hsame]
    decide
  exact absurd (hreads _ (header_mem_reads hmagic hvector (i := 64) (by omega) fun j _ => hsize j))
    (lt_irrefl 64)

end Reads

/-! ## A completed store -/

section Recognised

variable {P : Platform} {m m' : Machine}

/-- `does_disk_contain_dump` finds the dump. -/
def Recognised (P : Platform) (m : Machine) : Prop :=
  ∃ m', doesDiskContainDump P .exact m = some (.ok true, m')

/-- A store that completes leaves the header that it filled. -/
theorem diskStoreDump_eq_ok (hrun : diskStoreDump P .exact m = some (.ok (), m')) :
    ∃ header, fillDumpHeader m.core m.mem P.stack = .ok header ∧ m'.core = m.core ∧
      ∀ x < DUMP_HEADER_SIZE, m'.disk x = header x := by
  rw [diskStoreDump, Prog.bind_get_apply] at hrun
  cases hfill : fillDumpHeader m.core m.mem P.stack with
  | error e =>
    rw [hfill, Prog.lift_error_apply] at hrun
    cases hrun
  | ok header =>
    rw [hfill, Prog.lift_ok_apply] at hrun
    obtain ⟨_, t, hareas, hheader⟩ := Prog.bind_eq_ok hrun
    have hcore : t.core = m.core := by
      refine Prog.preserves_forEach (I := fun t => t.core = m.core) _ (fun i _ => ?_) m _ t rfl hareas
      intro t r t' ht hstore
      rw [storeArea, writeVirtioBlk, blkRequest_ok (BlkDev.exact_fails _)] at hstore
      obtain rfl := congrArg Prod.snd (Option.some.inj hstore)
      exact ht
    rw [writeDumpHeader_ok header (BlkDev.exact_fails _)] at hheader
    obtain rfl := congrArg Prod.snd (Option.some.inj hheader)
    exact ⟨header, rfl, hcore, readDumpHeader_bytes t.disk header⟩

/-- After a store that completes the question is whether the header that it filled is valid. -/
theorem doesDiskContainDump_stored (hrun : diskStoreDump P .exact m = some (.ok (), m')) :
    ∃ v header, v ≠ 0 ∧ AreasAligned m.core ∧ LaidOut m.core v header ∧
      doesDiskContainDump P .exact m' = some (.ok (isDumpHeaderValid m.core header), m'.tick) := by
  obtain ⟨header, hfill, hsame, hdisk⟩ := diskStoreDump_eq_ok hrun
  obtain ⟨v, hv, hmax, haligned, hl⟩ := fillDumpHeader_eq_ok hfill
  refine ⟨v, header, findOriginalWakingVector_ne_zero hv, haligned, hl, ?_⟩
  have hbytes : ∀ x < DUMP_HEADER_SIZE, blit P.stack 0 m'.disk 0 DUMP_HEADER_SIZE x = header x :=
    fun x hx => (readDumpHeader_bytes P.stack m'.disk x hx).trans (hdisk x hx)
  have hcore : m'.tick.core = m.core := hsame
  rw [doesDiskContainDump, Prog.bind_ok (readDumpHeader_ok P (BlkDev.exact_fails _)),
    Prog.bind_get_apply, hcore, isDumpHeaderValid_congr hmax hbytes]
  rfl

/-- **When a completed store is recognised**: if and only if it stored at least one area. -/
theorem store_recognised_iff (hrun : diskStoreDump P .exact m = some (.ok (), m')) :
    Recognised P m' ↔ m.core.ramAreasSize ≠ 0 := by
  obtain ⟨v, header, hv, haligned, hl, hread⟩ := doesDiskContainDump_stored hrun
  constructor
  · rintro ⟨m'', hfound⟩ hzero
    rw [hread] at hfound
    have hvalid := Except.ok.inj (congrArg Prod.fst (Option.some.inj hfound))
    obtain ⟨-, -, hne, -, -⟩ := isDumpHeaderValid_iff.mp hvalid
    exact hne (hl.areasSize.trans hzero)
  · intro hne
    rw [hl.valid hv hne haligned] at hread
    exact ⟨m'.tick, hread⟩

/-- Core, with no RAM at all. -/
def noAreas : CoreHeader := { onePage 0x10000 with ramAreasSize := 0 }

/-- A store without RAM. -/
def storeNothing : Machine := ⟨fun _ => 1, fun _ => 0, noAreas, 0, 0⟩

theorem noAreas_valid : isCoreHeaderValid noAreas = true := by
  decide

theorem storeNothing_ok : ∃ m', diskStoreDump samplePlatform .exact storeNothing =
    some (.ok (), m') :=
  ⟨_, rfl⟩

/-- The theorem on that store, and on one of a page. -/
theorem store_recognised_iff_sample :
    (∃ m', diskStoreDump samplePlatform .exact storeNothing = some (.ok (), m') ∧
      (Recognised samplePlatform m' ↔ storeNothing.core.ramAreasSize ≠ 0)) ∧
    ∃ m', diskStoreDump samplePlatform .exact (sampleMachine storePage) = some (.ok (), m') ∧
      Recognised samplePlatform m' := by
  obtain ⟨m₀, hrun₀⟩ := storeNothing_ok
  have hg := storePage_geometry
  obtain ⟨m', hrun, -⟩ := diskStoreDump_ok (m := sampleMachine storePage) samplePlatform rfl
    hg.count_le hg.aligned hg.fits (savedVector_ones _) fun _ _ => BlkDev.exact_fails _
  exact ⟨⟨m₀, hrun₀, store_recognised_iff hrun₀⟩, m', hrun,
    (store_recognised_iff hrun).mpr (by decide)⟩

/-- **A store that is not recognised**: without RAM areas it succeeds, and its header is refused. -/
theorem storeNothing_refused : isCoreHeaderValid storeNothing.core = true ∧
    ∃ m', diskStoreDump samplePlatform .exact storeNothing = some (.ok (), m') ∧
      ¬ Recognised samplePlatform m' := by
  obtain ⟨m', hrun⟩ := storeNothing_ok
  refine ⟨noAreas_valid, m', hrun, ?_⟩
  rintro ⟨m'', hfound⟩
  obtain ⟨v, header, -, -, hl, hread⟩ := doesDiskContainDump_stored hrun
  rw [hread] at hfound
  have hvalid := Except.ok.inj (congrArg Prod.fst (Option.some.inj hfound))
  obtain ⟨-, -, hne, -, -⟩ := isDumpHeaderValid_iff.mp hvalid
  exact hne hl.areasSize

end Recognised

end SwitchOs
