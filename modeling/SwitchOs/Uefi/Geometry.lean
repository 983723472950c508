import SwitchOs.Core.SwitchSpec
import SwitchOs.Uefi.Agreement
import SwitchOs.Uefi.Merged

/-!
# The RAM areas that core gets

Core dumps and exchanges whatever the table of `fill_ram_areas` says, and `Geometry` and `ChunksFit`
are what it needs of that table. `RamMap` is what there is to say of a memory map, in whatever order
its descriptors come: an order that `insert_desc` does not cope with loses pages, but no area ever
leaves the descriptors or meets another one, and all of them take no more sectors than the
descriptors do. That no area meets core itself is the work of `load_core`, which has the pages of the
binaries reserved before the map is read (`loadCore_given`); around them, inside the windows that core
may take, there may be RAM.
-/

namespace SwitchOs

open Acpi CoreAction

/-- The usable descriptors of a memory map, on a machine with its FACS at `facs`: nonempty ranges
that are apart, at least `SWITCH_BUF_SIZE` below the end of the address space, outside the FACS, and
small enough for a dump. -/
structure RamMap (facs : UInt64) (descs : List EfiMemoryDescriptor) : Prop where
  nonempty : descs ≠ []
  pos : ∀ desc ∈ descs, 0 < desc.bytes
  apart : descs.Pairwise EfiMemoryDescriptor.Apart
  below : ∀ desc ∈ descs, desc.physicalStart.toNat + desc.bytes + SWITCH_BUF_SIZE ≤ 2 ^ 64
  outside_facs : ∀ desc ∈ descs, ∀ x, desc.Contains x →
    ¬ (facs.toNat ≤ x ∧ x < facs.toNat + FACS_SIZE)
  sectors : DUMP_HEADER_SECTORS_SIZE +
    (descs.map fun desc => desc.bytes / VIRTIO_BLK_SECTOR_SIZE).sum < 2 ^ 32

section Map

variable {facs : UInt64} {descs pre : List EfiMemoryDescriptor} {desc : EfiMemoryDescriptor}
  {core core' : CoreHeader} {i : ℕ}

theorem RamMap.sized (h : RamMap facs descs) (hdesc : desc ∈ descs) : desc.Sized := by
  have hbelow := h.below desc hdesc
  simp only [SWITCH_BUF_SIZE] at hbelow
  exact ⟨h.pos desc hdesc, by omega⟩

theorem RamMap.apartDescs (h : RamMap facs descs) : ApartDescs descs :=
  ⟨fun desc hdesc => ⟨h.pos desc hdesc, Nat.le_of_add_right_le (h.below desc hdesc)⟩, h.apart⟩

/-! ## Where the areas are -/

theorem onArc_of_between {start size : UInt64} {x : ℕ} (hstart : start.toNat ≤ x)
    (hx : x < start.toNat + size.toNat) (hlt : x < 2 ^ 64) : OnArc start size (UInt64.ofNat x) := by
  have hword : (UInt64.ofNat x).toNat = x := UInt64.toNat_ofNat_of_lt' hlt
  have hsize := size.toNat_lt
  rw [onArc_iff, hword]
  omega

/-- A byte of an area is a byte of a descriptor. -/
theorem Within.mem_desc (h : Within core (AddressOf descs)) (hdescs : ApartDescs descs)
    (hi : i < core.areaCount) {x : ℕ} (hx : (core.ramAreas i).Contains x) (hlt : x < 2 ^ 64) :
    ∃ desc ∈ descs, desc.Contains x := by
  obtain ⟨desc, hdesc, hin⟩ := h.inside i hi _ (onArc_of_between hx.1 hx.2 hlt)
  rw [hasAddress_iff (hdescs.wellFormed desc hdesc), UInt64.toNat_ofNat_of_lt' hlt] at hin
  exact ⟨desc, hdesc, hin⟩

variable (hmap : RamMap facs descs) (hwithin : Within core (AddressOf descs))

include hmap hwithin

/-- No area wraps, or gets close to the end of the address space: its last byte would be in a
descriptor there. -/
theorem RamMap.area_below (hi : i < core.areaCount) (hpos : 0 < core.areaSize i) :
    core.areaStart i + core.areaSize i + SWITCH_BUF_SIZE ≤ 2 ^ 64 := by
  have hstart : core.areaStart i < 2 ^ 64 := (core.ramAreas i).start.toNat_lt
  have hbuf : 0 < SWITCH_BUF_SIZE := by decide
  by_contra hover
  have hlast : ∃ x, (core.ramAreas i).Contains x ∧ x < 2 ^ 64 ∧ 2 ^ 64 ≤ x + SWITCH_BUF_SIZE := by
    simp only [MemArea.Contains]
    simp only [CoreHeader.areaStart, CoreHeader.areaSize] at hover hpos hstart
    by_cases hwrap : (core.ramAreas i).start.toNat + (core.ramAreas i).size.toNat ≤ 2 ^ 64
    · exact ⟨(core.ramAreas i).start.toNat + (core.ramAreas i).size.toNat - 1, by omega⟩
    · exact ⟨2 ^ 64 - 1, by omega⟩
  obtain ⟨x, hx, hlt, hhigh⟩ := hlast
  obtain ⟨desc, hdesc, hin⟩ := hwithin.mem_desc hmap.apartDescs hi hx hlt
  have hend := hin.2
  have hbelow := hmap.below desc hdesc
  omega

/-- A byte of the table is one of a descriptor. -/
theorem RamMap.inRam (hpos : ∀ i < core.areaCount, 0 < core.areaSize i) {x : ℕ}
    (hx : core.InRam x) : ∃ desc ∈ descs, desc.Contains x := by
  obtain ⟨i, hi, hxi⟩ := hx
  have hbelow := hmap.area_below hwithin hi (hpos i hi)
  exact hwithin.mem_desc hmap.apartDescs hi hxi (by omega)

/-- Areas that have no address in common follow each other. -/
theorem RamMap.areasApart (hpos : ∀ i < core.areaCount, 0 < core.areaSize i) : AreasApart core := by
  intro i hi j hj hij
  have hbelowi := hmap.area_below hwithin hi (hpos i hi)
  have hbelowj := hmap.area_below hwithin hj (hpos j hj)
  have hposi := hpos i hi
  have hposj := hpos j hj
  by_contra hmeet
  simp only [CoreHeader.areaStart, CoreHeader.areaSize] at hbelowi hbelowj hposi hposj hmeet
  refine hwithin.apart i hi j hj hij
    (UInt64.ofNat (max (core.ramAreas i).start.toNat (core.ramAreas j).start.toNat)) ?_ ?_
  · exact onArc_of_between (by omega) (by omega) (by omega)
  · exact onArc_of_between (by omega) (by omega) (by omega)

omit hmap hwithin in
theorem pieceCount_mul_lt {B : ℕ} (hB : 0 < B) (n : ℕ) : pieceCount B n * B < n + B := by
  have hle := Nat.div_mul_le_self (n + B - 1) B
  rw [pieceCount]
  omega

theorem RamMap.chunksFit (hpos : ∀ i < core.areaCount, 0 < core.areaSize i) : ChunksFit core := by
  intro i hi
  have hbelow := hmap.area_below hwithin hi (hpos i hi)
  have hpieces := pieceCount_mul_lt (show 0 < SWITCH_BUF_SIZE by decide) (core.areaSize i)
  omega

end Map

/-! ## How many sectors they take -/

section Sectors

variable {descs pre : List EfiMemoryDescriptor} {desc : EfiMemoryDescriptor}
  {core core' : CoreHeader} {n more : ℕ}

theorem sectorOf_congr {i : ℕ} (h : ∀ j < i, core'.ramAreas j = core.ramAreas j) :
    sectorOf core' i = sectorOf core i := by
  induction i with
  | zero => rfl
  | succ i ih => rw [sectorOf, sectorOf, ih fun j hj => h j (by omega), h i (by omega)]

/-- An entry that grows moves the extents behind it by no more than it gains. -/
theorem sectorOf_replace (hsame : ∀ j, j ≠ n → core'.ramAreas j = core.ramAreas j)
    (hgrow : core'.areaSize n / VIRTIO_BLK_SECTOR_SIZE ≤
      core.areaSize n / VIRTIO_BLK_SECTOR_SIZE + more) (i : ℕ) :
    sectorOf core' i ≤ sectorOf core i + more := by
  simp only [CoreHeader.areaSize] at hgrow
  induction i with
  | zero => exact Nat.le_add_right _ _
  | succ i ih =>
    rw [sectorOf, sectorOf]
    by_cases hin : i = n
    · have hbefore : sectorOf core' n = sectorOf core n :=
        sectorOf_congr fun j hj => hsame j (by omega)
      rw [hin, hbefore]
      omega
    · rw [hsame i hin]
      omega

/-- **An insertion** makes the dump longer by the sectors of the descriptor at most. -/
theorem inserted_sectors (hroom : core.areaCount < MAX_RAM_AREAS) (desc : EfiMemoryDescriptor) :
    sectorOf (core.inserted desc) (core.inserted desc).areaCount ≤
      sectorOf core core.areaCount + desc.bytes / VIRTIO_BLK_SECTOR_SIZE := by
  have hsize := toNat_size_le desc
  have hpages : desc.bytes % VIRTIO_BLK_SECTOR_SIZE = 0 := by
    rw [EfiMemoryDescriptor.bytes, EFI_PAGE_SIZE, VIRTIO_BLK_SECTOR_SIZE]
    omega
  rcases inserted_cases core desc with
    ⟨i, hi, -, -, -, heq⟩ | ⟨i, hi, -, -, -, -, heq⟩ | ⟨-, -, heq⟩
  · rw [heq]
    refine sectorOf_replace (fun j hj => Function.update_of_ne hj _ _) ?_ _
    simp only [CoreHeader.areaSize, CoreHeader.setRamArea, Function.update_self]
    exact Nat.le_add_right _ _
  · rw [heq]
    refine sectorOf_replace (fun j hj => Function.update_of_ne hj _ _) ?_ _
    simp only [CoreHeader.areaSize, CoreHeader.setRamArea, Function.update_self, UInt64.toNat_add,
      VIRTIO_BLK_SECTOR_SIZE] at hpages ⊢
    omega
  · have hcount := areaCount_append hroom ⟨desc.physicalStart, desc.size⟩
    rw [heq, hcount, sectorOf, sectorOf_congr fun j hj => Function.update_of_ne (by omega) _ _]
    simp only [CoreHeader.setRamArea, Function.update_self, VIRTIO_BLK_SECTOR_SIZE] at hpages ⊢
    omega

theorem Inserts.sectors (h : Inserts core descs core') :
    sectorOf core' core'.areaCount ≤ sectorOf core core.areaCount +
      (descs.map fun desc => desc.bytes / VIRTIO_BLK_SECTOR_SIZE).sum := by
  induction descs using List.reverseRecOn generalizing core' with
  | nil =>
    obtain rfl : core' = core := (congrArg Prod.snd (Option.some.inj h)).symm
    exact Nat.le_refl _
  | append_singleton pre desc ih =>
    obtain ⟨t, hpre, hroom, rfl⟩ := inserts_snoc.mp h
    have hfirst := ih hpre
    have hlast := inserted_sectors hroom desc
    rw [List.map_append, List.sum_append, List.map_singleton, List.sum_singleton]
    omega

theorem Inserts.nonempty (h : Inserts core descs core') (hdescs : descs ≠ []) :
    core'.ramAreasSize ≠ 0 := by
  induction descs using List.reverseRecOn with
  | nil => exact absurd rfl hdescs
  | append_singleton pre desc ih =>
    obtain ⟨t, hpre, hroom, rfl⟩ := inserts_snoc.mp h
    obtain ⟨n, hn, -⟩ := inserted_entry hroom desc
    intro hzero
    rw [CoreHeader.areaCount, hzero] at hn
    exact absurd hn (Nat.not_lt_zero n)

end Sectors

/-! ## What the table depends on -/

/-- Two headers with the same table. -/
structure SameAreas (core core' : CoreHeader) : Prop where
  count : core'.ramAreasSize = core.ramAreasSize
  areas : core'.ramAreas = core.ramAreas

section Same

variable {core t : CoreHeader} {descs : List EfiMemoryDescriptor}

theorem SameAreas.refl (core : CoreHeader) : SameAreas core core := ⟨rfl, rfl⟩

/-- The insertions leave the rest of the header alone. -/
theorem Inserts.rest (h : Inserts core descs t) : t.facs = core.facs ∧ t.action = core.action := by
  induction descs using List.reverseRecOn generalizing t with
  | nil =>
    obtain rfl : t = core := (congrArg Prod.snd (Option.some.inj h)).symm
    exact ⟨rfl, rfl⟩
  | append_singleton pre desc ih =>
    obtain ⟨u, hpre, -, rfl⟩ := inserts_snoc.mp h
    have hone : (u.inserted desc).facs = u.facs ∧ (u.inserted desc).action = u.action := by
      rcases inserted_cases u desc with
        ⟨i, -, -, -, -, heq⟩ | ⟨i, -, -, -, -, -, heq⟩ | ⟨-, -, heq⟩ <;> rw [heq] <;>
          exact ⟨rfl, rfl⟩
    exact ⟨hone.1.trans (ih hpre).1, hone.2.trans (ih hpre).2⟩

end Same

/-! ## The application fills the table -/

section Start

variable {A : AppSetup} {s s' : AppState} {facs : UInt64} {core : CoreHeader}
  {descs : List EfiMemoryDescriptor}

/-- The header as `fill_ram_areas` finds it. -/
structure BeforeAreas (facs : UInt64) (core : CoreHeader) : Prop where
  table : SameAreas emptyCore core
  facs : core.facs = facs
  action : core.action = CORE_ACTION_NOOP.toUInt32

theorem fillDiskPci_beforeAreas (pci : PciSpace) :
    Prog.Preserves (BeforeAreas facs) (fillDiskPci pci) := by
  have hkeep : ∀ core disk, BeforeAreas facs core → BeforeAreas facs { core with diskPci := disk } :=
    fun core disk h => ⟨⟨h.table.count, h.table.areas⟩, h.facs, h.action⟩
  rw [fillDiskPci]
  refine Prog.preserves_bind (Prog.preserves_lift _) fun dev => ?_
  refine Prog.preserves_bind (Prog.preserves_modify fun core h => hkeep core _ h) fun _ => ?_
  refine Prog.preserves_forEach _ fun i _ => ?_
  exact Prog.preserves_bind (Prog.preserves_lift _) fun _ =>
    Prog.preserves_modify fun core h => hkeep core _ h

/-- A start that succeeds has put the usable descriptors of its map into the table as it is built, and
has had nothing reserved since `load_core`. -/
theorem efiMain_inserts (hrun : efiMain A s = some (EFI_SUCCESS, s')) :
    ∃ t core, findTables A s = some (.ok (), t) ∧ BeforeAreas (UInt64.ofNat t.acpi.gFacs) core ∧
      Inserts core (usableDescs A.map.descs) s'.core ∧ s'.acpi.isReserved = t.acpi.isReserved := by
  have hstages := efiMain_success hrun
  have hsplit : efiStages A s = (findTables A >>= fun _ =>
      (onServices (hookServices A.boot) >>= fun _ => createOrHookPts A) >>= fun _ =>
        fillCoreHeader A) s := by
    rw [efiStages, findTables, Prog.bind_assoc_apply]
    refine Prog.bind_congr fun _ s₁ => Prog.bind_congr fun _ s₂ => ?_
    rw [Prog.bind_assoc_apply]
  rw [hsplit] at hstages
  obtain ⟨_, t, htables, hstages⟩ := Prog.bind_eq_ok hstages
  obtain ⟨_, u, hpatch, hfill⟩ := Prog.bind_eq_ok hstages
  obtain ⟨hcore, -, hufacs, hreserved⟩ : Unfilled t.acpi.gRsdp t.acpi.gFacs t.acpi.isReserved u :=
    hookAndPatch_unfilled t _ u ⟨findTables_core htables, rfl, rfl, rfl⟩ hpatch
  have hstart : BeforeAreas (UInt64.ofNat t.acpi.gFacs)
      (fillFacs u.acpi.gFacs (fillRsdp u.acpi.gRsdp u.core)) := by
    rw [hcore, hufacs]
    exact ⟨⟨rfl, rfl⟩, rfl, rfl⟩
  rw [fillCoreHeader, Prog.bind_get_apply] at hfill
  obtain ⟨core', hbody, rfl⟩ := Prog.zoom_eq_ok hfill
  rw [Prog.bind_modify_apply, Prog.bind_modify_apply] at hbody
  obtain ⟨_, core, hdisk, hareas⟩ := Prog.bind_eq_ok hbody
  refine ⟨t, core, htables, fillDiskPci_beforeAreas _ _ _ _ hstart hdisk, ?_, hreserved⟩
  rw [Inserts, ← fillDescs_filter]
  exact fillRamAreas_eq_ok hareas

/-! ## Core's own memory -/

section Given

variable {a a' : AcpiState} {addr x : ℕ} {buf : List UInt8} {t : AppState}

theorem loadMemory_eq_ok {u : Unit} (h : loadMemory A addr buf a = some (.ok u, a')) :
    A.allocateAddress a addr (alignUp buf.length PAGE_SIZE / PAGE_SIZE) = true ∧
      a' = loaded addr buf a := by
  cases hgiven : A.allocateAddress a addr (alignUp buf.length PAGE_SIZE / PAGE_SIZE) with
  | false =>
    rw [loadMemory_error hgiven] at h
    cases h
  | true =>
    rw [loadMemory_ok hgiven] at h
    exact ⟨rfl, (congrArg Prod.snd (Option.some.inj h)).symm⟩

/-- A binary goes to pages that were free, and that are reserved then. -/
theorem loadMemory_given {u : Unit} (h : loadMemory A addr buf a = some (.ok u, a')) (hx : addr ≤ x)
    (hx' : x < addr + buf.length) : a.free x = true ∧ a'.isReserved x = true := by
  obtain ⟨hgiven, rfl⟩ := loadMemory_eq_ok h
  have hle := le_alignUp buf.length (show 0 < PAGE_SIZE by decide)
  have hsize : alignUp buf.length PAGE_SIZE / PAGE_SIZE * PAGE_SIZE =
      alignUp buf.length PAGE_SIZE := Nat.div_mul_cancel (Nat.dvd_mul_left _ _)
  have hin : inPages addr (alignUp buf.length PAGE_SIZE / PAGE_SIZE) x = true :=
    inPages_iff.mpr (by omega)
  refine ⟨A.allocateAddress_free hgiven x hin, ?_⟩
  show (a.isReserved x || inPages addr (alignUp buf.length PAGE_SIZE / PAGE_SIZE) x) = true
  rw [hin, Bool.or_true]

/-- The other pages stay as they are: what is free then was free before, and what was reserved is. -/
theorem loadMemory_mono {u : Unit} (h : loadMemory A addr buf a = some (.ok u, a')) :
    (a'.free x = true → a.free x = true) ∧ (a.isReserved x = true → a'.isReserved x = true) := by
  obtain ⟨-, rfl⟩ := loadMemory_eq_ok h
  refine ⟨fun hfree => ?_, fun hreserved => ?_⟩
  · rw [loaded_free, Bool.and_eq_true] at hfree
    exact hfree.1
  · show (a.isReserved x || inPages addr (alignUp buf.length PAGE_SIZE / PAGE_SIZE) x) = true
    rw [hreserved, Bool.true_or]

/-- **What `load_core` has got.** The bytes of core were free, and they are reserved. -/
theorem loadCore_given {u : Unit} (h : loadCore A s = some (.ok u, t)) (hx : CoreMemory A.sizes x) :
    s.acpi.free x = true ∧ t.acpi.isReserved x = true := by
  rw [loadCore] at h
  have h := (Prog.bind_check_eq_ok h).2
  have h := (Prog.bind_check_eq_ok h).2
  have h := (Prog.bind_check_eq_ok h).2
  obtain ⟨_, s₁, hcore, h⟩ := Prog.bind_eq_ok h
  obtain ⟨_, s₂, hempty, h⟩ := Prog.bind_eq_ok h
  obtain ⟨_, s₃, hrm, h⟩ := Prog.bind_eq_ok h
  obtain ⟨_, s₄, hpm, h⟩ := Prog.bind_eq_ok h
  rw [Prog.bind_get_apply] at h
  obtain rfl := (Prog.check_eq_ok h).2
  have hsame : s₂.acpi = s₁.acpi :=
    (congrArg (fun p => p.2.acpi) (Option.some.inj hempty)).symm
  have hcore := onAcpi_eq hcore
  have hrm := onAcpi_eq hrm
  have hpm := onAcpi_eq hpm
  rw [hsame] at hrm
  rcases hx with ⟨h1, h2⟩ | ⟨h1, h2⟩ | ⟨h1, h2⟩
  · have hgiven := loadMemory_given hcore h1 h2
    exact ⟨hgiven.1, (loadMemory_mono hpm).2 ((loadMemory_mono hrm).2 hgiven.2)⟩
  · have hgiven := loadMemory_given hrm h1 h2
    exact ⟨(loadMemory_mono hcore).1 hgiven.1, (loadMemory_mono hpm).2 hgiven.2⟩
  · have hgiven := loadMemory_given hpm h1 h2
    exact ⟨(loadMemory_mono hcore).1 ((loadMemory_mono hrm).1 hgiven.1), hgiven.2⟩

theorem findTables_given (h : findTables A s = some (.ok (), t)) (hx : CoreMemory A.sizes x) :
    s.acpi.free x = true ∧ t.acpi.isReserved x = true := by
  rw [findTables] at h
  obtain ⟨_, s₁, hload, hfind⟩ := Prog.bind_eq_ok h
  have hsame := findAcpiTables_sameMemory A.compareGuid s₁.acpi _ t.acpi ⟨rfl, rfl, rfl, rfl, rfl⟩
    (onAcpi_eq hfind)
  have hgiven := loadCore_given hload hx
  rw [hsame.isReserved]
  exact hgiven

end Given

/-- What the firmware answers to a start, which has found the tables of `t` and ends in `s'`: the
tables are not at zero, the memory of the FACS is not for anyone to allocate, and the memory map does
not call a page usable that is allocated as `EfiReservedMemoryType`. -/
structure Answers (A : AppSetup) (s t s' : AppState) : Prop where
  rsdp : UInt64.ofNat t.acpi.gRsdp ≠ 0
  facs : UInt64.ofNat t.acpi.gFacs ≠ 0
  map : RamMap (UInt64.ofNat t.acpi.gFacs) (usableDescs A.map.descs)
  facs_taken : ∀ x, (UInt64.ofNat t.acpi.gFacs).toNat ≤ x →
    x < (UInt64.ofNat t.acpi.gFacs).toNat + FACS_SIZE → s.acpi.free x = false
  map_usable : ∀ desc ∈ usableDescs A.map.descs, ∀ x, desc.Contains x →
    s'.acpi.isReserved x = false

/-- Core can use the header. -/
structure Ready (S : CoreSizes) (core : CoreHeader) : Prop where
  valid : isCoreHeaderValid core = true
  geometry : Geometry S core
  fit : ChunksFit core

/-- A table that is made of a map, around core, is one that core can use. -/
theorem RamMap.ready {S : CoreSizes} (hmap : RamMap facs descs)
    (hcore : ∀ desc ∈ descs, ∀ x, desc.Contains x → ¬ CoreMemory S x)
    (hapart : ∀ x, facs.toNat ≤ x → x < facs.toNat + FACS_SIZE → ¬ CoreMemory S x)
    (hbefore : BeforeAreas facs core) {core' : CoreHeader} (hinserts : Inserts core descs core')
    (hinv : HeaderInv core') : Ready S core' := by
  have hpos := hinv.areas.pos
  have hempty : core.ramAreasSize = 0 := hbefore.table.count
  have hfacs : core'.facs = facs := hinserts.rest.1.trans hbefore.facs
  have hwithin := Inserts.within hempty hmap.apartDescs _ hinserts
  have hinFacs : ∀ x, core'.InFacs x → facs.toNat ≤ x ∧ x < facs.toNat + FACS_SIZE :=
    fun x hx => hfacs ▸ hx
  have hsectors := hinserts.sectors
  have hzero : sectorOf core core.areaCount = DUMP_HEADER_SECTORS_SIZE := by
    rw [CoreHeader.areaCount, hempty]
    rfl
  refine ⟨hinv.valid, ⟨hinserts.nonempty hmap.nonempty, hinv.areas.count_le, hinv.areas.aligned,
    fun i hi => Nat.le_of_add_right_le (hmap.area_below hwithin hi (hpos i hi)),
    hmap.areasApart hwithin hpos, fun x hx => ?_, fun x hx hx' => ?_, fun x hx => ?_, ?_⟩,
    hmap.chunksFit hwithin hpos⟩
  · obtain ⟨desc, hdesc, hin⟩ := hmap.inRam hwithin hpos hx
    exact hcore desc hdesc x hin
  · obtain ⟨desc, hdesc, hin⟩ := hmap.inRam hwithin hpos hx
    exact hmap.outside_facs desc hdesc x hin (hinFacs x hx')
  · exact hapart x (hinFacs x hx).1 (hinFacs x hx).2
  · rw [hzero] at hsectors
    exact lt_of_le_of_lt hsectors hmap.sectors

/-- The header that a start leaves: no area meets core, which is loaded to reserved memory. -/
theorem ready_of_start (hrun : efiMain A s = some (EFI_SUCCESS, s'))
    (hanswers : ∀ t, findTables A s = some (.ok (), t) → Answers A s t s') :
    Ready A.sizes s'.core := by
  obtain ⟨t, core, htables, hbefore, hinserts, hreserved⟩ := efiMain_inserts hrun
  have hanswer := hanswers t htables
  have hinv := efiMain_headerInv hrun (fun t ht => ⟨(hanswers t ht).rsdp, (hanswers t ht).facs⟩)
    fun desc hdesc => hanswer.map.sized hdesc
  refine hanswer.map.ready (fun desc hdesc x hx hcore => ?_) (fun x hx hx' hcore => ?_) hbefore
    hinserts hinv
  · -- a byte of core is reserved, and the map does not call it usable
    have hgiven := (findTables_given htables hcore).2
    rw [← hreserved, hanswer.map_usable desc hdesc x hx] at hgiven
    cases hgiven
  · -- a byte of core was free, and one of the FACS was not
    have hgiven := (findTables_given htables hcore).1
    rw [hanswer.facs_taken x hx hx'] at hgiven
    cases hgiven

/-! ## A start -/

end Start

end SwitchOs
