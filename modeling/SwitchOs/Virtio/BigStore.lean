import SwitchOs.Virtio.Slots

/-!
# What a store of large areas leaves

`disk_store_dump` asks for each area with one request, and a request moves the low 32 bits of its
length. From 4 GiB of RAM in one area on, a store succeeds, puts a valid header on the disk, and has
written less than the header says. `store_holds_iff`: the dump is that of the OS exactly if the bytes
it left out were on the disk already.
-/

namespace SwitchOs

open Virtio DumpHeader CoreAction

/-- The bytes of each area beyond the low 32 bits of its size are the same in memory and in its
extent. -/
def TailOnDisk (core : CoreHeader) (mem disk : ℕ → UInt8) : Prop :=
  ∀ i < core.areaCount, ∀ k, core.areaSize i % 2 ^ 32 ≤ k → k < core.areaSize i →
    disk (extentPos core i + k) = mem (core.areaStart i + k)

/-- The driver has stored the first `j` areas of `m`, each up to the low 32 bits of its size. -/
structure CutUpTo (core : CoreHeader) (m : Machine) (j : ℕ) (m' : Machine) : Prop where
  sameMem : m'.mem = m.mem
  sameVector : m'.kernelWakingVector = m.kernelWakingVector
  done : ∀ i < j, ∀ k < core.areaSize i, m'.disk (extentPos core i + k) =
    if k < core.areaSize i % 2 ^ 32 then m.mem (core.areaStart i + k)
    else m.disk (extentPos core i + k)
  frame : ∀ x, extentPos core j ≤ x → m'.disk x = m.disk x

variable {W : Wiring} {D : DiskDevice} {P : Platform} {core : CoreHeader} {header : DumpHeader}
  {m m' : Machine} {s : Driven} {v : UInt32} {dev : BlkDev}

/-- One more area. -/
theorem CutUpTo.succ {j : ℕ} (h : CutUpTo core m j m') (haligned : AreasAligned core)
    (hj : j < core.areaCount) :
    CutUpTo core m (j + 1) { m' with
      disk := blit m'.disk (extentPos core j) m'.mem (core.areaStart j) (core.areaSize j % 2 ^ 32)
      issued := m'.issued + 1 } where
  sameMem := h.sameMem
  sameVector := h.sameVector
  done := by
    intro i hi k hk
    have hle := Nat.mod_le (core.areaSize j) (2 ^ 32)
    simp only
    rcases Nat.lt_succ_iff_lt_or_eq.mp hi with hlt | rfl
    · have hend := extent_end_le haligned hlt (le_of_lt hj)
      rw [blit_outside (by omega), h.done i hlt k hk]
    · split
      case isTrue hcut => rw [blit_add hcut, h.sameMem]
      case isFalse hcut => rw [blit_outside (by omega), h.frame _ (by omega)]
  frame := by
    intro x hx
    have hle := Nat.mod_le (core.areaSize j) (2 ^ 32)
    have hsucc := extentPos_succ haligned hj
    simp only
    rw [blit_outside (by omega), h.frame x (by omega)]

theorem storeCut_step (hg : Geometry W.sizes core) (hl : LaidOut core v header)
    (hexact : ∀ n, dev.fails n = false) {i : ℕ} (hi : i < core.areaCount) {t : Machine}
    (ht : CutUpTo core m i t) :
    ∃ t', storeCut dev (header.areas i) t = some (.ok (), t') ∧ CutUpTo core m (i + 1) t' := by
  refine ⟨_, blkRequest_ok (hexact _), ?_⟩
  simp only [hl.areas i hi, toNat_sector hg.aligned hg.fits hi]
  exact ht.succ hg.aligned hi

/-- **A store by the driver** ends with a laid out header and the areas cut. -/
theorem storeCut_run (P : Platform) (hg : Geometry W.sizes core) (hcore : m.core = core)
    (hv : core.savedVector m.mem ≠ 0) (hexact : ∀ n, dev.fails n = false) :
    ∃ m' header, storeWith P dev (storeCut dev) m = some (.ok (), { m' with
        disk := blit m'.disk 0 header 0 DUMP_HEADER_SIZE, issued := m'.issued + 1 }) ∧
      LaidOut core (core.savedVector m.mem) header ∧ CutUpTo core m core.areaCount m' := by
  obtain ⟨header, hfill, hl⟩ := fillDumpHeader_laidOut P.stack (findOriginalWakingVector_ok hv)
    hg.count_le hg.aligned
  have hstart : CutUpTo core m 0 m :=
    ⟨rfl, rfl, fun i hi => absurd hi (Nat.not_lt_zero i), fun _ _ => rfl⟩
  obtain ⟨m', hrun, hcut⟩ : ∃ m', Prog.forEach (fun i => storeCut dev (header.areas i))
      (List.range core.areaCount) m = some (.ok (), m') ∧ CutUpTo core m core.areaCount m' :=
    Prog.forEach_range_ok (CutUpTo core m) core.areaCount m hstart fun i hi t ht =>
      storeCut_step hg hl hexact hi ht
  refine ⟨m', header, ?_, hl, hcut⟩
  rw [storeWith, Prog.bind_get_apply, hcore, hfill, Prog.lift_ok_apply, hl.toNat_areasSize,
    Prog.bind_ok hrun, writeDumpHeader_ok header (hexact _)]

/-- The disk then holds the OS if the cut off bytes agreed. -/
theorem CutUpTo.holds_iff (h : CutUpTo core m core.areaCount m') (hg : Geometry W.sizes core)
    (hl : LaidOut core v header) :
    Holds core (ramImage core m.mem) v (blit m'.disk 0 header 0 DUMP_HEADER_SIZE) ↔
      TailOnDisk core m.mem m.disk := by
  have hlaid := hl.written hg.count_le m'.disk
  have hbyte : ∀ i < core.areaCount, ∀ k < core.areaSize i,
      blit m'.disk 0 header 0 DUMP_HEADER_SIZE (extentPos core i + k) =
        if k < core.areaSize i % 2 ^ 32 then m.mem (core.areaStart i + k)
        else m.disk (extentPos core i + k) := by
    intro i hi k hk
    have hhead := header_le_extentPos hg.aligned (le_of_lt hi)
    rw [blit_outside (by omega), h.done i hi k hk]
  have himage : dumpImage (blit m'.disk 0 header 0 DUMP_HEADER_SIZE) = ramImage core m.mem ↔
      TailOnDisk core m.mem m.disk := by
    rw [dumpImage_laidOut hlaid hg.aligned hg.fits]
    simp only [ramImage, List.map_inj_left, List.mem_range, window_eq_window]
    constructor
    · intro hall i hi k hcut hk
      rw [← hall i hi k hk, hbyte i hi k hk, if_neg (by omega)]
    · intro htail i hi k hk
      rw [hbyte i hi k hk]
      split
      case isTrue => rfl
      case isFalse hcut => exact htail i hi k (by omega) hk
  exact ⟨fun hholds => himage.mp hholds.image, fun htail => ⟨hlaid, himage.mpr htail⟩⟩

/-! ## 4 GiB of RAM -/

/-- A core header for 4 GiB of RAM above the first 4 GiB, with a store asked for. -/
def fourGiB : CoreHeader :=
  { (onePage 0).setAction CORE_ACTION_STORE.toUInt32 with
    ramAreas := fun _ => ⟨0x100000000, 0x100000000⟩ }

theorem inRam_fourGiB {x : ℕ} : fourGiB.InRam x ↔ 2 ^ 32 ≤ x ∧ x < 2 ^ 32 + 2 ^ 32 := by
  have hcount : fourGiB.areaCount = 1 := rfl
  have hstart : ∀ i, fourGiB.areaStart i = 2 ^ 32 := fun _ => rfl
  have hsize : ∀ i, fourGiB.areaSize i = 2 ^ 32 := fun _ => rfl
  simp [CoreHeader.InRam, hcount, hstart, hsize]

theorem inFacs_fourGiB {x : ℕ} (hx : fourGiB.InFacs x) : 0x3000 ≤ x ∧ x < 0x3040 := by
  have hfacs : fourGiB.facs.toNat = 0x3000 := rfl
  simp only [CoreHeader.InFacs, hfacs, FACS_SIZE] at hx
  omega

theorem fourGiB_geometry : Geometry sampleWiring.sizes fourGiB where
  nonempty := by decide
  count_le := by decide
  aligned _ _ := show (0x100000000 : UInt64) ≠ 0 ∧
    (0x100000000 : UInt64).toNat % VIRTIO_BLK_SECTOR_SIZE = 0 by decide
  no_wrap _ _ := show 2 ^ 32 + 2 ^ 32 ≤ 2 ^ 64 by decide
  disjoint i hi j hj hij := by
    have hcount : fourGiB.areaCount = 1 := rfl
    omega
  apart_core x hx hcore := by
    have h1 := inRam_fourGiB.mp hx
    have h2 := coreMemory_sampleSizes hcore
    omega
  apart_facs x hx hfacs := by
    have h1 := inRam_fourGiB.mp hx
    have h2 := inFacs_fourGiB hfacs
    omega
  facs_apart_core x hx hcore := by
    have h1 := inFacs_fourGiB hx
    have h2 := coreMemory_sampleSizes hcore
    omega
  fits := show DUMP_HEADER_SECTORS_SIZE + 0x100000000 / VIRTIO_BLK_SECTOR_SIZE < 2 ^ 32 by decide

/-- The machine that a driven state is, but for the private bytes. -/
def Driven.flat (s : Driven) : Machine := ⟨s.mem, s.disk, s.core, 0, 0⟩

/-! ## The store -/

/-- **What a store leaves.** Over a device that works an execution of core with a store ends, resumes
the OS and leaves a valid header. The disk then holds the OS if and only if the bytes of its areas
beyond the low 32 bits of their sizes were on the disk before. -/
theorem store_holds_iff (W : Wiring) (fuel : ℕ) (hD : D.Works) (hvalid : isCoreHeaderValid core = true)
    (hg : Geometry W.sizes core) (hcore : s.core = core)
    (haction : core.action = CORE_ACTION_STORE.toUInt32) (hsaved : core.savedVector s.mem ≠ 0) :
    ∃ t, Driven.coreMain W D fuel s = some t ∧
      t.kernelWakingVector = core.savedVector s.mem ∧ ramImage core t.mem = ramImage core s.mem ∧
      isDumpHeaderValid core t.disk = true ∧
      (Holds core (ramImage core s.mem) (core.savedVector s.mem) t.disk ↔
        TailOnDisk core s.mem s.disk) := by
  let m : Machine := { s.flat with kernelWakingVector := core.savedVector s.mem }
  have hexact : ∀ n, D.blk.fails n = false := fun _ => rfl
  obtain ⟨m', header, hstore, hl, hcut⟩ := storeCut_run (m := m) (W.platform s) hg hcore hsaved hexact
  -- the flat machine
  have hflat : coreMainWith D.blk (storeWith (W.platform s) D.blk (storeCut D.blk)) s.flat =
      some (.ok (), { m' with
        disk := blit m'.disk 0 header 0 DUMP_HEADER_SIZE, issued := m'.issued + 1 }) := by
    have hvalid' : isCoreHeaderValid s.flat.core = true := by rw [Driven.flat, hcore, hvalid]
    have hfind : findOriginalWakingVector s.flat.core s.flat.mem = .ok (core.savedVector s.mem) := by
      rw [Driven.flat, hcore]
      exact findOriginalWakingVector_ok hsaved
    rw [coreMainWith, Prog.bind_get_apply, check, Prog.bind_check_true hvalid', hfind,
      Prog.lift_ok_apply, Prog.bind_modify_apply, check, Prog.bind_check_true (by
        rw [hD.blk]; rfl)]
    exact hstore
  -- the driven one
  have hstart : Alike W core { s with issued := 0, kernelWakingVector := 0 } s.flat :=
    ⟨fun _ _ => rfl, rfl, hcore, hcore, rfl, rfl⟩
  have hheld : Held W .store (W.platform s).stack
      { s with issued := 0, kernelWakingVector := 0 } := fun _ _ => rfl
  have hends : Prog.EndAlike (Alike W core) (fun _ _ => Alike W core)
      (Driven.coreMainBody W D fuel { s with issued := 0, kernelWakingVector := 0 })
      (coreMainWith D.blk (storeWith (W.platform s) D.blk (storeCut D.blk)) s.flat) := by
    refine coreMainBody_alike hD.size_ge hD.size_le hg hstart hheld fun s' m' hsm _ => ?_
    have hend := diskStoreDump_alike hD.serves hg (fun _ _ _ => rfl) hsm
    rw [Driven.coreAction, Prog.bind_get_apply, hsm.header, if_pos haction]
    exact hend.mono fun _ _ _ _ hsm => hsm.toAlike
  rw [hflat] at hends
  rcases hrun : Driven.coreMainBody W D fuel { s with issued := 0, kernelWakingVector := 0 } with
    _ | ⟨r, t⟩
  · rw [hrun] at hends
    cases hends
  · rw [hrun] at hends
    cases hends with
    | ok halike =>
      refine ⟨t, by rw [Driven.coreMain, hrun]; rfl, ?_, ?_, ?_, ?_⟩
      · exact halike.vector.trans hcut.sameVector
      · rw [halike.ramImage hg]
        exact congrArg (ramImage core) hcut.sameMem
      · rw [halike.disk]
        exact (hl.written hg.count_le m'.disk).valid hsaved hg.nonempty hg.aligned
      · rw [halike.disk]
        exact hcut.holds_iff hg hl

/-- **A store that loses 4 GiB.** It ends without an error and leaves a valid header, and the disk does
not hold the OS: nothing of the area has been written. -/
theorem store_holds_iff_fourGiB :
    ∃ t, Driven.coreMain sampleWiring sampleDevice 0 (sampleDriven fourGiB) = some t ∧
      isDumpHeaderValid fourGiB t.disk = true ∧
      ¬ Holds fourGiB (ramImage fourGiB (sampleDriven fourGiB).mem)
        (fourGiB.savedVector (sampleDriven fourGiB).mem) t.disk := by
  obtain ⟨t, hrun, -, -, hdump, hiff⟩ := store_holds_iff (s := sampleDriven fourGiB) sampleWiring 0
    sampleDevice_works (by decide) fourGiB_geometry rfl rfl (savedVector_ones fourGiB)
  refine ⟨t, hrun, hdump, fun hholds => ?_⟩
  have hbyte := hiff.mp hholds 0 (by decide) 0 (by decide) (by decide)
  exact absurd hbyte (by decide)

end SwitchOs
