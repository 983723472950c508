import SwitchOs.Core.Extents

/-!
# What a store does to the disk

`disk_store_dump` issues one write for each RAM area and then one for the header.
`StoredUpTo core m j m'`: from `m`, the writes of the first `j` areas, and nothing else, have
reached the disk of `m'`. The two results are the complete run (`diskStoreDump_ok`) and the run that
stops at request `j` (`diskStoreDump_stop`).
-/

namespace SwitchOs

open DumpHeader

/-- The first `j` areas of `m` have been written to the disk. -/
structure StoredUpTo (core : CoreHeader) (m : Machine) (j : ℕ) (m' : Machine) : Prop where
  sameMem : m'.mem = m.mem
  sameCore : m'.core = m.core
  sameVector : m'.kernelWakingVector = m.kernelWakingVector
  done : ∀ i < j, window m'.disk (extentPos core i) (core.areaSize i) =
    window m.mem (core.areaStart i) (core.areaSize i)
  frame : ∀ x, x < DUMP_HEADER_SIZE ∨ extentPos core j ≤ x → m'.disk x = m.disk x

namespace StoredUpTo

variable {core : CoreHeader} {m m' : Machine} {j : ℕ}

theorem refl : StoredUpTo core m 0 m :=
  ⟨rfl, rfl, rfl, fun i hi => absurd hi (by omega), fun _ _ => rfl⟩

theorem tick (h : StoredUpTo core m j m') : StoredUpTo core m j m'.tick :=
  ⟨h.sameMem, h.sameCore, h.sameVector, h.done, h.frame⟩

/-- One more area is written. -/
theorem succ (h : StoredUpTo core m j m') (haligned : AreasAligned core)
    (hj : j < core.areaCount) :
    StoredUpTo core m (j + 1)
      { m' with disk := blit m'.disk (extentPos core j) m'.mem (core.areaStart j)
                  (core.areaSize j) } where
  sameMem := h.sameMem
  sameCore := h.sameCore
  sameVector := h.sameVector
  done := by
    intro i hi
    simp only
    rcases Nat.lt_succ_iff_lt_or_eq.mp hi with hlt | rfl
    · have hend := extent_end_le haligned hlt (le_of_lt hj)
      rw [window_blit_outside (Or.inl hend), h.done i hlt]
    · rw [window_blit, h.sameMem]
  frame := by
    intro x hx
    have hsucc := extentPos_succ haligned hj
    have hhead := header_le_extentPos haligned (le_of_lt hj)
    simp only
    rw [blit_outside (by omega), h.frame x (by omega)]

end StoredUpTo

variable {core : CoreHeader} {dev : BlkDev} {m : Machine}

theorem LaidOut.toNat_areasSize {header : DumpHeader} {v : UInt32} (hl : LaidOut core v header) :
    header.areasSize.toNat = core.areaCount := by
  rw [hl.areasSize, CoreHeader.areaCount]

theorem storeArea_fail {a : DiskMemArea} (hfail : dev.fails m.issued = true) :
    storeArea dev a m = some (.error .ERR_INVALID, m.tick) :=
  blkRequest_fail hfail

theorem storeArea_step {header : DumpHeader} {v : UInt32} (hl : LaidOut core v header)
    (haligned : AreasAligned core) (hfits : Fits core) {i : ℕ} (hi : i < core.areaCount)
    {t : Machine} (ht : StoredUpTo core m i t) (hok : dev.fails t.issued = false) :
    ∃ t', storeArea dev (header.areas i) t = some (.ok (), t') ∧ StoredUpTo core m (i + 1) t' ∧
      t'.issued = t.issued + 1 := by
  refine ⟨_, blkRequest_ok hok, ?_, rfl⟩
  simp only [hl.areas i hi, toNat_sector haligned hfits hi]
  exact ht.tick.succ haligned hi

/-- The loop of a store, up to area `j`. -/
theorem storeAreas_run {header : DumpHeader} {v : UInt32} (hl : LaidOut core v header)
    (haligned : AreasAligned core) (hfits : Fits core) {j : ℕ} (hj : j ≤ core.areaCount)
    (hok : ∀ i < j, dev.fails (m.issued + i) = false) :
    ∃ m', Prog.forEach (fun i => storeArea dev (header.areas i)) (List.range j) m =
        some (.ok (), m') ∧ StoredUpTo core m j m' ∧ m'.issued = m.issued + j := by
  refine Prog.forEach_range_ok (fun i t => StoredUpTo core m i t ∧ t.issued = m.issued + i) j m
    ⟨.refl, rfl⟩ fun i hi t ht => ?_
  obtain ⟨t', hrun, hstored, hissued⟩ := storeArea_step hl haligned hfits (by omega) ht.1
    (by rw [ht.2]; exact hok i hi)
  exact ⟨t', hrun, hstored, by rw [hissued, ht.2]; omega⟩

/-- A disk with the header `header` and the RAM areas of `m` on it. -/
structure Holds (core : CoreHeader) (image : Image) (v : UInt32) (disk : ℕ → UInt8) : Prop where
  laidOut : LaidOut core v disk
  image : dumpImage disk = image

theorem writeDumpHeader_ok (header : DumpHeader) (hok : dev.fails m.issued = false) :
    writeDumpHeader dev header m = some (.ok (), { m with
      disk := blit m.disk 0 header 0 DUMP_HEADER_SIZE, issued := m.issued + 1 }) :=
  blkRequest_ok hok

theorem writeDumpHeader_fail (header : DumpHeader) (hfail : dev.fails m.issued = true) :
    writeDumpHeader dev header m = some (.error .ERR_INVALID, m.tick) :=
  blkRequest_fail hfail

/-- A laid out header stays laid out when it is written over the start of a disk. -/
theorem LaidOut.written {header : DumpHeader} {v : UInt32} (hl : LaidOut core v header)
    (hmax : core.areaCount ≤ MAX_RAM_AREAS) (disk : ℕ → UInt8) :
    LaidOut core v (blit disk 0 header 0 DUMP_HEADER_SIZE) :=
  hl.congr hmax (readDumpHeader_bytes disk header)

theorem StoredUpTo.holds {m' : Machine} (h : StoredUpTo core m core.areaCount m')
    {header : DumpHeader} {v : UInt32} (hl : LaidOut core v header)
    (hmax : core.areaCount ≤ MAX_RAM_AREAS) (haligned : AreasAligned core) (hfits : Fits core) :
    Holds core (ramImage core m.mem) v (blit m'.disk 0 header 0 DUMP_HEADER_SIZE) where
  laidOut := hl.written hmax _
  image := by
    rw [dumpImage_laidOut (hl.written hmax _) haligned hfits, ramImage]
    refine List.map_congr_left fun i hi => ?_
    rw [List.mem_range] at hi
    have hhead := header_le_extentPos haligned (le_of_lt hi)
    rw [window_blit_outside (Or.inr (by omega)), h.done i hi]

/-- **A complete store.** If no request fails, the disk ends with a header for the RAM areas and the
saved vector, and the extents hold the RAM image. -/
theorem diskStoreDump_ok (P : Platform) (hcore : m.core = core)
    (hmax : core.areaCount ≤ MAX_RAM_AREAS) (haligned : AreasAligned core) (hfits : Fits core)
    (hv : core.savedVector m.mem ≠ 0)
    (hok : ∀ i ≤ core.areaCount, dev.fails (m.issued + i) = false) :
    ∃ m', diskStoreDump P dev m = some (.ok (), m') ∧ m'.mem = m.mem ∧ m'.core = m.core ∧
      m'.kernelWakingVector = m.kernelWakingVector ∧
      Holds core (ramImage core m.mem) (core.savedVector m.mem) m'.disk := by
  obtain ⟨header, hfill, hl⟩ := fillDumpHeader_laidOut P.stack (findOriginalWakingVector_ok hv)
    hmax haligned
  obtain ⟨t, hrun, ht, hissued⟩ := storeAreas_run (m := m) hl haligned hfits le_rfl
    fun i hi => hok i (le_of_lt hi)
  refine ⟨{ t with disk := blit t.disk 0 header 0 DUMP_HEADER_SIZE, issued := t.issued + 1 }, ?_,
    ht.sameMem, ht.sameCore, ht.sameVector, ht.holds hl hmax haligned hfits⟩
  rw [diskStoreDump, Prog.bind_get_apply, hcore, hfill, Prog.lift_ok_apply, hl.toNat_areasSize,
    Prog.bind_ok hrun, writeDumpHeader_ok header (by rw [hissued]; exact hok _ le_rfl)]

/-- **A store that stops.** If request `j` is the first to fail, exactly the first `j` areas have
been written, and the header has not. -/
theorem diskStoreDump_stop (P : Platform) (hcore : m.core = core)
    (hmax : core.areaCount ≤ MAX_RAM_AREAS) (haligned : AreasAligned core) (hfits : Fits core)
    (hv : core.savedVector m.mem ≠ 0) {j : ℕ} (hj : j ≤ core.areaCount)
    (hok : ∀ i < j, dev.fails (m.issued + i) = false) (hfail : dev.fails (m.issued + j) = true) :
    ∃ m', diskStoreDump P dev m = some (.error .ERR_INVALID, m') ∧ StoredUpTo core m j m' := by
  obtain ⟨header, hfill, hl⟩ := fillDumpHeader_laidOut P.stack (findOriginalWakingVector_ok hv)
    hmax haligned
  rcases Nat.lt_or_eq_of_le hj with hlt | rfl
  · obtain ⟨t, hrun, ht⟩ := Prog.forEach_range_error (e := Err.ERR_INVALID)
      (fun i t => StoredUpTo core m i t ∧ t.issued = m.issued + i) hlt m ⟨.refl, rfl⟩
      (fun i hi t ht => by
        obtain ⟨t', hrun, hstored, hissued⟩ := storeArea_step hl haligned hfits (by omega) ht.1
          (by rw [ht.2]; exact hok i hi)
        exact ⟨t', hrun, hstored, by rw [hissued, ht.2]; omega⟩)
      (fun t ht => ⟨t.tick, storeArea_fail (by rw [ht.2]; exact hfail), ht.1.tick⟩)
    refine ⟨t, ?_, ht⟩
    rw [diskStoreDump, Prog.bind_get_apply, hcore, hfill, Prog.lift_ok_apply, hl.toNat_areasSize]
    exact Prog.bind_error hrun
  · obtain ⟨t, hrun, ht, hissued⟩ := storeAreas_run (m := m) hl haligned hfits le_rfl hok
    refine ⟨t.tick, ?_, ht.tick⟩
    rw [diskStoreDump, Prog.bind_get_apply, hcore, hfill, Prog.lift_ok_apply, hl.toNat_areasSize,
      Prog.bind_ok hrun, writeDumpHeader_fail header (by rw [hissued]; exact hfail)]

end SwitchOs
