import SwitchOs.Core.Walk

/-!
# Loading and switching

`disk_load_dump` reads every area with one request straight into RAM, `disk_switch_dump` exchanges
it chunk by chunk through `switch_buf`. From the same state the two leave the same RAM, and hand out
the same waking vector, if and only if the 64-bit address of the loop of `switch_memory_area` does
not wrap on the way to the end of an area (`loadSwitch_agree_iff`). Where it wraps the loop never
ends (`diskSwitchDump_wraps`); an area that ends at 2^64 is not switched at all.
-/

namespace SwitchOs

open DumpHeader

/-- The address of the loop stays below 2^64, one step past the last chunk of area `i` included. -/
def AddressFits (core : CoreHeader) (i : ℕ) : Prop :=
  core.areaStart i + pieceCount SWITCH_BUF_SIZE (core.areaSize i) * SWITCH_BUF_SIZE < 2 ^ 64

/-- Area `i` ends with the address space. -/
def EndsAtTop (core : CoreHeader) (i : ℕ) : Prop :=
  core.areaStart i + core.areaSize i = 2 ^ 64

variable {S : CoreSizes} {core : CoreHeader} {disk : ℕ → UInt8} {P : Platform} {m : Machine} {fuel i : ℕ}

theorem AddressFits.end_lt (h : AddressFits core i) :
    core.areaStart i + core.areaSize i < 2 ^ 64 := by
  have hle := le_pieceCount_mul (B := SWITCH_BUF_SIZE) (by decide) (core.areaSize i)
  unfold AddressFits at h
  omega

/-- The loop of an area ends where its address fits, and where it sees no bytes in front of it. -/
theorem loopEnds_iff (hwrap : core.areaStart i + core.areaSize i ≤ 2 ^ 64) :
    LoopEnds core i ↔ AddressFits core i ∨ EndsAtTop core i := by
  have hstart : core.areaStart i < 2 ^ 64 := (core.ramAreas i).start.toNat_lt
  rcases Nat.eq_or_lt_of_le hwrap with htop | hlt
  · refine iff_of_true ?_ (Or.inr htop)
    rw [LoopEnds, switchedSize_top htop, pieceCount_zero, Nat.zero_mul, Nat.add_zero]
    exact hstart
  · rw [LoopEnds, switchedSize_eq hlt]
    exact ⟨Or.inl, fun h => h.resolve_right (ne_of_lt hlt)⟩

/-! ## Loading -/

/-- The first `j` areas of `m` have been read from the disk. -/
structure LoadedUpTo (core : CoreHeader) (m : Machine) (j : ℕ) (m' : Machine) : Prop where
  sameDisk : m'.disk = m.disk
  sameCore : m'.core = m.core
  done : ∀ i < j, window m'.mem (core.areaStart i) (core.areaSize i) =
    window m.disk (entryPos m.disk i) (core.areaSize i)

/-- One more area is read. -/
theorem LoadedUpTo.succ {m' : Machine} {j : ℕ} (h : LoadedUpTo core m j m')
    (hd : DumpOnDisk S core m.disk) (hj : j < core.areaCount) :
    LoadedUpTo core m (j + 1) { m'.tick with
      mem := blit m'.mem (core.areaStart j) m'.disk (entryPos m.disk j) (core.areaSize j) } where
  sameDisk := h.sameDisk
  sameCore := h.sameCore
  done := by
    intro i hi
    simp only
    rcases Nat.lt_succ_iff_lt_or_eq.mp hi with hlt | rfl
    · have hapart := hd.disjoint i (by omega) j hj (by omega)
      rw [window_blit_outside hapart, h.done i hlt]
    · rw [window_blit, h.sameDisk]

/-- **A load** returns with the image and the vector of the dump, and leaves the disk alone. -/
theorem diskLoadDump_run (hd : DumpOnDisk P.sizes m.core m.disk) :
    ∃ loaded, diskLoadDump P .exact m = some (.ok (), loaded) ∧ loaded.disk = m.disk ∧
      loaded.kernelWakingVector = DumpHeader.wakingVector m.disk ∧
      ∀ i < m.core.areaCount, window loaded.mem (m.core.areaStart i) (m.core.areaSize i) =
        window m.disk (entryPos m.disk i) (m.core.areaSize i) := by
  obtain ⟨t, hloop, ht⟩ := Prog.forEach_range_ok
    (f := fun i => readVirtioBlk .exact (DumpHeader.areas (headerRead P m.disk) i).sector.toNat
      (DumpHeader.areas (headerRead P m.disk) i).area.start.toNat
      (DumpHeader.areas (headerRead P m.disk) i).area.size.toNat)
    (LoadedUpTo m.core m) m.core.areaCount m.tick ⟨rfl, rfl, nofun⟩
    (fun i hi t ht => by
      rw [headerRead_areas hd hi]
      exact ⟨_, blkRequest_ok (BlkDev.exact_fails _), ht.succ hd hi⟩)
  refine ⟨{ t with kernelWakingVector := DumpHeader.wakingVector (headerRead P m.disk) }, ?_,
    ht.sameDisk, headerRead_wakingVector, ht.done⟩
  have hvalid : isDumpHeaderValid m.tick.core (headerRead P m.disk) = true := headerRead_accepted hd
  rw [← headerRead_areasSize (P := P) hd] at hloop
  rw [diskLoadDump, Prog.bind_ok (readDumpHeader_read (BlkDev.exact_fails _)), Prog.bind_get_apply,
    check, Prog.bind_check_true hvalid]
  exact Prog.bind_ok hloop

/-! ## Switching -/

/-- The last chunk of an area whose address does not fit starts less than `SWITCH_BUF_SIZE` below
2^64, and the address after it lies below the end of the area again. -/
theorem switchMemoryArea_wraps (hd : DumpOnDisk S core disk) (hi : i < core.areaCount)
    (hends : ¬ LoopEnds core i) (t : Machine) :
    switchMemoryArea P .exact fuel ⟨core.ramAreas i, (DumpHeader.areas disk i).sector⟩ t = none := by
  have hwrap := hd.no_wrap i hi
  have hpos := hd.size_pos hi
  have hmod : core.areaSize i % 512 = 0 := (hd.aligned i hi).2
  obtain ⟨hfit, htop⟩ := not_or.mp (mt (loopEnds_iff hwrap).mpr hends)
  unfold AddressFits at hfit
  unfold EndsAtTop at htop
  have hstop : ((core.ramAreas i).start + (core.ramAreas i).size).toNat =
      core.areaStart i + core.areaSize i := by
    rw [UInt64.toNat_add, ← CoreHeader.areaStart, ← CoreHeader.areaSize,
      Nat.mod_eq_of_lt (by omega)]
  simp only [pieceCount, SWITCH_BUF_SIZE] at hfit
  refine switchChunks_diverge BlkDev.exact_fails (r := core.areaStart i % SWITCH_BUF_SIZE) ?_ ?_
    fuel _ _ t rfl
  · rw [hstop]
    simp only [VIRTIO_BLK_SECTOR_SIZE, SWITCH_BUF_SIZE]
    omega
  · rw [hstop]
    simp only [SWITCH_BUF_SIZE]
    omega

/-- The loop over the chunks of an area returns. -/
theorem areaWalk_run (core : CoreHeader) (disk : ℕ → UInt8) (i : ℕ) (t : Machine) :
    ∃ t', Prog.forEach (chunkBody P .exact) (areaWalk core (entryPos disk) i) t =
      some (.ok (), t') := by
  have hbody : ∀ c ∈ areaWalk core (entryPos disk) i,
      ∀ u, ∃ u', chunkBody P .exact c u = some (.ok (), u') := by
    intro c hc u
    have hpos := Nat.mod_eq_zero_of_dvd (dvd_pos_of_mem_chunksOf (d := VIRTIO_BLK_SECTOR_SIZE)
      (by decide) (Nat.dvd_mul_left _ (DumpHeader.sector disk i)) hc)
    exact ⟨_, chunkBody_ok hpos (BlkDev.exact_fails _) (BlkDev.exact_fails _)⟩
  obtain ⟨t', hrun, -⟩ := Prog.forEach_ok (fun _ _ => True) (areaWalk core (entryPos disk) i) [] t
    trivial fun pre c post u hsplit _ =>
      (hbody c (by simp [hsplit]) u).imp fun _ h => ⟨h, trivial⟩
  exact ⟨t', hrun⟩

/-- **A switch whose loops all end** leaves the extents in the areas that the loops walk over. -/
theorem diskSwitchDump_run (hd : DumpOnDisk P.sizes m.core m.disk) (hfuel : switchFuel ≤ fuel)
    (hends : LoopsEnd m.core) :
    ∃ result switched, diskSwitchDump P .exact fuel m = some (result, switched) ∧
      switched.kernelWakingVector = DumpHeader.wakingVector m.disk ∧
      (result = .ok () ∨ m.core.savedVector switched.mem = 0) ∧
      (∀ i < m.core.areaCount, m.core.areaStart i + m.core.areaSize i < 2 ^ 64 →
        window switched.mem (m.core.areaStart i) (m.core.areaSize i) =
          window m.disk (entryPos m.disk i) (m.core.areaSize i)) ∧
      ∀ i < m.core.areaCount, EndsAtTop m.core i →
        window switched.mem (m.core.areaStart i) (m.core.areaSize i) =
          window m.mem (m.core.areaStart i) (m.core.areaSize i) := by
  obtain ⟨rest, hwalk, hrest⟩ := diskSwitchDump_walk (P := P) hd hfuel (BlkDev.exact_fails _)
  obtain ⟨t, hloop, hsw, -⟩ := chunkLoop_ok (P := P) (m := m.tick) (switchable_issuedChunks hd)
    fun r _ => BlkDev.exact_fails _
  have hsw := hsw.of_tick
  obtain ⟨result, switched, hfinish, hmem, hvector, -, hresult⟩ :=
    finishSwitch_run .exact (headerRead P m.disk) t
  refine ⟨result, switched, ?_, hvector.trans headerRead_wakingVector, ?_, ?_, ?_⟩
  · rw [hwalk, hrest hends, Prog.bind_ok hloop, hfinish]
  · rw [hmem, ← hsw.sameCore]
    exact hresult.imp id fun h => h.resolve_right (by simp [BlkDev.exact_fails])
  · intro i hi hlt
    rw [hmem, hsw.window_entry hends hi hlt]
  · intro i hi htop
    rw [hmem, hsw.window_skipped hd hi htop]

/-- **A switch with an area on which the loop's address wraps** never returns. -/
theorem diskSwitchDump_wraps (hd : DumpOnDisk P.sizes m.core m.disk) (hfuel : switchFuel ≤ fuel)
    (hi : i < m.core.areaCount) (hends : ¬ LoopEnds m.core i) :
    diskSwitchDump P .exact fuel m = none := by
  rw [diskSwitchDump_areas hd (BlkDev.exact_fails _)]
  refine Prog.bind_none (Prog.forEach_none _ _ (List.mem_range.mpr hi)
    (switchMemoryArea_wraps hd hi hends) fun j hj t => ?_)
  rw [List.mem_range] at hj
  by_cases hends : LoopEnds m.core j
  · obtain ⟨rest, hwalk, hrest⟩ := switchMemoryArea_walk P .exact hd hfuel hj
    rw [hwalk, hrest hends, Prog.bind_pure_unit]
    exact Or.inr (areaWalk_run _ _ _ t)
  · exact Or.inl (switchMemoryArea_wraps hd hj hends t)

/-! ## Agreement -/

/-- Loading and switching from `m` both return, with the same bytes in every RAM area and the same
waking vector in the out-parameter, and the load leaves the disk alone. The switch returns an error
only where the FACS keeps no saved vector. -/
def LoadSwitchAgree (P : Platform) (fuel : ℕ) (m : Machine) : Prop :=
  ∃ loaded result switched, diskLoadDump P .exact m = some (.ok (), loaded) ∧
    diskSwitchDump P .exact fuel m = some (result, switched) ∧
    (result = .ok () ∨ m.core.savedVector switched.mem = 0) ∧
    ramImage m.core switched.mem = ramImage m.core loaded.mem ∧
    switched.kernelWakingVector = loaded.kernelWakingVector ∧ loaded.disk = m.disk

/-- **When loading and switching agree**: if and only if the address of the loop fits in 64 bits for
every area, except for an area that ends at 2^64 and already holds the bytes of its extent. -/
theorem loadSwitch_agree_iff (P : Platform) (hd : DumpOnDisk P.sizes m.core m.disk)
    (hfuel : switchFuel ≤ fuel) :
    LoadSwitchAgree P fuel m ↔ ∀ i < m.core.areaCount, AddressFits m.core i ∨
      EndsAtTop m.core i ∧ window m.mem (m.core.areaStart i) (m.core.areaSize i) =
        window m.disk (entryPos m.disk i) (m.core.areaSize i) := by
  obtain ⟨loaded, hload, hdisk, hvector, hloaded⟩ := diskLoadDump_run (P := P) hd
  constructor
  · rintro ⟨loaded', result, switched, hload', hswitch, -, hram, -, -⟩ i hi
    obtain rfl := congrArg Prod.snd (Option.some.inj (hload.symm.trans hload'))
    have hends : LoopsEnd m.core := by
      intro j hj
      by_contra hcon
      rw [diskSwitchDump_wraps hd hfuel hj hcon] at hswitch
      cases hswitch
    rcases (loopEnds_iff (hd.no_wrap i hi)).mp (hends i hi) with hfit | htop
    · exact Or.inl hfit
    · refine Or.inr ⟨htop, ?_⟩
      obtain ⟨_, switched', hrun, -, -, -, hskipped⟩ := diskSwitchDump_run (P := P) hd hfuel hends
      obtain rfl := congrArg Prod.snd (Option.some.inj (hrun.symm.trans hswitch))
      rw [← hskipped i hi htop, ramImage_eq_iff.mp hram i hi]
      exact hloaded i hi
  · intro hcond
    obtain ⟨result, switched, hswitch, hvector', hresult, hwalked, hskipped⟩ :=
      diskSwitchDump_run (P := P) hd hfuel fun i hi =>
        (loopEnds_iff (hd.no_wrap i hi)).mpr ((hcond i hi).imp id And.left)
    refine ⟨loaded, result, switched, hload, hswitch, hresult, ramImage_eq_iff.mpr fun i hi => ?_,
      hvector'.trans hvector.symm, hdisk⟩
    rcases hcond i hi with hfit | ⟨htop, hsame⟩
    · rw [hwalked i hi hfit.end_lt, hloaded i hi]
    · rw [hskipped i hi htop, hloaded i hi]
      exact hsame

/-- A dump of one page, behind its header. -/
def onePageDump (start : UInt64) : DumpHeader :=
  DumpHeader.setArea (setAreasSize (setWakingVector (setMagic (fun _ => 0) CORE_DISK_DUMP_MAGIC) 1) 1)
    0 ⟨⟨start, 4096⟩, 4⟩

/-- A page that does not wrap and does not meet core, with its dump on the disk. -/
theorem onePageDump_onDisk {start : UInt64}
    (hstart : start.toNat + 4096 ≤ 0x40000000 ∧ 0x4000 ≤ start.toNat ∨
      0x41900000 ≤ start.toNat ∧ start.toNat + 4096 ≤ 2 ^ 64) :
    DumpOnDisk sampleSizes (onePage start) (onePageDump start) := by
  have hg : Geometry sampleSizes (onePage start) := onePage_geometry hstart
  have harea : DumpHeader.areas (onePageDump start) 0 = ⟨⟨start, 4096⟩, 4⟩ := areas_setArea_self _ _
  have hcount : DumpHeader.areasSize (onePageDump start) = 1 := by simp [onePageDump]
  have hzero : ∀ i < (1 : UInt32).toNat, i = 0 := fun i hi => by
    have hone : (1 : UInt32).toNat = 1 := rfl
    omega
  refine ⟨isDumpHeaderValid_iff.mpr ⟨by simp [onePageDump], by simp [onePageDump], ?_, hcount, ?_⟩,
    ⟨?_, ?_⟩, hg.count_le, hg.aligned, hg.no_wrap, hg.disjoint, hg.apart_core⟩
  · rw [hcount]
    decide
  · intro i hi
    obtain rfl := hzero i hi
    rw [harea]
    exact ⟨(by decide : (4096 : UInt64) ≠ 0), rfl⟩
  · intro i hi
    rw [hcount] at hi
    obtain rfl := hzero i hi
    rw [DumpHeader.sector, harea]
    exact (by decide : DUMP_HEADER_SECTORS_SIZE ≤ (4 : UInt32).toNat)
  · intro i hi j hj hne
    rw [hcount] at hi hj
    exact absurd ((hzero i hi).trans (hzero j hj).symm) hne

/-- A machine with one page of RAM and its dump on the disk. -/
def dumpMachine (start : UInt64) : Machine := ⟨fun _ => 1, onePageDump start, onePage start, 0, 0⟩

theorem loadSwitch_agree_iff_onePage :
    DumpOnDisk sampleSizes (dumpMachine 0x100000).core (dumpMachine 0x100000).disk ∧
      (LoadSwitchAgree samplePlatform switchFuel (dumpMachine 0x100000) ↔
        ∀ i < (dumpMachine 0x100000).core.areaCount,
          AddressFits (dumpMachine 0x100000).core i ∨
            EndsAtTop (dumpMachine 0x100000).core i ∧
              window (dumpMachine 0x100000).mem ((dumpMachine 0x100000).core.areaStart i)
                  ((dumpMachine 0x100000).core.areaSize i) =
                window (dumpMachine 0x100000).disk (entryPos (dumpMachine 0x100000).disk i)
                  ((dumpMachine 0x100000).core.areaSize i)) :=
  have hd : DumpOnDisk sampleSizes (dumpMachine 0x100000).core (dumpMachine 0x100000).disk :=
    onePageDump_onDisk (by decide)
  ⟨hd, loadSwitch_agree_iff samplePlatform hd le_rfl⟩

/-- **A load that returns and a switch that does not**: one page of RAM, the one below the last page
of the address space. -/
theorem loadSwitch_disagree :
    DumpOnDisk sampleSizes (dumpMachine 0xFFFFFFFFFFFFE000).core (dumpMachine 0xFFFFFFFFFFFFE000).disk ∧
      (∃ loaded, diskLoadDump samplePlatform .exact (dumpMachine 0xFFFFFFFFFFFFE000) =
        some (.ok (), loaded)) ∧
      ∀ fuel, switchFuel ≤ fuel →
        diskSwitchDump samplePlatform .exact fuel (dumpMachine 0xFFFFFFFFFFFFE000) = none ∧
          ¬ LoadSwitchAgree samplePlatform fuel (dumpMachine 0xFFFFFFFFFFFFE000) := by
  have hd : DumpOnDisk sampleSizes (dumpMachine 0xFFFFFFFFFFFFE000).core (dumpMachine 0xFFFFFFFFFFFFE000).disk :=
    onePageDump_onDisk (by decide)
  obtain ⟨loaded, hload, -⟩ := diskLoadDump_run (P := samplePlatform) hd
  refine ⟨hd, ⟨loaded, hload⟩, fun fuel hfuel => ?_⟩
  have hnone : diskSwitchDump samplePlatform .exact fuel (dumpMachine 0xFFFFFFFFFFFFE000) = none :=
    diskSwitchDump_wraps hd hfuel (i := 0) (by decide) (by decide)
  refine ⟨hnone, ?_⟩
  rintro ⟨_, _, _, -, hswitch, -⟩
  rw [hnone] at hswitch
  cases hswitch

end SwitchOs
