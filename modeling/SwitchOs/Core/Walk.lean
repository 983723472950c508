import SwitchOs.Core.HeaderChecks

/-!
# What a switch walks over

`disk_switch_dump` goes over the areas of an accepted header, whose extents may lie anywhere, and over
each of them in the chunks of `switch_memory_area`. An area that ends with the address space has none.
Behind the last chunk of an area the address of the loop may wrap (`LoopEnds` says when it does not),
and the loop then goes on over memory that is in no area. `issuedChunks` are the chunks up to there,
and `diskSwitchDump_walk` says that a switch exchanges these first, whatever it does then.

`diskSwitchDump_safe` is what follows for every header that is accepted: if its extents are apart and
the loops end, no stored byte is lost and the header is not overwritten, whatever request fails.
-/

namespace SwitchOs

open DumpHeader

/-- The first byte on the disk of entry `i` of its header. -/
def entryPos (disk : ℕ → UInt8) (i : ℕ) : ℕ := sectorPos (DumpHeader.sector disk i)

/-- The disk holds a dump for the RAM areas of `core`: an accepted header whose extents are apart,
for areas of whole sectors that meet neither each other nor core. The extents may lie anywhere. -/
structure DumpOnDisk (S : CoreSizes) (core : CoreHeader) (disk : ℕ → UInt8) : Prop where
  accepted : isDumpHeaderValid core disk = true
  extents : ExtentsApart disk
  count_le : core.areaCount ≤ MAX_RAM_AREAS
  aligned : AreasAligned core
  no_wrap : ∀ i < core.areaCount, core.areaStart i + core.areaSize i ≤ 2 ^ 64
  disjoint : ∀ i < core.areaCount, ∀ j < core.areaCount, i ≠ j →
    core.areaStart i + core.areaSize i ≤ core.areaStart j ∨
      core.areaStart j + core.areaSize j ≤ core.areaStart i
  apart_core : ∀ x, core.InRam x → ¬ CoreMemory S x

/-- The bytes that the loop of `switch_memory_area` sees in front of it when it starts on area `i`.
For an area that ends at 2^64 the end is 0, and there are none. -/
def switchedSize (core : CoreHeader) (i : ℕ) : ℕ :=
  ((core.ramAreas i).start + (core.ramAreas i).size).toNat - core.areaStart i

/-- The address of the loop on area `i` stays below 2^64, one step past its last chunk included. -/
def LoopEnds (core : CoreHeader) (i : ℕ) : Prop :=
  core.areaStart i + pieceCount SWITCH_BUF_SIZE (switchedSize core i) * SWITCH_BUF_SIZE < 2 ^ 64

instance (core : CoreHeader) : DecidablePred (LoopEnds core) := fun _ =>
  inferInstanceAs (Decidable (_ < _))

/-- The loop of every area ends. -/
def LoopsEnd (core : CoreHeader) : Prop := ∀ i < core.areaCount, LoopEnds core i

instance (core : CoreHeader) : Decidable (LoopsEnd core) :=
  inferInstanceAs (Decidable (∀ i < core.areaCount, LoopEnds core i))

/-- The chunks in which area `i`, with its extent at `pos i`, is exchanged. -/
def areaWalk (core : CoreHeader) (pos : ℕ → ℕ) (i : ℕ) : List Chunk :=
  chunksOf SWITCH_BUF_SIZE (core.areaStart i) (pos i) (switchedSize core i)

/-- The chunks that a switch exchanges before the address of its loop wraps. -/
def issuedChunks (core : CoreHeader) (pos : ℕ → ℕ) : List Chunk :=
  upToFirst (LoopEnds core) (areaWalk core pos) (List.range core.areaCount)

variable {S : CoreSizes} {core : CoreHeader} {disk : ℕ → UInt8} {pos : ℕ → ℕ} {P : Platform}
  {dev : BlkDev} {m : Machine} {fuel i : ℕ}

/-! ## Sizes -/

theorem switchedSize_eq (h : core.areaStart i + core.areaSize i < 2 ^ 64) :
    switchedSize core i = core.areaSize i := by
  rw [switchedSize, UInt64.toNat_add, ← CoreHeader.areaStart, ← CoreHeader.areaSize,
    Nat.mod_eq_of_lt h]
  omega

/-- The loop skips an area that ends with the address space. -/
theorem switchedSize_top (h : core.areaStart i + core.areaSize i = 2 ^ 64) :
    switchedSize core i = 0 := by
  rw [switchedSize, UInt64.toNat_add, ← CoreHeader.areaStart, ← CoreHeader.areaSize, h]
  omega

namespace DumpOnDisk

/-- The number of areas in the header is that of core. -/
theorem areasSize (hd : DumpOnDisk S core disk) : (areasSize disk).toNat = core.areaCount := by
  obtain ⟨-, -, -, hcount, -⟩ := isDumpHeaderValid_iff.mp hd.accepted
  rw [hcount, CoreHeader.areaCount]

/-- The areas in the header are those of core. -/
theorem area (hd : DumpOnDisk S core disk) (hi : i < core.areaCount) :
    (areas disk i).area = core.ramAreas i := by
  obtain ⟨-, -, -, -, hareas⟩ := isDumpHeaderValid_iff.mp hd.accepted
  exact (hareas i hi).2

theorem sector_lt (disk : ℕ → UInt8) (i : ℕ) : DumpHeader.sector disk i < 2 ^ 32 :=
  (areas disk i).sector.toNat_lt

/-- Two extents do not meet. -/
theorem extent_apart (hd : DumpOnDisk S core disk) {i j : ℕ} (hi : i < core.areaCount)
    (hj : j < core.areaCount) (hne : i ≠ j) :
    entryPos disk i + core.areaSize i ≤ entryPos disk j ∨
      entryPos disk j + core.areaSize j ≤ entryPos disk i := by
  have hapart := hd.extents.apart i (by rw [hd.areasSize]; exact hi) j
    (by rw [hd.areasSize]; exact hj) hne
  have hmodi := (hd.aligned i hi).2
  have hmodj := (hd.aligned j hj).2
  rw [DumpHeader.sectors, DumpHeader.sectors, hd.area hi, hd.area hj] at hapart
  simp only [entryPos, sectorPos, CoreHeader.areaSize, VIRTIO_BLK_SECTOR_SIZE] at hapart hmodi hmodj ⊢
  omega

theorem size_pos (hd : DumpOnDisk S core disk) (hi : i < core.areaCount) : 0 < core.areaSize i :=
  Nat.pos_of_ne_zero fun h0 => (hd.aligned i hi).1 (UInt64.toNat_inj.mp h0)

end DumpOnDisk

/-- In the RAM areas that a dump is made for, a header needs no more than extents that are apart. -/
theorem Geometry.dumpOnDisk (hg : Geometry S core) (hvalid : isDumpHeaderValid core disk = true)
    (hapart : ExtentsApart disk) : DumpOnDisk S core disk :=
  ⟨hvalid, hapart, hg.count_le, hg.aligned, hg.no_wrap, hg.disjoint, hg.apart_core⟩

theorem switchedSize_le (hd : DumpOnDisk S core disk) (hi : i < core.areaCount) :
    switchedSize core i ≤ core.areaSize i := by
  have hwrap := hd.no_wrap i hi
  rcases Nat.eq_or_lt_of_le hwrap with htop | hlt
  · rw [switchedSize_top htop]
    exact Nat.zero_le _
  · rw [switchedSize_eq hlt]

theorem switchedSize_mod (hd : DumpOnDisk S core disk) (hi : i < core.areaCount) :
    switchedSize core i % VIRTIO_BLK_SECTOR_SIZE = 0 := by
  have hwrap := hd.no_wrap i hi
  rcases Nat.eq_or_lt_of_le hwrap with htop | hlt
  · rw [switchedSize_top htop]
    rfl
  · rw [switchedSize_eq hlt]
    exact (hd.aligned i hi).2

/-- The header, as it is read back into the local variable. -/
def headerRead (P : Platform) (disk : ℕ → UInt8) : DumpHeader :=
  blit P.stack 0 disk 0 DUMP_HEADER_SIZE

theorem headerRead_bytes : ∀ x < DUMP_HEADER_SIZE, headerRead P disk x = disk x :=
  readDumpHeader_bytes P.stack disk

theorem readDumpHeader_read (h : dev.fails m.issued = false) :
    readDumpHeader P dev m = some (.ok (headerRead P m.disk), m.tick) :=
  readDumpHeader_ok P h

theorem headerRead_wakingVector :
    DumpHeader.wakingVector (headerRead P disk) = DumpHeader.wakingVector disk :=
  get32_congr_header headerRead_bytes (by omega)

section Header

variable (hd : DumpOnDisk S core disk)

include hd

theorem headerRead_accepted : isDumpHeaderValid core (headerRead P disk) = true := by
  rw [isDumpHeaderValid_congr hd.count_le headerRead_bytes]
  exact hd.accepted

theorem headerRead_areasSize :
    (DumpHeader.areasSize (headerRead P disk)).toNat = core.areaCount := by
  have hsize : DumpHeader.areasSize (headerRead P disk) = DumpHeader.areasSize disk :=
    get32_congr_header headerRead_bytes (by omega)
  rw [hsize, hd.areasSize]

theorem headerRead_areas (hi : i < core.areaCount) :
    DumpHeader.areas (headerRead P disk) i = ⟨core.ramAreas i, (DumpHeader.areas disk i).sector⟩ := by
  have hareas : DumpHeader.areas (headerRead P disk) i = DumpHeader.areas disk i :=
    areas_congr headerRead_bytes (lt_of_lt_of_le hi hd.count_le)
  rw [hareas, ← hd.area hi]

end Header

/-! ## The chunks -/

theorem mem_issuedChunks {c : Chunk} (hc : c ∈ issuedChunks core pos) :
    ∃ i < core.areaCount, c ∈ areaWalk core pos i := by
  obtain ⟨i, hi, hci⟩ := List.mem_flatMap.mp ((upToFirst_sublist _).subset hc)
  exact ⟨i, List.mem_range.mp hi, hci⟩

/-- Where the loop goes on behind area `i`, its chunks are among them. -/
theorem areaWalk_subset (hends : LoopsEnd core) (hi : i < core.areaCount) :
    areaWalk core pos i ⊆ issuedChunks core pos := by
  intro c hc
  rw [issuedChunks, upToFirst_eq fun j hj => hends j (List.mem_range.mp hj)]
  exact List.mem_flatMap.mpr ⟨i, List.mem_range.mpr hi, hc⟩

theorem switchable_issuedChunks (hd : DumpOnDisk P.sizes core disk) :
    Switchable P (issuedChunks core (entryPos disk)) where
  len_le := by
    intro c hc
    obtain ⟨i, _, hci⟩ := mem_issuedChunks hc
    exact mem_chunksOf_len_le hci
  pos_mod := by
    intro c hc
    obtain ⟨i, _, hci⟩ := mem_issuedChunks hc
    exact Nat.mod_eq_zero_of_dvd
      (dvd_pos_of_mem_chunksOf (by decide) (Nat.dvd_mul_left _ (DumpHeader.sector disk i)) hci)
  apart_buf := by
    intro c hc x hx hin
    obtain ⟨i, hi, hci⟩ := mem_issuedChunks hc
    have hb := mem_chunksOf_bounds hci
    have hle := switchedSize_le hd hi
    have h1 := hin.1
    have h2 := hin.2
    exact hd.apart_core x ⟨i, hi, by omega, by omega⟩ hx.coreMemory
  separate := by
    refine List.Pairwise.sublist (upToFirst_sublist _) ?_
    refine chunksOf_flatMap_pairwise (fun i j hij hj => ?_) fun i j hij hj => ?_
    · have hapart := hd.disjoint i (by omega) j hj (by omega)
      have := switchedSize_le hd (i := i) (by omega)
      have := switchedSize_le hd hj
      omega
    · have hapart := hd.extent_apart (i := i) (by omega) hj (by omega)
      have := switchedSize_le hd (i := i) (by omega)
      have := switchedSize_le hd hj
      omega

/-! ## The loops -/

/-- A switch with a dump on the disk: read the header, switch the areas, finish. -/
theorem diskSwitchDump_areas (hd : DumpOnDisk P.sizes m.core m.disk)
    (hread : dev.fails m.issued = false) : diskSwitchDump P dev fuel m =
      (Prog.forEach (fun i => switchMemoryArea P dev fuel
          ⟨m.core.ramAreas i, (DumpHeader.areas m.disk i).sector⟩) (List.range m.core.areaCount) >>=
        fun _ => finishSwitch dev (headerRead P m.disk)) m.tick := by
  have hvalid : isDumpHeaderValid m.tick.core (headerRead P m.disk) = true := headerRead_accepted hd
  have hareas : Prog.forEach (fun i => switchMemoryArea P dev fuel
        ⟨m.core.ramAreas i, (DumpHeader.areas m.disk i).sector⟩) (List.range m.core.areaCount) =
      Prog.forEach (fun i => switchMemoryArea P dev fuel
        (DumpHeader.areas (headerRead P m.disk) i)) (List.range m.core.areaCount) := by
    refine funext (Prog.forEach_congr _ fun i hi t => ?_)
    rw [headerRead_areas hd (List.mem_range.mp hi)]
  rw [hareas, ← headerRead_areasSize (P := P) hd, diskSwitchDump,
    Prog.bind_ok (readDumpHeader_read hread), Prog.bind_get_apply, check,
    Prog.bind_check_true hvalid]
  rfl

/-- An area is exchanged in its chunks; if its loop ends, that is all. -/
theorem switchMemoryArea_walk (P : Platform) (dev : BlkDev) (hd : DumpOnDisk S core disk)
    (hfuel : switchFuel ≤ fuel) (hi : i < core.areaCount) : ∃ rest : Prog Err Machine Unit,
      switchMemoryArea P dev fuel ⟨core.ramAreas i, (DumpHeader.areas disk i).sector⟩ =
        (Prog.forEach (chunkBody P dev) (areaWalk core (entryPos disk) i) >>= fun _ => rest) ∧
      (LoopEnds core i → rest = pure ()) := by
  have hle := switchedSize_le hd hi
  have hsize : core.areaSize i < 2 ^ 64 := (core.ramAreas i).size.toNat_lt
  have hsector := DumpOnDisk.sector_lt disk i
  have hcount : pieceCount SWITCH_BUF_SIZE (switchedSize core i) ≤ fuel := by
    have hspace : SWITCH_BUF_SIZE * (switchFuel + 1) = 2 ^ 64 + SWITCH_BUF_SIZE := by decide
    have hlt : pieceCount SWITCH_BUF_SIZE (switchedSize core i) < switchFuel + 1 :=
      Nat.div_lt_of_lt_mul (by rw [hspace]; omega)
    omega
  obtain ⟨addr', sector', hend, hwalk⟩ := switchChunks_walk P dev
    ((core.ramAreas i).start + (core.ramAreas i).size) (core.areaStart i)
    (entryPos disk i) fuel 0 (switchedSize core i) (core.ramAreas i).start
    (DumpHeader.areas disk i).sector.toUInt64 rfl rfl (switchedSize_mod hd hi)
    (fun _ => ⟨by rw [UInt32.toNat_toUInt64, Nat.add_zero]; rfl, by
      simp only [entryPos, sectorPos, VIRTIO_BLK_SECTOR_SIZE]; omega⟩) hcount
  rw [switchMemoryArea, areaWalk, chunksOf]
  refine ⟨_, hwalk, fun hends => switchChunks_stop ?_⟩
  have hcover := le_pieceCount_mul (B := SWITCH_BUF_SIZE) (by decide) (switchedSize core i)
  have hstop : ((core.ramAreas i).start + (core.ramAreas i).size).toNat ≤
      core.areaStart i + switchedSize core i := by
    unfold switchedSize
    omega
  rw [Nat.add_zero, Nat.mod_eq_of_lt hends] at hend
  rw [UInt64.lt_iff_toNat_lt]
  omega

/-- So are the areas, one after the other, up to the first whose loop does not end. -/
theorem switchAreas_walk (P : Platform) (dev : BlkDev) (hd : DumpOnDisk S core disk)
    (hfuel : switchFuel ≤ fuel) (is : List ℕ) (his : ∀ i ∈ is, i < core.areaCount) :
    ∃ rest : Prog Err Machine Unit,
      Prog.forEach (fun i => switchMemoryArea P dev fuel
          ⟨core.ramAreas i, (DumpHeader.areas disk i).sector⟩) is =
        (Prog.forEach (chunkBody P dev)
          (upToFirst (LoopEnds core) (areaWalk core (entryPos disk)) is) >>= fun _ => rest) ∧
      ((∀ i ∈ is, LoopEnds core i) → rest = pure ()) := by
  induction is with
  | nil =>
    refine ⟨pure (), funext fun t => ?_, fun _ => rfl⟩
    rw [Prog.forEach_nil, upToFirst, Prog.bind_ok Prog.forEach_nil, Prog.pure_apply]
  | cons i is ih =>
    obtain ⟨first, hfirst, hend⟩ := switchMemoryArea_walk P dev hd hfuel
      (his i List.mem_cons_self)
    obtain ⟨rest, hrest, hpure⟩ := ih fun j hj => his j (List.mem_cons_of_mem _ hj)
    by_cases hends : LoopEnds core i
    · refine ⟨rest, funext fun t => ?_, fun hall => hpure fun j hj => hall j
        (List.mem_cons_of_mem _ hj)⟩
      rw [upToFirst_cons_of_pos hends, Prog.forEach_cons, hfirst, hend hends, Prog.bind_pure_unit,
        hrest, Prog.bind_congr_left (Prog.forEach_append _ _ t), Prog.seq_assoc]
    · refine ⟨first >>= fun _ => Prog.forEach (fun i => switchMemoryArea P dev fuel
          ⟨core.ramAreas i, (DumpHeader.areas disk i).sector⟩) is, funext fun t => ?_, fun hall =>
        absurd (hall i List.mem_cons_self) hends⟩
      rw [upToFirst_cons_of_neg hends, Prog.forEach_cons, hfirst, Prog.seq_assoc]

/-- **A switch exchanges the chunks** that it comes to before the address of its loop wraps; if it
never does, it then finishes. -/
theorem diskSwitchDump_walk (hd : DumpOnDisk P.sizes m.core m.disk) (hfuel : switchFuel ≤ fuel)
    (hread : dev.fails m.issued = false) : ∃ rest : Prog Err Machine Unit,
      diskSwitchDump P dev fuel m = (Prog.forEach (chunkBody P dev)
        (issuedChunks m.core (entryPos m.disk)) >>= fun _ => rest) m.tick ∧
      (LoopsEnd m.core → rest = finishSwitch dev (headerRead P m.disk)) := by
  obtain ⟨rest, hwalk, hpure⟩ := switchAreas_walk P dev hd hfuel
    (List.range m.core.areaCount) fun i hi => List.mem_range.mp hi
  refine ⟨rest >>= fun _ => finishSwitch dev (headerRead P m.disk), ?_, fun hends => ?_⟩
  · rw [diskSwitchDump_areas hd hread, hwalk, Prog.seq_assoc]
    rfl
  · rw [hpure fun i hi => hends i (List.mem_range.mp hi)]
    rfl

/-- After the areas, the vector of the dump is handed out; then the header is written, which may fail,
also for want of a saved vector. -/
theorem finishSwitch_run (dev : BlkDev) (header : DumpHeader) (t : Machine) :
    ∃ result switched, finishSwitch dev header t = some (result, switched) ∧
      switched.mem = t.mem ∧ switched.kernelWakingVector = DumpHeader.wakingVector header ∧
      (switched.disk = t.disk ∨ switched.disk =
        blit t.disk 0 (header.setWakingVector (t.core.savedVector t.mem)) 0 DUMP_HEADER_SIZE) ∧
      (result = .ok () ∨ t.core.savedVector t.mem = 0 ∨ dev.fails t.issued = true) := by
  rw [finishSwitch, Prog.bind_modify_apply, Prog.bind_get_apply]
  by_cases hsaved : t.core.savedVector t.mem = 0
  · have hfind : findOriginalWakingVector t.core t.mem = .error .ERR_INVALID := if_pos hsaved
    rw [hfind, Prog.lift_error_apply]
    exact ⟨_, _, rfl, rfl, rfl, Or.inl rfl, Or.inr (Or.inl hsaved)⟩
  · rw [findOriginalWakingVector_ok hsaved, Prog.lift_ok_apply]
    cases hfail : dev.fails t.issued with
    | true =>
      rw [writeDumpHeader_fail
        (m := { t with kernelWakingVector := DumpHeader.wakingVector header }) _ hfail]
      exact ⟨_, _, rfl, rfl, rfl, Or.inl rfl, Or.inr (Or.inr rfl)⟩
    | false =>
      rw [writeDumpHeader_ok
        (m := { t with kernelWakingVector := DumpHeader.wakingVector header }) _ hfail]
      exact ⟨_, _, rfl, rfl, rfl, Or.inr rfl, Or.inl rfl⟩

/-! ## What is lost -/

/-- From `m` to `t` a switch has not lost a stored byte: each is in its RAM area, or still in its extent.
The header on the disk is as it was, up to its vector: that is still there, or has been handed out, and
the saved one is in its place. -/
structure SafeSwitch (core : CoreHeader) (m t : Machine) : Prop where
  stored : ∀ i < core.areaCount, ∀ k < core.areaSize i,
    t.mem (core.areaStart i + k) = m.disk (entryPos m.disk i + k) ∨
      t.disk (entryPos m.disk i + k) = m.disk (entryPos m.disk i + k)
  header : ∀ x < DUMP_HEADER_SIZE, x < 4 ∨ 8 ≤ x → t.disk x = m.disk x
  vector : DumpHeader.wakingVector t.disk = DumpHeader.wakingVector m.disk ∨
    DumpHeader.wakingVector t.disk = core.savedVector t.mem ∧
      t.kernelWakingVector = DumpHeader.wakingVector m.disk

section Safe

variable {t : Machine} {cs pre post : List Chunk}

/-- A byte of an extent has been exchanged, or it is where it was. -/
theorem SwitchedUpTo.stored (h : SwitchedUpTo P m pre t) (hd : DumpOnDisk P.sizes m.core m.disk)
    (hsub : pre ⊆ issuedChunks m.core (entryPos m.disk)) (hi : i < m.core.areaCount) {k : ℕ}
    (hk : k < m.core.areaSize i) :
    t.mem (m.core.areaStart i + k) = m.disk (entryPos m.disk i + k) ∨
      t.disk (entryPos m.disk i + k) = m.disk (entryPos m.disk i + k) := by
  by_cases hin : ∃ c ∈ pre, c.InDisk (entryPos m.disk i + k)
  · obtain ⟨c, hc, hlow, hhigh⟩ := hin
    obtain ⟨j, hj, hcj⟩ := mem_issuedChunks (hsub hc)
    obtain ⟨o, haddr, hpos, hlen⟩ := offset_of_mem_chunksOf hcj
    have hle := switchedSize_le hd hj
    -- the extents are apart
    obtain rfl : j = i := by
      by_contra hne
      have hapart := hd.extent_apart hj hi hne
      omega
    have hcell := window_eq_window.mp (h.exchanged.mem_done c hc) (k - o) (by omega)
    rw [show c.addr + (k - o) = m.core.areaStart j + k by omega,
      show c.pos + (k - o) = entryPos m.disk j + k by omega] at hcell
    exact Or.inl hcell
  · exact Or.inr (h.exchanged.disk_frame _ fun c hc hx => hin ⟨c, hc, hx⟩)

/-- The extents lie behind the header. -/
theorem SwitchedUpTo.header (h : SwitchedUpTo P m pre t) (hd : DumpOnDisk P.sizes m.core m.disk)
    (hsub : pre ⊆ issuedChunks m.core (entryPos m.disk)) {x : ℕ} (hx : x < DUMP_HEADER_SIZE) :
    t.disk x = m.disk x := by
  refine h.exchanged.disk_frame x fun c hc hin => ?_
  obtain ⟨i, hi, hci⟩ := mem_issuedChunks (hsub hc)
  have hbounds := mem_chunksOf_bounds hci
  have hbehind := hd.extents.behind i (by rw [hd.areasSize]; exact hi)
  have hlow := hin.1
  simp only [entryPos, sectorPos, DUMP_HEADER_SECTORS_SIZE, DUMP_HEADER_SIZE,
    VIRTIO_BLK_SECTOR_SIZE] at hbounds hbehind hx
  omega

/-- An area that the loop goes over is exchanged as a whole. -/
theorem SwitchedUpTo.window_entry (h : SwitchedUpTo P m (issuedChunks m.core (entryPos m.disk)) t)
    (hends : LoopsEnd m.core) (hi : i < m.core.areaCount)
    (hlt : m.core.areaStart i + m.core.areaSize i < 2 ^ 64) :
    window t.mem (m.core.areaStart i) (m.core.areaSize i) =
      window m.disk (entryPos m.disk i) (m.core.areaSize i) := by
  refine window_eq_window.mpr ?_
  have hcells := (forall_chunksOf (B := SWITCH_BUF_SIZE) (by decide)
    (fun x y => t.mem x = m.disk y) (m.core.areaStart i) (entryPos m.disk i)
    (switchedSize m.core i)).mp fun c hc =>
      window_eq_window.mp (h.exchanged.mem_done c (areaWalk_subset hends hi hc))
  rwa [switchedSize_eq hlt] at hcells

/-- An area that the loop skips keeps its bytes. -/
theorem SwitchedUpTo.window_skipped (h : SwitchedUpTo P m (issuedChunks m.core (entryPos m.disk)) t)
    (hd : DumpOnDisk P.sizes m.core m.disk) (hi : i < m.core.areaCount)
    (htop : m.core.areaStart i + m.core.areaSize i = 2 ^ 64) :
    window t.mem (m.core.areaStart i) (m.core.areaSize i) =
      window m.mem (m.core.areaStart i) (m.core.areaSize i) := by
  refine window_eq_window.mpr fun k hk => h.exchanged.mem_frame _ ?_ fun c hc hin => ?_
  · exact fun hbuf => hd.apart_core _ ⟨i, hi, by omega, by omega⟩ hbuf.coreMemory
  · obtain ⟨j, hj, hcj⟩ := mem_issuedChunks hc
    have hb := mem_chunksOf_bounds hcj
    have h1 := hin.1
    have h2 := hin.2
    rcases eq_or_ne i j with rfl | hne
    · rw [switchedSize_top htop] at hb
      omega
    · have hapart := hd.disjoint i hi j hj hne
      have hle := switchedSize_le hd hj
      omega

/-- The header with another vector, written over the old one. -/
theorem headerRead_written (P : Platform) (disk disk' : ℕ → UInt8) (v : UInt32) :
    (∀ x < DUMP_HEADER_SIZE, x < 4 ∨ 8 ≤ x →
        blit disk' 0 ((headerRead P disk).setWakingVector v) 0 DUMP_HEADER_SIZE x = disk x) ∧
      DumpHeader.wakingVector
        (blit disk' 0 ((headerRead P disk).setWakingVector v) 0 DUMP_HEADER_SIZE) = v := by
  have hbytes := readDumpHeader_bytes disk' ((headerRead P disk).setWakingVector v)
  refine ⟨fun x hx hout => ?_, ?_⟩
  · rw [hbytes x hx, DumpHeader.setWakingVector, put32_outside (by omega), headerRead_bytes x hx]
  · have hvector : DumpHeader.wakingVector
        (blit disk' 0 ((headerRead P disk).setWakingVector v) 0 DUMP_HEADER_SIZE) =
          DumpHeader.wakingVector ((headerRead P disk).setWakingVector v) :=
      get32_congr_header hbytes (by omega)
    rw [hvector, wakingVector_setWakingVector]

/-- While the header is not written, a switch has lost nothing. -/
theorem SwitchedUpTo.safe (h : SwitchedUpTo P m pre t) (hd : DumpOnDisk P.sizes m.core m.disk)
    (hsub : pre ⊆ issuedChunks m.core (entryPos m.disk)) : SafeSwitch m.core m t where
  stored := fun _ hi _ hk => h.stored hd hsub hi hk
  header := fun _ hx _ => h.header hd hsub hx
  vector := Or.inl (get32_congr_header (fun _ hx => h.header hd hsub hx) (by omega))

/-- Nor has it at its end, whether the header has been written or not. -/
theorem SwitchedUpTo.safe_finish (h : SwitchedUpTo P m pre t) (hd : DumpOnDisk P.sizes m.core m.disk)
    (hsub : pre ⊆ issuedChunks m.core (entryPos m.disk)) {u : Machine} (hmem : u.mem = t.mem)
    (hkernel : u.kernelWakingVector = DumpHeader.wakingVector m.disk)
    (hdisk : u.disk = t.disk ∨ u.disk = blit t.disk 0
      ((headerRead P m.disk).setWakingVector (t.core.savedVector t.mem)) 0 DUMP_HEADER_SIZE) :
    SafeSwitch m.core m u := by
  have hsafe := h.safe hd hsub
  rcases hdisk with hdisk | hdisk
  · refine ⟨?_, ?_, Or.inl ?_⟩
    · rw [hmem, hdisk]
      exact hsafe.stored
    · rw [hdisk]
      exact hsafe.header
    · rw [hdisk]
      exact get32_congr_header (fun _ hx => h.header hd hsub hx) (by omega)
  · obtain ⟨hrest, hvector⟩ := headerRead_written P m.disk t.disk (t.core.savedVector t.mem)
    rw [← hdisk] at hrest hvector
    refine ⟨fun i hi k hk => ?_, hrest, Or.inr ⟨?_, hkernel⟩⟩
    · have hbehind := hd.extents.behind i (by rw [hd.areasSize]; exact hi)
      have hsame : u.disk (entryPos m.disk i + k) = t.disk (entryPos m.disk i + k) := by
        rw [hdisk, blit_outside]
        simp only [entryPos, sectorPos, DUMP_HEADER_SECTORS_SIZE, DUMP_HEADER_SIZE,
          VIRTIO_BLK_SECTOR_SIZE] at hbehind ⊢
        omega
      rw [hmem, hsame]
      exact hsafe.stored i hi k hk
    · rw [hvector, hmem, h.sameCore]

/-- **A switch with an accepted header** whose extents are apart, on a device that may fail any
request: it returns, no stored byte is lost, and the header is not overwritten; without an error every
area that does not end with the address space holds its extent. -/
theorem diskSwitchDump_safe (P : Platform) (dev : BlkDev) (hd : DumpOnDisk P.sizes m.core m.disk)
    (hends : LoopsEnd m.core) (hfuel : switchFuel ≤ fuel) :
    ∃ r t, diskSwitchDump P dev fuel m = some (r, t) ∧ SafeSwitch m.core m t ∧
      (r = .ok () → ∀ i < m.core.areaCount, m.core.areaStart i + m.core.areaSize i < 2 ^ 64 →
        window t.mem (m.core.areaStart i) (m.core.areaSize i) =
          window m.disk (entryPos m.disk i) (m.core.areaSize i)) := by
  cases hread : dev.fails m.issued with
  | true =>
    refine ⟨_, _, diskSwitchDump_stop_read hread, ⟨fun i _ k _ => Or.inr rfl, fun x _ _ => rfl,
      Or.inl rfl⟩, fun herr => by cases herr⟩
  | false =>
    obtain ⟨rest, hwalk, hrest⟩ := diskSwitchDump_walk (P := P) hd hfuel hread
    rw [hrest hends] at hwalk
    obtain ⟨r, t, pre, post, hsplit, hloop, hsw, hpost⟩ :=
      chunkLoop_run (switchable_issuedChunks hd) dev m.tick
    have hsw := hsw.of_tick
    have hsub : pre ⊆ issuedChunks m.core (entryPos m.disk) := by
      rw [hsplit]
      exact List.subset_append_left _ _
    cases r with
    | error e =>
      exact ⟨_, t, by rw [hwalk, Prog.bind_error hloop], hsw.safe hd hsub, fun herr => by cases herr⟩
    | ok u =>
      obtain ⟨result, switched, hfinish, hmem, hkernel, hdisk, -⟩ :=
        finishSwitch_run dev (headerRead P m.disk) t
      refine ⟨result, switched, by rw [hwalk, Prog.bind_ok hloop, hfinish],
        hsw.safe_finish hd hsub hmem (hkernel.trans headerRead_wakingVector) hdisk,
        fun _ i hi hlt => ?_⟩
      -- the loop has come to its end
      rw [hpost rfl, List.append_nil] at hsplit
      rw [← hsplit] at hsw
      rw [hmem]
      exact hsw.window_entry hends hi hlt

/-! ### Two pages of RAM -/

theorem twoPages_inRam {x : ℕ} (h : twoPages.InRam x) : 0x10000 ≤ x ∧ x < 0x21000 := by
  obtain ⟨i, hi, hlow, hhigh⟩ := h
  have hcount : twoPages.areaCount = 2 := rfl
  have hfirst : twoPages.areaStart 0 = 0x10000 ∧ twoPages.areaSize 0 = 0x1000 := by decide
  have hsecond : twoPages.areaStart 1 = 0x20000 ∧ twoPages.areaSize 1 = 0x1000 := by decide
  have hcases : i = 0 ∨ i = 1 := by omega
  rcases hcases with rfl | rfl <;> omega

theorem twoPages_geometry : Geometry sampleSizes twoPages where
  nonempty := by decide
  count_le := by decide
  aligned := by
    intro i hi
    have hcount : twoPages.ramAreasSize.toNat = 2 := rfl
    have hcases : i = 0 ∨ i = 1 := by omega
    rcases hcases with rfl | rfl <;> decide
  no_wrap := by decide
  disjoint := by decide
  apart_core := by
    intro x hx hcore
    have hram := twoPages_inRam hx
    have hown := coreMemory_sampleSizes hcore
    omega
  apart_facs := by
    intro x hx hfacs
    have hram := twoPages_inRam hx
    have hend : x < (0x3000 : UInt64).toNat + FACS_SIZE := hfacs.2
    simp only [FACS_SIZE, UInt64.reduceToNat] at hend
    omega
  facs_apart_core := by
    intro x hx hcore
    have hown := coreMemory_sampleSizes hcore
    have hstart : (0x3000 : UInt64).toNat ≤ x := hx.1
    have hend : x < (0x3000 : UInt64).toNat + FACS_SIZE := hx.2
    simp only [FACS_SIZE, UInt64.reduceToNat] at hstart hend
    omega
  fits := by
    unfold Fits
    decide

theorem twoPagesAt_onDisk : DumpOnDisk sampleSizes twoPages (twoPagesAt 4 12) :=
  twoPages_geometry.dumpOnDisk (twoPagesAt_valid 4 12) twoPagesAt_extentsApart

theorem twoPages_loopsEnd : LoopsEnd twoPages := by decide

/-- The second page cannot be read. -/
theorem diskSwitchDump_safe_twoPages :
    ∃ r t, diskSwitchDump samplePlatform (.failAt 3) switchFuel
        ⟨fun _ => 1, twoPagesAt 4 12, twoPages, 0, 0⟩ = some (r, t) ∧
      SafeSwitch twoPages ⟨fun _ => 1, twoPagesAt 4 12, twoPages, 0, 0⟩ t ∧
      (r = .ok () → ∀ i < twoPages.areaCount, twoPages.areaStart i + twoPages.areaSize i < 2 ^ 64 →
        window t.mem (twoPages.areaStart i) (twoPages.areaSize i) =
          window (twoPagesAt 4 12) (entryPos (twoPagesAt 4 12) i) (twoPages.areaSize i)) :=
  diskSwitchDump_safe (m := ⟨fun _ => 1, twoPagesAt 4 12, twoPages, 0, 0⟩) samplePlatform
    (.failAt 3) twoPagesAt_onDisk twoPages_loopsEnd le_rfl

end Safe

end SwitchOs
