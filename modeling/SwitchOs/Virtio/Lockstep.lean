import SwitchOs.Virtio.DumpAgrees
import SwitchOs.Core.HeapRuns

/-!
# `core_main` in lock step

Function by function, `dump.c` over the driver does what it does over the flat disk, as long as no
request asks for 4 GiB or more and the loop of `switch_memory_area` does not wrap. From this comes
`coreMain_alike`, of a whole execution of core, and `driven_simulates_twoSlot`: with its driver, its
heap and a device that takes its time, core is a two-slot machine.
-/

namespace SwitchOs

open Virtio DumpHeader CoreAction Prog

variable {W : Wiring} {D : DiskDevice} {P : Platform} {core : CoreHeader} {f : DumpCall}
  {h : DumpHeader} {s : Driven} {m : Machine} {v : UInt32} {fuel : ℕ} {E : Driven → Machine → Prop}

/-! ## The local header -/

theorem Between.areas_eq (hsm : Between W core f h s m) {i : ℕ} (hi : i < MAX_RAM_AREAS) :
    (Driven.headerOf W f s).areas i = h.areas i :=
  areas_congr hsm.held hi

theorem Between.areasSize_eq (hsm : Between W core f h s m) :
    (Driven.headerOf W f s).areasSize = h.areasSize :=
  get32_congr_header hsm.held (by omega)

theorem Between.wakingVector_eq (hsm : Between W core f h s m) :
    (Driven.headerOf W f s).wakingVector = h.wakingVector :=
  get32_congr_header hsm.held (by omega)

theorem Between.valid_eq (hsm : Between W core f h s m) (hg : Geometry W.sizes core) :
    isDumpHeaderValid s.core (Driven.headerOf W f s) = isDumpHeaderValid m.core h := by
  rw [hsm.header, hsm.header']
  exact isDumpHeaderValid_congr hg.count_le hsm.held

/-- Bytes outside the heap do not matter to the driver. -/
theorem Idle.setMem {L : Layout} {descs : List UInt16} {lists : ℕ → List UInt64} {hw : Hw}
    (hidle : Idle L descs lists hw) {mem : ℕ → UInt8} (hmem : ∀ x, InHeap L x → mem x = hw.heap.mem x) :
    Idle L descs lists { hw with heap := { hw.heap with mem := mem } } :=
  ⟨hidle.free, hidle.three, hidle.size_ge, hidle.heap.congr_outside hmem, hidle.block, hidle.seen,
    hidle.served⟩

/-- An assignment to the local header. -/
theorem AlikeIdle.setHeader (hsm : AlikeIdle W core s m) {header : DumpHeader}
    (heq : ∀ x < DUMP_HEADER_SIZE, header x = h x) :
    Between W core f h (Driven.setHeader W f header s) m where
  mem := by
    intro x hx
    rw [← hsm.mem x hx, Driven.setHeader, Driven.setMem_mem]
    refine blit_outside ?_
    by_contra hcon
    exact hx (Or.inr ⟨f, by unfold InHeader; omega⟩)
  disk := hsm.disk
  header := hsm.header
  header' := hsm.header'
  issued := hsm.issued
  vector := hsm.vector
  idle := by
    obtain ⟨descs, lists, hidle⟩ := hsm.idle
    refine ⟨descs, lists, Idle.setMem hidle fun x hx => blit_outside ?_⟩
    by_contra hcon
    exact W.header_heap f x (by unfold InHeader; omega) hx
  held := by
    intro x hx
    rw [Driven.headerOf, Driven.setHeader, Driven.setMem_mem, blit_add hx, Nat.zero_add, heq x hx]

/-! ## The store -/

/-- **`fill_dump_header`** on a local that holds what the stack held. -/
theorem fillHeader_alike (hg : Geometry W.sizes core) {stack : ℕ → UInt8}
    (hsm : Between W core f stack s m) :
    EndAlike (Alike W core) (fun _ h s m => Between W core f h s m ∧ ∃ v, LaidOut core v h)
      (Driven.fillHeader W f s) (Prog.lift (fillDumpHeader m.core m.mem stack) m) := by
  rw [Driven.fillHeader, Prog.bind_get_apply, hsm.header, hsm.header']
  have hv := hsm.savedVector hg
  rcases hfind : findOriginalWakingVector core m.mem with e | v
  · rw [fillDumpHeader_error _ hfind, fillDumpHeader_error _ (hv.trans hfind), Prog.lift_error_apply]
    exact .error hsm.toAlike
  · obtain ⟨header, hfill, hlaid⟩ := fillDumpHeader_laidOut stack hfind hg.count_le hg.aligned
    obtain ⟨header', hfill', heq⟩ := fillDumpHeader_congr (Driven.headerOf W f s) hv.symm hfill
    rw [hfill, hfill', Prog.lift_ok_apply]
    refine .ok ⟨hsm.toAlikeIdle.setHeader fun x hx => ?_, v, hlaid⟩
    exact (heq x (hsm.held x hx).symm).symm

/-- An area is a number of whole sectors. -/
theorem Geometry.size_mod (hg : Geometry W.sizes core) {i : ℕ} (hi : i < core.areaCount) :
    (core.ramAreas i).size % 512 = 0 := by
  rw [← UInt64.toNat_inj]
  simpa [VIRTIO_BLK_SECTOR_SIZE] using (hg.aligned i hi).2

/-- No byte of an area is private. -/
theorem Geometry.area_public (hg : Geometry W.sizes core) {i : ℕ} (hi : i < core.areaCount) (isRead : Bool)
    (sector : UInt64) :
    Request.Public W ⟨isRead, sector, (core.ramAreas i).start, (core.ramAreas i).size⟩ :=
  fun _ hx => hg.ram_public ⟨i, hi, hx⟩

/-- The store of an area that the driver makes: the low 32 bits of its length. -/
def storeCut (dev : BlkDev) (diskArea : DiskMemArea) : Core Unit :=
  writeVirtioBlk dev diskArea.sector.toNat diskArea.area.start.toNat
    (diskArea.area.size.toNat % 2 ^ 32)

theorem storeCut_eq (dev : BlkDev) {diskArea : DiskMemArea}
    (hlt : diskArea.area.size.toNat < 2 ^ 32) : storeArea dev diskArea = storeCut dev diskArea := by
  rw [storeArea, storeCut, Nat.mod_eq_of_lt hlt]

/-- `disk_store_dump` with `area` for the store of an area. -/
def storeWith (P : Platform) (dev : BlkDev) (area : DiskMemArea → Core Unit) : Core Unit := do
  let m ← Prog.get
  let header ← Prog.lift (fillDumpHeader m.core m.mem P.stack)
  Prog.forEach (fun i => area (header.areas i)) (List.range header.areasSize.toNat)
  writeDumpHeader dev header

theorem inStep_storeCut (hD : D.Serves) (hg : Geometry W.sizes core) (hl : LaidOut core v h) {i : ℕ}
    (hi : i < core.areaCount) :
    InStep (Between W core .store h) E (Driven.storeArea W D i) (storeCut D.blk (h.areas i))
      fun _ _ => Between W core .store h := by
  refine inStep_get_left fun s m hsm => ?_
  have hmax := hg.count_le
  simp only [hsm.areas_eq (lt_of_lt_of_le hi hmax), hl.areas i hi]
  exact inStep_write hD (hg.size_mod hi) (hg.area_public hi _ _) s m hsm

/-- **`disk_store_dump`**, against one whose store of an area does the same on the areas of core. -/
theorem diskStoreDump_alike (hD : D.Serves) (hg : Geometry W.sizes core) {area : DiskMemArea → Core Unit}
    (harea : ∀ i < core.areaCount, ∀ sector, area ⟨core.ramAreas i, sector⟩ =
      storeCut D.blk ⟨core.ramAreas i, sector⟩) (hsm : Between W core .store P.stack s m) :
    EndAlike (Alike W core) (fun _ _ => AlikeIdle W core) (Driven.diskStoreDump W D s)
      (storeWith P D.blk area m) := by
  rw [Driven.diskStoreDump, storeWith, Prog.bind_get_apply]
  refine (fillHeader_alike hg hsm).bind fun _ header s m ⟨hsm, v, hlaid⟩ => ?_
  rw [Prog.bind_get_apply, hsm.areasSize_eq]
  refine ((inStep_forEach _ fun i hi => ?_).bind fun _ _ => inStep_writeDumpHeader hD) s m hsm
  rw [List.mem_range, hlaid.toNat_areasSize] at hi
  rw [hlaid.areas i hi, harea i hi, ← hlaid.areas i hi]
  exact inStep_storeCut hD hg hlaid hi

/-! ## The switch -/

/-- The copy from `switch_buf` to RAM. -/
theorem Between.copy (hsm : Between W core f h s m) {addr n : ℕ} (hn : n ≤ SWITCH_BUF_SIZE)
    (hpublic : ∀ x, addr ≤ x → x < addr + n → ¬ W.Private x) :
    Between W core f h (s.setMem (copyCells s.mem addr W.switchBuf n))
      { m with mem := copyCells m.mem addr W.switchBuf n } where
  mem := copyCells_congr hsm.mem addr W.switchBuf fun i hi =>
    W.switchBuf_public (by omega) (by omega)
  disk := hsm.disk
  header := hsm.header
  header' := hsm.header'
  issued := hsm.issued
  vector := hsm.vector
  idle := by
    obtain ⟨descs, lists, hidle⟩ := hsm.idle
    refine ⟨descs, lists, Idle.setMem hidle fun x hx => copyCells_outside _ _ _ ?_⟩
    by_contra hcon
    exact hpublic x (by omega) (by omega) (Or.inl hx)
  held := by
    intro x hx
    rw [← hsm.held x hx, Driven.headerOf, Driven.setMem_mem, Driven.headerOf]
    refine copyCells_outside _ _ _ ?_
    by_contra hcon
    exact hpublic ((W.header f).toNat + x) (by omega) (by omega) (Or.inr ⟨f, by omega, by omega⟩)

section Switch

variable {stop addr sector : UInt64}

/-- One chunk, of whole sectors. -/
theorem inStep_switchChunk (hD : D.Serves) (hP : P.switchBuf = W.switchBuf) {readSize : UInt64}
    (hle : readSize.toNat ≤ SWITCH_BUF_SIZE) (hmod : readSize % 512 = 0)
    (hpublic : ∀ x, addr.toNat ≤ x → x < addr.toNat + readSize.toNat → ¬ W.Private x) :
    InStep (Between W core f h) E (Driven.switchChunk W D sector addr readSize)
      (switchChunk P D.blk sector.toNat addr.toNat readSize.toNat)
      fun _ _ => Between W core f h := by
  have hlt : readSize.toNat < 2 ^ 32 := by
    simp only [SWITCH_BUF_SIZE] at hle
    omega
  have hbuf : Request.Public W ⟨true, sector, UInt64.ofNat W.switchBuf, readSize⟩ := by
    rintro x ⟨h1, h2⟩
    simp only [W.toNat_switchBuf] at h1 h2
    exact W.switchBuf_public h1 (by omega)
  have hread : InStep (Between W core f h) E _ _ fun _ _ => Between W core f h :=
    inStep_read hD hmod hlt hbuf
  have hram : Request.Public W ⟨false, sector, addr, readSize⟩ := fun x hx => hpublic x hx.1 hx.2
  have hwrite : InStep (Between W core f h) E _ _ fun _ _ => Between W core f h :=
    inStep_write hD hmod hram
  rw [Nat.mod_eq_of_lt hlt] at hwrite
  rw [W.toNat_switchBuf] at hread
  rw [switchChunk, hP]
  refine hread.bind fun _ _ => hwrite.bind fun _ _ => inStep_modify fun s m hsm =>
    hsm.copy hle hpublic

/-- **The loop of `switch_memory_area`**, over addresses that are not private and do not wrap. -/
theorem inStep_switchChunks (hD : D.Serves) (hP : P.switchBuf = W.switchBuf) :
    ∀ (fuel : ℕ) (addr sector : UInt64),
      (∀ x, addr.toNat ≤ x → x < stop.toNat → ¬ W.Private x) →
      addr.toNat + pieceCount SWITCH_BUF_SIZE (stop.toNat - addr.toNat) * SWITCH_BUF_SIZE < 2 ^ 64 →
      InStep (Between W core f h) (Alike W core) (Driven.switchChunks W D stop fuel addr sector)
        (switchChunks P D.blk stop fuel addr sector) fun _ _ => Between W core f h := by
  intro fuel
  induction fuel with
  | zero =>
    intro addr sector _ _
    rw [Driven.switchChunks, switchChunks]
    split
    · exact inStep_diverge
    · exact inStep_pure fun _ _ hsm => hsm
  | succ fuel ih =>
    intro addr sector hpublic hfit
    rw [Driven.switchChunks, switchChunks]
    split
    case isFalse => exact inStep_pure fun _ _ hsm => hsm
    case isTrue hlt =>
      have hread := toNat_readSize hlt
      have hlt' := UInt64.lt_iff_toNat_lt.mp hlt
      refine (inStep_check (E := Alike W core) rfl fun s m hsm => hsm.toAlike).bind fun _ _ => ?_
      rintro s m ⟨hmod, hsm⟩
      refine ((inStep_switchChunk hD hP (by omega) (by simpa using hmod) fun x h1 h2 => ?_).bind
        fun _ _ => ?_) s m hsm
      · exact hpublic x h1 (by omega)
      · -- the next address is `SWITCH_BUF_SIZE` further on
        have hcount := pieceCount_succ (B := SWITCH_BUF_SIZE) (by decide)
          (show 0 < stop.toNat - addr.toNat by omega)
        rw [hcount, Nat.add_one_mul] at hfit
        have hnext : (addr + UInt64.ofNat SWITCH_BUF_SIZE).toNat = addr.toNat + SWITCH_BUF_SIZE := by
          rw [toNat_addr_next]
          exact Nat.mod_eq_of_lt (by omega)
        refine ih _ _ (fun x h1 h2 => hpublic x (by omega) h2) ?_
        rw [hnext, ← Nat.sub_sub]
        omega

/-- **`switch_memory_area`** of an area of the header. -/
theorem inStep_switchMemoryArea (hD : D.Serves) (hP : P.switchBuf = W.switchBuf) (hg : Geometry W.sizes core)
    (hfit : ChunksFit core) {i : ℕ} (hi : i < core.areaCount)
    (harea : (h.areas i).area = core.ramAreas i) :
    InStep (Between W core .switch h) (Alike W core) (Driven.switchMemoryArea W D fuel i)
      (switchMemoryArea P D.blk fuel (h.areas i)) fun _ _ => Between W core .switch h := by
  refine inStep_get_left fun s m hsm => ?_
  have hmax := hg.count_le
  have hfit := hfit i hi
  have hle := le_pieceCount_mul (B := SWITCH_BUF_SIZE) (by decide) (core.areaSize i)
  have hstop : ((core.ramAreas i).start + (core.ramAreas i).size).toNat =
      core.areaStart i + core.areaSize i := by
    rw [UInt64.toNat_add, ← CoreHeader.areaStart, ← CoreHeader.areaSize,
      Nat.mod_eq_of_lt (by omega)]
  simp only [hsm.areas_eq (lt_of_lt_of_le hi hmax), switchMemoryArea, harea]
  refine inStep_switchChunks hD hP fuel _ _ (fun x h1 h2 => ?_) ?_ s m hsm
  · exact hg.ram_public ⟨i, hi, h1, by omega⟩
  · rw [hstop, ← CoreHeader.areaStart, Nat.add_sub_cancel_left]
    exact hfit

/-- **`disk_switch_dump`**. -/
theorem diskSwitchDump_alike (hD : D.Serves) (hP : P.switchBuf = W.switchBuf) (hg : Geometry W.sizes core)
    (hfit : ChunksFit core) (hsm : AlikeIdle W core s m) :
    EndAlike (Alike W core) (fun _ _ => AlikeIdle W core) (Driven.diskSwitchDump W D fuel s)
      (diskSwitchDump P D.blk fuel m) := by
  obtain ⟨s', hrun, hsm'⟩ := readDumpHeader_run (f := .switch) hD hsm P.stack
  rw [Driven.diskSwitchDump, Prog.bind_ok hrun, diskSwitchDump,
    Prog.bind_ok (readDumpHeader_ok P rfl), Prog.bind_get_apply, Prog.bind_get_apply,
    hsm'.valid_eq hg, hsm'.areasSize_eq]
  generalize blit P.stack 0 m.disk 0 DUMP_HEADER_SIZE = header at hsm'
  refine EndAlike.bind (inStep_check rfl (fun s m hsm => hsm.toAlike) s' m.tick hsm')
    fun _ _ s m hchecked => ?_
  obtain ⟨hvalid, hsm⟩ := hchecked
  rw [hsm'.header', isDumpHeaderValid_iff] at hvalid
  obtain ⟨-, -, -, hsize, hareas⟩ := hvalid
  -- the areas
  have hloop : InStep (Between W core .switch header) (Alike W core)
      (Prog.forEach (Driven.switchMemoryArea W D fuel) (List.range (areasSize header).toNat))
      (Prog.forEach (fun i => switchMemoryArea P D.blk fuel (areas header i))
        (List.range (areasSize header).toNat)) fun _ _ => Between W core .switch header := by
    refine inStep_forEach _ fun i hi => ?_
    rw [List.mem_range, hsize] at hi
    exact inStep_switchMemoryArea hD hP hg hfit hi (hareas i hi).2
  refine (hloop s m hsm).bind fun _ _ s m hsm => ?_
  -- the vectors
  rw [Prog.bind_modify_apply, Prog.bind_modify_apply, Prog.bind_get_apply, Prog.bind_get_apply,
    hsm.wakingVector_eq]
  have hsm₁ : Between W core .switch header { s with kernelWakingVector := wakingVector header }
      { m with kernelWakingVector := wakingVector header } :=
    ⟨⟨⟨hsm.mem, hsm.disk, hsm.header, hsm.header', hsm.issued, rfl⟩, hsm.idle⟩, hsm.held⟩
  generalize { s with kernelWakingVector := wakingVector header } = s₁ at hsm₁
  generalize { m with kernelWakingVector := wakingVector header } = m₁ at hsm₁
  rw [hsm₁.header, hsm₁.header', hsm₁.savedVector hg]
  rcases findOriginalWakingVector core m₁.mem with e | w
  · exact .error hsm₁.toAlike
  · rw [Prog.lift_ok_apply, Prog.lift_ok_apply, Prog.bind_modify_apply]
    refine inStep_writeDumpHeader hD _ _ (hsm₁.toAlikeIdle.setHeader fun x hx => ?_)
    simp only [DumpHeader.setWakingVector, put32, putLE, blit, hsm₁.held x hx]

end Switch

/-! ## `core_main` -/

/-- **`does_disk_contain_dump`**. -/
theorem doesDiskContainDump_run (hD : D.Serves) (hg : Geometry W.sizes core) (hsm : AlikeIdle W core s m) :
    ∃ s', Driven.doesDiskContainDump W D s = some (.ok (isDumpHeaderValid core m.disk), s') ∧
      AlikeIdle W core s' m.tick := by
  obtain ⟨s', hrun, hsm'⟩ := readDumpHeader_run (f := .contains) hD hsm m.disk
  refine ⟨s', ?_, hsm'.toAlikeIdle⟩
  have hbytes : ∀ x < DUMP_HEADER_SIZE, Driven.headerOf W .contains s' x = m.disk x := by
    intro x hx
    have hbyte : blit m.disk 0 m.disk 0 DUMP_HEADER_SIZE (0 + x) = m.disk (0 + x) := blit_add hx
    rw [hsm'.held x hx]
    rwa [Nat.zero_add] at hbyte
  rw [Driven.doesDiskContainDump, Prog.bind_ok hrun, Prog.bind_get_apply, Prog.pure_apply,
    hsm'.header, isDumpHeaderValid_congr hg.count_le hbytes]

/-- A request that the driver can serve whole: less than 4 GiB for each area of a store, and a loop of
`switch_memory_area` that does not wrap for a switch. -/
structure Servable (core : CoreHeader) (disk : ℕ → UInt8) : Prop where
  store : core.action = CORE_ACTION_STORE.toUInt32 →
    ∀ i < core.areaCount, core.areaSize i < 2 ^ 32
  switch : core.action = CORE_ACTION_SWITCH.toUInt32 → isDumpHeaderValid core disk = true →
    ChunksFit core

theorem coreAction_alike (hD : D.Serves) (hP : P.switchBuf = W.switchBuf) (hg : Geometry W.sizes core)
    (hserv : Servable core m.disk) (hsm : Between W core .store P.stack s m) :
    EndAlike (Alike W core) (fun _ _ => Alike W core) (Driven.coreAction W D fuel s)
      (coreAction P D.blk fuel m) := by
  have hweaken : ∀ {x : DrivenCore Unit} {y : Core Unit} {s m},
      EndAlike (Alike W core) (fun _ _ => AlikeIdle W core) (x s) (y m) →
      EndAlike (Alike W core) (fun _ _ => Alike W core) (x s) (y m) :=
    fun hend => hend.mono fun _ _ _ _ hsm => hsm.toAlike
  rw [Driven.coreAction, Prog.bind_get_apply, hsm.header]
  by_cases hstore : core.action = CORE_ACTION_STORE.toUInt32
  · rw [if_pos hstore, coreAction_store (by rw [hsm.header', hstore])]
    exact hweaken (diskStoreDump_alike hD hg
      (fun i hi _ => storeCut_eq D.blk (hserv.store hstore i hi)) hsm)
  · rw [if_neg hstore]
    by_cases hswitch : core.action = CORE_ACTION_SWITCH.toUInt32
    · obtain ⟨s', hrun, hsm'⟩ := doesDiskContainDump_run hD hg hsm.toAlikeIdle
      rw [if_pos hswitch, Prog.bind_ok hrun, coreAction_switch (by rw [hsm.header', hswitch])
        (by rw [hsm.header']; exact hg.count_le) rfl, hsm.header']
      cases hvalid : isDumpHeaderValid core m.disk with
      | true =>
        rw [check, Prog.bind_check_true rfl, if_pos rfl]
        exact hweaken (diskSwitchDump_alike hD hP hg (hserv.switch hswitch hvalid) hsm')
      | false =>
        rw [check, Prog.bind_check_false rfl, if_neg Bool.false_ne_true]
        exact .error hsm'.toAlike
    · rw [if_neg hswitch, coreAction_other (by rwa [hsm.header']) (by rwa [hsm.header'])]
      exact .error hsm.toAlike

/-- Core's heap is a heap, and the memory outside of it is that of `mem`. -/
def HeapKept (L : Layout) (mem : ℕ → UInt8) (hw : Hw) : Prop :=
  (∃ lists, HeapLists L hw.heap lists) ∧ ∀ x, ¬ InHeap L x → hw.heap.mem x = mem x

theorem preserves_calloc (L : Layout) (mem : ℕ → UInt8) (count size : ℕ) :
    Prog.Preserves (HeapKept L mem) (calloc count size) := by
  rintro hw r hw' ⟨⟨lists, hlists⟩, hmem⟩ hrun
  rw [calloc_apply] at hrun
  obtain ⟨-, rfl⟩ := Prod.mk.inj (Option.some.inj hrun)
  obtain ⟨hlists', hout⟩ := coreCalloc_outside count size hlists
  exact ⟨hlists', fun x hx => (hout x hx).trans (hmem x hx)⟩

theorem preserves_initVirtioBlkQueue (L : Layout) (mem : ℕ → UInt8) (queueSize : UInt16) :
    Prog.Preserves (HeapKept L mem) (initVirtioBlkQueue queueSize) := by
  unfold initVirtioBlkQueue
  refine Prog.preserves_bind (Prog.preserves_check _ _) fun _ => ?_
  refine Prog.preserves_bind (preserves_calloc L mem _ _) fun _ => ?_
  refine Prog.preserves_bind (Prog.preserves_check _ _) fun _ => ?_
  refine Prog.preserves_bind (preserves_calloc L mem _ _) fun _ => ?_
  refine Prog.preserves_bind (Prog.preserves_check _ _) fun _ => ?_
  refine Prog.preserves_bind (preserves_calloc L mem _ _) fun _ => ?_
  refine Prog.preserves_bind (Prog.preserves_check _ _) fun _ => ?_
  exact Prog.preserves_modify fun _ hkept => hkept

/-- The queue that `init_virtio_blk_dev` sets up. -/
theorem initVirtioBlkQueue_run {L : Layout} {queueSize : UInt16} {heap : Heap} {hw : Hw}
    (hmin : 3 ≤ queueSize.toNat) (hmax : queueSize.toNat ≤ 512)
    (hheap : hw.heap = coreInitAllocators L heap) :
    ∃ hw', initVirtioBlkQueue queueSize hw = some (.ok (), hw') ∧ hw'.disk = hw.disk ∧
      (∃ descs lists, Idle L descs lists hw') ∧
      ∀ x, ¬ InHeap L x → hw'.heap.mem x = hw.heap.mem x := by
  obtain ⟨hw', -, hrun, hdisk, -, -⟩ := initVirtioBlkQueue_ok (by omega) hmax hheap
  obtain ⟨lists, hlists, -⟩ := coreInitAllocators_lists L heap
  have hkept : HeapKept L hw.heap.mem hw := ⟨⟨lists, by rwa [hheap]⟩, fun _ _ => rfl⟩
  exact ⟨hw', hrun, hdisk, initVirtioBlkQueue_idle hmin hheap hrun,
    (preserves_initVirtioBlkQueue L _ _ hw _ hw' hkept hrun).2⟩

/-- Another heap, on a machine whose driver has not been set up. -/
theorem Alike.setHeap (halike : Alike W core s m) {heap : Heap}
    (hmem : ∀ x, ¬ InHeap W.layout x → heap.mem x = s.mem x) : Alike W core (s.setHeap heap) m where
  mem := fun x hx => (hmem x fun hheap => hx (Or.inl hheap)).trans (halike.mem x hx)
  disk := halike.disk
  header := halike.header
  header' := halike.header'
  issued := halike.issued
  vector := halike.vector

theorem Held.setHeap (hheld : Held W f h s) {heap : Heap}
    (hmem : ∀ x, ¬ InHeap W.layout x → heap.mem x = s.mem x) : Held W f h (s.setHeap heap) :=
  fun x hx => (hmem _ (W.header_heap f _ ⟨by omega, by omega⟩)).trans (hheld x hx)

/-- The driver is set up; the local header of the store has not been touched. -/
theorem Alike.initQueue {hw : Hw} (halike : Alike W core s m) (hdisk : hw.disk = s.hw.disk)
    (hidle : ∃ descs lists, Idle W.layout descs lists hw)
    (hmem : ∀ x, ¬ InHeap W.layout x → hw.heap.mem x = s.hw.heap.mem x)
    (hheld : Held W f h s) : Between W core f h { s with hw := hw } m where
  mem := fun x hx => (hmem x fun hheap => hx (Or.inl hheap)).trans (halike.mem x hx)
  disk := hdisk.trans halike.disk
  header := halike.header
  header' := halike.header'
  issued := halike.issued
  vector := halike.vector
  idle := hidle
  held := fun x hx => (hmem _ (W.header_heap f _ ⟨by omega, by omega⟩)).trans (hheld x hx)

/-- `core_main` up to its `cleanup` label, with `act` for its action. -/
def coreMainWith (dev : BlkDev) (act : Core Unit) : Core Unit := do
  let m ← Prog.get
  check (isCoreHeaderValid m.core)
  let wakingVector ← Prog.lift (findOriginalWakingVector m.core m.mem)
  Prog.modify fun m => { m with kernelWakingVector := wakingVector }
  check dev.initOk
  act

/-- Two executions of core end alike if their actions do. -/
theorem coreMainBody_alike (hmin : 3 ≤ D.queueSize.toNat) (hmax : D.queueSize.toNat ≤ 512)
    (hg : Geometry W.sizes core) (halike : Alike W core s m) {stack : ℕ → UInt8}
    (hheld : Held W .store stack s) {act : Core Unit}
    (hact : ∀ s' m', Between W core .store stack s' m' → m'.disk = m.disk →
      EndAlike (Alike W core) (fun _ _ => Alike W core) (Driven.coreAction W D fuel s') (act m')) :
    EndAlike (Alike W core) (fun _ _ => Alike W core) (Driven.coreMainBody W D fuel s)
      (coreMainWith D.blk act m) := by
  have houtside : ∀ x, ¬ InHeap W.layout x →
      (coreInitAllocators W.layout s.hw.heap).mem x = s.mem x :=
    fun x hx => coreInitAllocators_outside s.hw.heap hx
  have hinit := halike.setHeap houtside
  have hheld := hheld.setHeap houtside
  obtain ⟨heap, hheap⟩ : ∃ heap, heap = coreInitAllocators W.layout s.hw.heap := ⟨_, rfl⟩
  rw [← hheap] at hinit hheld
  rw [Driven.coreMainBody, Prog.bind_modify_apply, Prog.bind_get_apply, coreMainWith,
    Prog.bind_get_apply, Driven.initAllocators, ← hheap]
  have hheap : ∃ h, (s.setHeap heap).hw.heap = coreInitAllocators W.layout h := ⟨_, hheap⟩
  generalize s.setHeap heap = s₁ at hinit hheap hheld ⊢
  obtain ⟨_, hheap⟩ := hheap
  rw [hinit.header, hinit.header']
  cases isCoreHeaderValid core with
  | false => exact .error hinit
  | true =>
    rw [check, check, Prog.bind_check_true rfl, Prog.bind_check_true rfl, hinit.savedVector hg]
    rcases findOriginalWakingVector core m.mem with e | v
    · exact .error hinit
    · rw [Prog.lift_ok_apply, Prog.lift_ok_apply, Prog.bind_modify_apply, Prog.bind_modify_apply]
      have hfound : Alike W core { s₁ with kernelWakingVector := v }
          { m with kernelWakingVector := v } :=
        ⟨hinit.mem, hinit.disk, hinit.header, hinit.header', hinit.issued, rfl⟩
      have hinitOk : D.blk.initOk = D.found := rfl
      rw [hinitOk]
      cases D.found with
      | false => exact .error hfound
      | true =>
        obtain ⟨hw, hrun, hdisk, hidle, hmem⟩ := initVirtioBlkQueue_run hmin hmax hheap
        have hdriven : Driven.onHw (initVirtioBlkQueue D.queueSize)
            { s₁ with kernelWakingVector := v } = some (.ok (), { s₁ with
              hw := hw, kernelWakingVector := v }) := Driven.onHw_eq hrun
        rw [check, Prog.bind_check_true rfl, Prog.bind_ok hdriven]
        exact hact _ _ (hfound.initQueue hdisk hidle hmem hheld) rfl

/-- **An execution of core** over the driver is one over the flat disk: they end alike, in memory (but
for the private bytes), disk and the vector that the kernel is resumed with. -/
theorem coreMain_alike (fuel : ℕ) (hD : D.Serves) (hmin : 3 ≤ D.queueSize.toNat)
    (hmax : D.queueSize.toNat ≤ 512) (hg : Geometry W.sizes core) (hserv : Servable core m.disk)
    (halike : Alike W core s m) :
    Option.Rel (Alike W core) (Driven.coreMain W D fuel s)
      (coreMain (W.platform s) D.blk fuel m) := by
  have hheld : Held W .store (W.platform s).stack
      { s with issued := 0, kernelWakingVector := 0 } := fun _ _ => rfl
  have hstart : Alike W core { s with issued := 0, kernelWakingVector := 0 }
      { m with issued := 0, kernelWakingVector := 0 } :=
    ⟨halike.mem, halike.disk, halike.header, halike.header', rfl, rfl⟩
  rw [Driven.coreMain, coreMain]
  refine (coreMainBody_alike hmin hmax hg hstart hheld fun s' m' hsm hdisk => ?_).states
  refine coreAction_alike hD rfl hg ?_ hsm
  rwa [hdisk]

end SwitchOs
