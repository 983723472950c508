import SwitchOs.Core.StoreSpec

/-!
# What a switch does to memory and disk

`switch_memory_area` walks its area with a 64-bit address that grows by `SWITCH_BUF_SIZE`. As long
as that address does not run past the end of the address space (`ChunksFit`) the loop is a loop over
the chunks of the area (`switchChunks_eq`), each of which exchanges its two windows
(`chunkBody_ok`) or, where a request fails, leaves them (`chunkBody_stop`). From these comes the
complete run of `disk_switch_dump` (`diskSwitchDump_ok`).
-/

namespace SwitchOs

open DumpHeader

/-- The address of the loop of `switch_memory_area` stays below 2^64, one step past the last chunk
included. -/
def ChunksFit (core : CoreHeader) : Prop :=
  ∀ i < core.areaCount,
    core.areaStart i + pieceCount SWITCH_BUF_SIZE (core.areaSize i) * SWITCH_BUF_SIZE < 2 ^ 64

/-- More iterations than there are 64-bit addresses `SWITCH_BUF_SIZE` apart. -/
def switchFuel : ℕ := 2 ^ 41

namespace Platform

/-- The byte `x` lies in `switch_buf`. -/
def InSwitchBuf (P : Platform) (x : ℕ) : Prop :=
  P.switchBuf ≤ x ∧ x < P.switchBuf + SWITCH_BUF_SIZE

theorem InSwitchBuf.coreMemory {P : Platform} {x : ℕ} (h : P.InSwitchBuf x) :
    CoreMemory P.sizes x := by
  have h1 := P.switchBuf_ge
  have h2 := P.switchBuf_le
  unfold InSwitchBuf at h
  exact Or.inl ⟨by omega, by omega⟩

end Platform

variable {core : CoreHeader} {P : Platform} {dev : BlkDev} {m : Machine}

/-! ## One chunk -/

/-- The body of the loop of `switch_memory_area` on a chunk. -/
def chunkBody (P : Platform) (dev : BlkDev) (c : Chunk) : Core Unit :=
  switchChunk P dev (c.pos / VIRTIO_BLK_SECTOR_SIZE) c.addr c.len

/-- From `m` to `m'` the chunks `done` have been exchanged and nothing but `switch_buf` and the
request counter has changed. -/
structure SwitchedUpTo (P : Platform) (m : Machine) (done : List Chunk) (m' : Machine) : Prop where
  sameCore : m'.core = m.core
  sameVector : m'.kernelWakingVector = m.kernelWakingVector
  exchanged : Exchanged P.InSwitchBuf m.mem m.disk m'.mem m'.disk done

theorem SwitchedUpTo.refl : SwitchedUpTo P m [] m :=
  ⟨rfl, rfl, .nil (fun _ _ => rfl) rfl⟩

theorem sectorPos_div {pos : ℕ} (h : pos % VIRTIO_BLK_SECTOR_SIZE = 0) :
    sectorPos (pos / VIRTIO_BLK_SECTOR_SIZE) = pos :=
  Nat.div_mul_cancel (Nat.dvd_of_mod_eq_zero h)

/-- Disk to `switch_buf`, RAM to disk, `switch_buf` to RAM exchanges the two windows. -/
theorem exchanged_chunk {mem disk : ℕ → UInt8} {c : Chunk} (hlen : c.len ≤ SWITCH_BUF_SIZE)
    (hbuf : ∀ x, P.InSwitchBuf x → ¬ c.InMem x) :
    Exchanged P.InSwitchBuf mem disk
      (copyCells (blit mem P.switchBuf disk c.pos c.len) c.addr P.switchBuf c.len)
      (blit disk c.pos (blit mem P.switchBuf disk c.pos c.len) c.addr c.len) [c] := by
  have hapart : c.len = 0 ∨ c.addr + c.len ≤ P.switchBuf ∨ P.switchBuf + c.len ≤ c.addr := by
    by_contra hcon
    have h1 := hbuf (max c.addr P.switchBuf)
    simp only [Platform.InSwitchBuf, Chunk.InMem] at h1
    omega
  rcases Nat.eq_zero_or_pos c.len with hz | hpos
  · simp only [hz, blit_zero, copyCells]
    refine ⟨?_, ?_, fun _ _ _ => rfl, fun _ _ => rfl⟩ <;> simp [hz, window]
  · rw [copyCells_eq_blit _ _ _ _ (by omega)]
    refine ⟨?_, ?_, ?_, ?_⟩
    · simp only [List.mem_singleton, forall_eq]
      rw [window_blit, window_blit]
    · simp only [List.mem_singleton, forall_eq]
      rw [window_blit, window_blit_outside (by omega)]
    · intro x hx hout
      have hc := hout c (by simp)
      simp only [Platform.InSwitchBuf, Chunk.InMem] at hx hc
      rw [blit_outside (by omega), blit_outside (by omega)]
    · intro x hout
      have hc := hout c (by simp)
      simp only [Chunk.InDisk] at hc
      rw [blit_outside (by omega)]

/-- The machine after the exchange of one chunk. -/
def Machine.afterChunk (P : Platform) (c : Chunk) (m : Machine) : Machine :=
  { m with
    mem := copyCells (blit m.mem P.switchBuf m.disk c.pos c.len) c.addr P.switchBuf c.len
    disk := blit m.disk c.pos (blit m.mem P.switchBuf m.disk c.pos c.len) c.addr c.len
    issued := m.issued + 2 }

theorem chunkBody_ok {c : Chunk} (hpos : c.pos % VIRTIO_BLK_SECTOR_SIZE = 0)
    (h0 : dev.fails m.issued = false) (h1 : dev.fails (m.issued + 1) = false) :
    chunkBody P dev c m = some (.ok (), m.afterChunk P c) := by
  rw [chunkBody, switchChunk, readVirtioBlk, Prog.bind_ok (blkRequest_ok h0), writeVirtioBlk,
    Prog.bind_ok (blkRequest_ok h1), sectorPos_div hpos]
  rfl

/-- Where the read or the write of a chunk fails, only `switch_buf` may have changed. -/
theorem chunkBody_stop {c : Chunk} (hlen : c.len ≤ SWITCH_BUF_SIZE)
    (hfail : dev.fails m.issued = true ∨
      dev.fails m.issued = false ∧ dev.fails (m.issued + 1) = true) :
    ∃ m', chunkBody P dev c m = some (.error .ERR_INVALID, m') ∧ SwitchedUpTo P m [] m' := by
  rcases hfail with hread | ⟨hread, hwrite⟩
  · refine ⟨m.tick, ?_, rfl, rfl, .nil (fun _ _ => rfl) rfl⟩
    rw [chunkBody, switchChunk, readVirtioBlk, Prog.bind_error (blkRequest_fail hread)]
  · refine ⟨Machine.tick { m.tick with
      mem := blit m.mem P.switchBuf m.disk (sectorPos (c.pos / VIRTIO_BLK_SECTOR_SIZE)) c.len },
      ?_, rfl, rfl, .nil (fun x hx => ?_) rfl⟩
    · rw [chunkBody, switchChunk, readVirtioBlk, Prog.bind_ok (blkRequest_ok hread), writeVirtioBlk,
        Prog.bind_error (blkRequest_fail hwrite)]
      rfl
    · simp only [Platform.InSwitchBuf] at hx
      exact blit_outside (by omega)

/-! ## Many chunks -/

theorem SwitchedUpTo.append {done more : List Chunk} {m' m'' : Machine}
    (h : SwitchedUpTo P m done m') (h' : SwitchedUpTo P m' more m'')
    (hsep : ∀ c ∈ done, ∀ d ∈ more, c.Separate d)
    (hbuf : ∀ c ∈ done ++ more, ∀ x, P.InSwitchBuf x → ¬ c.InMem x) :
    SwitchedUpTo P m (done ++ more) m'' :=
  ⟨h'.sameCore.trans h.sameCore, h'.sameVector.trans h.sameVector,
    h.exchanged.append h'.exchanged hsep hbuf⟩

/-- Chunks that a run exchanges one by one: whole sectors, no longer than `switch_buf`, meeting
neither each other nor `switch_buf`. -/
structure Switchable (P : Platform) (cs : List Chunk) : Prop where
  len_le : ∀ c ∈ cs, c.len ≤ SWITCH_BUF_SIZE
  pos_mod : ∀ c ∈ cs, c.pos % VIRTIO_BLK_SECTOR_SIZE = 0
  apart_buf : ∀ c ∈ cs, ∀ x, P.InSwitchBuf x → ¬ c.InMem x
  separate : cs.Pairwise Chunk.Separate

theorem Switchable.of_append {cs ds : List Chunk} (h : Switchable P (cs ++ ds)) :
    Switchable P cs where
  len_le := fun c hc => h.len_le c (List.mem_append_left _ hc)
  pos_mod := fun c hc => h.pos_mod c (List.mem_append_left _ hc)
  apart_buf := fun c hc => h.apart_buf c (List.mem_append_left _ hc)
  separate := (List.pairwise_append.mp h.separate).1

/-- One chunk more in the loop over the chunks. -/
theorem chunkBody_step {done rest : List Chunk} {c : Chunk}
    (hs : Switchable P (done ++ c :: rest)) {t : Machine} (ht : SwitchedUpTo P m done t)
    (h0 : dev.fails t.issued = false) (h1 : dev.fails (t.issued + 1) = false) :
    chunkBody P dev c t = some (.ok (), t.afterChunk P c) ∧
      SwitchedUpTo P m (done ++ [c]) (t.afterChunk P c) := by
  have hc : c ∈ done ++ c :: rest := by simp
  refine ⟨chunkBody_ok (hs.pos_mod c hc) h0 h1, ?_⟩
  have hone : SwitchedUpTo P t [c] (t.afterChunk P c) :=
    ⟨rfl, rfl, exchanged_chunk (hs.len_le c hc) (hs.apart_buf c hc)⟩
  refine ht.append hone ?_ ?_
  · intro d hd e he
    rw [List.mem_singleton] at he
    subst he
    exact (List.pairwise_append.mp hs.separate).2.2 d hd e (by simp)
  · intro d hd
    refine hs.apart_buf d ?_
    rw [List.append_cons]
    exact List.mem_append_left rest hd

/-- The loop over chunks, where no request fails. -/
theorem chunkLoop_ok {cs : List Chunk} (hs : Switchable P cs)
    (hok : ∀ r < 2 * cs.length, dev.fails (m.issued + r) = false) :
    ∃ m', Prog.forEach (chunkBody P dev) cs m = some (.ok (), m') ∧ SwitchedUpTo P m cs m' ∧
      m'.issued = m.issued + 2 * cs.length := by
  refine Prog.forEach_ok
    (fun done t => SwitchedUpTo P m done t ∧ t.issued = m.issued + 2 * done.length) cs [] m
    ⟨.refl, rfl⟩ fun pre c post t hcs ht => ?_
  subst hcs
  simp only [List.nil_append, List.length_append, List.length_cons] at ht hok ⊢
  obtain ⟨hrun, hsw⟩ := chunkBody_step hs ht.1
    (by rw [ht.2]; exact hok _ (by omega)) (by rw [ht.2, Nat.add_assoc]; exact hok _ (by omega))
  refine ⟨_, hrun, hsw, ?_⟩
  rw [Machine.afterChunk, ht.2]
  simp only [List.length_nil]
  omega

/-- The loop over chunks, where a request of chunk `c` is the first to fail. -/
theorem chunkLoop_stop {pre post : List Chunk} {c : Chunk} (hs : Switchable P (pre ++ c :: post))
    (hok : ∀ r < 2 * pre.length, dev.fails (m.issued + r) = false)
    (hfail : dev.fails (m.issued + 2 * pre.length) = true ∨
      dev.fails (m.issued + 2 * pre.length) = false ∧
        dev.fails (m.issued + 2 * pre.length + 1) = true) :
    ∃ m', Prog.forEach (chunkBody P dev) (pre ++ c :: post) m = some (.error .ERR_INVALID, m') ∧
      SwitchedUpTo P m pre m' := by
  obtain ⟨t, hrun, ht, hissued⟩ := chunkLoop_ok hs.of_append hok
  obtain ⟨t', hbody, ht'⟩ := chunkBody_stop (P := P) (hs.len_le c (by simp))
    (by rw [hissued]; exact hfail)
  refine ⟨t', ?_, ?_⟩
  · rw [Prog.forEach_append, Prog.bind_ok hrun, Prog.forEach_cons, Prog.bind_error hbody]
  · have h := ht.append ht' (fun _ _ _ hd => absurd hd (by simp))
      (by simpa using hs.of_append.apart_buf)
    simpa using h

/-- The loop over chunks, whatever fails: it exchanges the chunks up to one, and all of them if it
returns without an error. -/
theorem chunkLoop_run {cs : List Chunk} (hs : Switchable P cs) (dev : BlkDev) (m : Machine) :
    ∃ r m' pre post, cs = pre ++ post ∧ Prog.forEach (chunkBody P dev) cs m = some (r, m') ∧
      SwitchedUpTo P m pre m' ∧ (r = .ok () → post = []) := by
  refine Prog.forEach_stops (SwitchedUpTo P m) cs [] m .refl fun pre c post t hcs ht => ?_
  subst hcs
  rw [List.nil_append] at ht ⊢
  by_cases hfail : dev.fails t.issued = true ∨
      dev.fails t.issued = false ∧ dev.fails (t.issued + 1) = true
  · obtain ⟨t', hbody, ht'⟩ := chunkBody_stop (P := P) (hs.len_le c (by simp)) hfail
    refine ⟨.error .ERR_INVALID, t', hbody, fun herr => (by cases herr), fun _ => ?_⟩
    have h := ht.append ht' (fun _ _ _ hd => absurd hd (by simp))
      (by simpa using hs.of_append.apart_buf)
    rwa [List.append_nil] at h
  · have hread : dev.fails t.issued = false := by simpa using fun h => hfail (Or.inl h)
    have hwrite : dev.fails (t.issued + 1) = false := by
      simpa using fun h => hfail (Or.inr ⟨hread, h⟩)
    obtain ⟨hrun, hsw⟩ := chunkBody_step hs ht hread hwrite
    exact ⟨_, _, hrun, fun _ => hsw, fun herr => absurd rfl herr⟩

/-! ## The loop of `switch_memory_area` -/

section Loop

variable {stop addr sector : UInt64} {fuel : ℕ}

theorem switchChunks_stop (h : ¬ addr < stop) :
    switchChunks P dev stop fuel addr sector = pure () := by
  cases fuel <;> simp [switchChunks, h]

theorem switchChunks_zero (h : addr < stop) :
    switchChunks P dev stop 0 addr sector = Prog.diverge := by
  simp [switchChunks, h]

theorem switchChunks_succ (h : addr < stop) :
    switchChunks P dev stop (fuel + 1) addr sector = (do
      check (min (UInt64.ofNat SWITCH_BUF_SIZE) (stop - addr) % 512 == 0)
      switchChunk P dev sector.toNat addr.toNat
        (min (UInt64.ofNat SWITCH_BUF_SIZE) (stop - addr)).toNat
      switchChunks P dev stop fuel (addr + UInt64.ofNat SWITCH_BUF_SIZE)
        (sector + min (UInt64.ofNat SWITCH_BUF_SIZE) (stop - addr) / 512)) := by
  rw [switchChunks, if_pos h]

theorem toNat_min (a b : UInt64) : (min a b).toNat = min a.toNat b.toNat := by
  have hdef : min a b = if a ≤ b then a else b := rfl
  rw [hdef]
  split
  case isTrue h => rw [Nat.min_eq_left (UInt64.le_iff_toNat_le.mp h)]
  case isFalse h =>
    rw [UInt64.le_iff_toNat_le] at h
    rw [Nat.min_eq_right (by omega)]

/-- What one iteration reads: all that is left, or a full `switch_buf`. -/
theorem toNat_readSize (h : addr < stop) :
    (min (UInt64.ofNat SWITCH_BUF_SIZE) (stop - addr)).toNat =
      min SWITCH_BUF_SIZE (stop.toNat - addr.toNat) := by
  have hle : addr ≤ stop := UInt64.le_of_lt h
  rw [toNat_min, UInt64.toNat_sub_of_le _ _ hle]
  rfl

theorem readSize_aligned (h : addr < stop)
    (hmod : (stop.toNat - addr.toNat) % VIRTIO_BLK_SECTOR_SIZE = 0) :
    (min (UInt64.ofNat SWITCH_BUF_SIZE) (stop - addr) % 512 == 0) = true := by
  have h512 : (512 : UInt64).toNat = 512 := rfl
  have h0 : (0 : UInt64).toNat = 0 := rfl
  rw [beq_iff_eq, ← UInt64.toNat_inj, UInt64.toNat_mod, toNat_readSize h, h512, h0]
  simp only [SWITCH_BUF_SIZE, VIRTIO_BLK_SECTOR_SIZE] at hmod ⊢
  omega

/-- `addr += SWITCH_BUF_SIZE` of the loop. -/
theorem toNat_addr_next (addr : UInt64) :
    (addr + UInt64.ofNat SWITCH_BUF_SIZE).toNat = (addr.toNat + SWITCH_BUF_SIZE) % 2 ^ 64 := by
  have hB : (UInt64.ofNat SWITCH_BUF_SIZE).toNat = SWITCH_BUF_SIZE := rfl
  rw [UInt64.toNat_add, hB]

/-- `sector += read_size / VIRTIO_BLK_SECTOR_SIZE` of the loop, before its last iteration. -/
theorem sectorPos_next {sector : UInt64} (h : addr < stop)
    (hmore : SWITCH_BUF_SIZE < stop.toNat - addr.toNat)
    (hdisk : sectorPos sector.toNat + (stop.toNat - addr.toNat) < 2 ^ 73) :
    sectorPos (sector + min (UInt64.ofNat SWITCH_BUF_SIZE) (stop - addr) / 512).toNat =
      sectorPos sector.toNat + SWITCH_BUF_SIZE := by
  have h512 : (512 : UInt64).toNat = 512 := rfl
  rw [UInt64.toNat_add, UInt64.toNat_div, toNat_readSize h, h512, min_eq_left hmore.le]
  simp only [sectorPos, VIRTIO_BLK_SECTOR_SIZE, SWITCH_BUF_SIZE] at hmore hdisk ⊢
  have hwrap : sector.toNat + 8 * 1024 * 1024 / 512 < 2 ^ 64 := by omega
  rw [Nat.mod_eq_of_lt hwrap]
  omega

/-- One iteration of the loop exchanges a chunk. -/
theorem switchChunks_step (P : Platform) (dev : BlkDev) (fuel : ℕ) {pos : ℕ} (hlt : addr < stop)
    (hmod : (stop.toNat - addr.toNat) % VIRTIO_BLK_SECTOR_SIZE = 0)
    (hsector : sectorPos sector.toNat = pos) (hdisk : pos + (stop.toNat - addr.toNat) < 2 ^ 73) :
    ∃ sector' : UInt64, (SWITCH_BUF_SIZE < stop.toNat - addr.toNat →
        sectorPos sector'.toNat = pos + SWITCH_BUF_SIZE) ∧
      switchChunks P dev stop (fuel + 1) addr sector =
        (chunkBody P dev ⟨addr.toNat, pos, min SWITCH_BUF_SIZE (stop.toNat - addr.toNat)⟩ >>= fun _ =>
          switchChunks P dev stop fuel (addr + UInt64.ofNat SWITCH_BUF_SIZE) sector') := by
  have hdiv : pos / VIRTIO_BLK_SECTOR_SIZE = sector.toNat := by
    rw [← hsector, sectorPos]
    exact Nat.mul_div_cancel _ (by decide)
  refine ⟨sector + min (UInt64.ofNat SWITCH_BUF_SIZE) (stop - addr) / 512, fun hmore => ?_,
    funext fun m => ?_⟩
  · rw [← hsector, sectorPos_next hlt hmore (by rw [hsector]; exact hdisk)]
  · rw [switchChunks_succ hlt, check, Prog.bind_check_true (readSize_aligned hlt hmod),
      toNat_readSize hlt, chunkBody, hdiv]

/-- **The loop goes over the chunks**, and then on with the address one step past the last of them,
which may have wrapped. -/
theorem switchChunks_walk (P : Platform) (dev : BlkDev) (stop : UInt64) (start pos : ℕ) : ∀ (fuel o n : ℕ) (addr sector : UInt64),
    addr.toNat = start + o → stop.toNat - addr.toNat = n → n % VIRTIO_BLK_SECTOR_SIZE = 0 →
    (0 < n → sectorPos sector.toNat = pos + o ∧ pos + o + n < 2 ^ 73) →
    pieceCount SWITCH_BUF_SIZE n ≤ fuel →
    ∃ addr' sector' : UInt64,
      addr'.toNat = (start + o + pieceCount SWITCH_BUF_SIZE n * SWITCH_BUF_SIZE) % 2 ^ 64 ∧
      switchChunks P dev stop fuel addr sector = Prog.forEach (chunkBody P dev)
        ((pieces SWITCH_BUF_SIZE o (pieceCount SWITCH_BUF_SIZE n) n).map fun p =>
          ⟨start + p.1, pos + p.1, p.2⟩) >>= fun _ =>
        switchChunks P dev stop (fuel - pieceCount SWITCH_BUF_SIZE n) addr' sector' := by
  have hB : 0 < SWITCH_BUF_SIZE := by decide
  intro fuel
  induction fuel with
  | zero =>
    intro o n addr sector haddr hn _ _ hfuel
    rcases Nat.eq_zero_or_pos n with rfl | hpos
    · refine ⟨addr, sector, ?_, ?_⟩
      · rw [pieceCount_zero, Nat.zero_mul, Nat.add_zero, ← haddr, Nat.mod_eq_of_lt addr.toNat_lt]
      · rw [pieceCount_zero, pieces_zero, Nat.sub_zero, List.map_nil, Prog.forEach_nil_bind]
    · rw [pieceCount_succ hB hpos] at hfuel
      omega
  | succ fuel ih =>
    intro o n addr sector haddr hn hmod hsec hfuel
    rcases Nat.eq_zero_or_pos n with rfl | hpos
    · refine ⟨addr, sector, ?_, ?_⟩
      · rw [pieceCount_zero, Nat.zero_mul, Nat.add_zero, ← haddr, Nat.mod_eq_of_lt addr.toNat_lt]
      · rw [pieceCount_zero, pieces_zero, Nat.sub_zero, List.map_nil, Prog.forEach_nil_bind]
    have hlt : addr < stop := by rw [UInt64.lt_iff_toNat_lt]; omega
    have hcount := pieceCount_succ hB hpos
    obtain ⟨hsector, hdisk⟩ := hsec hpos
    obtain ⟨sector₁, hnext, hstep⟩ := switchChunks_step P dev fuel hlt
      (by rw [hn]; exact hmod) hsector (by rw [hn]; exact hdisk)
    rw [hn] at hnext hstep
    rw [hstep, pieces_pieceCount hB hpos, hcount, List.map_cons, haddr]
    rcases Nat.lt_or_ge SWITCH_BUF_SIZE n with hmore | hlast
    · have haddr' : (addr + UInt64.ofNat SWITCH_BUF_SIZE).toNat = start + (o + SWITCH_BUF_SIZE) := by
        have hstop := stop.toNat_lt
        rw [toNat_addr_next, haddr, Nat.mod_eq_of_lt (by omega)]
        omega
      obtain ⟨addr', sector', hend, hrest⟩ := ih (o + SWITCH_BUF_SIZE) (n - SWITCH_BUF_SIZE)
        (addr + UInt64.ofNat SWITCH_BUF_SIZE) sector₁ haddr' (by rw [haddr']; omega)
        (by simp only [SWITCH_BUF_SIZE, VIRTIO_BLK_SECTOR_SIZE] at hmod ⊢; omega)
        (fun _ => ⟨by rw [hnext hmore]; omega, by omega⟩) (by omega)
      have hsum : start + (o + SWITCH_BUF_SIZE) +
          pieceCount SWITCH_BUF_SIZE (n - SWITCH_BUF_SIZE) * SWITCH_BUF_SIZE = start + o +
            (pieceCount SWITCH_BUF_SIZE (n - SWITCH_BUF_SIZE) * SWITCH_BUF_SIZE + SWITCH_BUF_SIZE) := by
        omega
      refine ⟨addr', sector', ?_, ?_⟩
      · rw [hend, Nat.add_one_mul, hsum]
      · rw [hrest, Nat.add_sub_add_right, Prog.forEach_cons_bind]
    · have hzero : n - SWITCH_BUF_SIZE = 0 := by omega
      refine ⟨addr + UInt64.ofNat SWITCH_BUF_SIZE, sector₁, ?_, ?_⟩
      · rw [toNat_addr_next, haddr, hzero, pieceCount_zero, Nat.zero_add, Nat.one_mul]
      · rw [hzero, pieceCount_zero, pieces_zero, Nat.add_sub_cancel, List.map_nil,
          Prog.forEach_cons_bind, Prog.forEach_nil_bind]

/-- **The loop is a loop over chunks**, while its address does not wrap. -/
theorem switchChunks_eq (start pos : ℕ) (fuel o n : ℕ) (addr sector : UInt64)
    (haddr : addr.toNat = start + o) (hn : stop.toNat - addr.toNat = n)
    (hmod : n % VIRTIO_BLK_SECTOR_SIZE = 0)
    (hsec : 0 < n → sectorPos sector.toNat = pos + o ∧ pos + o + n < 2 ^ 73)
    (hfit : start + o + pieceCount SWITCH_BUF_SIZE n * SWITCH_BUF_SIZE < 2 ^ 64)
    (hfuel : pieceCount SWITCH_BUF_SIZE n ≤ fuel) :
    switchChunks P dev stop fuel addr sector = Prog.forEach (chunkBody P dev)
      ((pieces SWITCH_BUF_SIZE o (pieceCount SWITCH_BUF_SIZE n) n).map fun p =>
        ⟨start + p.1, pos + p.1, p.2⟩) := by
  obtain ⟨addr', sector', hend, hwalk⟩ := switchChunks_walk P dev stop start pos fuel o n
    addr sector haddr hn hmod hsec hfuel
  have hle := le_pieceCount_mul (B := SWITCH_BUF_SIZE) (by decide) n
  rw [Nat.mod_eq_of_lt hfit] at hend
  have hstop : ¬ addr' < stop := by
    rw [UInt64.lt_iff_toNat_lt]
    omega
  rw [hwalk, switchChunks_stop hstop, Prog.bind_pure_unit]

/-- When the address of the loop wraps before it reaches the end of the area, the loop never ends:
every address it takes is `SWITCH_BUF_SIZE` apart, and the largest of them is below the end. -/
theorem switchChunks_diverge (hexact : ∀ n, dev.fails n = false)
    {r : ℕ} (hmod : stop.toNat % VIRTIO_BLK_SECTOR_SIZE = r % VIRTIO_BLK_SECTOR_SIZE)
    (hstop : 2 ^ 64 - SWITCH_BUF_SIZE + r < stop.toNat) :
    ∀ (fuel : ℕ) (addr sector : UInt64) (m : Machine), addr.toNat % SWITCH_BUF_SIZE = r →
      switchChunks P dev stop fuel addr sector m = none := by
  intro fuel
  induction fuel with
  | zero =>
    intro addr sector m haddr
    have hlt : addr < stop := by
      have := addr.toNat_lt
      rw [UInt64.lt_iff_toNat_lt]
      simp only [SWITCH_BUF_SIZE] at haddr hstop
      omega
    rw [switchChunks_zero hlt]
    rfl
  | succ fuel ih =>
    intro addr sector m haddr
    have hlt : addr < stop := by
      have := addr.toNat_lt
      rw [UInt64.lt_iff_toNat_lt]
      simp only [SWITCH_BUF_SIZE] at haddr hstop
      omega
    have hmod' : (stop.toNat - addr.toNat) % VIRTIO_BLK_SECTOR_SIZE = 0 := by
      rw [UInt64.lt_iff_toNat_lt] at hlt
      simp only [SWITCH_BUF_SIZE, VIRTIO_BLK_SECTOR_SIZE] at haddr hmod ⊢
      omega
    have hnext : (addr + UInt64.ofNat SWITCH_BUF_SIZE).toNat % SWITCH_BUF_SIZE = r := by
      rw [toNat_addr_next]
      simp only [SWITCH_BUF_SIZE] at haddr ⊢
      omega
    rw [switchChunks_succ hlt, check, Prog.bind_check_true (readSize_aligned hlt hmod'), switchChunk,
      readVirtioBlk, Prog.bind_assoc_apply, Prog.bind_ok (blkRequest_ok (hexact _)), writeVirtioBlk,
      Prog.bind_assoc_apply, Prog.bind_ok (blkRequest_ok (hexact _)), Prog.bind_modify_apply]
    exact ih _ _ _ hnext

end Loop

/-! ## The areas of a switch -/

theorem switchable_allChunks (hg : Geometry P.sizes core) : Switchable P (allChunks core) where
  len_le := by
    intro c hc
    obtain ⟨i, _, hci⟩ := mem_allChunks hc
    exact mem_chunksOf_len_le hci
  pos_mod := by
    intro c hc
    obtain ⟨i, _, hci⟩ := mem_allChunks hc
    exact Nat.mod_eq_zero_of_dvd
      (dvd_pos_of_mem_chunksOf (by decide) (Nat.dvd_mul_left _ (sectorOf core i)) hci)
  apart_buf := fun _ hc x hx hin => hg.apart_core x (inRam_of_mem_allChunks hc hin) hx.coreMemory
  separate := allChunks_pairwise hg

/-- One area of the loop of `disk_switch_dump`. -/
theorem switchMemoryArea_eq {fuel : ℕ} (hg : Geometry P.sizes core) (hfit : ChunksFit core)
    (hfuel : switchFuel ≤ fuel) {i : ℕ} (hi : i < core.areaCount) :
    switchMemoryArea P dev fuel ⟨core.ramAreas i, UInt32.ofNat (sectorOf core i)⟩ =
      Prog.forEach (chunkBody P dev) (areaChunks core i) := by
  have hfit := hfit i hi
  have hle := le_pieceCount_mul (B := SWITCH_BUF_SIZE) (by decide) (core.areaSize i)
  have hmod := (hg.aligned i hi).2
  have hsector := toNat_sector hg.aligned hg.fits hi
  have hdisk := extent_end_le hg.aligned hi le_rfl
  have hend : extentPos core core.areaCount < 2 ^ 41 := by
    have := hg.fits
    simp only [Fits, extentPos, sectorPos, VIRTIO_BLK_SECTOR_SIZE] at this ⊢
    omega
  have hstop : ((core.ramAreas i).start + (core.ramAreas i).size).toNat =
      core.areaStart i + core.areaSize i := by
    rw [UInt64.toNat_add, ← CoreHeader.areaStart, ← CoreHeader.areaSize,
      Nat.mod_eq_of_lt (by omega)]
  rw [switchMemoryArea, areaChunks, chunksOf]
  refine switchChunks_eq (core.areaStart i) (extentPos core i) fuel 0 (core.areaSize i) _ _ rfl
    (by rw [hstop, ← CoreHeader.areaStart]; omega) hmod (fun _ => ⟨?_, by omega⟩) (by omega) ?_
  · rw [UInt32.toNat_toUInt64, hsector, Nat.add_zero, extentPos]
  · have hlt : pieceCount SWITCH_BUF_SIZE (core.areaSize i) * SWITCH_BUF_SIZE < 2 ^ 64 := by omega
    have hdiv : (2 : ℕ) ^ 64 = switchFuel * SWITCH_BUF_SIZE := by decide
    rw [hdiv] at hlt
    exact le_trans (le_of_lt (Nat.lt_of_mul_lt_mul_right hlt)) hfuel

/-- **The areas of a switch are exchanged chunk by chunk.** -/
theorem switchAreas_eq {header : DumpHeader} {v : UInt32} (hl : LaidOut core v header)
    (hg : Geometry P.sizes core) (hfit : ChunksFit core) {fuel : ℕ} (hfuel : switchFuel ≤ fuel)
    (t : Machine) :
    Prog.forEach (fun i => switchMemoryArea P dev fuel (header.areas i))
      (List.range header.areasSize.toNat) t = Prog.forEach (chunkBody P dev) (allChunks core) t := by
  rw [hl.toNat_areasSize, allChunks, Prog.forEach_flatMap]
  refine Prog.forEach_congr _ (fun i hi t => ?_) t
  rw [List.mem_range] at hi
  rw [hl.areas i hi, switchMemoryArea_eq hg hfit hfuel hi]

/-! ## What the exchange of the chunks leaves -/

namespace SwitchedUpTo

variable {done : List Chunk} {m' : Machine} {v v' : UInt32}

theorem of_tick (h : SwitchedUpTo P m.tick done m') : SwitchedUpTo P m done m' :=
  ⟨h.sameCore, h.sameVector, h.exchanged⟩

/-- Nothing outside the RAM areas and `switch_buf` changes. -/
theorem mem_frame (h : SwitchedUpTo P m done m') (hsub : done ⊆ allChunks core) {x : ℕ}
    (hram : ¬ core.InRam x) (hbuf : ¬ P.InSwitchBuf x) : m'.mem x = m.mem x :=
  h.exchanged.mem_frame x hbuf fun _ hc hin => hram (inRam_of_mem_allChunks (hsub hc) hin)

theorem savedVector_eq (h : SwitchedUpTo P m done m') (hsub : done ⊆ allChunks core)
    (hg : Geometry P.sizes core) : core.savedVector m'.mem = core.savedVector m.mem := by
  refine savedVector_congr fun x hx => h.mem_frame hsub ?_ ?_
  · exact fun hram => hg.apart_facs x hram hx.inFacs
  · exact fun hbuf => hg.facs_apart_core x hx.inFacs hbuf.coreMemory

/-- The header stays as it is. -/
theorem header_eq (h : SwitchedUpTo P m done m') (hsub : done ⊆ allChunks core)
    (hg : Geometry P.sizes core) : ∀ x < DUMP_HEADER_SIZE, m'.disk x = m.disk x := by
  intro x hx
  refine h.exchanged.disk_frame x fun c hc hin => ?_
  have := header_le_of_mem_allChunks hg.aligned (hsub hc)
  have := hin.1
  omega

/-- After all chunks the RAM areas hold the image that was on the disk. -/
theorem ramImage_eq (h : SwitchedUpTo P m (allChunks core) m') (hl : LaidOut core v m.disk)
    (hg : Geometry P.sizes core) : ramImage core m'.mem = dumpImage m.disk :=
  (ramImage_eq_dumpImage_iff hl hg.aligned hg.fits).mpr h.exchanged.mem_done

/-- After all chunks the extents hold the image that was in the RAM areas. -/
theorem dumpImage_eq (h : SwitchedUpTo P m (allChunks core) m') {disk : ℕ → UInt8}
    (hl : LaidOut core v' disk) (hrest : ∀ x, DUMP_HEADER_SIZE ≤ x → disk x = m'.disk x)
    (hg : Geometry P.sizes core) : dumpImage disk = ramImage core m.mem := by
  refine ((ramImage_eq_dumpImage_iff hl hg.aligned hg.fits).mpr fun c hc => ?_).symm
  rw [← h.exchanged.disk_done c hc]
  have hhead := header_le_of_mem_allChunks hg.aligned hc
  exact window_eq_window.mpr fun i _ => (hrest _ (by omega)).symm

end SwitchedUpTo

/-! ## `disk_switch_dump` -/

/-- What `disk_switch_dump` does after the areas. -/
def finishSwitch (dev : BlkDev) (header : DumpHeader) : Core Unit := do
  Prog.modify fun m => { m with kernelWakingVector := header.wakingVector }
  let m ← Prog.get
  let wakingVector ← Prog.lift (findOriginalWakingVector m.core m.mem)
  writeDumpHeader dev (header.setWakingVector wakingVector)

section Switch

variable {fuel : ℕ} {v : UInt32}

/-- With a dump on the disk, a switch is: read the header, exchange the chunks, finish. -/
theorem diskSwitchDump_eq (hcore : m.core = core) (hg : Geometry P.sizes core) (hfit : ChunksFit core)
    (hfuel : switchFuel ≤ fuel) (hl : LaidOut core v m.disk) (hv : v ≠ 0)
    (hok : dev.fails m.issued = false) :
    ∃ header, LaidOut core v header ∧ diskSwitchDump P dev fuel m =
      (Prog.forEach (chunkBody P dev) (allChunks core) >>= fun _ => finishSwitch dev header)
        m.tick := by
  have hl' : LaidOut core v (blit P.stack 0 m.disk 0 DUMP_HEADER_SIZE) :=
    hl.congr hg.count_le (readDumpHeader_bytes P.stack m.disk)
  refine ⟨_, hl', ?_⟩
  have hareas : ∀ t, Prog.forEach _ _ t = Prog.forEach (chunkBody P dev) (allChunks core) t :=
    switchAreas_eq hl' hg hfit hfuel
  rw [diskSwitchDump, Prog.bind_ok (readDumpHeader_ok P hok), Prog.bind_get_apply, check,
    Prog.bind_check_true (by
      rw [show m.tick.core = core from hcore]
      exact hl'.valid hv hg.nonempty hg.aligned), funext hareas]
  rfl

theorem finishSwitch_ok {header : DumpHeader} (hl : LaidOut core v header) (hcore : m.core = core)
    (hsaved : core.savedVector m.mem ≠ 0) (hok : dev.fails m.issued = false) :
    finishSwitch dev header m = some (.ok (), { m with
      kernelWakingVector := v
      disk := blit m.disk 0 (header.setWakingVector (core.savedVector m.mem)) 0 DUMP_HEADER_SIZE
      issued := m.issued + 1 }) := by
  subst hcore
  rw [finishSwitch, Prog.bind_modify_apply, Prog.bind_get_apply, hl.wakingVector,
    findOriginalWakingVector_ok hsaved, Prog.lift_ok_apply,
    writeDumpHeader_ok (m := { m with kernelWakingVector := v }) _ hok]

theorem finishSwitch_fail {header : DumpHeader} (hl : LaidOut core v header)
    (hcore : m.core = core) (hsaved : core.savedVector m.mem ≠ 0)
    (hfail : dev.fails m.issued = true) :
    finishSwitch dev header m =
      some (.error .ERR_INVALID, { m with kernelWakingVector := v, issued := m.issued + 1 }) := by
  subst hcore
  rw [finishSwitch, Prog.bind_modify_apply, Prog.bind_get_apply, hl.wakingVector,
    findOriginalWakingVector_ok hsaved, Prog.lift_ok_apply,
    writeDumpHeader_fail (m := { m with kernelWakingVector := v }) _ hfail]
  rfl

/-- **A complete switch.** RAM gets the image on the disk, the disk gets the image in RAM and the
saved vector, and the vector of the dump is handed out. -/
theorem diskSwitchDump_ok (hcore : m.core = core) (hg : Geometry P.sizes core) (hfit : ChunksFit core)
    (hfuel : switchFuel ≤ fuel) {image : Image} (hold : Holds core image v m.disk) (hv : v ≠ 0)
    (hsaved : core.savedVector m.mem ≠ 0)
    (hok : ∀ r < 2 + 2 * (allChunks core).length, dev.fails (m.issued + r) = false) :
    ∃ m', diskSwitchDump P dev fuel m = some (.ok (), m') ∧ m'.core = core ∧
      m'.kernelWakingVector = v ∧ ramImage core m'.mem = image ∧
      Holds core (ramImage core m.mem) (core.savedVector m.mem) m'.disk ∧
      ∀ x, ¬ core.InRam x → ¬ P.InSwitchBuf x → m'.mem x = m.mem x := by
  obtain ⟨header, hl, heq⟩ := diskSwitchDump_eq (P := P) hcore hg hfit hfuel hold.laidOut hv
    (hok 0 (by omega))
  obtain ⟨t, hloop, hsw, hissued⟩ := chunkLoop_ok (P := P) (m := m.tick)
    (switchable_allChunks hg) fun r hr => by
      rw [Machine.tick_issued, Nat.add_assoc]
      exact hok _ (by omega)
  have hsw := hsw.of_tick
  have hsaved' := hsw.savedVector_eq (List.Subset.refl _) hg
  have hissued' : t.issued = m.issued + (1 + 2 * (allChunks core).length) := by
    rw [hissued, Machine.tick_issued]
    omega
  have hl' := (hl.setWakingVector (core.savedVector t.mem)).written hg.count_le t.disk
  refine ⟨{ t with
    kernelWakingVector := v
    disk := blit t.disk 0 (header.setWakingVector (core.savedVector t.mem)) 0 DUMP_HEADER_SIZE
    issued := t.issued + 1 }, ?_, hsw.sameCore.trans hcore, rfl, ?_, ⟨?_, ?_⟩, ?_⟩
  · rw [heq, Prog.bind_ok hloop, finishSwitch_ok hl (hsw.sameCore.trans hcore)
      (by rw [hsaved']; exact hsaved) (by rw [hissued']; exact hok _ (by omega))]
  · exact (hsw.ramImage_eq hold.laidOut hg).trans hold.image
  · rw [← hsaved']
    exact hl'
  · exact hsw.dumpImage_eq hl' (fun x hx => blit_outside (by omega)) hg
  · exact fun x hram hbuf => hsw.mem_frame (List.Subset.refl _) hram hbuf

/-- A switch whose first area has its end above every address that the loop of `switch_memory_area`
can take never returns. -/
theorem diskSwitchDump_diverge (hexact : ∀ n, dev.fails n = false) (hcore : m.core = core)
    (hg : Geometry P.sizes core) (hl : LaidOut core v m.disk) (hv : v ≠ 0)
    (hstop : 2 ^ 64 - SWITCH_BUF_SIZE + core.areaStart 0 % SWITCH_BUF_SIZE <
      ((core.ramAreas 0).start + (core.ramAreas 0).size).toNat)
    (halign : core.areaStart 0 % VIRTIO_BLK_SECTOR_SIZE = 0) :
    diskSwitchDump P dev fuel m = none := by
  have hl' : LaidOut core v (blit P.stack 0 m.disk 0 DUMP_HEADER_SIZE) :=
    hl.congr hg.count_le (readDumpHeader_bytes P.stack m.disk)
  have hpos : 0 < core.areaCount := by
    have h0 : (0 : UInt32).toNat = 0 := rfl
    rw [CoreHeader.areaCount, Nat.pos_iff_ne_zero, ← h0]
    exact fun h => hg.nonempty (UInt32.toNat_inj.mp h)
  obtain ⟨n, hn⟩ := Nat.exists_eq_succ_of_ne_zero hpos.ne'
  have hsize := (hg.aligned 0 hpos).2
  rw [diskSwitchDump, Prog.bind_ok (readDumpHeader_ok P (hexact _)), Prog.bind_get_apply, check,
    Prog.bind_check_true (by
      rw [show m.tick.core = core from hcore]
      exact hl'.valid hv hg.nonempty hg.aligned), hl'.toNat_areasSize, hn, List.range_succ_eq_map]
  refine Prog.bind_none (Prog.bind_none ?_)
  show switchMemoryArea P dev fuel (areas _ 0) m.tick = none
  rw [hl'.areas 0 hpos]
  refine switchChunks_diverge hexact ?_ hstop fuel _ _ _ rfl
  rw [UInt64.toNat_add]
  simp only [CoreHeader.areaStart, VIRTIO_BLK_SECTOR_SIZE, SWITCH_BUF_SIZE] at halign hsize ⊢
  omega

/-- A switch whose first request fails does nothing. -/
theorem diskSwitchDump_stop_read (hfail : dev.fails m.issued = true) :
    diskSwitchDump P dev fuel m = some (.error .ERR_INVALID, m.tick) := by
  rw [diskSwitchDump, Prog.bind_error (readDumpHeader_fail P hfail)]

end Switch

end SwitchOs
