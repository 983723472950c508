import SwitchOs.Core.DumpHeader

/-!
# Dumps: storing, loading and switching

The functions of `core/dump.c` on a machine with one flat physical memory, one disk and core's own
header. A block request (`read_virtio_blk` or `write_virtio_blk`, with the
`consume_response_virtio_blk` that follows every one of them) moves all its bytes or, where the
device `fails` it, moves none and reports an error; requests are counted from 0 in each execution of
core. Addresses, sizes and sector counters are the 64-bit words of the source and wrap as they do
there, so the loop of `switch_memory_area` need not end: it is given a number of iterations, and a
body that would need more has no result (`Prog.diverge`).
-/

namespace SwitchOs

/-- `SWITCH_BUF_SIZE`. -/
def SWITCH_BUF_SIZE : ℕ := 8 * 1024 * 1024

/-- What the build and the loader fix about core: the sizes of its binaries, where `switch_buf` lies
in the first of them, and what an uninitialised `struct dump_header` on the stack holds. -/
structure Platform where
  sizes : CoreSizes
  switchBuf : ℕ
  stack : ℕ → UInt8
  switchBuf_ge : CORE_PHYS_ADDR ≤ switchBuf
  switchBuf_le : switchBuf + SWITCH_BUF_SIZE ≤ CORE_PHYS_ADDR + sizes.core

/-- The virtio block device during one execution of core: whether `init_virtio_blk_dev` succeeds,
and which block requests fail. -/
structure BlkDev where
  initOk : Bool
  fails : ℕ → Bool

/-- The block layer that never fails. -/
def BlkDev.exact : BlkDev := ⟨true, fun _ => false⟩

theorem BlkDev.exact_fails (k : ℕ) : BlkDev.exact.fails k = false := rfl

/-- The block layer whose `k`-th request fails. -/
def BlkDev.failAt (k : ℕ) : BlkDev := ⟨true, fun n => n == k⟩

/-- Memory, disk, the core header, the requests issued so far, and `core_main`'s local
`kernel_waking_vector`, which `disk_switch_dump` fills through its out-parameter. -/
structure Machine where
  mem : ℕ → UInt8
  disk : ℕ → UInt8
  core : CoreHeader
  issued : ℕ
  kernelWakingVector : UInt32

abbrev Core (α : Type) : Type := Prog Err Machine α

/-- One block request that, unless it fails, does `move`. -/
def blkRequest (dev : BlkDev) (move : Machine → Machine) : Core Unit := do
  let m ← Prog.get
  Prog.modify fun m => { m with issued := m.issued + 1 }
  check (!dev.fails m.issued)
  Prog.modify move

/-- The first byte of a sector. -/
def sectorPos (sector : ℕ) : ℕ := sector * VIRTIO_BLK_SECTOR_SIZE

/-- `read_virtio_blk` and its response. -/
def readVirtioBlk (dev : BlkDev) (sector addr size : ℕ) : Core Unit :=
  blkRequest dev fun m => { m with mem := blit m.mem addr m.disk (sectorPos sector) size }

/-- `write_virtio_blk` and its response. -/
def writeVirtioBlk (dev : BlkDev) (sector addr size : ℕ) : Core Unit :=
  blkRequest dev fun m => { m with disk := blit m.disk (sectorPos sector) m.mem addr size }

/-- `read_dump_header` into an uninitialised local. -/
def readDumpHeader (P : Platform) (dev : BlkDev) : Core DumpHeader := do
  blkRequest dev id
  let m ← Prog.get
  pure (blit P.stack 0 m.disk 0 DUMP_HEADER_SIZE)

/-- `write_dump_header`. -/
def writeDumpHeader (dev : BlkDev) (header : DumpHeader) : Core Unit :=
  blkRequest dev fun m => { m with disk := blit m.disk 0 header 0 DUMP_HEADER_SIZE }

/-- One area of the loop of `disk_store_dump`. -/
def storeArea (dev : BlkDev) (diskArea : DiskMemArea) : Core Unit :=
  writeVirtioBlk dev diskArea.sector.toNat diskArea.area.start.toNat diskArea.area.size.toNat

/-- `disk_store_dump`. -/
def diskStoreDump (P : Platform) (dev : BlkDev) : Core Unit := do
  let m ← Prog.get
  let header ← Prog.lift (fillDumpHeader m.core m.mem P.stack)
  Prog.forEach (fun i => storeArea dev (header.areas i)) (List.range header.areasSize.toNat)
  writeDumpHeader dev header

/-- `does_disk_contain_dump`. -/
def doesDiskContainDump (P : Platform) (dev : BlkDev) : Core Bool := do
  let header ← readDumpHeader P dev
  let m ← Prog.get
  pure (isDumpHeaderValid m.core header)

/-- `disk_load_dump`: the waking vector it returns goes to `kernelWakingVector`. -/
def diskLoadDump (P : Platform) (dev : BlkDev) : Core Unit := do
  let header ← readDumpHeader P dev
  let m ← Prog.get
  check (isDumpHeaderValid m.core header)
  Prog.forEach (fun i => readVirtioBlk dev (header.areas i).sector.toNat
    (header.areas i).area.start.toNat (header.areas i).area.size.toNat)
    (List.range header.areasSize.toNat)
  Prog.modify fun m => { m with kernelWakingVector := header.wakingVector }

/-- The body of the loop of `switch_memory_area`: disk to `switch_buf`, RAM to disk, `switch_buf` to
RAM. -/
def switchChunk (P : Platform) (dev : BlkDev) (sector addr readSize : ℕ) : Core Unit := do
  readVirtioBlk dev sector P.switchBuf readSize
  writeVirtioBlk dev sector addr readSize
  Prog.modify fun m => { m with mem := copyCells m.mem addr P.switchBuf readSize }

/-- The loop of `switch_memory_area`, for at most `fuel` iterations. -/
def switchChunks (P : Platform) (dev : BlkDev) (stop : UInt64) :
    ℕ → UInt64 → UInt64 → Core Unit
  | fuel, addr, sector =>
    if addr < stop then
      match fuel with
      | 0 => Prog.diverge
      | fuel + 1 => do
        let readSize := min (UInt64.ofNat SWITCH_BUF_SIZE) (stop - addr)
        check (readSize % 512 == 0)
        switchChunk P dev sector.toNat addr.toNat readSize.toNat
        switchChunks P dev stop fuel (addr + UInt64.ofNat SWITCH_BUF_SIZE)
          (sector + readSize / 512)
    else pure ()

/-- `switch_memory_area`. -/
def switchMemoryArea (P : Platform) (dev : BlkDev) (fuel : ℕ) (diskArea : DiskMemArea) :
    Core Unit :=
  switchChunks P dev (diskArea.area.start + diskArea.area.size) fuel diskArea.area.start
    diskArea.sector.toUInt64

/-- `disk_switch_dump`. -/
def diskSwitchDump (P : Platform) (dev : BlkDev) (fuel : ℕ) : Core Unit := do
  let header ← readDumpHeader P dev
  let m ← Prog.get
  check (isDumpHeaderValid m.core header)
  Prog.forEach (fun i => switchMemoryArea P dev fuel (header.areas i))
    (List.range header.areasSize.toNat)
  Prog.modify fun m => { m with kernelWakingVector := header.wakingVector }
  let m ← Prog.get
  let wakingVector ← Prog.lift (findOriginalWakingVector m.core m.mem)
  writeDumpHeader dev (header.setWakingVector wakingVector)

/-! ## One block request -/

variable {dev : BlkDev} {m : Machine}

/-- The machine after one more request that moved nothing. -/
def Machine.tick (m : Machine) : Machine := { m with issued := m.issued + 1 }

@[simp] theorem Machine.tick_issued (m : Machine) : m.tick.issued = m.issued + 1 := rfl

theorem blkRequest_ok {move : Machine → Machine} (h : dev.fails m.issued = false) :
    blkRequest dev move m = some (.ok (), move m.tick) := by
  simp only [blkRequest, Prog.bind_get_apply, Prog.bind_modify_apply]
  rw [check, Prog.bind_check_true (by simp [h])]
  rfl

theorem blkRequest_fail {move : Machine → Machine} (h : dev.fails m.issued = true) :
    blkRequest dev move m = some (.error .ERR_INVALID, m.tick) := by
  simp only [blkRequest, Prog.bind_get_apply, Prog.bind_modify_apply]
  rw [check, Prog.bind_check_false (by simp [h])]
  rfl

theorem readDumpHeader_ok (P : Platform) (h : dev.fails m.issued = false) :
    readDumpHeader P dev m = some (.ok (blit P.stack 0 m.disk 0 DUMP_HEADER_SIZE), m.tick) := by
  rw [readDumpHeader, Prog.bind_ok (blkRequest_ok h)]
  rfl

theorem readDumpHeader_fail (P : Platform) (h : dev.fails m.issued = true) :
    readDumpHeader P dev m = some (.error .ERR_INVALID, m.tick) := by
  rw [readDumpHeader, Prog.bind_error (blkRequest_fail h)]

/-- The header read back is the one on the disk, byte for byte. -/
theorem readDumpHeader_bytes (stack disk : ℕ → UInt8) :
    ∀ x < DUMP_HEADER_SIZE, blit stack 0 disk 0 DUMP_HEADER_SIZE x = disk x := by
  intro x hx
  have h : blit stack 0 disk 0 DUMP_HEADER_SIZE (0 + x) = disk (0 + x) := blit_add hx
  rwa [Nat.zero_add] at h

end SwitchOs
