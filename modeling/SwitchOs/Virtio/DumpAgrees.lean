import SwitchOs.Virtio.Dump
import SwitchOs.Core.TwoSlot
import SwitchOs.Lib.InStep

/-!
# The driver does what the model of the dumps takes a request to do

`SwitchOs.coreMain` takes a block request to move all its bytes at once. `Driven.coreMain` has the
virtio driver in it, with its heap, its rings and a device that answers some time. The two run in
lock step, on states that are `Alike`: equal but for the bytes of core's own that the simpler model
does not have.
-/

namespace SwitchOs

open Virtio DumpHeader

/-- The byte `x` is in the heap, or in a local header: the model of the dumps has neither. -/
def Wiring.Private (W : Wiring) (x : ℕ) : Prop :=
  InHeap W.layout x ∨ ∃ f, InHeader (W.header f) x

/-- The two states are the same, but for the private bytes; `core` is the core header of both. -/
structure Alike (W : Wiring) (core : CoreHeader) (s : Driven) (m : Machine) : Prop where
  mem : ∀ x, ¬ W.Private x → s.mem x = m.mem x
  disk : s.disk = m.disk
  header : s.core = core
  header' : m.core = core
  issued : s.issued = m.issued
  vector : s.kernelWakingVector = m.kernelWakingVector

/-- Moreover, the driver can take a request. -/
structure AlikeIdle (W : Wiring) (core : CoreHeader) (s : Driven) (m : Machine) : Prop
    extends Alike W core s m where
  idle : ∃ descs lists, Idle W.layout descs lists s.hw

/-- The local header of `f` is `h`. -/
def Held (W : Wiring) (f : DumpCall) (h : DumpHeader) (s : Driven) : Prop :=
  ∀ x < DUMP_HEADER_SIZE, Driven.headerOf W f s x = h x

/-- Between two requests of `f`, after its header has been read or filled in. -/
structure Between (W : Wiring) (core : CoreHeader) (f : DumpCall) (h : DumpHeader) (s : Driven)
    (m : Machine) : Prop extends AlikeIdle W core s m where
  held : Held W f h s

section Private

variable {W : Wiring} {core : CoreHeader} {x : ℕ}

theorem Wiring.Private.coreMemory (h : W.Private x) : CoreMemory W.sizes x := by
  rcases h with hheap | ⟨f, hheader⟩
  · exact W.heap_core x hheap
  · exact W.header_core f x hheader

theorem Geometry.ram_public (hg : Geometry W.sizes core) (hx : core.InRam x) : ¬ W.Private x :=
  fun hprivate => hg.apart_core x hx hprivate.coreMemory

theorem Geometry.facs_public (hg : Geometry W.sizes core) (hx : core.InFacs x) : ¬ W.Private x :=
  fun hprivate => hg.facs_apart_core x hx hprivate.coreMemory

theorem Wiring.switchBuf_public (W : Wiring) (h1 : W.switchBuf ≤ x)
    (h2 : x < W.switchBuf + SWITCH_BUF_SIZE) : ¬ W.Private x := by
  rintro (hheap | ⟨f, hheader⟩)
  · exact W.switchBuf_heap x h1 h2 hheap
  · exact W.switchBuf_header f x h1 h2 hheader

theorem Wiring.toNat_switchBuf (W : Wiring) : (UInt64.ofNat W.switchBuf).toNat = W.switchBuf := by
  have hle := W.switchBuf_le
  have hsizes := W.sizes_le
  simp only [CORE_PHYS_ADDR, CORE_MAX_PHYS_MEM_SIZE] at hle hsizes
  rw [UInt64.toNat_ofNat']
  exact Nat.mod_eq_of_lt (by omega)

/-- The saved vector is the same on both sides. -/
theorem Alike.savedVector {s : Driven} {m : Machine} (h : Alike W core s m) (hg : Geometry W.sizes core) :
    findOriginalWakingVector core s.mem = findOriginalWakingVector core m.mem := by
  have heq : core.savedVector s.mem = core.savedVector m.mem :=
    savedVector_congr fun x hx => h.mem x (hg.facs_public hx.inFacs)
  simp only [CoreHeader.savedVector] at heq
  simp only [findOriginalWakingVector, heq]

end Private

/-! ## Requests -/

section Moved

variable {sector data size : UInt64} {mem disk : ℕ → UInt8}

theorem movedMem_read (hlt : size.toNat < 2 ^ 32) :
    (⟨true, sector, data, size⟩ : Request).movedMem mem disk =
      blit mem data.toNat disk (sectorPos sector.toNat) size.toNat := by
  rw [Request.movedMem, if_pos (Request.requestType_eq _ |>.mpr rfl), Request.len_eq,
    Nat.mod_eq_of_lt hlt]
  rfl

theorem movedDisk_read : (⟨true, sector, data, size⟩ : Request).movedDisk mem disk = disk :=
  if_pos (Request.requestType_eq _ |>.mpr rfl)

theorem write_requestType : ¬ (⟨false, sector, data, size⟩ : Request).requestType = VIRTIO_BLK_T_IN :=
  fun h => Bool.false_ne_true ((Request.requestType_eq _).mp h)

theorem movedMem_write : (⟨false, sector, data, size⟩ : Request).movedMem mem disk = mem :=
  if_neg write_requestType

/-- A write moves the low 32 bits of its length. -/
theorem movedDisk_write : (⟨false, sector, data, size⟩ : Request).movedDisk mem disk =
    blit disk (sectorPos sector.toNat) mem data.toNat (size.toNat % 2 ^ 32) := by
  rw [Request.movedDisk, if_neg write_requestType, Request.len_eq]
  rfl

/-- The size of a header, as a `size_t`. -/
theorem toNat_headerSize : (UInt64.ofNat DUMP_HEADER_SIZE).toNat = DUMP_HEADER_SIZE := by decide

theorem headerSize_mod : UInt64.ofNat DUMP_HEADER_SIZE % 512 = 0 := by decide

theorem headerSize_lt : (UInt64.ofNat DUMP_HEADER_SIZE).toNat < 2 ^ 32 := by decide

end Moved

/-- From `s` to `s'` the request has been served. -/
structure Served (W : Wiring) (r : Request) (s s' : Driven) : Prop where
  idle : ∃ descs lists, Idle W.layout descs lists s'.hw
  disk : s'.disk = r.movedDisk s.mem s.disk
  mem : ∀ x, ¬ InHeap W.layout x → s'.mem x = r.movedMem s.mem s.disk x
  core : s'.core = s.core
  issued : s'.issued = s.issued + 1
  vector : s'.kernelWakingVector = s.kernelWakingVector

section Requests

variable {W : Wiring} {D : DiskDevice} {core : CoreHeader} {f : DumpCall} {h : DumpHeader}
  {r : Request} {s s' : Driven} {m : Machine} {P : Platform} {E : Driven → Machine → Prop}

theorem request_served (hD : D.Serves) (hidle : ∃ descs lists, Idle W.layout descs lists s.hw)
    (hapart : r.Apart W.layout) (hsize : r.size % 512 = 0) :
    ∃ s', Driven.request W D r s = some (.ok (), s') ∧ Served W r s s' := by
  obtain ⟨descs, lists, hidle⟩ := hidle
  obtain ⟨k, hk, hnone, hok⟩ := hD s.issued
  obtain ⟨hw, hrun⟩ := completeRequest_ok (r := r) hidle hsize hk hnone hok
  have hcompleted := completeRequest_spec hidle hapart hsize hrun
  refine ⟨{ s with issued := s.issued + 1, hw := hw }, ?_, hcompleted.idle, hcompleted.disk, ?_, rfl,
    rfl, rfl⟩
  · rw [Driven.request, Prog.bind_get_apply, Prog.bind_modify_apply]
    exact Driven.onHw_eq hrun
  · obtain ⟨header, hblock, -, hmem⟩ := hcompleted.mem
    exact fun x hx => hmem x (.of_not_inHeap hblock hx)

/-- What a request leaves of a state, on both sides, if the transfer is the same. -/
theorem Served.alike (h : Served W r s s') (halike : Alike W core s m) {mem disk : ℕ → UInt8}
    (hmem : ∀ x, ¬ W.Private x → r.movedMem s.mem s.disk x = mem x)
    (hdisk : r.movedDisk s.mem s.disk = disk) :
    AlikeIdle W core s' { m with mem := mem, disk := disk, issued := m.issued + 1 } where
  mem := fun x hx => (h.mem x fun hheap => hx (Or.inl hheap)).trans (hmem x hx)
  disk := h.disk.trans hdisk
  header := h.core.trans halike.header
  header' := halike.header'
  issued := h.issued.trans (congrArg (· + 1) halike.issued)
  vector := h.vector.trans halike.vector
  idle := h.idle

/-- A request whose buffer is not in the header leaves the header. -/
theorem Served.held (hserved : Served W r s s') (hheld : Held W f h s)
    (hbuf : ∀ x, InHeader (W.header f) x → ¬ r.InBuffer x) : Held W f h s' := by
  intro x hx
  have hin : InHeader (W.header f) ((W.header f).toNat + x) := ⟨by omega, by omega⟩
  rw [← hheld x hx, Driven.headerOf, hserved.mem _ (W.header_heap f _ hin),
    Request.movedMem_outside (hbuf _ hin)]
  rfl

/-- A buffer with no private byte. -/
def Request.Public (W : Wiring) (r : Request) : Prop := ∀ x, r.InBuffer x → ¬ W.Private x

theorem Request.Public.apart (hr : Request.Public W r) : r.Apart W.layout :=
  fun x hx hheap => hr x hx (Or.inl hheap)

theorem Request.Public.header (hr : Request.Public W r) :
    ∀ x, InHeader (W.header f) x → ¬ r.InBuffer x :=
  fun x hx hbuf => hr x hbuf (Or.inr ⟨f, hx⟩)

variable {sector data size : UInt64}

/-- **A write** from a public buffer. -/
theorem inStep_write (hD : D.Serves) (hmult : size % 512 = 0)
    (hpublic : Request.Public W ⟨false, sector, data, size⟩) :
    Prog.InStep (Between W core f h) E (Driven.writeVirtioBlk W D sector data size)
      (writeVirtioBlk D.blk sector.toNat data.toNat (size.toNat % 2 ^ 32))
      fun _ _ => Between W core f h := by
  intro s m hsm
  obtain ⟨s', hrun, hserved⟩ := request_served hD hsm.idle hpublic.apart hmult
  rw [Driven.writeVirtioBlk, hrun, writeVirtioBlk, blkRequest_ok rfl]
  refine .ok ⟨hserved.alike hsm.toAlike (fun x hx => ?_) ?_, hserved.held hsm.held hpublic.header⟩
  · rw [movedMem_write]
    exact hsm.mem x hx
  · have hle := Nat.mod_le size.toNat (2 ^ 32)
    rw [movedDisk_write, hsm.disk]
    exact blit_congr fun i hi => hsm.mem _ (hpublic _ ⟨by simp only; omega, by simp only; omega⟩)

/-- **A read** to a public buffer of less than 4 GiB. -/
theorem inStep_read (hD : D.Serves) (hmult : size % 512 = 0) (hlt : size.toNat < 2 ^ 32)
    (hpublic : Request.Public W ⟨true, sector, data, size⟩) :
    Prog.InStep (Between W core f h) E (Driven.readVirtioBlk W D sector data size)
      (readVirtioBlk D.blk sector.toNat data.toNat size.toNat) fun _ _ => Between W core f h := by
  intro s m hsm
  obtain ⟨s', hrun, hserved⟩ := request_served hD hsm.idle hpublic.apart hmult
  rw [Driven.readVirtioBlk, hrun, readVirtioBlk, blkRequest_ok rfl]
  refine .ok ⟨hserved.alike hsm.toAlike (fun x hx => ?_) ?_, hserved.held hsm.held hpublic.header⟩
  · rw [movedMem_read hlt, hsm.disk]
    simp only [blit, Machine.tick, hsm.mem x hx]
  · rw [movedDisk_read]
    exact hsm.disk

theorem header_apart (isRead : Bool) :
    (⟨isRead, 0, W.header f, UInt64.ofNat DUMP_HEADER_SIZE⟩ : Request).Apart W.layout :=
  fun x hx => W.header_heap f x hx

/-- **`read_dump_header`**: the local holds the header on the disk. -/
theorem readDumpHeader_run (hD : D.Serves) (hsm : AlikeIdle W core s m) (stack : ℕ → UInt8) :
    ∃ s', Driven.readDumpHeader W D f s = some (.ok (), s') ∧
      Between W core f (blit stack 0 m.disk 0 DUMP_HEADER_SIZE) s' m.tick := by
  obtain ⟨s', hrun, hserved⟩ := request_served hD hsm.idle (header_apart (f := f) true) headerSize_mod
  refine ⟨s', hrun, hserved.alike hsm.toAlike (fun x hx => ?_) ?_, fun x hx => ?_⟩
  · rw [movedMem_read headerSize_lt, toNat_headerSize, blit_outside]
    · exact hsm.mem x hx
    · by_contra hcon
      exact hx (Or.inr ⟨f, by unfold InHeader; omega⟩)
  · rw [movedDisk_read]
    exact hsm.disk
  · have hin : InHeader (W.header f) ((W.header f).toNat + x) := ⟨by omega, by omega⟩
    have hfirst : sectorPos (0 : UInt64).toNat = 0 := by decide
    have hbyte : blit stack 0 m.disk 0 DUMP_HEADER_SIZE (0 + x) = m.disk (0 + x) := blit_add hx
    rw [Driven.headerOf, hserved.mem _ (W.header_heap f _ hin), movedMem_read headerSize_lt,
      toNat_headerSize, blit_add hx, hfirst, hsm.disk, ← hbyte, Nat.zero_add]

/-- **`write_dump_header`** on both sides. -/
theorem inStep_writeDumpHeader (hD : D.Serves) :
    Prog.InStep (Between W core f h) E (Driven.writeDumpHeader W D f) (writeDumpHeader D.blk h)
      fun _ _ => AlikeIdle W core := by
  intro s m hsm
  obtain ⟨s', hrun, hserved⟩ := request_served hD hsm.idle (header_apart (f := f) false)
    headerSize_mod
  rw [Driven.writeDumpHeader, Driven.writeVirtioBlk, hrun, writeDumpHeader_ok h rfl]
  refine .ok (hserved.alike hsm.toAlike (fun x hx => ?_) ?_)
  · rw [movedMem_write]
    exact hsm.mem x hx
  · have hfirst : sectorPos (0 : UInt64).toNat = 0 := by decide
    rw [movedDisk_write, Nat.mod_eq_of_lt headerSize_lt, toNat_headerSize, hfirst, hsm.disk]
    funext x
    by_cases hx : x < DUMP_HEADER_SIZE
    · have hbyte := hsm.held x hx
      simp only [blit, Nat.zero_le, Nat.zero_add, hx, and_self, if_true, Nat.sub_zero]
      exact hbyte
    · rw [blit_outside (by omega), blit_outside (by omega)]

end Requests

end SwitchOs
