import SwitchOs.Virtio.Blk

/-!
# One request of the driver

Between two requests the driver is idle (`Idle`): its descriptors are all chained in the free list,
both ring indices are where the other side expects them, and the heap has a block for the next
request. A request puts it in flight (`InFlight`), the device serves it, and its response makes the
driver idle again. `completeRequest_spec` says what a request that succeeds has done, and
`completeRequest_ok` that it does succeed.
-/

namespace SwitchOs.Virtio

/-- The byte `x` lies in the buffer of the request. -/
def Request.InBuffer (r : Request) (x : ℕ) : Prop :=
  r.data.toNat ≤ x ∧ x < r.data.toNat + r.size.toNat

/-- The first byte of the request on the disk. -/
def Request.pos (r : Request) : ℕ := sectorPos r.sector.toNat

/-- The length that fits in the data descriptor. -/
def Request.len (r : Request) : ℕ := r.size.toUInt32.toNat

theorem Request.len_eq (r : Request) : r.len = r.size.toNat % 2 ^ 32 := by
  rw [Request.len, UInt64.toNat_toUInt32]

theorem Request.len_le (r : Request) : r.len ≤ r.size.toNat := by
  rw [r.len_eq]
  exact Nat.mod_le _ _

/-- Memory after the transfer of a request. -/
def Request.movedMem (r : Request) (mem disk : ℕ → UInt8) : ℕ → UInt8 :=
  if r.requestType = VIRTIO_BLK_T_IN then blit mem r.data.toNat disk r.pos r.len else mem

/-- The disk after the transfer of a request. -/
def Request.movedDisk (r : Request) (mem disk : ℕ → UInt8) : ℕ → UInt8 :=
  if r.requestType = VIRTIO_BLK_T_IN then disk else blit disk r.pos mem r.data.toNat r.len

/-! ## Idle and in flight -/

/-- The driver between two requests: the free descriptors are `descs` and the free blocks of the heap
those of `lists`. -/
structure Idle (L : Layout) (descs : List UInt16) (lists : ℕ → List UInt64) (s : Hw) : Prop where
  free : FreeDescs s.queue descs
  three : 3 ≤ descs.length
  size_ge : 3 ≤ s.queue.size.toNat
  heap : HeapLists L s.heap lists
  block : lists 0 ≠ []
  seen : s.queue.seenUsed = s.queue.usedIdx
  served : s.lastAvail = s.queue.availIdx

/-- The driver after the request `r` with the descriptors `d1`, `d2`, `d3` and the block `header`. -/
structure InFlight (L : Layout) (r : Request) (header : UInt64) (d1 d2 d3 : UInt16)
    (descs : List UInt16) (lists : ℕ → List UInt64) (s : Hw) : Prop where
  free : FreeDescs s.queue descs
  nodup : (d1 :: d2 :: d3 :: descs).Nodup
  ids : ∀ d ∈ [d1, d2, d3], d < s.queue.size ∧ d ≠ VIRTIO_INVALID_DESC
  size_ge : 3 ≤ s.queue.size.toNat
  desc1 : s.queue.desc d1.toNat =
    ⟨header, UInt32.ofNat VIRTIO_BLK_REQ_HEADER_SIZE, VIRTQ_DESC_F_NEXT, d2⟩
  desc2 : s.queue.desc d2.toNat = ⟨r.data, r.size.toUInt32, dataFlags r.requestType, d3⟩
  desc3_addr : (s.queue.desc d3.toNat).addr =
    header + UInt64.ofNat VIRTIO_BLK_REQ_HEADER_SIZE
  desc3_len : (s.queue.desc d3.toNat).len = UInt32.ofNat VIRTIO_BLK_REQ_FOOTER_SIZE
  desc3_flags : (s.queue.desc d3.toNat).flags = VIRTQ_DESC_F_WRITE
  heap : HeapLists L s.heap lists
  block : IsBlock L 0 header
  notFree : header ∉ lists 0
  sector : get64 s.heap.mem (header.toNat + VIRTIO_BLK_REQ_SECTOR) = r.sector
  seen : s.queue.seenUsed = s.queue.usedIdx
  avail : s.queue.availIdx = s.lastAvail + 1
  ring : s.queue.availRing (s.lastAvail % s.queue.size).toNat = d1

/-- The byte `x` lies outside the block `header`. -/
def OutsideBlock (header : UInt64) (x : ℕ) : Prop :=
  x < header.toNat ∨ header.toNat + 32 ≤ x

variable {L : Layout} {r : Request} {header : UInt64} {d1 d2 d3 : UInt16} {descs : List UInt16}
  {lists : ℕ → List UInt64} {s s' : Hw}

theorem blockSize_zero : (gAllocator 0).blockSize = 32 := rfl

/-- A byte outside the heap is outside every block of it. -/
theorem OutsideBlock.of_not_inHeap (hb : IsBlock L 0 header) {x : ℕ} (hx : ¬ InHeap L x) :
    OutsideBlock header x := by
  by_contra hcon
  refine hx (hb.inHeap (by omega) ?_ ?_)
  · unfold OutsideBlock at hcon
    omega
  · unfold OutsideBlock at hcon
    rw [blockSize_zero]
    omega

/-- The end of a block is an address. -/
theorem IsBlock.toNat_add {k : ℕ} (hb : IsBlock L 0 header) (hk : k ≤ 32) :
    (header + UInt64.ofNat k).toNat = header.toNat + k := by
  have h1 := hb.bounds (by omega)
  have h2 := L.buf_lt 0 (by omega)
  simp only [blockSize_zero] at h1
  rw [UInt64.toNat_add, UInt64.toNat_ofNat']
  omega

/-! ## The request -/

theorem fillRequest_outside {requestType : UInt32} {sector : UInt64} {mem : ℕ → UInt8} {x : ℕ}
    (hx : OutsideBlock header x) : fillRequest header requestType sector mem x = mem x := by
  unfold OutsideBlock at hx
  simp only [fillRequest, VIRTIO_BLK_REQ_HEADER_SIZE, VIRTIO_BLK_REQ_SECTOR]
  rw [setCell_ne _ _ (by omega), put64_outside (by omega), put32_outside (by omega)]

theorem fillRequest_sector (requestType : UInt32) (sector : UInt64) (mem : ℕ → UInt8) :
    get64 (fillRequest header requestType sector mem) (header.toNat + VIRTIO_BLK_REQ_SECTOR) =
      sector := by
  have hcell : get64 (fillRequest header requestType sector mem)
      (header.toNat + VIRTIO_BLK_REQ_SECTOR) =
      get64 (put64 (put32 mem header.toNat requestType) (header.toNat + VIRTIO_BLK_REQ_SECTOR)
        sector) (header.toNat + VIRTIO_BLK_REQ_SECTOR) := by
    refine get64_congr fun k hk => ?_
    simp only [fillRequest, VIRTIO_BLK_REQ_HEADER_SIZE, VIRTIO_BLK_REQ_SECTOR]
    exact setCell_ne _ _ (by omega)
  rw [hcell, get64_put64]

/-- Descriptors other than the three of the request are not written to. -/
theorem fillDescs_ne {desc : ℕ → VirtqDesc} {data size : UInt64} {requestType : UInt32} {d : UInt16}
    (h1 : d ≠ d1) (h2 : d ≠ d2) (h3 : d ≠ d3) :
    fillDescs d1 d2 d3 header data size requestType desc d.toNat = desc d.toNat := by
  have hne : ∀ {a : UInt16}, d ≠ a → d.toNat ≠ a.toNat := fun h heq => h (UInt16.toNat_inj.mp heq)
  simp only [fillDescs, Function.update_of_ne (hne h1), Function.update_of_ne (hne h2),
    Function.update_of_ne (hne h3)]

/-- The three descriptors of a request, once they are filled in. -/
theorem fillDescs_eq {desc : ℕ → VirtqDesc} {data size : UInt64} {requestType : UInt32}
    (h12 : d1 ≠ d2) (h13 : d1 ≠ d3) (h23 : d2 ≠ d3) :
    fillDescs d1 d2 d3 header data size requestType desc d1.toNat =
        ⟨header, UInt32.ofNat VIRTIO_BLK_REQ_HEADER_SIZE, VIRTQ_DESC_F_NEXT, d2⟩ ∧
      fillDescs d1 d2 d3 header data size requestType desc d2.toNat =
        ⟨data, size.toUInt32, dataFlags requestType, d3⟩ ∧
      fillDescs d1 d2 d3 header data size requestType desc d3.toNat =
        ⟨header + UInt64.ofNat VIRTIO_BLK_REQ_HEADER_SIZE, UInt32.ofNat VIRTIO_BLK_REQ_FOOTER_SIZE,
          VIRTQ_DESC_F_WRITE, (desc d3.toNat).next⟩ := by
  have hne : ∀ {a b : UInt16}, a ≠ b → a.toNat ≠ b.toNat := fun h heq => h (UInt16.toNat_inj.mp heq)
  simp only [fillDescs]
  refine ⟨?_, ?_, ?_⟩
  · rw [Function.update_of_ne (hne h13), Function.update_of_ne (hne h12), Function.update_self]
  · rw [Function.update_of_ne (hne h23), Function.update_self]
  · rw [Function.update_self, Function.update_of_ne (hne h23.symm),
      Function.update_of_ne (hne h13.symm)]

/-- The driver after a request that has taken the descriptors `d1`, `d2`, `d3` and the block
`header`. -/
def requested (r : Request) (header : UInt64) (d1 d2 d3 : UInt16) (s : Hw) : Hw :=
  { s with
    heap := { (coreCalloc VIRTIO_BLK_REQ_SIZE 1 s.heap).2 with
      mem := fillRequest header r.requestType r.sector
        (coreCalloc VIRTIO_BLK_REQ_SIZE 1 s.heap).2.mem }
    queue := makeAvailable { s.queue with
      freeHead := (s.queue.desc d3.toNat).next
      desc := fillDescs d1 d2 d3 header r.data r.size r.requestType s.queue.desc } d1 }

/-- A request that finds three descriptors and a block. -/
theorem requestVirtioBlk_run {t : List UInt16} (hfree : FreeDescs s.queue (d1 :: d2 :: d3 :: t))
    (hptr : (coreCalloc VIRTIO_BLK_REQ_SIZE 1 s.heap).1 = header) (hne : header ≠ 0)
    (hsize : r.size % 512 = 0) :
    requestVirtioBlk L r.requestType r.sector r.data r.size s =
        some (.ok (), requested r header d1 d2 d3 s) ∧
      FreeDescs { s.queue with freeHead := (s.queue.desc d3.toNat).next } t := by
  let s₁ : Hw := { s with heap := { (coreCalloc VIRTIO_BLK_REQ_SIZE 1 s.heap).2 with
    mem := fillRequest header r.requestType r.sector
      (coreCalloc VIRTIO_BLK_REQ_SIZE 1 s.heap).2.mem } }
  obtain ⟨halloc1, hfree1⟩ := allocQueueDesc_ok (s := s₁) hfree
  obtain ⟨halloc2, hfree2⟩ := allocQueueDesc_ok (s := { s₁ with queue := _ }) hfree1
  obtain ⟨halloc3, hfree3⟩ := allocQueueDesc_ok (s := { s₁ with queue := _ }) hfree2
  refine ⟨?_, hfree3⟩
  have hcheck : (r.size % 512 == 0) = true := by rw [hsize]; rfl
  have hheader : ((coreCalloc VIRTIO_BLK_REQ_SIZE 1 s.heap).1 != 0) = true := by
    rw [bne_iff_ne, hptr]
    exact hne
  rw [requestVirtioBlk, Prog.bind_ok (Prog.orCleanup_ok (Prog.check_ok hcheck)),
    Prog.bind_ok (calloc_apply _ _ _), Prog.bind_ok (Prog.orCleanup_ok (Prog.check_ok hheader)),
    Prog.bind_modify_apply, hptr, Prog.bind_ok (Prog.orCleanup_ok halloc1),
    Prog.bind_ok (Prog.orCleanup_ok halloc2), Prog.bind_ok (Prog.orCleanup_ok halloc3)]
  rfl

/-- **A request of an idle driver** is in flight; it has changed its own block of the heap only. -/
theorem requestVirtioBlk_ok {t : List UInt16} {blocks : List UInt64}
    (h : Idle L (d1 :: d2 :: d3 :: t) lists s) (hblocks : lists 0 = header :: blocks)
    (hsize : r.size % 512 = 0) :
    ∃ s', requestVirtioBlk L r.requestType r.sector r.data r.size s = some (.ok (), s') ∧
      InFlight L r header d1 d2 d3 t (Function.update lists 0 blocks) s' ∧ s'.disk = s.disk ∧
      s'.queue.size = s.queue.size ∧ ∀ x, OutsideBlock header x → s'.heap.mem x = s.heap.mem x := by
  -- the block
  have hfind : findAllocatorForSize (VIRTIO_BLK_REQ_SIZE * 1 % 2 ^ 64) = some 0 := by decide
  have hptr := coreCalloc_ne_zero h.heap hfind h.block
  obtain ⟨i, blocks', hfind', hlist, hheap, hmem⟩ := coreCalloc_spec h.heap hptr
  obtain rfl : 0 = i := Option.some.inj (hfind.symm.trans hfind')
  rw [hblocks] at hlist
  obtain ⟨hheader, rfl⟩ := List.cons.inj hlist
  have hblock : IsBlock L 0 header := (h.heap 0 (by omega)).blocks _ (by simp [hblocks])
  have hnotFree : header ∉ Function.update lists 0 blocks 0 := by
    rw [Function.update_self]
    have hnodup := (h.heap 0 (by omega)).nodup
    rw [hblocks] at hnodup
    exact (List.nodup_cons.mp hnodup).1
  rw [← hheader] at hmem
  -- the three descriptors
  have hfree := h.free
  have hne : ∀ d ∈ d1 :: d2 :: d3 :: t, d ≠ VIRTIO_INVALID_DESC := hfree.chain.ne_null
  obtain ⟨hrun, hfree3⟩ := requestVirtioBlk_run (L := L) (r := r) hfree hheader.symm
    (by rw [hheader]; exact hptr) hsize
  have hnd := hfree.nodup
  refine ⟨requested r header d1 d2 d3 s, hrun, ?_, rfl, rfl, fun x hx => ?_⟩
  · have hnd' := hnd
    simp only [List.nodup_cons, List.mem_cons, not_or] at hnd'
    obtain ⟨⟨h12, h13, h1t⟩, ⟨h23, h2t⟩, h3t, -⟩ := hnd'
    obtain ⟨hdesc1, hdesc2, hdesc3⟩ := fillDescs_eq h12 h13 h23
    refine ⟨?_, hnd, ?_, h.size_ge, hdesc1, hdesc2, ?_, ?_, ?_, ?_, hblock, hnotFree,
      fillRequest_sector _ _ _, h.seen, ?_, ?_⟩
    · refine hfree3.congr rfl rfl fun b hb => fillDescs_ne ?_ ?_ ?_
      · exact fun heq => h1t (heq ▸ hb)
      · exact fun heq => h2t (heq ▸ hb)
      · exact fun heq => h3t (heq ▸ hb)
    · intro d hd
      have hd' : d ∈ d1 :: d2 :: d3 :: t := List.mem_append_left t hd
      exact ⟨hfree.lt_size d hd', hne d hd'⟩
    · exact congrArg VirtqDesc.addr hdesc3
    · exact congrArg VirtqDesc.len hdesc3
    · exact congrArg VirtqDesc.flags hdesc3
    · exact hheap.congr_block (by omega) hblock hnotFree fun x hx => fillRequest_outside hx
    · exact congrArg (· + 1) h.served.symm
    · show Function.update s.queue.availRing (s.queue.availIdx % s.queue.size).toNat d1
        (s.lastAvail % s.queue.size).toNat = d1
      rw [h.served, Function.update_self]
  · rw [show (requested r header d1 d2 d3 s).heap.mem = fillRequest header r.requestType r.sector
      (coreCalloc VIRTIO_BLK_REQ_SIZE 1 s.heap).2.mem from rfl, fillRequest_outside hx, hmem]
    exact blit_outside (by unfold OutsideBlock at hx; simp only [VIRTIO_BLK_REQ_SIZE]; omega)

/-! ## The device -/

/-- The device on the chain of the request in flight. -/
def served (r : Request) (status : UInt8) (header : UInt64) (d1 : UInt16) (s : Hw) : Hw :=
  let mem := r.movedMem s.heap.mem s.disk
  { heap := { s.heap with mem := setCell mem (header.toNat + VIRTIO_BLK_REQ_HEADER_SIZE) status }
    disk := r.movedDisk s.heap.mem s.disk
    queue := postUsed s.queue d1
      ((if r.requestType = VIRTIO_BLK_T_IN then r.size.toUInt32 else 0) + 1)
    lastAvail := s.lastAvail + 1 }

theorem next_flag : (VIRTQ_DESC_F_NEXT &&& VIRTQ_DESC_F_NEXT != 0) = true := by decide

theorem dataFlags_next (requestType : UInt32) :
    (dataFlags requestType &&& VIRTQ_DESC_F_NEXT != 0) = true := by
  rw [dataFlags]
  split <;> decide

theorem dataFlags_write (requestType : UInt32) :
    (dataFlags requestType &&& VIRTQ_DESC_F_WRITE != 0) =
      decide (requestType = VIRTIO_BLK_T_IN) := by
  rw [dataFlags]
  split
  case isTrue h =>
    rw [decide_eq_true h]
    decide
  case isFalse h =>
    rw [decide_eq_false h]
    decide

theorem InFlight.descChain_eq (h : InFlight L r header d1 d2 d3 descs lists s) :
    descChain s.queue.desc s.queue.size.toNat d1 =
      [s.queue.desc d1.toNat, s.queue.desc d2.toNat, s.queue.desc d3.toNat] := by
  obtain ⟨n, hn⟩ : ∃ n, s.queue.size.toNat = n + 3 := ⟨s.queue.size.toNat - 3, by
    have := h.size_ge
    omega⟩
  have hnext1 : ((s.queue.desc d1.toNat).flags &&& VIRTQ_DESC_F_NEXT != 0) = true := by
    rw [h.desc1]
    exact next_flag
  have hnext2 : ((s.queue.desc d2.toNat).flags &&& VIRTQ_DESC_F_NEXT != 0) = true := by
    rw [h.desc2]
    exact dataFlags_next _
  have hnext3 : ((s.queue.desc d3.toNat).flags &&& VIRTQ_DESC_F_NEXT != 0) = false := by
    rw [h.desc3_flags]
    decide
  have hd2 : (s.queue.desc d1.toNat).next = d2 := by rw [h.desc1]
  have hd3 : (s.queue.desc d2.toNat).next = d3 := by rw [h.desc2]
  rw [hn, descChain, hnext1, if_pos rfl, hd2, descChain, hnext2, if_pos rfl, hd3, descChain, hnext3,
    if_neg Bool.false_ne_true]

/-- **A step of the device** serves the request in flight. -/
theorem InFlight.deviceStep_eq (h : InFlight L r header d1 d2 d3 descs lists s) (status : UInt8) :
    deviceStep status s = served r status header d1 s := by
  have hne : ¬ s.lastAvail = s.queue.availIdx := by
    rw [h.avail]
    exact ne_succ _
  have hfooter : (s.queue.desc d3.toNat).addr.toNat = header.toNat + VIRTIO_BLK_REQ_HEADER_SIZE := by
    rw [h.desc3_addr]
    exact IsBlock.toNat_add h.block (by decide)
  rw [deviceStep, if_neg hne, h.ring, serveChain, h.descChain_eq]
  simp only [hfooter, transfer, writtenLen]
  rw [h.desc1, h.desc2]
  simp only [h.sector, dataFlags_write, served, Request.movedMem, Request.movedDisk, Request.pos,
    Request.len, decide_eq_true_eq]
  split <;> rfl

/-- The wait ends with the step of the device, whenever that is. -/
theorem InFlight.waitResponse_eq (h : InFlight L r header d1 d2 d3 descs lists s) :
    ∀ (fuel : ℕ) (sched : Schedule) (s' : Hw) (e : Except Err Unit),
      waitResponse fuel sched s = some (e, s') →
      e = .ok () ∧ ∃ status, s' = served r status header d1 s := by
  intro fuel
  induction fuel with
  | zero => nofun
  | succ fuel ih =>
    intro sched s' e hrun
    rw [waitResponse, Prog.bind_modify_apply, Prog.bind_get_apply] at hrun
    cases hsched : sched 0 with
    | none =>
      rw [hsched] at hrun
      have hseen : isUnseenUsedVirtioQueue s.queue = false := by
        rw [isUnseenUsedVirtioQueue, h.seen]
        exact bne_self_eq_false _
      simp only [scheduled, hseen] at hrun
      exact ih _ _ _ hrun
    | some status =>
      rw [hsched, scheduled, h.deviceStep_eq] at hrun
      have hunseen : isUnseenUsedVirtioQueue (served r status header d1 s).queue = true := by
        rw [isUnseenUsedVirtioQueue, bne_iff_ne]
        show s.queue.seenUsed ≠ s.queue.usedIdx + 1
        rw [h.seen]
        exact ne_succ _
      rw [hunseen] at hrun
      have hrun' := Option.some.inj hrun
      exact ⟨(congrArg Prod.fst hrun').symm, status, (congrArg Prod.snd hrun').symm⟩

/-! ## The response -/

/-- `queue->seen_used++`. -/
def popped (s : Hw) : Hw :=
  { s with queue := { s.queue with seenUsed := s.queue.seenUsed + 1 } }

/-- The response popped is that of the request. -/
theorem InFlight.pop_eq (h : InFlight L r header d1 d2 d3 descs lists s) (status : UInt8) :
    popUsedVirtioQueue (served r status header d1 s) =
      some (.ok (d1, (if r.requestType = VIRTIO_BLK_T_IN then r.size.toUInt32 else 0) + 1),
        popped (served r status header d1 s)) := by
  have hunseen : isUnseenUsedVirtioQueue (served r status header d1 s).queue = true := by
    rw [isUnseenUsedVirtioQueue, bne_iff_ne]
    show s.queue.seenUsed ≠ s.queue.usedIdx + 1
    rw [h.seen]
    exact ne_succ _
  have helem : (served r status header d1 s).queue.usedRing
      (s.queue.seenUsed % s.queue.size).toNat = ⟨d1.toUInt32,
        (if r.requestType = VIRTIO_BLK_T_IN then r.size.toUInt32 else 0) + 1⟩ := by
    rw [h.seen]
    exact Function.update_self _ _ _
  rw [popUsedVirtioQueue, Prog.bind_get_apply, check, Prog.bind_check_true hunseen,
    Prog.bind_modify_apply]
  show some (Except.ok (((served r status header d1 s).queue.usedRing
    (s.queue.seenUsed % s.queue.size).toNat).id.toUInt16, _), _) = _
  rw [show (served r status header d1 s).queue.seenUsed % (served r status header d1 s).queue.size =
    s.queue.seenUsed % s.queue.size from rfl, helem, UInt16.toUInt16_toUInt32]
  rfl

/-- It is accepted exactly if the device reports success. -/
theorem InFlight.validate_eq (h : InFlight L r header d1 d2 d3 descs lists s) (status : UInt8) :
    validateUsedResponse d1 ((if r.requestType = VIRTIO_BLK_T_IN then r.size.toUInt32 else 0) + 1)
        (popped (served r status header d1 s)) =
      some (if status = VIRTIO_BLK_S_OK then .ok () else .error .ERR_INVALID,
        popped (served r status header d1 s)) := by
  have hd1 : (popped (served r status header d1 s)).queue.desc d1.toNat =
      ⟨header, UInt32.ofNat VIRTIO_BLK_REQ_HEADER_SIZE, VIRTQ_DESC_F_NEXT, d2⟩ := h.desc1
  have hd2 : (popped (served r status header d1 s)).queue.desc d2.toNat =
      ⟨r.data, r.size.toUInt32, dataFlags r.requestType, d3⟩ := h.desc2
  have hflags : ((popped (served r status header d1 s)).queue.desc d3.toNat).flags =
      VIRTQ_DESC_F_WRITE := h.desc3_flags
  have hlen : ((popped (served r status header d1 s)).queue.desc d3.toNat).len =
      UInt32.ofNat VIRTIO_BLK_REQ_FOOTER_SIZE := h.desc3_len
  have haddr : ((popped (served r status header d1 s)).queue.desc d3.toNat).addr.toNat =
      header.toNat + VIRTIO_BLK_REQ_HEADER_SIZE := by
    rw [show ((popped (served r status header d1 s)).queue.desc d3.toNat).addr =
      header + UInt64.ofNat VIRTIO_BLK_REQ_HEADER_SIZE from h.desc3_addr]
    exact IsBlock.toNat_add h.block (by decide)
  have hstatus : (popped (served r status header d1 s)).heap.mem
      (header.toNat + VIRTIO_BLK_REQ_HEADER_SIZE) = status := setCell_self _ _ _
  have hfooter : UInt32.ofNat VIRTIO_BLK_REQ_FOOTER_SIZE = 1 := rfl
  have hwritten : ∀ x : UInt32, x + 1 - 1 - x = 0 := by
    intro x
    rw [UInt32.add_sub_cancel, UInt32.sub_self]
  rw [validateUsedResponse, Prog.bind_get_apply]
  simp only [hd1, hd2, check]
  rw [Prog.bind_check_true next_flag, Prog.bind_check_true (dataFlags_next _),
    Prog.bind_check_true (by rw [hflags]; decide), haddr, hstatus, hlen, hfooter, dataFlags_write]
  by_cases hok : status = VIRTIO_BLK_S_OK
  · rw [if_pos hok, Prog.bind_check_true (by rw [hok]; rfl)]
    refine Prog.check_ok ?_
    by_cases hin : r.requestType = VIRTIO_BLK_T_IN
    · simp only [hin, decide_true, if_true, hwritten]
      rfl
    · simp only [hin, decide_false, if_false, Bool.false_eq_true]
      rfl
  · rw [if_neg hok, Prog.bind_check_false (beq_eq_false_iff_ne.mpr hok)]

/-- The driver after the response has been popped and the request freed. -/
theorem InFlight.consume_eq (h : InFlight L r header d1 d2 d3 descs lists s) {sched : Schedule}
    {fuel : ℕ} {e : Except Err Unit}
    (hrun : consumeResponseVirtioBlk L sched fuel s = some (e, s')) :
    ∃ status, (e = .ok () ↔ status = VIRTIO_BLK_S_OK) ∧
      s' = freeRequest L d1 (popped (served r status header d1 s)) := by
  rw [consumeResponseVirtioBlk] at hrun
  rcases hwait : waitResponse fuel sched s with _ | ⟨ew, sw⟩
  · rw [Prog.bind_none hwait] at hrun
    cases hrun
  · obtain ⟨rfl, status, rfl⟩ := h.waitResponse_eq fuel sched sw ew hwait
    have hd1 : d1 ≠ VIRTIO_INVALID_DESC := (h.ids d1 (by simp)).2
    rw [Prog.bind_ok hwait, Prog.bind_ok (h.pop_eq status)] at hrun
    simp only at hrun
    rw [Prog.andCleanup_eq (h.validate_eq status)] at hrun
    obtain ⟨he, hs⟩ := Prod.mk.inj (Option.some.inj hrun)
    refine ⟨status, ?_, ?_⟩
    · rw [← he]
      split
      case isTrue hok => simp [hok]
      case isFalse hbad => simp [hbad]
    · rw [← hs, if_pos hd1]

/-- A buffer that does not meet the heap. -/
def Request.Apart (L : Layout) (r : Request) : Prop := ∀ x, r.InBuffer x → ¬ InHeap L x

/-- The transfer only changes the buffer in memory. -/
theorem Request.movedMem_outside {mem disk : ℕ → UInt8} {x : ℕ} (hx : ¬ r.InBuffer x) :
    r.movedMem mem disk x = mem x := by
  rw [Request.movedMem]
  split
  · have hle := r.len_le
    unfold Request.InBuffer at hx
    exact blit_outside (by omega)
  · rfl

/-- `free_request` frees the three descriptors and the block of the header. -/
theorem InFlight.freeRequest_frees (h : InFlight L r header d1 d2 d3 descs lists s) (status : UInt8) :
    ∃ desc head, FreeDescs { (popped (served r status header d1 s)).queue with
        desc := desc, freeHead := head } (d3 :: d2 :: d1 :: descs) ∧
      freeRequest L d1 (popped (served r status header d1 s)) =
        { popped (served r status header d1 s) with
          queue := { (popped (served r status header d1 s)).queue with
            desc := desc, freeHead := head }
          heap := coreFree L header (popped (served r status header d1 s)).heap } := by
  let q := (popped (served r status header d1 s)).queue
  have hq : q.desc = s.queue.desc := rfl
  have hdescs : requestDescs q d1 = (d1, d2, d3) := by
    simp only [requestDescs, hq, h.desc1, h.desc2, next_flag, dataFlags_next, if_true]
  have hlt : ∀ d ∈ [d1, d2, d3], d < q.size := fun d hd => (h.ids d hd).1
  have hfree : FreeDescs q descs := h.free.congr rfl rfl fun _ _ => rfl
  obtain ⟨desc, head, hqueue, -, haddr⟩ := foldl_freeQueueDesc_frame hlt
  have hall := hfree.freeAll hlt h.nodup
  rw [hqueue] at hall
  have hfold : freeQueueDesc (freeQueueDesc (freeQueueDesc q d1) d2) d3 =
      { q with desc := desc, freeHead := head } := hqueue
  refine ⟨desc, head, hall, ?_⟩
  rw [freeRequest, show requestDescs (popped (served r status header d1 s)).queue d1 =
    (d1, d2, d3) from hdescs]
  simp only
  rw [hfold, haddr, hq, h.desc1]

/-- **The request is freed**: the driver is idle again, with its descriptors and its block back. -/
theorem InFlight.freeRequest_idle (h : InFlight L r header d1 d2 d3 descs lists s)
    (hapart : r.Apart L) (status : UInt8) :
    Idle L (d3 :: d2 :: d1 :: descs) (Function.update lists 0 (header :: lists 0))
        (freeRequest L d1 (popped (served r status header d1 s))) ∧
      (freeRequest L d1 (popped (served r status header d1 s))).disk =
        r.movedDisk s.heap.mem s.disk ∧
      ∀ x, OutsideBlock header x →
        (freeRequest L d1 (popped (served r status header d1 s))).heap.mem x =
          r.movedMem s.heap.mem s.disk x := by
  obtain ⟨desc, head, hfree, hrun⟩ := h.freeRequest_frees status
  -- the heap
  have hmoved : HeapLists L { s.heap with mem := r.movedMem s.heap.mem s.disk } lists :=
    h.heap.congr_outside fun x hx => Request.movedMem_outside fun hb => hapart x hb hx
  have hcell : ∀ x, OutsideBlock header x →
      (popped (served r status header d1 s)).heap.mem x = r.movedMem s.heap.mem s.disk x := by
    intro x hx
    refine setCell_ne _ _ ?_
    unfold OutsideBlock at hx
    simp only [VIRTIO_BLK_REQ_HEADER_SIZE]
    omega
  have hserved : HeapLists L (popped (served r status header d1 s)).heap lists :=
    hmoved.congr_block (by omega) h.block h.notFree hcell
  obtain ⟨hheap, hmem⟩ := coreFree_spec hserved h.block h.notFree
  rw [hrun]
  refine ⟨⟨hfree, by simp, h.size_ge, hheap, by simp, ?_, h.avail.symm⟩, rfl, fun x hx => ?_⟩
  · exact congrArg (· + 1) h.seen
  · rw [← hcell x hx]
    refine hmem x ?_
    unfold OutsideBlock at hx
    omega

/-! ## Completed requests -/

/-- What a request of an idle driver does, up to the wait for its response. -/
theorem Idle.request (h : Idle L descs lists s) (hsize : r.size % 512 = 0) :
    ∃ header d1 d2 d3 t blocks s₁, descs = d1 :: d2 :: d3 :: t ∧ lists 0 = header :: blocks ∧
      requestVirtioBlk L r.requestType r.sector r.data r.size s = some (.ok (), s₁) ∧
      InFlight L r header d1 d2 d3 t (Function.update lists 0 blocks) s₁ ∧ s₁.disk = s.disk ∧
      ∀ x, OutsideBlock header x → s₁.heap.mem x = s.heap.mem x := by
  obtain ⟨d1, d2, d3, t, rfl⟩ : ∃ d1 d2 d3 t, descs = d1 :: d2 :: d3 :: t := by
    have hthree := h.three
    match descs with
    | d1 :: d2 :: d3 :: t => exact ⟨d1, d2, d3, t, rfl⟩
    | [] | [_] | [_, _] => simp at hthree
  obtain ⟨header, blocks, hblocks⟩ := List.exists_cons_of_ne_nil h.block
  obtain ⟨s₁, hrun, hflight, hdisk, -, hmem⟩ := requestVirtioBlk_ok h hblocks hsize
  exact ⟨header, d1, d2, d3, t, blocks, s₁, rfl, hblocks, hrun, hflight, hdisk, hmem⟩

/-- The transfer reads the buffer and the disk as they were before the request. -/
theorem movedDisk_congr {mem mem' disk : ℕ → UInt8} (hmem : ∀ x, r.InBuffer x → mem' x = mem x) :
    r.movedDisk mem' disk = r.movedDisk mem disk := by
  have hle := r.len_le
  rw [Request.movedDisk, Request.movedDisk]
  split
  · rfl
  · exact blit_congr fun i hi => hmem _ ⟨by omega, by omega⟩

theorem movedMem_congr {mem mem' disk : ℕ → UInt8} {x : ℕ} (hmem : mem' x = mem x) :
    r.movedMem mem' disk x = r.movedMem mem disk x := by
  rw [Request.movedMem, Request.movedMem]
  split
  · simp only [blit, hmem]
  · exact hmem

/-- What a completed request leaves: the transfer of the data descriptor, an idle driver, and a block
of the heap of which only the request knew. -/
structure Completed (L : Layout) (r : Request) (lists : ℕ → List UInt64) (s s' : Hw) : Prop where
  idle : ∃ descs lists', Idle L descs lists' s'
  disk : s'.disk = r.movedDisk s.heap.mem s.disk
  mem : ∃ header, IsBlock L 0 header ∧ header ∈ lists 0 ∧
    ∀ x, OutsideBlock header x → s'.heap.mem x = r.movedMem s.heap.mem s.disk x

theorem InFlight.completed {t : List UInt16} {blocks : List UInt64} {s₁ : Hw} {status : UInt8}
    (hflight : InFlight L r header d1 d2 d3 t (Function.update lists 0 blocks) s₁)
    (hblocks : lists 0 = header :: blocks) (hdisk : s₁.disk = s.disk)
    (hmem : ∀ x, OutsideBlock header x → s₁.heap.mem x = s.heap.mem x) (hapart : r.Apart L) :
    Completed L r lists s (freeRequest L d1 (popped (served r status header d1 s₁))) := by
  obtain ⟨hidle, hdisk', hmem'⟩ := hflight.freeRequest_idle hapart status
  refine ⟨⟨_, _, hidle⟩, ?_, header, hflight.block, by simp [hblocks], fun x hx => ?_⟩
  · rw [hdisk', hdisk]
    exact movedDisk_congr fun x hx => hmem x (.of_not_inHeap hflight.block (hapart x hx))
  · rw [hmem' x hx, hdisk]
    exact movedMem_congr (hmem x hx)

/-- **A completed request** has made the transfer of its data descriptor. -/
theorem completeRequest_spec {sched : Schedule} {fuel : ℕ} (h : Idle L descs lists s)
    (hapart : r.Apart L) (hsize : r.size % 512 = 0)
    (hrun : completeRequest L r sched fuel s =
      some (.ok (), s')) : Completed L r lists s s' := by
  obtain ⟨header, d1, d2, d3, t, blocks, s₁, -, hblocks, hreq, hflight, hdisk, hmem⟩ :=
    h.request hsize
  rw [completeRequest_eq, Prog.bind_ok hreq] at hrun
  obtain ⟨status, -, rfl⟩ := hflight.consume_eq hrun
  exact hflight.completed hblocks hdisk hmem hapart

/-- The wait comes to the step of the device, if the schedule does. -/
theorem InFlight.waitResponse_ok (h : InFlight L r header d1 d2 d3 descs lists s) (status : UInt8) :
    ∀ (k fuel : ℕ) (sched : Schedule), k < fuel → (∀ j < k, sched j = none) →
      sched k = some status →
      waitResponse fuel sched s = some (.ok (), served r status header d1 s) := by
  intro k
  induction k with
  | zero =>
    intro fuel sched hfuel _ hk
    obtain ⟨fuel, rfl⟩ := Nat.exists_eq_succ_of_ne_zero (by omega : fuel ≠ 0)
    have hunseen : isUnseenUsedVirtioQueue (served r status header d1 s).queue = true := by
      by_contra hcon
      have hpop := h.pop_eq status
      rw [popUsedVirtioQueue, Prog.bind_get_apply, check,
        Prog.bind_check_false (by simpa using hcon)] at hpop
      cases hpop
    rw [waitResponse, Prog.bind_modify_apply, Prog.bind_get_apply, hk, scheduled, h.deviceStep_eq,
      if_pos hunseen]
    rfl
  | succ k ih =>
    intro fuel sched hfuel hnone hk
    obtain ⟨fuel, rfl⟩ := Nat.exists_eq_succ_of_ne_zero (by omega : fuel ≠ 0)
    have hseen : isUnseenUsedVirtioQueue s.queue = false := by
      rw [isUnseenUsedVirtioQueue, h.seen]
      exact bne_self_eq_false _
    rw [waitResponse, Prog.bind_modify_apply, Prog.bind_get_apply, hnone 0 (by omega), scheduled,
      hseen, if_neg Bool.false_ne_true]
    exact ih fuel _ (by omega) (fun j hj => hnone (j + 1) (by omega)) hk

/-- **Requests complete**: whenever the device first acts, and with success, the driver of a request
of whole sectors sees it and succeeds. -/
theorem completeRequest_ok {sched : Schedule} {k fuel : ℕ} (h : Idle L descs lists s)
    (hsize : r.size % 512 = 0) (hfuel : k < fuel) (hnone : ∀ j < k, sched j = none)
    (hk : sched k = some VIRTIO_BLK_S_OK) :
    ∃ s', completeRequest L r sched fuel s =
      some (.ok (), s') := by
  obtain ⟨header, d1, d2, d3, t, blocks, s₁, -, -, hreq, hflight, -, -⟩ := h.request hsize
  have hwait := hflight.waitResponse_ok VIRTIO_BLK_S_OK k fuel sched hfuel hnone hk
  rw [completeRequest_eq, Prog.bind_ok hreq, consumeResponseVirtioBlk, Prog.bind_ok hwait,
    Prog.bind_ok (hflight.pop_eq _)]
  simp only
  rw [Prog.andCleanup_eq (hflight.validate_eq _), if_pos rfl]
  exact ⟨_, rfl⟩

end SwitchOs.Virtio
