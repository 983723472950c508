import SwitchOs.Virtio.Request
import SwitchOs.Lib.Runs

/-!
# The driver is an exact block device, below 4 GiB

Every driver that is reached from an initialised one by completed requests is idle, however often
its 16-bit indices have wrapped (`reachable_idle`). The data descriptor has a 32-bit length, though.
`virtio_exact_iff`: a request that succeeds has moved all its bytes if there are fewer than 2^32 of
them, and otherwise only if the rest was equal anyway.
-/

namespace SwitchOs.Virtio

variable {L : Layout} {r : Request} {descs : List UInt16} {lists : ℕ → List UInt64} {s s' : Hw}

/-! ## Reachable drivers -/

/-- A checked allocation that succeeds takes one block, of whatever size. -/
theorem calloc_checked {count size n : ℕ} {β : Type} {f : UInt64 → Driver β} {b : β}
    (hlists : HeapLists L s.heap lists) (hn : n < (lists 0).length)
    (hrun : (calloc count size >>= fun ptr => check (ptr != 0) >>= fun _ => f ptr) s =
      some (.ok b, s')) :
    ∃ ptr t lists', f ptr t = some (.ok b, s') ∧ HeapLists L t.heap lists' ∧
      n ≤ (lists' 0).length := by
  obtain ⟨hptr, hrest⟩ := calloc_check_ok hrun
  obtain ⟨i, blocks, -, hblocks, hlists', -⟩ := coreCalloc_spec hlists hptr
  refine ⟨_, _, _, hrest, hlists', ?_⟩
  by_cases h0 : i = 0
  · subst h0
    rw [Function.update_self]
    rw [hblocks, List.length_cons] at hn
    omega
  · rw [Function.update_of_ne (Ne.symm h0)]
    omega

/-- The driver after `init_virtio_blk_queue`, on a heap that has just been initialised. -/
theorem initVirtioBlkQueue_idle {queueSize : UInt16} (hsize : 3 ≤ queueSize.toNat) {h : Heap}
    (hheap : s.heap = coreInitAllocators L h)
    (hrun : initVirtioBlkQueue queueSize s = some (.ok (), s')) :
    ∃ descs lists, Idle L descs lists s' := by
  obtain ⟨lists₀, hlists₀, hlen₀⟩ := coreInitAllocators_lists L h
  rw [← hheap] at hlists₀
  rw [initVirtioBlkQueue] at hrun
  obtain ⟨_, t₀, hcheck, hrun₀⟩ := Prog.bind_eq_ok hrun
  obtain ⟨hvalid, ht₀⟩ := Prog.check_eq_ok hcheck
  rw [Bool.and_eq_true, bne_iff_ne] at hvalid
  rw [ht₀] at hrun₀
  -- the three blocks
  obtain ⟨_, t₁, lists₁, hrun₁, hlists₁, hlen₁⟩ := calloc_checked (n := 3) hlists₀
    (by rw [hlen₀ 0 (by omega)]; decide) hrun₀
  obtain ⟨_, t₂, lists₂, hrun₂, hlists₂, hlen₂⟩ := calloc_checked (n := 2) hlists₁ (by omega) hrun₁
  obtain ⟨_, t₃, lists₃, hrun₃, hlists₃, hlen₃⟩ := calloc_checked (n := 1) hlists₂ (by omega) hrun₂
  obtain ⟨-, rfl⟩ := Prod.mk.inj (Option.some.inj hrun₃)
  -- the queue
  have hfree := initialQueue_freeDescs hvalid.1 (decide_eq_true_iff.mp hvalid.2)
  refine ⟨allDescs queueSize, lists₃, ⟨hfree, ?_, hsize, hlists₃, ?_, rfl, rfl⟩⟩
  · rw [allDescs, List.length_map, List.length_range']
    exact hsize
  · intro hnil
    rw [hnil] at hlen₃
    simp at hlen₃

/-- What happens to a driver: a completed request, or a change of memory that is not its own. -/
inductive DriverEvent where
  | request (r : Request)
  | compute

/-- Steps of a system with the driver in it. -/
inductive DriverStep (L : Layout) : Hw → DriverEvent → Hw → Prop
  | request {r : Request} {sched : Schedule} {fuel : ℕ} {s s' : Hw} :
      r.Apart L → r.size % 512 = 0 →
      completeRequest L r sched fuel s = some (.ok (), s') →
      DriverStep L s (.request r) s'
  | compute {s : Hw} {mem : ℕ → UInt8} :
      (∀ x, InHeap L x → mem x = s.heap.mem x) →
      DriverStep L s .compute { s with heap := { s.heap with mem := mem } }

/-- A driver that is reached, by completed requests, from an initialised one. -/
def Reachable (L : Layout) (queueSize : UInt16) (s : Hw) : Prop :=
  ∃ (h : Heap) (s₀ s₁ : Hw) (es : List DriverEvent), s₀.heap = coreInitAllocators L h ∧
    initVirtioBlkQueue queueSize s₀ = some (.ok (), s₁) ∧ Runs (DriverStep L) s₁ es s

theorem DriverStep.idle {e : DriverEvent} (hidle : ∃ descs lists, Idle L descs lists s)
    (hstep : DriverStep L s e s') : ∃ descs lists, Idle L descs lists s' := by
  obtain ⟨descs, lists, h⟩ := hidle
  cases hstep with
  | request hapart hsize hrun => exact (completeRequest_spec h hapart hsize hrun).idle
  | compute hmem =>
    exact ⟨descs, lists, h.free, h.three, h.size_ge, h.heap.congr_outside hmem, h.block, h.seen,
      h.served⟩

/-- **Every reachable driver is idle**, however often its indices have wrapped. -/
theorem reachable_idle {queueSize : UInt16} (hsize : 3 ≤ queueSize.toNat)
    (h : Reachable L queueSize s) : ∃ descs lists, Idle L descs lists s := by
  obtain ⟨heap, s₀, s₁, es, hheap, hinit, hrun⟩ := h
  exact hrun.invariant (I := fun s => ∃ descs lists, Idle L descs lists s)
    (fun _ _ _ hidle hstep => hstep.idle hidle) (initVirtioBlkQueue_idle hsize hheap hinit)

/-! ## Exactness -/

/-- From `s` to `s'` the request has moved all its bytes, and nothing else has changed but its block
of the heap, the rings and the descriptors. -/
structure Exact (L : Layout) (r : Request) (s s' : Hw) : Prop where
  moved :
    if r.isRead then
      window s'.heap.mem r.data.toNat r.size.toNat = window s.disk r.pos r.size.toNat
    else window s'.disk r.pos r.size.toNat = window s.heap.mem r.data.toNat r.size.toNat
  mem : ∃ header, IsBlock L 0 header ∧ ∀ x, OutsideBlock header x →
    ¬ (r.isRead = true ∧ r.InBuffer x) → s'.heap.mem x = s.heap.mem x
  disk : ∀ x, ¬ (r.isRead = false ∧ r.pos ≤ x ∧ x < r.pos + r.size.toNat) → s'.disk x = s.disk x

/-- The bytes beyond the 32-bit length are the same in the buffer and on the disk. -/
def TailAgrees (r : Request) (s : Hw) : Prop :=
  ∀ i, r.len ≤ i → i < r.size.toNat → s.heap.mem (r.data.toNat + i) = s.disk (r.pos + i)

theorem Completed.mem_frame (h : Completed L r lists s s') :
    ∃ header, IsBlock L 0 header ∧ ∀ x, OutsideBlock header x →
      ¬ (r.isRead = true ∧ r.InBuffer x) → s'.heap.mem x = s.heap.mem x := by
  obtain ⟨header, hblock, -, hmem⟩ := h.mem
  refine ⟨header, hblock, fun x hx hbuf => ?_⟩
  rw [hmem x hx]
  by_cases hread : r.isRead = true
  · exact Request.movedMem_outside fun hb => hbuf ⟨hread, hb⟩
  · rw [Request.movedMem, if_neg (by rwa [r.requestType_eq])]

theorem Completed.disk_frame (h : Completed L r lists s s') :
    ∀ x, ¬ (r.isRead = false ∧ r.pos ≤ x ∧ x < r.pos + r.size.toNat) → s'.disk x = s.disk x := by
  intro x hx
  rw [h.disk, Request.movedDisk]
  split
  case isTrue => rfl
  case isFalse hout =>
    have hle := r.len_le
    have hwrite : r.isRead = false := by
      rw [r.requestType_eq] at hout
      simpa using hout
    refine blit_outside ?_
    by_contra hcon
    exact hx ⟨hwrite, by omega, by omega⟩

/-- A completed request has moved all its bytes exactly if the bytes it left out agreed. -/
theorem Completed.exact_iff (h : Completed L r lists s s') (hapart : r.Apart L) :
    Exact L r s s' ↔ TailAgrees r s := by
  have hle := r.len_le
  have hmoved : (if r.isRead then
        window s'.heap.mem r.data.toNat r.size.toNat = window s.disk r.pos r.size.toNat
      else window s'.disk r.pos r.size.toNat = window s.heap.mem r.data.toNat r.size.toNat) ↔
      TailAgrees r s := by
    cases hread : r.isRead with
    | true =>
      obtain ⟨header, hblock, -, hmem⟩ := h.mem
      have hin : r.requestType = VIRTIO_BLK_T_IN := r.requestType_eq.mpr hread
      have hbuf : ∀ i < r.size.toNat, s'.heap.mem (r.data.toNat + i) =
          blit s.heap.mem r.data.toNat s.disk r.pos r.len (r.data.toNat + i) := by
        intro i hi
        rw [hmem _ (.of_not_inHeap hblock (hapart _ ⟨by omega, by omega⟩)), Request.movedMem,
          if_pos hin]
      rw [if_pos rfl, window_eq_window]
      constructor
      · intro hall i hlen hi
        rw [← hall i hi, hbuf i hi, blit_outside (by omega)]
      · intro htail i hi
        rw [hbuf i hi]
        by_cases hlen : i < r.len
        · exact blit_add hlen
        · rw [blit_outside (by omega), htail i (by omega) hi]
    | false =>
      have hout : ¬ r.requestType = VIRTIO_BLK_T_IN := by rw [r.requestType_eq, hread]; simp
      rw [if_neg Bool.false_ne_true, window_eq_window, h.disk, Request.movedDisk, if_neg hout]
      constructor
      · intro hall i hlen hi
        rw [← hall i hi, blit_outside (by omega)]
      · intro htail i hi
        by_cases hlen : i < r.len
        · exact blit_add hlen
        · rw [blit_outside (by omega), htail i (by omega) hi]
  exact ⟨fun hexact => hmoved.mp hexact.moved,
    fun htail => ⟨hmoved.mpr htail, h.mem_frame, h.disk_frame⟩⟩

/-- **When the driver is an exact block device.** A read or write of whole sectors that succeeds,
with its response, has moved exactly its bytes if and only if there are fewer than 2^32 of them, or
those beyond the 32-bit length agreed to begin with. -/
theorem virtio_exact_iff {queueSize : UInt16} (hsize : 3 ≤ queueSize.toNat)
    (hreach : Reachable L queueSize s) (hapart : r.Apart L) (hmult : r.size % 512 = 0)
    {sched : Schedule} {fuel : ℕ} (hrun : completeRequest L r sched fuel s = some (.ok (), s')) :
    Exact L r s s' ↔ r.size.toNat < 2 ^ 32 ∨ TailAgrees r s := by
  obtain ⟨descs, lists, hidle⟩ := reachable_idle hsize hreach
  rw [(completeRequest_spec hidle hapart hmult hrun).exact_iff hapart]
  refine ⟨Or.inr, ?_⟩
  rintro (hlt | htail)
  · intro i hlen hi
    rw [r.len_eq, Nat.mod_eq_of_lt hlt] at hlen
    omega
  · exact htail

/-! ## A transfer of 4 GiB -/

/-- An allocation that fits a block succeeds while every list has one, and takes one block. -/
theorem calloc_succeeds (count size : ℕ) (hlists : HeapLists L s.heap lists)
    (hpos : ∀ i < 5, 0 < (lists i).length) (hle : count * size ≤ 8192) :
    ∃ ptr s' lists', calloc count size s = some (.ok ptr, s') ∧ (ptr != 0) = true ∧
      HeapLists L s'.heap lists' ∧ (∀ i < 5, (lists i).length ≤ (lists' i).length + 1) ∧
      s'.disk = s.disk := by
  obtain ⟨i, hfind⟩ : ∃ i, findAllocatorForSize (count * size % 2 ^ 64) = some i := by
    refine Option.isSome_iff_exists.mp (List.find?_isSome.mpr ⟨4, by simp, ?_⟩)
    exact decide_eq_true ((Nat.mod_le _ _).trans hle)
  have hi := (findAllocatorForSize_spec hfind).1
  have hptr := coreCalloc_ne_zero hlists hfind (List.length_pos_iff.mp (hpos i hi))
  obtain ⟨j, blocks, -, hblocks, hlists', -⟩ := coreCalloc_spec hlists hptr
  refine ⟨_, _, _, calloc_apply _ _ _, bne_iff_ne.mpr hptr, hlists', fun k hk => ?_, rfl⟩
  by_cases hkj : k = j
  · subst hkj
    rw [Function.update_self, hblocks, List.length_cons]
  · rw [Function.update_of_ne hkj]
    omega

/-- An initialisation of a queue that fits the blocks of the heap succeeds, and takes three blocks. -/
theorem initVirtioBlkQueue_ok {queueSize : UInt16} (hpos : 0 < queueSize.toNat)
    (hmax : queueSize.toNat ≤ 512) {h : Heap} (hheap : s.heap = coreInitAllocators L h) :
    ∃ s' lists, initVirtioBlkQueue queueSize s = some (.ok (), s') ∧ s'.disk = s.disk ∧
      HeapLists L s'.heap lists ∧ ∀ i < 5, blockCount i ≤ (lists i).length + 3 := by
  obtain ⟨lists₀, hlists₀, hlen₀⟩ := coreInitAllocators_lists L h
  rw [← hheap] at hlists₀
  have hcount : ∀ i < 5, 3 ≤ blockCount i := by decide
  obtain ⟨_, t₁, lists₁, hrun₁, hptr₁, hlists₁, hlen₁, hdisk₁⟩ := calloc_succeeds 16
    queueSize.toNat hlists₀ (fun i hi => by have := hcount i hi; have := hlen₀ i hi; omega)
    (by omega)
  obtain ⟨_, t₂, lists₂, hrun₂, hptr₂, hlists₂, hlen₂, hdisk₂⟩ := calloc_succeeds
    (4 + 2 * queueSize.toNat) 1 hlists₁ (fun i hi => by
      have := hcount i hi; have := hlen₀ i hi; have := hlen₁ i hi; omega) (by omega)
  obtain ⟨_, t₃, lists₃, hrun₃, hptr₃, hlists₃, hlen₃, hdisk₃⟩ := calloc_succeeds
    (4 + 8 * queueSize.toNat) 1 hlists₂ (fun i hi => by
      have := hcount i hi; have := hlen₀ i hi; have := hlen₁ i hi; have := hlen₂ i hi
      omega) (by omega)
  have hvalid : (queueSize != VIRTIO_INVALID_QUEUE_SIZE && decide (queueSize > 0)) = true := by
    rw [Bool.and_eq_true, bne_iff_ne, decide_eq_true_iff]
    refine ⟨?_, by rw [gt_iff_lt, UInt16.lt_iff_toNat_lt]; exact hpos⟩
    rintro rfl
    exact absurd hmax (by decide)
  refine ⟨{ t₃ with queue := initialQueue queueSize, lastAvail := 0 }, lists₃, ?_,
    hdisk₃.trans (hdisk₂.trans hdisk₁), hlists₃, fun i hi => ?_⟩
  · rw [initVirtioBlkQueue, check, Prog.bind_check_true hvalid, Prog.bind_ok hrun₁, check,
      Prog.bind_check_true hptr₁, Prog.bind_ok hrun₂, check, Prog.bind_check_true hptr₂,
      Prog.bind_ok hrun₃, check, Prog.bind_check_true hptr₃]
    rfl
  · have := hlen₀ i hi
    have := hlen₁ i hi
    have := hlen₂ i hi
    have := hlen₃ i hi
    omega

/-- An initialised driver with zeros in memory outside the heap, and ones on the disk. -/
theorem exists_sample : ∃ s, Reachable sampleLayout 4 s ∧
    (∀ x, ¬ InHeap sampleLayout x → s.heap.mem x = 0) ∧ s.disk = fun _ => 1 := by
  classical
  obtain ⟨s₁, -, hinit, hdisk, -⟩ := initVirtioBlkQueue_ok (L := sampleLayout)
    (s := ⟨coreInitAllocators sampleLayout ⟨fun _ => 0, fun _ => 0⟩, fun _ => 1, initialQueue 4, 0⟩)
    (show 0 < (4 : UInt16).toNat by decide) (by decide) rfl
  refine ⟨{ s₁ with heap := { s₁.heap with
      mem := fun x => if InHeap sampleLayout x then s₁.heap.mem x else 0 } },
    ⟨_, _, s₁, [.compute], rfl, hinit, .cons (.compute fun x hx => if_pos hx) (.nil _)⟩,
    fun x hx => if_neg hx, hdisk⟩

/-- A read of one sector to the first byte above 4 GiB. -/
def sampleRead : Request := ⟨true, 0, 0x100000000, 512⟩

/-- A read of 4 GiB to the same place. -/
def hugeRead : Request := ⟨true, 0, 0x100000000, 0x100000000⟩

/-- The heap of the sample ends below 4 GiB. -/
theorem apart_of_high {r : Request} (hdata : r.data = 0x100000000) : r.Apart sampleLayout := by
  rintro x hx ⟨i, hi, -, hle⟩
  have hend : ∀ i < 5, sampleLayout.buf i + (gAllocator i).bufSize ≤ 0x100000000 := by decide
  specialize hend i hi
  have hhigh : (0x100000000 : UInt64).toNat = 0x100000000 := rfl
  unfold Request.InBuffer at hx
  rw [hdata, hhigh] at hx
  omega

theorem virtio_exact_iff_sample : ∃ s s', Reachable sampleLayout 4 s ∧
    completeRequest sampleLayout sampleRead (fun _ => some VIRTIO_BLK_S_OK) 1 s =
      some (.ok (), s') ∧
    (Exact sampleLayout sampleRead s s' ↔
      sampleRead.size.toNat < 2 ^ 32 ∨ TailAgrees sampleRead s) := by
  obtain ⟨s, hreach, -, -⟩ := exists_sample
  obtain ⟨descs, lists, hidle⟩ := reachable_idle (by decide) hreach
  obtain ⟨s', hrun⟩ : ∃ s', completeRequest sampleLayout sampleRead
      (fun _ => some VIRTIO_BLK_S_OK) 1 s = some (.ok (), s') :=
    completeRequest_ok hidle (by decide) (show 0 < 1 by omega) nofun rfl
  exact ⟨s, s', hreach, hrun, virtio_exact_iff (by decide) hreach (apart_of_high rfl) (by decide)
    hrun⟩

/-- **A read that moves nothing.** 4 GiB are asked for; their length is zero in the data descriptor;
both calls succeed and the buffer is as it was. -/
theorem huge_read_moves_nothing : ∃ s s', Reachable sampleLayout 4 s ∧
    hugeRead.Apart sampleLayout ∧ hugeRead.size % 512 = 0 ∧ hugeRead.size ≠ 0 ∧
    completeRequest sampleLayout hugeRead (fun _ => some VIRTIO_BLK_S_OK) 1 s =
      some (.ok (), s') ∧ ¬ Exact sampleLayout hugeRead s s' := by
  obtain ⟨s, hreach, hmem, hdisk⟩ := exists_sample
  obtain ⟨descs, lists, hidle⟩ := reachable_idle (by decide) hreach
  have hapart : hugeRead.Apart sampleLayout := apart_of_high rfl
  obtain ⟨s', hrun⟩ : ∃ s', completeRequest sampleLayout hugeRead
      (fun _ => some VIRTIO_BLK_S_OK) 1 s = some (.ok (), s') :=
    completeRequest_ok hidle (by decide) (show 0 < 1 by omega) nofun rfl
  refine ⟨s, s', hreach, hapart, by decide, by decide, hrun, ?_⟩
  rw [(completeRequest_spec hidle hapart (by decide) hrun).exact_iff hapart]
  intro htail
  have hlen : hugeRead.len = 0 := rfl
  have hpos : 0 < hugeRead.size.toNat := by decide
  have hbyte := htail 0 (by rw [hlen]) hpos
  rw [hmem _ (hapart _ ⟨by omega, by omega⟩), hdisk] at hbyte
  exact absurd hbyte (by decide)

end SwitchOs.Virtio
