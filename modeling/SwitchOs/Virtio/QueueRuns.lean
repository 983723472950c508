import SwitchOs.Virtio.Request
import SwitchOs.Core.HeapRuns

/-!
# Runs of the driver with several requests outstanding

The callers of the driver make requests and consume responses in any order; the device completes
outstanding chains in any order, and a faulty one puts anything on the used ring. `DriverInv` is what
the driver keeps as long as every response it pops is the head of an outstanding chain: descriptors
are free or in one outstanding chain, and so are the blocks for the request headers.
-/

namespace SwitchOs.Virtio

/-! ## A request, whatever is outstanding -/

section Request

variable {L : Layout} {r : Request} {free : List UInt16} {lists : ℕ → List UInt64} {s s' : Hw}

/-- What a failed request leaves: the same free descriptors, in some order, the same free blocks, and
a queue that differs in the links of the free descriptors only. -/
structure Restores (L : Layout) (free : List UInt16) (lists : ℕ → List UInt64) (s s' : Hw) :
    Prop where
  descs : ∃ free', FreeDescs s'.queue free' ∧ free'.Perm free
  heap : FreeLists L s'.heap lists
  queue : ∃ desc head, s'.queue = { s.queue with desc := desc, freeHead := head } ∧
    ∀ b ∉ free, desc b.toNat = s.queue.desc b.toNat

/-- The block of a request: it is the first one on the list of the smallest blocks, and what is
written to it leaves the others alone. -/
theorem FreeLists.header (hl : FreeLists L s.heap lists)
    (hptr : (coreCalloc VIRTIO_BLK_REQ_SIZE 1 s.heap).1 ≠ 0) :
    ∃ t, lists 0 = (coreCalloc VIRTIO_BLK_REQ_SIZE 1 s.heap).1 :: t ∧
      FreeLists L { (coreCalloc VIRTIO_BLK_REQ_SIZE 1 s.heap).2 with
        mem := fillRequest (coreCalloc VIRTIO_BLK_REQ_SIZE 1 s.heap).1 r.requestType r.sector
          (coreCalloc VIRTIO_BLK_REQ_SIZE 1 s.heap).2.mem } (Function.update lists 0 t) := by
  have hfind : findAllocatorForSize (VIRTIO_BLK_REQ_SIZE * 1 % 2 ^ 64) = some 0 := by decide
  obtain ⟨i, t, hfind', ht, hlists⟩ := hl.calloc hptr
  obtain rfl : 0 = i := Option.some.inj (hfind.symm.trans hfind')
  have hmem : (coreCalloc VIRTIO_BLK_REQ_SIZE 1 s.heap).1 ∈ lists 0 := by simp [ht]
  obtain ⟨j, hj, -, hblock⟩ := (hl.listed 0 (by omega) _ hmem).owner
  have hnodup := hl.nodup 0 (by omega)
  rw [ht] at hnodup
  refine ⟨t, ht, hlists.congr_block hj hblock (fun k hk => ?_) fun x hx => ?_⟩
  · by_cases hk0 : k = 0
    · subst hk0
      rw [Function.update_self]
      exact (List.nodup_cons.mp hnodup).1
    · rw [Function.update_of_ne hk0]
      exact hl.apart 0 (by omega) k hk (Ne.symm hk0) _ hmem
  · have hsize := blockSize_mono j hj 0 (by omega)
    rw [blockSize_zero] at hsize
    exact fillRequest_outside (by unfold OutsideBlock; omega)

/-- A block of the first list goes back there. -/
theorem FreeLists.free_header {h : Heap} {a : UInt64} (hl : FreeLists L h lists)
    (ha : Listed L 0 a) (hfree : ∀ i < 5, a ∉ lists i) :
    FreeLists L (coreFree L a h) (Function.update lists 0 (a :: lists 0)) := by
  obtain ⟨j, hj, hblock, hcases⟩ := ha
  refine hl.free hj hblock hfree ?_
  rcases hcases with rfl | hfind
  · exact findAllocatorForAllocation_first hblock
  · exact hfind

/-- The block of a failed request goes back to where it came from. -/
theorem FreeLists.header_back (hl : FreeLists L s.heap lists)
    (hptr : (coreCalloc VIRTIO_BLK_REQ_SIZE 1 s.heap).1 ≠ 0) :
    FreeLists L (coreFree L (coreCalloc VIRTIO_BLK_REQ_SIZE 1 s.heap).1
      { (coreCalloc VIRTIO_BLK_REQ_SIZE 1 s.heap).2 with
        mem := fillRequest (coreCalloc VIRTIO_BLK_REQ_SIZE 1 s.heap).1 r.requestType r.sector
          (coreCalloc VIRTIO_BLK_REQ_SIZE 1 s.heap).2.mem }) lists := by
  obtain ⟨t, ht, hlists⟩ := FreeLists.header (r := r) hl hptr
  have hmem : (coreCalloc VIRTIO_BLK_REQ_SIZE 1 s.heap).1 ∈ lists 0 := by simp [ht]
  have hnodup := hl.nodup 0 (by omega)
  rw [ht] at hnodup
  have hback := FreeLists.free_header hlists (hl.listed 0 (by omega) _ hmem) fun k hk => by
    by_cases hk0 : k = 0
    · subst hk0
      rw [Function.update_self]
      exact (List.nodup_cons.mp hnodup).1
    · rw [Function.update_of_ne hk0]
      exact hl.apart 0 (by omega) k hk (Ne.symm hk0) _ hmem
  rwa [Function.update_self, Function.update_idem, ← ht, Function.update_eq_self] at hback

/-- The driver of a request that has its block and has taken the descriptors before `head`. -/
def requesting (r : Request) (head : UInt16) (s : Hw) : Hw :=
  { s with
    heap := { (coreCalloc VIRTIO_BLK_REQ_SIZE 1 s.heap).2 with
      mem := fillRequest (coreCalloc VIRTIO_BLK_REQ_SIZE 1 s.heap).1 r.requestType r.sector
        (coreCalloc VIRTIO_BLK_REQ_SIZE 1 s.heap).2.mem }
    queue := { s.queue with freeHead := head } }

/-- A request that has taken all the free descriptors, and is not content with them. -/
theorem Restores.of_exhausted (desc1 desc2 : UInt16) {head : UInt16}
    (hfree : FreeDescs s.queue free)
    (hhead : FreeDescs { s.queue with freeHead := head } []) (hl : FreeLists L s.heap lists)
    (hptr : (coreCalloc VIRTIO_BLK_REQ_SIZE 1 s.heap).1 ≠ 0)
    (hdescs : freeQueueDesc (freeQueueDesc { s.queue with freeHead := head } desc1) desc2 =
      free.foldl freeQueueDesc { s.queue with freeHead := head }) :
    Restores L free lists s (cleanupRequest L desc1 desc2 VIRTIO_INVALID_DESC
      (coreCalloc VIRTIO_BLK_REQ_SIZE 1 s.heap).1 (requesting r head s)) := by
  have hqueue : (cleanupRequest L desc1 desc2 VIRTIO_INVALID_DESC
      (coreCalloc VIRTIO_BLK_REQ_SIZE 1 s.heap).1 (requesting r head s)).queue =
        free.foldl freeQueueDesc { s.queue with freeHead := head } := by
    rw [cleanupRequest, freeQueueDesc_invalid]
    exact hdescs
  have hlt : ∀ d ∈ free, d < ({ s.queue with freeHead := head } : VirtioQueue).size :=
    hfree.lt_size
  have hall := hhead.freeAll hlt (by rw [List.append_nil]; exact hfree.nodup)
  rw [List.append_nil] at hall
  refine ⟨⟨free.reverse, by rwa [hqueue], List.reverse_perm _⟩, FreeLists.header_back hl hptr, ?_⟩
  obtain ⟨desc, head', heq, hdesc, -⟩ := foldl_freeQueueDesc_frame hlt
  exact ⟨desc, head', by rw [hqueue, heq], hdesc⟩

/-- `request_virtio_blk` once it has its block. -/
def chainRequest (L : Layout) (r : Request) (header : UInt64) : Driver Unit := do
  let desc1 ← allocQueueDesc.orCleanup
    (cleanupRequest L VIRTIO_INVALID_DESC VIRTIO_INVALID_DESC VIRTIO_INVALID_DESC header)
  let desc2 ← allocQueueDesc.orCleanup
    (cleanupRequest L desc1 VIRTIO_INVALID_DESC VIRTIO_INVALID_DESC header)
  let desc3 ← allocQueueDesc.orCleanup (cleanupRequest L desc1 desc2 VIRTIO_INVALID_DESC header)
  Prog.modify fun s => { s with
    queue := makeAvailable { s.queue with
      desc := fillDescs desc1 desc2 desc3 header r.data r.size r.requestType s.queue.desc } desc1 }

theorem requestVirtioBlk_eq (hsize : r.size % 512 = 0)
    (hptr : (coreCalloc VIRTIO_BLK_REQ_SIZE 1 s.heap).1 ≠ 0) :
    requestVirtioBlk L r.requestType r.sector r.data r.size s =
      chainRequest L r (coreCalloc VIRTIO_BLK_REQ_SIZE 1 s.heap).1
        (requesting r s.queue.freeHead s) := by
  rw [requestVirtioBlk, Prog.bind_ok (Prog.orCleanup_ok (Prog.check_ok (beq_iff_eq.mpr hsize))),
    Prog.bind_ok (calloc_apply _ _ _),
    Prog.bind_ok (Prog.orCleanup_ok (Prog.check_ok (bne_iff_ne.mpr hptr))), Prog.bind_modify_apply]
  rfl

/-- With fewer than three free descriptors the request fails, and frees those it has taken. -/
theorem chainRequest_error (hfree : FreeDescs s.queue free) (hlen : free.length < 3)
    (hl : FreeLists L s.heap lists) (hptr : (coreCalloc VIRTIO_BLK_REQ_SIZE 1 s.heap).1 ≠ 0) :
    ∃ s', chainRequest L r (coreCalloc VIRTIO_BLK_REQ_SIZE 1 s.heap).1
        (requesting r s.queue.freeHead s) = some (.error .ERR_INVALID, s') ∧
      Restores L free lists s s' := by
  rw [chainRequest]
  match free, hfree, hlen with
  | [], hfree, _ =>
    refine ⟨_, ?_, Restores.of_exhausted (r := r) VIRTIO_INVALID_DESC VIRTIO_INVALID_DESC hfree hfree
      hl hptr (by simp only [freeQueueDesc_invalid]; rfl)⟩
    rw [Prog.bind_error (Prog.orCleanup_error
      (allocQueueDesc_error (s := requesting r s.queue.freeHead s) hfree))]
  | [d1], hfree, _ =>
    obtain ⟨halloc1, hrest1⟩ := allocQueueDesc_ok (s := requesting r s.queue.freeHead s) hfree
    refine ⟨_, ?_, Restores.of_exhausted (r := r) d1 VIRTIO_INVALID_DESC hfree hrest1 hl hptr
      (by simp only [freeQueueDesc_invalid]; rfl)⟩
    rw [Prog.bind_ok (Prog.orCleanup_ok halloc1), Prog.bind_error (Prog.orCleanup_error
      (allocQueueDesc_error (s := { requesting r s.queue.freeHead s with queue := _ }) hrest1))]
    rfl
  | [d1, d2], hfree, _ =>
    obtain ⟨halloc1, hrest1⟩ := allocQueueDesc_ok (s := requesting r s.queue.freeHead s) hfree
    obtain ⟨halloc2, hrest2⟩ := allocQueueDesc_ok
      (s := { requesting r s.queue.freeHead s with queue := _ }) hrest1
    refine ⟨_, ?_, Restores.of_exhausted (r := r) d1 d2 hfree hrest2 hl hptr rfl⟩
    rw [Prog.bind_ok (Prog.orCleanup_ok halloc1), Prog.bind_ok (Prog.orCleanup_ok halloc2),
      Prog.bind_error (Prog.orCleanup_error
        (allocQueueDesc_error (s := { requesting r s.queue.freeHead s with queue := _ }) hrest2))]
    rfl

/-- An allocation from a list fails only if the list is empty. -/
theorem FreeLists.eq_nil_of_null (hl : FreeLists L s.heap lists)
    (hptr : (coreCalloc VIRTIO_BLK_REQ_SIZE 1 s.heap).1 = 0) : lists 0 = [] := by
  have hempty := coreMalloc_eq_zero_iff.mp (coreCalloc_null hptr).2
  exact (hl.chain 0 (by omega)).eq_nil_iff.mpr (hempty 0 (by decide))

/-- **What a request does**, whatever is outstanding: it takes three descriptors and a block, or it
fails for one of three reasons and gives back what it has taken. -/
theorem requestVirtioBlk_cases (hfree : FreeDescs s.queue free) (hl : FreeLists L s.heap lists) :
    (∃ d1 d2 d3 t header blocks, free = d1 :: d2 :: d3 :: t ∧ lists 0 = header :: blocks ∧
      requestVirtioBlk L r.requestType r.sector r.data r.size s =
        some (.ok (), requested r header d1 d2 d3 s) ∧
      FreeDescs { s.queue with freeHead := (s.queue.desc d3.toNat).next } t ∧
      FreeLists L (requested r header d1 d2 d3 s).heap (Function.update lists 0 blocks)) ∨
    ∃ s', requestVirtioBlk L r.requestType r.sector r.data r.size s =
        some (.error .ERR_INVALID, s') ∧
      (r.size % 512 ≠ 0 ∨ free.length < 3 ∨ lists 0 = []) ∧ Restores L free lists s s' := by
  have hsame : Restores L free lists s s :=
    ⟨⟨free, hfree, .refl _⟩, hl, s.queue.desc, s.queue.freeHead, rfl, fun _ _ => rfl⟩
  by_cases hsize : r.size % 512 = 0
  case neg =>
    refine Or.inr ⟨s, ?_, Or.inl hsize, hsame⟩
    rw [requestVirtioBlk, Prog.bind_error (Prog.orCleanup_error
      (Prog.check_error (beq_eq_false_iff_ne.mpr hsize))), cleanupRequest, coreFree_null]
    simp only [freeQueueDesc_invalid]
  case pos =>
    by_cases hptr : (coreCalloc VIRTIO_BLK_REQ_SIZE 1 s.heap).1 = 0
    case pos =>
      refine Or.inr ⟨s, ?_, Or.inr (Or.inr (FreeLists.eq_nil_of_null hl hptr)), hsame⟩
      rw [requestVirtioBlk,
        Prog.bind_ok (Prog.orCleanup_ok (Prog.check_ok (beq_iff_eq.mpr hsize))),
        Prog.bind_ok (calloc_apply _ _ _), hptr, (coreCalloc_null hptr).1,
        Prog.bind_error (Prog.orCleanup_error (Prog.check_error (c := (0 : UInt64) != 0) rfl)),
        cleanupRequest,
        coreFree_null]
      simp only [freeQueueDesc_invalid]
    case neg =>
      by_cases hlen : free.length < 3
      case pos =>
        obtain ⟨s', hrun, hrest⟩ := chainRequest_error (r := r) hfree hlen hl hptr
        exact Or.inr ⟨s', by rw [requestVirtioBlk_eq hsize hptr, hrun], Or.inr (Or.inl hlen), hrest⟩
      case neg =>
        obtain _ | ⟨d1, _ | ⟨d2, _ | ⟨d3, t⟩⟩⟩ := free
        · exact absurd (by decide) hlen
        · exact absurd (by simp) hlen
        · exact absurd (by simp) hlen
        · obtain ⟨blocks, hblocks, hlists⟩ := FreeLists.header (r := r) hl hptr
          obtain ⟨hrun, hrest⟩ := requestVirtioBlk_run (L := L) (r := r) hfree rfl hptr hsize
          exact Or.inl ⟨d1, d2, d3, t, _, blocks, rfl, hblocks, hrun, hrest, hlists⟩

end Request

/-! ## The driver, its callers and the device -/

/-- A chain that has been made available and whose response has not been popped. -/
structure Outstanding where
  desc1 : UInt16
  desc2 : UInt16
  desc3 : UInt16
  header : UInt64
  deriving DecidableEq, Repr

def Outstanding.descs (o : Outstanding) : List UInt16 := [o.desc1, o.desc2, o.desc3]

/-- The chain that was made available last. -/
def availableChain (queue : VirtioQueue) : Outstanding :=
  let desc1 := queue.availRing ((queue.availIdx - 1) % queue.size).toNat
  let desc2 := (queue.desc desc1.toNat).next
  ⟨desc1, desc2, (queue.desc desc2.toNat).next, (queue.desc desc1.toNat).addr⟩

/-- The descriptor that `pop_used_virtio_queue` will return. -/
def nextUsed (queue : VirtioQueue) : UInt16 :=
  (queue.usedRing (queue.seenUsed % queue.size).toNat).id.toUInt16

/-- The driver, the chains outstanding, and the heads that the device has posted and the driver has
not popped yet. -/
structure QueueState where
  hw : Hw
  outstanding : List Outstanding
  posted : List UInt16

/-- The state after `init_virtio_blk_queue`. -/
def QueueState.initial (hw : Hw) : QueueState := ⟨hw, [], []⟩

/-- What happens to the queue: calls of the driver with their results, changes of memory and disk
(the transfers and status bytes of the device among them), completions, and faults of the device. -/
inductive QueueEvent where
  | request (r : Request) (result : Except Err Unit)
  | consume (result : Except Err Unit)
  | environment
  | complete (head : UInt16) (len : UInt32)
  | fault

/-- The links of the free blocks stay as they are. -/
def KeepsFree (h : Heap) (mem : ℕ → UInt8) : Prop :=
  ∀ i < 5, ∀ a, OnFreeList h i a → ∀ k < 8, mem (a.toNat + k) = h.mem (a.toNat + k)

/-- The steps with a device that only completes outstanding chains, each once, in any order and with
any length. `consume_response_virtio_blk` is a step where it finds a response. -/
inductive QueueStep (L : Layout) : QueueState → QueueEvent → QueueState → Prop
  | request {s : QueueState} {r : Request} {hw : Hw} :
      requestVirtioBlk L r.requestType r.sector r.data r.size s.hw = some (.ok (), hw) →
      QueueStep L s (.request r (.ok ()))
        ⟨hw, s.outstanding ++ [availableChain hw.queue], s.posted⟩
  | requestFailed {s : QueueState} {r : Request} {e : Err} {hw : Hw} :
      requestVirtioBlk L r.requestType r.sector r.data r.size s.hw = some (.error e, hw) →
      QueueStep L s (.request r (.error e)) { s with hw := hw }
  | consume {s : QueueState} {result : Except Err Unit} {hw : Hw} :
      consumeResponseVirtioBlk L (fun _ => none) 1 s.hw = some (result, hw) →
      QueueStep L s (.consume result)
        ⟨hw, s.outstanding.filter fun o => o.desc1 ≠ nextUsed s.hw.queue, s.posted.tail⟩
  | environment {s : QueueState} {mem disk : ℕ → UInt8} : KeepsFree s.hw.heap mem →
      QueueStep L s .environment
        { s with hw := { s.hw with heap := { s.hw.heap with mem := mem }, disk := disk } }
  | complete {s : QueueState} {o : Outstanding} {len : UInt32} : o ∈ s.outstanding →
      o.desc1 ∉ s.posted → QueueStep L s (.complete o.desc1 len)
        { s with
          hw := { s.hw with queue := postUsed s.hw.queue o.desc1 len }
          posted := s.posted ++ [o.desc1] }

/-- The steps with a device that may also put anything on the used ring, at any index. -/
inductive FaultyStep (L : Layout) : QueueState → QueueEvent → QueueState → Prop
  | step {s s' : QueueState} {e : QueueEvent} : QueueStep L s e s' → FaultyStep L s e s'
  | fault {s : QueueState} {usedIdx : UInt16} {usedRing : ℕ → VirtqUsedElem} :
      FaultyStep L s .fault { s with hw := { s.hw with
        queue := { s.hw.queue with usedIdx := usedIdx, usedRing := usedRing } } }

/-- The response that is popped next is the head of an outstanding chain. -/
def PopsHead (s : QueueState) : Prop := ∃ o ∈ s.outstanding, o.desc1 = nextUsed s.hw.queue

/-! ## What the driver keeps -/

/-- The chain of a request in the descriptor table. -/
structure Linked (desc : ℕ → VirtqDesc) (o : Outstanding) : Prop where
  addr : (desc o.desc1.toNat).addr = o.header
  flags1 : ((desc o.desc1.toNat).flags &&& VIRTQ_DESC_F_NEXT != 0) = true
  next1 : (desc o.desc1.toNat).next = o.desc2
  flags2 : ((desc o.desc2.toNat).flags &&& VIRTQ_DESC_F_NEXT != 0) = true
  next2 : (desc o.desc2.toNat).next = o.desc3
  flags3 : ((desc o.desc3.toNat).flags &&& VIRTQ_DESC_F_NEXT != 0) = false

/-- The invariant of a queue of `n` descriptors. `descs` are the free ones and `lists` the free
blocks; `base` were the free blocks before the first request. -/
structure DriverInv (L : Layout) (n : UInt16) (base : ℕ → List UInt64) (s : QueueState)
    (descs : List UInt16) (lists : ℕ → List UInt64) : Prop where
  size : s.hw.queue.size = n
  free : FreeDescs s.hw.queue descs
  linked : ∀ o ∈ s.outstanding, Linked s.hw.queue.desc o
  parts : (descs ++ s.outstanding.flatMap Outstanding.descs).Perm (allDescs n)
  heap : FreeLists L s.hw.heap lists
  blocks : (lists 0 ++ s.outstanding.map Outstanding.header).Perm (base 0)
  others : ∀ i < 5, i ≠ 0 → lists i = base i

section Invariant

variable {L : Layout} {n : UInt16} {base : ℕ → List UInt64} {s s' : QueueState}
  {descs : List UInt16} {lists : ℕ → List UInt64} {o : Outstanding} {d : UInt16}

theorem heads_sublist (l : List Outstanding) :
    (l.map Outstanding.desc1).Sublist (l.flatMap Outstanding.descs) := by
  induction l with
  | nil => exact .refl _
  | cons o l ih =>
    rw [List.map_cons, List.flatMap_cons]
    exact (List.Sublist.cons _ (.cons _ ih)).cons_cons _

/-- Chains with different heads: one of them, and the others. -/
theorem outstanding_perm {l : List Outstanding} (hnodup : (l.map Outstanding.desc1).Nodup)
    (ho : o ∈ l) : l.Perm (o :: l.filter fun p => p.desc1 ≠ o.desc1) := by
  have hinj := List.inj_on_of_nodup_map hnodup
  have hfilter : (l.filter fun p => p.desc1 ≠ o.desc1) = l.filter fun p => p ≠ o := by
    refine List.filter_congr fun p hp => decide_eq_decide.mpr (not_congr ?_)
    exact ⟨fun h => hinj hp ho h, fun h => h ▸ rfl⟩
  have herase : l.erase o = l.filter fun p => p ≠ o := by
    rw [hnodup.of_map.erase_eq_filter]
    exact List.filter_congr fun p _ => by rw [decide_not]; rfl
  rw [hfilter, ← herase]
  exact List.perm_cons_erase ho

theorem DriverInv.nodup (h : DriverInv L n base s descs lists) :
    (descs ++ s.outstanding.flatMap Outstanding.descs).Nodup :=
  h.parts.nodup_iff.mpr (allDescs_nodup _)

theorem DriverInv.lt_size (h : DriverInv L n base s descs lists) (ho : o ∈ s.outstanding)
    (hd : d ∈ o.descs) : d < n :=
  mem_allDescs.mp (h.parts.subset (List.mem_append_right _ (List.mem_flatMap.mpr ⟨o, ho, hd⟩)))

theorem DriverInv.mem_cases (h : DriverInv L n base s descs lists) (hd : d < n) :
    d ∈ descs ∨ ∃ o ∈ s.outstanding, d ∈ o.descs := by
  rw [← List.mem_flatMap, ← List.mem_append]
  exact h.parts.symm.subset (mem_allDescs.mpr hd)

theorem DriverInv.heads_nodup (h : DriverInv L n base s descs lists) :
    (s.outstanding.map Outstanding.desc1).Nodup :=
  (List.nodup_append.mp h.nodup).2.1.sublist (heads_sublist _)

/-- The chain that is outstanding is apart from the free descriptors and from the other chains. -/
theorem DriverInv.chain_apart (h : DriverInv L n base s descs lists) (ho : o ∈ s.outstanding) :
    (o.descs ++ (descs ++ (s.outstanding.filter fun p => p.desc1 ≠ o.desc1).flatMap
      Outstanding.descs)).Perm (allDescs n) := by
  have hperm := (outstanding_perm h.heads_nodup ho).flatMap_right Outstanding.descs
  rw [List.flatMap_cons] at hperm
  refine List.Perm.trans ?_ ((hperm.append_left descs).symm.trans h.parts)
  rw [← List.append_assoc, ← List.append_assoc]
  exact List.perm_append_comm.append_right _

/-! ## Requests -/

/-- The chain of a new request is the one that has been made available. -/
theorem availableChain_requested {header : UInt64} {d1 d2 d3 : UInt16} (r : Request) (hw : Hw)
    (h12 : d1 ≠ d2) (h13 : d1 ≠ d3) (h23 : d2 ≠ d3) :
    availableChain (requested r header d1 d2 d3 hw).queue = ⟨d1, d2, d3, header⟩ ∧
      Linked (requested r header d1 d2 d3 hw).queue.desc ⟨d1, d2, d3, header⟩ := by
  have hdesc1 : (requested r header d1 d2 d3 hw).queue.desc d1.toNat = _ :=
    (fillDescs_eq h12 h13 h23).1
  have hdesc2 : (requested r header d1 d2 d3 hw).queue.desc d2.toNat = _ :=
    (fillDescs_eq h12 h13 h23).2.1
  have hdesc3 : (requested r header d1 d2 d3 hw).queue.desc d3.toNat = _ :=
    (fillDescs_eq h12 h13 h23).2.2
  have hring : (requested r header d1 d2 d3 hw).queue.availRing
      (((requested r header d1 d2 d3 hw).queue.availIdx - 1) %
        (requested r header d1 d2 d3 hw).queue.size).toNat = d1 := by
    show Function.update hw.queue.availRing (hw.queue.availIdx % hw.queue.size).toNat d1
      ((hw.queue.availIdx + 1 - 1) % hw.queue.size).toNat = d1
    rw [UInt16.add_sub_cancel, Function.update_self]
  refine ⟨?_, ?_⟩
  · simp only [availableChain, hring, hdesc1, hdesc2]
  · refine ⟨?_, ?_, ?_, ?_, ?_, ?_⟩ <;> simp only [hdesc1, hdesc2, hdesc3]
    · exact next_flag
    · exact dataFlags_next _
    · decide

/-- Chains whose descriptors are not written to stay linked. -/
theorem Linked.congr {desc desc' : ℕ → VirtqDesc} (h : Linked desc o)
    (hdesc : ∀ d ∈ o.descs, desc' d.toNat = desc d.toNat) : Linked desc' o := by
  have h1 := hdesc o.desc1 (by simp [Outstanding.descs])
  have h2 := hdesc o.desc2 (by simp [Outstanding.descs])
  have h3 := hdesc o.desc3 (by simp [Outstanding.descs])
  exact ⟨by rw [h1, h.addr], by rw [h1, h.flags1], by rw [h1, h.next1], by rw [h2, h.flags2],
    by rw [h2, h.next2], by rw [h3, h.flags3]⟩

/-- A request that succeeds takes three free descriptors and a free block. -/
theorem DriverInv.request (h : DriverInv L n base s descs lists) {r : Request} {hw : Hw}
    (hrun : requestVirtioBlk L r.requestType r.sector r.data r.size s.hw = some (.ok (), hw)) :
    ∃ descs' lists', DriverInv L n base
      ⟨hw, s.outstanding ++ [availableChain hw.queue], s.posted⟩ descs' lists' := by
  rcases requestVirtioBlk_cases (r := r) h.free h.heap with
    ⟨d1, d2, d3, t, header, blocks, rfl, hblocks, hrun', hfree, hheap⟩ | ⟨_, hrun', -⟩
  case inr =>
    rw [hrun] at hrun'
    cases hrun'
  case inl =>
    obtain rfl : hw = requested r header d1 d2 d3 s.hw :=
      congrArg Prod.snd (Option.some.inj (hrun.symm.trans hrun'))
    have hnodup := h.nodup
    rw [List.nodup_append] at hnodup
    obtain ⟨hnd, -, hapart⟩ := hnodup
    have hnd' := hnd
    simp only [List.nodup_cons, List.mem_cons, not_or] at hnd'
    obtain ⟨⟨h12, h13, h1t⟩, ⟨h23, h2t⟩, h3t, -⟩ := hnd'
    obtain ⟨hchain, hlinked⟩ := availableChain_requested r s.hw h12 h13 h23
    rw [hchain]
    -- descriptors other than the three are as they were
    have hframe : ∀ b, b ≠ d1 → b ≠ d2 → b ≠ d3 →
        (requested r header d1 d2 d3 s.hw).queue.desc b.toNat = s.hw.queue.desc b.toNat :=
      fun b h1 h2 h3 => fillDescs_ne h1 h2 h3
    refine ⟨t, _, h.size, hfree.congr rfl rfl fun b hb => hframe b ?_ ?_ ?_, fun o ho => ?_, ?_,
      hheap, ?_, fun i hi hi0 => ?_⟩
    · exact fun heq => h1t (heq ▸ hb)
    · exact fun heq => h2t (heq ▸ hb)
    · exact fun heq => h3t (heq ▸ hb)
    · rcases List.mem_append.mp ho with ho | ho
      · refine (h.linked o ho).congr fun d hd => ?_
        have hd' : d ∈ s.outstanding.flatMap Outstanding.descs := List.mem_flatMap.mpr ⟨o, ho, hd⟩
        exact hframe d (fun heq => hapart d1 (by simp) d hd' heq.symm)
          (fun heq => hapart d2 (by simp) d hd' heq.symm)
          (fun heq => hapart d3 (by simp) d hd' heq.symm)
      · rw [List.mem_singleton.mp ho]
        exact hlinked
    · refine List.Perm.trans ?_ h.parts
      rw [List.flatMap_append, ← List.append_assoc]
      exact (List.perm_append_comm : List.Perm (_ ++ [d1, d2, d3]) ([d1, d2, d3] ++ _))
    · refine List.Perm.trans ?_ h.blocks
      rw [hblocks, Function.update_self, List.map_append, ← List.append_assoc]
      exact (List.perm_append_comm : List.Perm (_ ++ [header]) ([header] ++ _))
    · rw [Function.update_of_ne hi0]
      exact h.others i hi hi0

/-- A request that fails gives everything back. -/
theorem DriverInv.requestFailed (h : DriverInv L n base s descs lists) {r : Request} {e : Err}
    {hw : Hw}
    (hrun : requestVirtioBlk L r.requestType r.sector r.data r.size s.hw = some (.error e, hw)) :
    (r.size % 512 ≠ 0 ∨ descs.length < 3 ∨ lists 0 = []) ∧
      ∃ descs', descs'.Perm descs ∧ DriverInv L n base { s with hw := hw } descs' lists := by
  rcases requestVirtioBlk_cases (r := r) h.free h.heap with
    ⟨d1, d2, d3, t, header, blocks, -, -, hrun', -, -⟩ | ⟨hw', hrun', hreason, hback⟩
  case inl =>
    rw [hrun] at hrun'
    cases hrun'
  case inr =>
    obtain rfl : hw = hw' := congrArg Prod.snd (Option.some.inj (hrun.symm.trans hrun'))
    obtain ⟨descs', hfree, hperm⟩ := hback.descs
    obtain ⟨desc, head, hqueue, hdesc⟩ := hback.queue
    have hapart := (List.nodup_append.mp h.nodup).2.2
    refine ⟨hreason, descs', hperm, ?_, hfree, fun o ho => (h.linked o ho).congr fun d hd => ?_,
      (hperm.append_right _).trans h.parts, hback.heap, h.blocks, h.others⟩
    · rw [hqueue]
      exact h.size
    · rw [hqueue]
      exact hdesc d fun hmem => hapart d hmem d (List.mem_flatMap.mpr ⟨o, ho, hd⟩) rfl

/-! ## Responses -/

/-- `validate_used_response` only looks. -/
theorem validateUsedResponse_state (desc : UInt16) (len : UInt32) (hw : Hw) :
    ∃ r, validateUsedResponse desc len hw = some (r, hw) := by
  have hcheck : ∀ {c : Bool} {f : Unit → Driver Unit}, (∃ r, f () hw = some (r, hw)) →
      ∃ r, (check c >>= f) hw = some (r, hw) := by
    rintro (_ | _) f hf
    · exact ⟨_, rfl⟩
    · exact hf
  have hlast : ∀ c : Bool, ∃ r, (check c : Driver Unit) hw = some (r, hw) := by
    rintro (_ | _)
    · exact ⟨_, rfl⟩
    · exact ⟨_, rfl⟩
  rw [validateUsedResponse, Prog.bind_get_apply]
  exact hcheck (hcheck (hcheck (hcheck (hlast _))))

/-- **A response**, whatever is on the used ring: it is popped, and the chain that it names is freed,
whether it is accepted or not. -/
theorem consumeResponseVirtioBlk_run {hw : Hw} (hunseen : hw.queue.seenUsed ≠ hw.queue.usedIdx) :
    ∃ result, consumeResponseVirtioBlk L (fun _ => none) 1 hw = some (result,
      if nextUsed hw.queue ≠ VIRTIO_INVALID_DESC then
        freeRequest L (nextUsed hw.queue) (popped hw) else popped hw) := by
  have hseen : isUnseenUsedVirtioQueue hw.queue = true := bne_iff_ne.mpr hunseen
  have hwait : waitResponse 1 (fun _ => none) hw = some (.ok (), hw) := by
    rw [waitResponse, Prog.bind_modify_apply, Prog.bind_get_apply, scheduled, hseen]
    rfl
  have hpop : popUsedVirtioQueue hw = some (.ok (nextUsed hw.queue,
      (hw.queue.usedRing (hw.queue.seenUsed % hw.queue.size).toNat).len), popped hw) := by
    rw [popUsedVirtioQueue, Prog.bind_get_apply, check, Prog.bind_check_true hseen,
      Prog.bind_modify_apply]
    rfl
  obtain ⟨r, hvalidate⟩ := validateUsedResponse_state (nextUsed hw.queue)
    (hw.queue.usedRing (hw.queue.seenUsed % hw.queue.size).toNat).len (popped hw)
  refine ⟨r, ?_⟩
  rw [consumeResponseVirtioBlk, Prog.bind_ok hwait, Prog.bind_ok hpop]
  simp only
  rw [Prog.andCleanup_eq hvalidate]

theorem consumeResponseVirtioBlk_eq {hw hw' : Hw} {result : Except Err Unit}
    (hrun : consumeResponseVirtioBlk L (fun _ => none) 1 hw = some (result, hw')) :
    hw.queue.seenUsed ≠ hw.queue.usedIdx ∧
      hw' = if nextUsed hw.queue ≠ VIRTIO_INVALID_DESC then
        freeRequest L (nextUsed hw.queue) (popped hw) else popped hw := by
  by_cases hunseen : hw.queue.seenUsed = hw.queue.usedIdx
  · have hseen : isUnseenUsedVirtioQueue hw.queue = false := by
      rw [isUnseenUsedVirtioQueue, hunseen]
      exact bne_self_eq_false _
    have hwait : waitResponse 1 (fun _ => none) hw = none := by
      rw [waitResponse, Prog.bind_modify_apply, Prog.bind_get_apply, scheduled, hseen]
      rfl
    rw [consumeResponseVirtioBlk, Prog.bind_none hwait] at hrun
    cases hrun
  · obtain ⟨r, hrun'⟩ := consumeResponseVirtioBlk_run (L := L) hunseen
    exact ⟨hunseen, congrArg Prod.snd (Option.some.inj (hrun.symm.trans hrun'))⟩

/-- The descriptors of a chain, as far as it goes. -/
def chainDescs (queue : VirtioQueue) (desc : UInt16) : List UInt16 :=
  let desc1 := queue.desc desc.toNat
  if desc1.flags &&& VIRTQ_DESC_F_NEXT != 0 then
    let desc2 := queue.desc desc1.next.toNat
    if desc2.flags &&& VIRTQ_DESC_F_NEXT != 0 then [desc, desc1.next, desc2.next]
    else [desc, desc1.next]
  else [desc]

/-- `free_request` frees the descriptors of the chain and the block that the first one points to. -/
theorem freeRequest_eq (hw : Hw) (d : UInt16) : freeRequest L d hw = { hw with
    queue := (chainDescs hw.queue d).foldl freeQueueDesc hw.queue
    heap := coreFree L (((chainDescs hw.queue d).foldl freeQueueDesc hw.queue).desc d.toNat).addr
      hw.heap } := by
  rw [freeRequest, requestDescs, chainDescs]
  simp only
  split
  · split
    · rfl
    · simp only [freeQueueDesc_invalid, List.foldl_cons, List.foldl_nil]
  · simp only [freeQueueDesc_invalid, List.foldl_cons, List.foldl_nil]

theorem Linked.chainDescs_eq {queue : VirtioQueue} (h : Linked queue.desc o) :
    chainDescs queue o.desc1 = o.descs := by
  rw [chainDescs]
  simp only [h.flags1, h.next1, h.flags2, h.next2, if_true, Outstanding.descs]

/-- The block of an outstanding request is no free one, and a free of it puts it back. -/
theorem DriverInv.header_free {h₀ : Heap} (hbase : FreeLists L h₀ base)
    (h : DriverInv L n base s descs lists) (ho : o ∈ s.outstanding) :
    Listed L 0 o.header ∧ ∀ i < 5, o.header ∉ lists i := by
  have hmem : o.header ∈ s.outstanding.map Outstanding.header := List.mem_map_of_mem ho
  have hbase0 : o.header ∈ base 0 := h.blocks.subset (List.mem_append_right _ hmem)
  refine ⟨hbase.listed 0 (by omega) _ hbase0, fun i hi hfree => ?_⟩
  by_cases hi0 : i = 0
  · subst hi0
    have hnodup := h.blocks.nodup_iff.mpr (hbase.nodup 0 hi)
    exact (List.nodup_append.mp hnodup).2.2 _ hfree _ hmem rfl
  · rw [h.others i hi hi0] at hfree
    exact hbase.apart 0 (by omega) i hi (Ne.symm hi0) _ hbase0 hfree

/-- A response to an outstanding chain gives its descriptors and its block back. -/
theorem DriverInv.consume {h₀ : Heap} (posted : List UInt16) (hbase : FreeLists L h₀ base)
    (h : DriverInv L n base s descs lists) (ho : o ∈ s.outstanding)
    (hhead : o.desc1 = nextUsed s.hw.queue) {result : Except Err Unit} {hw : Hw}
    (hrun : consumeResponseVirtioBlk L (fun _ => none) 1 s.hw = some (result, hw)) :
    DriverInv L n base
      ⟨hw, s.outstanding.filter fun p => p.desc1 ≠ nextUsed s.hw.queue, posted⟩
      (o.descs.reverse ++ descs) (Function.update lists 0 (o.header :: lists 0)) := by
  obtain ⟨-, heq⟩ := consumeResponseVirtioBlk_eq hrun
  have hlt : ∀ d ∈ o.descs, d < (popped s.hw).queue.size := fun d hd => by
    rw [show (popped s.hw).queue.size = n from h.size]
    exact h.lt_size ho hd
  have hlinked : Linked (popped s.hw).queue.desc o := h.linked o ho
  have hnodup := (h.chain_apart ho).nodup_iff.mpr (allDescs_nodup _)
  have hnodup₀ : (o.descs ++ descs).Nodup := by
    rw [← List.append_assoc] at hnodup
    exact (List.nodup_append.mp hnodup).1
  rw [if_pos (by rw [← hhead]; exact ne_invalid_of_lt_size (hlt _ (by simp [Outstanding.descs]))),
    ← hhead, freeRequest_eq, hlinked.chainDescs_eq] at heq
  obtain ⟨desc, head, hqueue, hdesc, haddr⟩ := foldl_freeQueueDesc_frame hlt
  have hfree : FreeDescs (popped s.hw).queue descs := h.free.congr rfl rfl fun _ _ => rfl
  have hall := hfree.freeAll hlt hnodup₀
  rw [hqueue] at hall heq
  simp only at heq
  rw [haddr, hlinked.addr] at heq
  obtain ⟨hlisted, hnotFree⟩ := h.header_free hbase ho
  have hperm := outstanding_perm h.heads_nodup ho
  rw [heq, ← hhead]
  refine ⟨h.size, hall, fun p hp => ?_, ?_, FreeLists.free_header h.heap hlisted hnotFree, ?_,
    fun i hi hi0 => ?_⟩
  · -- the chains that stay outstanding are apart from the one that is freed
    refine (h.linked p (List.mem_filter.mp hp).1).congr fun d hd => hdesc d fun hdo => ?_
    have hmem := List.mem_append_right descs (List.mem_flatMap.mpr ⟨p, hp, hd⟩)
    exact (List.nodup_append.mp hnodup).2.2 d hdo d hmem rfl
  · refine List.Perm.trans ?_ (h.chain_apart ho)
    rw [List.append_assoc]
    exact (List.reverse_perm _).append_right _
  · rw [Function.update_self]
    refine List.Perm.trans ?_ h.blocks
    have hmap := (hperm.map Outstanding.header).append_left (lists 0)
    rw [List.map_cons] at hmap
    exact List.perm_middle.symm.trans hmap.symm
  · rw [Function.update_of_ne hi0]
    exact h.others i hi hi0

/-! ## Runs -/

/-- **What a step keeps**, as long as the responses that are popped are heads of outstanding
chains. -/
theorem DriverInv.step {h₀ : Heap} (hbase : FreeLists L h₀ base)
    (h : DriverInv L n base s descs lists) {e : QueueEvent} (hstep : FaultyStep L s e s')
    (hpops : ∀ result, e = .consume result → PopsHead s) :
    ∃ descs' lists', DriverInv L n base s' descs' lists' := by
  cases hstep with
  | fault =>
    exact ⟨descs, lists, h.size, h.free.congr rfl rfl fun _ _ => rfl, h.linked, h.parts, h.heap,
      h.blocks, h.others⟩
  | step hstep =>
    cases hstep with
    | request hrun => exact h.request hrun
    | requestFailed hrun =>
      obtain ⟨-, descs', -, hinv⟩ := h.requestFailed hrun
      exact ⟨descs', lists, hinv⟩
    | consume hrun =>
      obtain ⟨o, ho, hhead⟩ := hpops _ rfl
      exact ⟨_, _, h.consume _ hbase ho hhead hrun⟩
    | environment hkeep =>
      refine ⟨descs, lists, h.size, h.free, h.linked, h.parts, ?_, h.blocks, h.others⟩
      exact h.heap.congr fun i hi a ha => hkeep i hi a ((h.heap.onFreeList_iff hi).mpr ha)
    | complete ho hnew =>
      exact ⟨descs, lists, h.size, h.free.congr rfl rfl fun _ _ => rfl, h.linked, h.parts,
        h.heap, h.blocks, h.others⟩

/-- A checked allocation that succeeds leaves lists. -/
theorem FreeLists.calloc_checked {count size : ℕ} {β : Type} {f : UInt64 → Driver β} {b : β}
    {hw hw' : Hw} (hl : FreeLists L hw.heap lists)
    (hrun : (calloc count size >>= fun ptr => check (ptr != 0) >>= fun _ => f ptr) hw =
      some (.ok b, hw')) :
    ∃ ptr t lists', f ptr t = some (.ok b, hw') ∧ FreeLists L t.heap lists' := by
  obtain ⟨hptr, hrest⟩ := calloc_check_ok hrun
  obtain ⟨i, blocks, -, -, hlists'⟩ := hl.calloc hptr
  exact ⟨_, _, _, hrest, hlists'⟩

/-- The driver right after `init_virtio_blk_queue`, on a heap that any calls have left. -/
def Initialised (L : Layout) (queueSize : UInt16) (hw : Hw) : Prop :=
  ∃ h ops t hw₀, Runs (HeapStep L) (HeapState.initial L h) ops t ∧ hw₀.heap = t.heap ∧
    initVirtioBlkQueue queueSize hw₀ = some (.ok (), hw)

theorem Initialised.cases {hw : Hw} (hinit : Initialised L n hw) :
    (n ≠ VIRTIO_INVALID_QUEUE_SIZE ∧ 0 < n) ∧ hw.queue = initialQueue n ∧
      ∃ base, FreeLists L hw.heap base := by
  obtain ⟨h, ops, t, hw₀, hrun, hheap, hinit⟩ := hinit
  obtain ⟨lists, hinv⟩ := HeapInv.runs hrun
  have hl := hinv.free
  rw [← hheap] at hl
  rw [initVirtioBlkQueue] at hinit
  obtain ⟨_, t₀, hcheck, hrun₀⟩ := Prog.bind_eq_ok hinit
  obtain ⟨hvalid, ht₀⟩ := Prog.check_eq_ok hcheck
  rw [Bool.and_eq_true, bne_iff_ne] at hvalid
  rw [ht₀] at hrun₀
  obtain ⟨_, t₁, lists₁, hrun₁, hlists₁⟩ := FreeLists.calloc_checked hl hrun₀
  obtain ⟨_, t₂, lists₂, hrun₂, hlists₂⟩ := FreeLists.calloc_checked hlists₁ hrun₁
  obtain ⟨_, t₃, lists₃, hrun₃, hlists₃⟩ := FreeLists.calloc_checked hlists₂ hrun₂
  obtain ⟨-, rfl⟩ := Prod.mk.inj (Option.some.inj hrun₃)
  exact ⟨⟨hvalid.1, decide_eq_true_iff.mp hvalid.2⟩, rfl, lists₃, hlists₃⟩

/-- The invariant holds to begin with, for the blocks that are then free. -/
theorem DriverInv.initial {hw : Hw} (hinit : Initialised L n hw) (hbase : FreeLists L hw.heap base) :
    DriverInv L n base (.initial hw) (allDescs n) base := by
  obtain ⟨⟨hvalid, hpos⟩, hqueue, -⟩ := hinit.cases
  have hfree := initialQueue_freeDescs hvalid hpos
  rw [← hqueue] at hfree
  refine ⟨congrArg VirtioQueue.size hqueue, hfree, nofun, ?_, hbase, ?_, fun _ _ _ => rfl⟩
  · rw [QueueState.initial, List.flatMap_nil, List.append_nil]
  · rw [QueueState.initial, List.map_nil, List.append_nil]

/-- A response that is popped is the head of an outstanding chain. -/
def ConsumesHead (s : QueueState) (e : QueueEvent) : Prop :=
  ∀ result, e = .consume result → PopsHead s

theorem consumesHead_request {r : Request} {result : Except Err Unit} :
    ConsumesHead s (.request r result) := nofun

theorem consumesHead_complete {head : UInt16} {len : UInt32} :
    ConsumesHead s (.complete head len) := nofun

/-- **What every run keeps** in which the responses are heads of outstanding chains. -/
theorem DriverInv.runs {hw : Hw} {es : List QueueEvent} (hinit : Initialised L n hw)
    (hrun : Runs (Where ConsumesHead (FaultyStep L)) (.initial hw) es s) :
    ∃ base descs lists, FreeLists L hw.heap base ∧ DriverInv L n base s descs lists := by
  obtain ⟨-, -, base, hbase⟩ := hinit.cases
  obtain ⟨descs, lists, h⟩ := hrun.invariant
    (I := fun s => ∃ descs lists, DriverInv L n base s descs lists)
    (fun s e t ⟨descs, lists, h⟩ ⟨hhead, hstep⟩ => h.step hbase hstep hhead)
    ⟨_, _, .initial hinit hbase⟩
  exact ⟨base, descs, lists, hbase, h⟩

/-! ## Requests that there is room for -/

/-- A request, successful or not, does not touch the used ring. -/
theorem request_usedRing (hinv : DriverInv L n base s descs lists) {r : Request}
    {result : Except Err Unit} {hw : Hw}
    (hrun : requestVirtioBlk L r.requestType r.sector r.data r.size s.hw = some (result, hw)) :
    hw.queue.size = s.hw.queue.size ∧ hw.queue.seenUsed = s.hw.queue.seenUsed ∧
      hw.queue.usedIdx = s.hw.queue.usedIdx ∧ hw.queue.usedRing = s.hw.queue.usedRing := by
  rcases requestVirtioBlk_cases (r := r) hinv.free hinv.heap with
    ⟨d1, d2, d3, t, header, blocks, -, -, hrun', -, -⟩ | ⟨hw', hrun', -, hback⟩
  · obtain rfl : hw = _ := congrArg Prod.snd (Option.some.inj (hrun.symm.trans hrun'))
    exact ⟨rfl, rfl, rfl, rfl⟩
  · obtain rfl : hw = hw' := congrArg Prod.snd (Option.some.inj (hrun.symm.trans hrun'))
    obtain ⟨desc, head, hqueue, -⟩ := hback.queue
    rw [hqueue]
    exact ⟨rfl, rfl, rfl, rfl⟩

/-- There are three descriptors for every outstanding chain. -/
theorem DriverInv.length_outstanding (h : DriverInv L n base s descs lists) :
    descs.length + 3 * s.outstanding.length = n.toNat := by
  have hlen := h.parts.length_eq
  have hflat : (s.outstanding.flatMap Outstanding.descs).length = 3 * s.outstanding.length := by
    induction s.outstanding with
    | nil => rfl
    | cons o l ih =>
      rw [List.flatMap_cons, List.length_append, ih, List.length_cons]
      simp only [Outstanding.descs, List.length_cons, List.length_nil]
      omega
  rw [List.length_append, hflat, allDescs, List.length_map, List.length_range'] at hlen
  exact hlen

/-- The used ring of `s'` is that of `s`, with `k` more responses seen. -/
structure SameRing (k : UInt16) (s s' : QueueState) : Prop where
  size : s'.hw.queue.size = s.hw.queue.size
  seen : s'.hw.queue.seenUsed = s.hw.queue.seenUsed + k
  used : s'.hw.queue.usedIdx = s.hw.queue.usedIdx
  ring : s'.hw.queue.usedRing = s.hw.queue.usedRing

/-- A request is possible as long as there are descriptors and blocks for it. -/
theorem DriverInv.exists_request (h : DriverInv L n base s descs lists)
    (hroom : 3 * (s.outstanding.length + 1) ≤ n.toNat)
    (hblock : s.outstanding.length < (base 0).length) {r : Request} (hsize : r.size % 512 = 0) :
    ∃ o s', QueueStep L s (.request r (.ok ())) s' ∧ s'.outstanding = s.outstanding ++ [o] ∧
      s'.posted = s.posted ∧ SameRing 0 s s' := by
  rcases requestVirtioBlk_cases (r := r) h.free h.heap with
    ⟨_, _, _, _, _, _, -, -, hrun, -, -⟩ | ⟨_, -, hreason, -⟩
  · obtain ⟨hsize, hseen, hused, hring⟩ := request_usedRing h hrun
    exact ⟨_, _, .request hrun, rfl, rfl, hsize, by rw [hseen, UInt16.add_zero], hused, hring⟩
  · have hlen := h.length_outstanding
    have hblocks := h.blocks.length_eq
    rw [List.length_append, List.length_map] at hblocks
    rcases hreason with hreason | hreason | hreason
    · exact absurd hsize hreason
    · omega
    · rw [hreason, List.length_nil] at hblocks
      omega

theorem exists_complete {o : Outstanding} (ho : o ∈ s.outstanding) (hnew : o.desc1 ∉ s.posted) :
    ∃ s', QueueStep L s (.complete o.desc1 0) s' ∧ s'.outstanding = s.outstanding ∧
      s'.posted = s.posted ++ [o.desc1] ∧ s'.hw.queue = postUsed s.hw.queue o.desc1 0 :=
  ⟨_, .complete ho hnew, rfl, rfl, rfl⟩

end Invariant

end SwitchOs.Virtio
