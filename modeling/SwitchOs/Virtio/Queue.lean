import SwitchOs.Core.Alloc
import SwitchOs.Core.DumpHeader

/-!
# The split virtqueue

`core/drivers/virtio/virtio_queue.c`. The descriptor table and the two rings are blocks of core's
heap that only the driver and the device touch; they are modelled as the tables they are, next to the
memory that holds everything else. All ring indices are 16-bit words that wrap, and an entry is found
at its index modulo the queue size.

The free descriptors are chained by their `next` fields (`FreeDescs`); `initialQueue_freeDescs` says
that they are all free once the queue is initialised.
-/

namespace SwitchOs.Virtio

def VIRTIO_INVALID_FREE_HEAD : UInt16 := 0xffff
def VIRTIO_INVALID_DESC : UInt16 := 0xffff
def VIRTIO_INVALID_QUEUE_SIZE : UInt16 := 0xffff

def VIRTQ_DESC_F_NEXT : UInt16 := 1
def VIRTQ_DESC_F_WRITE : UInt16 := 2

/-- `struct virtq_desc`. -/
structure VirtqDesc where
  addr : UInt64
  len : UInt32
  flags : UInt16
  next : UInt16
  deriving DecidableEq, Repr

/-- `struct virtq_used_elem`. -/
structure VirtqUsedElem where
  id : UInt32
  len : UInt32
  deriving DecidableEq, Repr

/-- `struct virtio_queue` and what its three pointers point to. -/
structure VirtioQueue where
  size : UInt16
  seenUsed : UInt16
  freeHead : UInt16
  desc : ℕ → VirtqDesc
  availIdx : UInt16
  availRing : ℕ → UInt16
  usedIdx : UInt16
  usedRing : ℕ → VirtqUsedElem

/-- Memory with core's heap in it, the disk, the queue, and how far into the available ring the
device has come. -/
structure Hw where
  heap : Heap
  disk : ℕ → UInt8
  queue : VirtioQueue
  lastAvail : UInt16

abbrev Driver (α : Type) : Type := Prog Err Hw α

/-- `queue->desc[i].next = next`. -/
def setNext (desc : ℕ → VirtqDesc) (i : ℕ) (next : UInt16) : ℕ → VirtqDesc :=
  Function.update desc i { desc i with next := next }

/-- `core_calloc`, on the state of the driver. -/
def calloc (count size : ℕ) : Driver UInt64 := fun s =>
  some (.ok (coreCalloc count size s.heap).1, { s with heap := (coreCalloc count size s.heap).2 })

theorem calloc_apply (count size : ℕ) (s : Hw) :
    calloc count size s = some (.ok (coreCalloc count size s.heap).1,
      { s with heap := (coreCalloc count size s.heap).2 }) := rfl

/-- An allocation that is checked, in a body that succeeds. -/
theorem calloc_check_ok {count size : ℕ} {β : Type} {f : UInt64 → Driver β} {b : β} {s s' : Hw}
    (hrun : (calloc count size >>= fun ptr => check (ptr != 0) >>= fun _ => f ptr) s =
      some (.ok b, s')) :
    (coreCalloc count size s.heap).1 ≠ 0 ∧ f (coreCalloc count size s.heap).1
      { s with heap := (coreCalloc count size s.heap).2 } = some (.ok b, s') := by
  rw [Prog.bind_ok (calloc_apply _ _ _)] at hrun
  obtain ⟨_, t, hcheck, hrest⟩ := Prog.bind_eq_ok hrun
  obtain ⟨hptr, rfl⟩ := Prog.check_eq_ok hcheck
  exact ⟨bne_iff_ne.mp hptr, hrest⟩

/-- The descriptors as `init_virtio_blk_queue` chains them. -/
def linkDescs (queueSize : UInt16) : ℕ → VirtqDesc :=
  setNext ((List.range queueSize.toNat).foldl (fun desc i => setNext desc i (UInt16.ofNat (i + 1)))
    fun _ => ⟨0, 0, 0, 0⟩) (queueSize.toNat - 1) VIRTIO_INVALID_FREE_HEAD

/-- The queue as `init_virtio_blk_queue` leaves it. -/
def initialQueue (queueSize : UInt16) : VirtioQueue where
  size := queueSize
  seenUsed := 0
  freeHead := 0
  desc := linkDescs queueSize
  availIdx := 0
  availRing := fun _ => 0
  usedIdx := 0
  usedRing := fun _ => ⟨0, 0⟩

/-- `init_virtio_blk_queue`, on a device that reports `queueSize`. A queue that cannot be initialised
is never used, so its cleanup is left out. -/
def initVirtioBlkQueue (queueSize : UInt16) : Driver Unit := do
  check (queueSize != VIRTIO_INVALID_QUEUE_SIZE && decide (queueSize > 0))
  let desc ← calloc 16 queueSize.toNat
  check (desc != 0)
  let avail ← calloc (4 + 2 * queueSize.toNat) 1
  check (avail != 0)
  let used ← calloc (4 + 8 * queueSize.toNat) 1
  check (used != 0)
  Prog.modify fun s => { s with queue := initialQueue queueSize, lastAvail := 0 }

/-- `alloc_queue_desc`. -/
def allocQueueDesc : Driver UInt16 := do
  let s ← Prog.get
  check (s.queue.freeHead != VIRTIO_INVALID_FREE_HEAD)
  Prog.modify fun s => { s with
    queue := { s.queue with freeHead := (s.queue.desc s.queue.freeHead.toNat).next } }
  pure s.queue.freeHead

/-- `free_queue_desc`. -/
def freeQueueDesc (queue : VirtioQueue) (desc : UInt16) : VirtioQueue :=
  if desc = VIRTIO_INVALID_DESC ∨ desc ≥ queue.size then queue
  else { queue with desc := setNext queue.desc desc.toNat queue.freeHead, freeHead := desc }

/-- `is_unseen_used_virtio_queue`. -/
def isUnseenUsedVirtioQueue (queue : VirtioQueue) : Bool := queue.seenUsed != queue.usedIdx

/-- `pop_used_virtio_queue`. -/
def popUsedVirtioQueue : Driver (UInt16 × UInt32) := do
  let s ← Prog.get
  check (isUnseenUsedVirtioQueue s.queue)
  let elem := s.queue.usedRing (s.queue.seenUsed % s.queue.size).toNat
  Prog.modify fun s => { s with queue := { s.queue with seenUsed := s.queue.seenUsed + 1 } }
  pure (elem.id.toUInt16, elem.len)

/-- A ring index and the one after it are different, also where it wraps. -/
theorem ne_succ (i : UInt16) : i ≠ i + 1 :=
  fun heq => absurd (UInt16.left_eq_add.mp heq) (by decide)

/-! ## Free descriptors -/

/-- The next descriptor in the list of free ones. -/
def nextDesc (desc : ℕ → VirtqDesc) (d : UInt16) : UInt16 := (desc d.toNat).next

/-- The free descriptors, from the head of the list on, are those of `l`. -/
structure FreeDescs (queue : VirtioQueue) (l : List UInt16) : Prop where
  chain : Chain VIRTIO_INVALID_FREE_HEAD (nextDesc queue.desc) queue.freeHead l
  lt_size : ∀ d ∈ l, d < queue.size
  nodup : l.Nodup

theorem setNext_self (desc : ℕ → VirtqDesc) (i : ℕ) (next : UInt16) :
    setNext desc i next i = { desc i with next := next } :=
  Function.update_self _ _ _

theorem setNext_ne (desc : ℕ → VirtqDesc) {i j : ℕ} (next : UInt16) (h : j ≠ i) :
    setNext desc i next j = desc j :=
  Function.update_of_ne h _ _

section FreeDescs

variable {queue : VirtioQueue} {l : List UInt16} {d : UInt16}

theorem freeQueueDesc_invalid (queue : VirtioQueue) :
    freeQueueDesc queue VIRTIO_INVALID_DESC = queue :=
  if_pos (Or.inl rfl)

/-- An index of the table is never the invalid one. -/
theorem ne_invalid_of_lt_size (hlt : d < queue.size) : d ≠ VIRTIO_INVALID_DESC := by
  rintro rfl
  have hsize := queue.size.toNat_lt
  have hmax : VIRTIO_INVALID_DESC.toNat = 65535 := rfl
  rw [UInt16.lt_iff_toNat_lt] at hlt
  omega

theorem freeQueueDesc_eq (hlt : d < queue.size) : freeQueueDesc queue d = { queue with
    desc := setNext queue.desc d.toNat queue.freeHead, freeHead := d } := by
  refine if_neg ?_
  rintro (h' | h')
  · exact ne_invalid_of_lt_size hlt h'
  · rw [ge_iff_le, UInt16.le_iff_toNat_le] at h'
    rw [UInt16.lt_iff_toNat_lt] at hlt
    omega

/-- A freed descriptor goes to the front of the list; nothing else about the queue changes. -/
theorem FreeDescs.free (h : FreeDescs queue l) (hlt : d < queue.size)
    (hne : d ≠ VIRTIO_INVALID_DESC) (hl : d ∉ l) :
    FreeDescs (freeQueueDesc queue d) (d :: l) ∧
      freeQueueDesc queue d = { queue with
        desc := setNext queue.desc d.toNat queue.freeHead, freeHead := d } := by
  have heq := freeQueueDesc_eq hlt
  refine ⟨?_, heq⟩
  rw [heq]
  refine ⟨h.chain.push hne ?_ ?_, ?_, List.nodup_cons.mpr ⟨hl, h.nodup⟩⟩
  · simp only [nextDesc, setNext_self]
  · intro b hb
    simp only [nextDesc]
    rw [setNext_ne]
    intro hbd
    exact hl (UInt16.toNat_inj.mp hbd ▸ hb)
  · intro b hb
    rcases List.mem_cons.mp hb with rfl | hb
    · exact hlt
    · exact h.lt_size b hb

/-- Writing to descriptors that are not free does not change the list. -/
theorem FreeDescs.congr {queue' : VirtioQueue} (h : FreeDescs queue l)
    (hsize : queue'.size = queue.size) (hhead : queue'.freeHead = queue.freeHead)
    (hdesc : ∀ b ∈ l, queue'.desc b.toNat = queue.desc b.toNat) : FreeDescs queue' l := by
  refine ⟨?_, fun b hb => by rw [hsize]; exact h.lt_size b hb, h.nodup⟩
  rw [hhead]
  exact h.chain.congr fun b hb => by rw [nextDesc, nextDesc, hdesc b hb]

/-- Without a free descriptor, allocating fails. -/
theorem allocQueueDesc_error {s : Hw} (h : FreeDescs s.queue []) :
    allocQueueDesc s = some (.error .ERR_INVALID, s) := by
  have hhead : s.queue.freeHead = VIRTIO_INVALID_FREE_HEAD := h.chain
  rw [allocQueueDesc, Prog.bind_get_apply, check, Prog.bind_check_false (by rw [hhead]; rfl)]

/-- Allocating takes the first free descriptor. -/
theorem allocQueueDesc_ok {s : Hw} (h : FreeDescs s.queue (d :: l)) :
    allocQueueDesc s = some (.ok d, { s with
        queue := { s.queue with freeHead := (s.queue.desc d.toNat).next } }) ∧
      FreeDescs { s.queue with freeHead := (s.queue.desc d.toNat).next } l := by
  have hhead := h.chain.head_eq
  have hne : d ≠ VIRTIO_INVALID_FREE_HEAD := h.chain.ne_null d (by simp)
  refine ⟨?_, ?_⟩
  · rw [allocQueueDesc, Prog.bind_get_apply, check,
      Prog.bind_check_true (by rw [hhead, bne_iff_ne]; exact hne), Prog.bind_modify_apply, hhead]
    rfl
  · have hpop := h.chain.pop
    rw [hhead] at hpop
    exact ⟨hpop, fun b hb => h.lt_size b (by simp [hb]), (List.nodup_cons.mp h.nodup).2⟩

end FreeDescs

/-! ## Freeing several descriptors -/

section FreeAll

variable {queue : VirtioQueue} {l ds : List UInt16}

/-- Freeing descriptors changes their links and the head of the list, and nothing else. -/
theorem foldl_freeQueueDesc_frame (hlt : ∀ d ∈ ds, d < queue.size) :
    ∃ desc head, ds.foldl freeQueueDesc queue = { queue with desc := desc, freeHead := head } ∧
      (∀ b ∉ ds, desc b.toNat = queue.desc b.toNat) ∧
      ∀ i, (desc i).addr = (queue.desc i).addr := by
  induction ds generalizing queue with
  | nil => exact ⟨queue.desc, queue.freeHead, rfl, fun _ _ => rfl, fun _ => rfl⟩
  | cons d ds ih =>
    rw [List.foldl_cons, freeQueueDesc_eq (hlt d (by simp))]
    let queue₁ : VirtioQueue := { queue with
      desc := setNext queue.desc d.toNat queue.freeHead, freeHead := d }
    have hlt₁ : ∀ b ∈ ds, b < queue₁.size := fun b hb => hlt b (by simp [hb])
    obtain ⟨desc, head, heq, hdesc, haddr⟩ := ih hlt₁
    refine ⟨desc, head, heq, fun b hb => ?_, fun i => ?_⟩
    · rw [List.mem_cons, not_or] at hb
      rw [hdesc b hb.2]
      exact setNext_ne _ _ fun h => hb.1 (UInt16.toNat_inj.mp h)
    · rw [haddr i]
      simp only [queue₁]
      by_cases hi : i = d.toNat
      · rw [hi, setNext_self]
      · rw [setNext_ne _ _ hi]

/-- The rings are as they were, whatever is freed. -/
theorem foldl_freeQueueDesc_rings (queue : VirtioQueue) (ds : List UInt16) :
    ∃ desc head, ds.foldl freeQueueDesc queue = { queue with desc := desc, freeHead := head } := by
  induction ds generalizing queue with
  | nil => exact ⟨queue.desc, queue.freeHead, rfl⟩
  | cons d ds ih =>
    obtain ⟨desc, head, heq⟩ := ih (freeQueueDesc queue d)
    rw [List.foldl_cons, heq, freeQueueDesc]
    split
    · exact ⟨desc, head, rfl⟩
    · exact ⟨desc, head, rfl⟩

/-- Descriptors that are not free go to the front of the list, the last one first. -/
theorem FreeDescs.freeAll (h : FreeDescs queue l) (hlt : ∀ d ∈ ds, d < queue.size)
    (hnodup : (ds ++ l).Nodup) : FreeDescs (ds.foldl freeQueueDesc queue) (ds.reverse ++ l) := by
  induction ds generalizing queue l with
  | nil => exact h
  | cons d ds ih =>
    have hd := hlt d (by simp)
    rw [List.cons_append, List.nodup_cons, List.mem_append, not_or] at hnodup
    obtain ⟨hfree, heq⟩ := h.free hd (ne_invalid_of_lt_size hd) hnodup.1.2
    rw [List.foldl_cons, List.reverse_cons, List.append_assoc, List.singleton_append]
    refine ih hfree (fun b hb => ?_) ?_
    · rw [heq]
      exact hlt b (by simp [hb])
    · rw [List.nodup_middle, List.nodup_cons, List.mem_append, not_or]
      exact hnodup

/-- Whatever was free before: if the list is a chain after some descriptors have been freed, they
stand at its front and the old list behind them. -/
theorem chain_freeAll (hlt : ∀ d ∈ ds, d < queue.size) (hnodup : ds.Nodup)
    (hchain : Chain VIRTIO_INVALID_FREE_HEAD (nextDesc (ds.foldl freeQueueDesc queue).desc)
      (ds.foldl freeQueueDesc queue).freeHead l) :
    ∃ rest, l = ds.reverse ++ rest ∧ Chain VIRTIO_INVALID_FREE_HEAD
      (nextDesc (ds.foldl freeQueueDesc queue).desc) queue.freeHead rest := by
  induction ds generalizing queue with
  | nil => exact ⟨l, rfl, hchain⟩
  | cons d ds ih =>
    have hd := hlt d (by simp)
    have hds : ∀ b ∈ ds, b < (freeQueueDesc queue d).size := by
      rw [freeQueueDesc_eq hd]
      exact fun b hb => hlt b (by simp [hb])
    rw [List.nodup_cons] at hnodup
    rw [List.foldl_cons] at hchain ⊢
    obtain ⟨rest, hl, hrest⟩ := ih hds hnodup.2 hchain
    -- the list goes on with `d`, whose link is the old head
    have hhead : (freeQueueDesc queue d).freeHead = d := by rw [freeQueueDesc_eq hd]
    rw [hhead] at hrest
    obtain ⟨desc, head, heq, hdesc, -⟩ := foldl_freeQueueDesc_frame hds
    have hlink : nextDesc (ds.foldl freeQueueDesc (freeQueueDesc queue d)).desc d =
        queue.freeHead := by
      rw [heq]
      simp only [nextDesc]
      rw [hdesc d hnodup.1, freeQueueDesc_eq hd]
      simp only
      rw [setNext_self]
    obtain ⟨t, rfl, ht⟩ := hrest.exists_cons (ne_invalid_of_lt_size hd)
    rw [hlink] at ht
    exact ⟨t, by rw [hl, List.reverse_cons, List.append_assoc, List.singleton_append], ht⟩

end FreeAll

/-! ## Initialisation -/

/-- The link of every descriptor after initialisation. -/
theorem linkDescs_next {queueSize : UInt16} {i : ℕ} (hi : i < queueSize.toNat) :
    (linkDescs queueSize i).next =
      if i + 1 = queueSize.toNat then VIRTIO_INVALID_FREE_HEAD else UInt16.ofNat (i + 1) := by
  have hfold : ∀ n, ∀ i < n, ((List.range n).foldl
      (fun desc i => setNext desc i (UInt16.ofNat (i + 1))) (fun _ => (⟨0, 0, 0, 0⟩ : VirtqDesc)) i).next =
        UInt16.ofNat (i + 1) := by
    intro n
    induction n with
    | zero => intro i hi; omega
    | succ n ih =>
      intro i hi
      rw [List.range_succ, List.foldl_append, List.foldl_cons, List.foldl_nil]
      by_cases hin : i = n
      · rw [hin, setNext_self]
      · rw [setNext_ne _ _ hin]
        exact ih i (by omega)
  rw [linkDescs]
  split
  case isTrue h => rw [show i = queueSize.toNat - 1 by omega, setNext_self]
  case isFalse h =>
    rw [setNext_ne _ _ (by omega)]
    exact hfold _ i hi

/-- The links from descriptor `k` on are a chain of all the descriptors from `k` on. -/
theorem linkDescs_chain {queueSize : UInt16} (hsize : queueSize ≠ VIRTIO_INVALID_QUEUE_SIZE) :
    ∀ n k, k + n = queueSize.toNat →
      Chain VIRTIO_INVALID_FREE_HEAD (nextDesc (linkDescs queueSize))
        (if n = 0 then VIRTIO_INVALID_FREE_HEAD else UInt16.ofNat k)
        ((List.range' k n).map UInt16.ofNat) := by
  have hlt := queueSize.toNat_lt
  have hmax : queueSize.toNat ≠ 65535 := fun h => hsize (UInt16.toNat_inj.mp h)
  intro n
  induction n with
  | zero => intro k _; rfl
  | succ n ih =>
    intro k hk
    have hkn : (UInt16.ofNat k).toNat = k := by
      rw [UInt16.toNat_ofNat']
      exact Nat.mod_eq_of_lt (by omega)
    rw [if_neg (by omega), List.range'_succ, List.map_cons]
    refine ⟨rfl, fun h => ?_, ?_⟩
    · rw [← UInt16.toNat_inj, hkn] at h
      simp only [VIRTIO_INVALID_FREE_HEAD] at h
      have h16 : (65535 : UInt16).toNat = 65535 := rfl
      omega
    · have hnext := linkDescs_next (show k < queueSize.toNat by omega)
      rw [nextDesc, hkn, hnext]
      have := ih (k + 1) (by omega)
      by_cases hn : n = 0
      · rw [if_pos hn] at this
        rwa [if_pos (by omega)]
      · rw [if_neg hn] at this
        rwa [if_neg (by omega)]

/-- The descriptors of a queue of this size. -/
def allDescs (queueSize : UInt16) : List UInt16 := (List.range' 0 queueSize.toNat).map UInt16.ofNat

theorem toNat_ofNat_of_lt {queueSize : UInt16} {k : ℕ} (hk : k < queueSize.toNat) :
    (UInt16.ofNat k).toNat = k := by
  have hlt := queueSize.toNat_lt
  rw [UInt16.toNat_ofNat']
  exact Nat.mod_eq_of_lt (by omega)

theorem mem_allDescs {queueSize d : UInt16} : d ∈ allDescs queueSize ↔ d < queueSize := by
  rw [UInt16.lt_iff_toNat_lt, allDescs, List.mem_map]
  constructor
  · rintro ⟨k, hk, rfl⟩
    rw [List.mem_range'_1] at hk
    rw [toNat_ofNat_of_lt (by omega : k < queueSize.toNat)]
    omega
  · intro hd
    exact ⟨d.toNat, List.mem_range'_1.mpr ⟨by omega, by omega⟩, UInt16.ofNat_toNat⟩

theorem allDescs_nodup (queueSize : UInt16) : (allDescs queueSize).Nodup := by
  refine List.Nodup.map_on (fun a ha b hb hab => ?_) List.nodup_range'
  rw [List.mem_range'_1] at ha hb
  rw [← toNat_ofNat_of_lt (by omega : a < queueSize.toNat),
    ← toNat_ofNat_of_lt (by omega : b < queueSize.toNat), hab]

/-- **After initialisation every descriptor is free.** -/
theorem initialQueue_freeDescs {queueSize : UInt16} (hvalid : queueSize ≠ VIRTIO_INVALID_QUEUE_SIZE)
    (hpos : 0 < queueSize) : FreeDescs (initialQueue queueSize) (allDescs queueSize) := by
  rw [UInt16.lt_iff_toNat_lt] at hpos
  have hchain := linkDescs_chain hvalid queueSize.toNat 0 (Nat.zero_add _)
  rw [if_neg (Nat.pos_iff_ne_zero.mp hpos)] at hchain
  exact ⟨hchain, fun d hd => mem_allDescs.mp hd, allDescs_nodup queueSize⟩

end SwitchOs.Virtio
