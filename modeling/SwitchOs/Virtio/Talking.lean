import SwitchOs.Virtio.CapScan

/-!
# Talking to the device

What `init_virtio_blk_dev` does from the capabilities on, as triples over states of which everything
is known but some fields of the struct (`At`, `Known`). The fields of the queue are set one after the
other; where that stops, the rest of them still hold what was there before (`Parts`), and the cleanup
of `init_virtio_blk_queue` frees them all.
-/

namespace SwitchOs.Virtio

open Prog

/-- The space, the heap and the accesses of the state are known, and of the struct what `K` says. -/
structure At (p : PciSpace) (h : Heap) (log : List Access) (K : BlkStruct → Prop)
    (s : SetupState) : Prop where
  pci : s.pci = p
  heap : s.heap = h
  accesses : s.log = log
  dev : K s.dev

/-- What is known of the struct: the device and its two addresses, and what `S` and `Q` say of its
status and its queue. -/
structure Known (a : PciDevAddr) (c n : UInt64) (S : UInt8 → Prop) (Q : QueueStruct → Prop)
    (dev : BlkStruct) : Prop where
  addr : dev.pciDev.addr = a
  commonCfg : dev.commonCfg = c
  notifyOff : dev.notifyOff = n
  status : S dev.status
  queue : Q dev.queue

/-- What is known of the queue: its number and its three parts. -/
structure Parts (desc avail used : UInt64 → Prop) (queue : QueueStruct) : Prop where
  num : queue.num = 0
  desc : desc queue.desc
  avail : avail queue.avail
  used : used queue.used

section Talking

variable {p : PciSpace} {h : Heap} {log log' : List Access} {K K' : BlkStruct → Prop}
  {a : PciDevAddr} {c n : UInt64} {S : UInt8 → Prop} {Q : QueueStruct → Prop}
  {Rd Rv Ru : UInt64 → Prop} {D : Device} {L : Layout} {q : UInt16}

theorem At.cast {s : SetupState} (hs : At p h log K s) (hlog : log = log') : At p h log' K s :=
  hlog ▸ hs

theorem At.weaken {s : SetupState} (hs : At p h log K s) (hK : ∀ dev, K dev → K' dev) :
    At p h log K' s := ⟨hs.pci, hs.heap, hs.accesses, hK s.dev hs.dev⟩

theorem comesTo_of_log {x : Setup Unit} {r : Except Err Unit} {R : SetupState → Prop}
    (log' : List Access) (hlog : log = log') (hx : ComesTo (At p h log' K) x r R) :
    ComesTo (At p h log K) x r R := hlog ▸ hx

theorem At.forget {s : SetupState} (hs : At p h log (Known a c n S Q) s) :
    At p h log (fun dev => dev.commonCfg = c) s := hs.weaken fun _ hdev => hdev.commonCfg

/-! ## Single steps -/

theorem comesTo_write (bytes : ℕ) (addr : UInt64) (value : UInt32) :
    ComesTo (At p h log K) (Setup.write bytes addr value) (.ok ())
      (At p h (log ++ [.write bytes addr value]) K) :=
  comesTo_modify fun _ hs => ⟨hs.pci, hs.heap, congrArg (· ++ _) hs.accesses, hs.dev⟩

theorem comesTo_read (bytes : ℕ) (addr : UInt64) :
    ComesTo (At p h log K) (Setup.read D bytes addr)
      (.ok (D p ((log ++ [Access.read bytes addr]).filter Access.isMemory)))
      (At p h (log ++ [.read bytes addr]) K) := by
  intro s hs
  refine ⟨s.logged (.read bytes addr), ?_, hs.pci, hs.heap, congrArg (· ++ _) hs.accesses, hs.dev⟩
  rw [Setup.read, SetupState.memoryLog, SetupState.logged, hs.pci, hs.accesses]

theorem comesTo_pciRead16 (offset : ℕ) (ha : ∀ dev, K dev → dev.pciDev.addr = a) :
    ComesTo (At p h log K) (Setup.pciRead16 offset) (.ok (pciRead16 p a offset))
      (At p h (log ++ [.pciRead 2 a offset]) K) := by
  intro s hs
  have haddr := ha s.dev hs.dev
  refine ⟨s.logged (.pciRead 2 a offset), ?_, hs.pci, hs.heap, congrArg (· ++ _) hs.accesses, hs.dev⟩
  rw [Setup.pciRead16, haddr, hs.pci]

theorem comesTo_pciWrite16 (offset : ℕ) (value : UInt16) (ha : ∀ dev, K dev → dev.pciDev.addr = a) :
    ComesTo (At p h log K) (Setup.pciWrite16 offset value) (.ok ())
      (At (pciWrite16 a offset value p) h (log ++ [.pciWrite 2 a offset value.toUInt32]) K) := by
  refine comesTo_modify fun s hs => ?_
  have haddr := ha s.dev hs.dev
  refine ⟨?_, hs.heap, ?_, hs.dev⟩
  · simp only [haddr, hs.pci]
  · simp only [SetupState.logged, haddr, hs.accesses]

theorem comesTo_setDev {f : BlkStruct → BlkStruct} (hf : ∀ dev, K dev → K' (f dev)) :
    ComesTo (At p h log K) (Setup.setDev f) (.ok ()) (At p h log K') :=
  comesTo_modify fun s hs => ⟨hs.pci, hs.heap, hs.accesses, hf s.dev hs.dev⟩

theorem comesTo_setQueue {f : QueueStruct → QueueStruct} {Q' : QueueStruct → Prop}
    (hf : ∀ queue, Q queue → Q' (f queue)) :
    ComesTo (At p h log (Known a c n S Q)) (Setup.setQueue f) (.ok ())
      (At p h log (Known a c n S Q')) :=
  comesTo_setDev fun _ hdev =>
    ⟨hdev.addr, hdev.commonCfg, hdev.notifyOff, hdev.status, hf _ hdev.queue⟩

theorem comesTo_calloc (count size : ℕ) :
    ComesTo (At p h log K) (Setup.calloc count size) (.ok (coreCalloc count size h).1)
      (At p (coreCalloc count size h).2 log K) := by
  intro s hs
  refine ⟨{ s with heap := (coreCalloc count size s.heap).2 }, ?_, hs.pci, ?_, hs.accesses, hs.dev⟩
  · rw [Setup.calloc, hs.heap]
  · simp only [hs.heap]

/-! ## Status and features -/

/-- The accesses of `init_virtio_status`. -/
def statusAccesses (c : UInt64) : List Access :=
  [.write 1 (c + DEVICE_STATUS) 0, .write 1 (c + DEVICE_STATUS) 1, .write 1 (c + DEVICE_STATUS) 3]

theorem comesTo_initVirtioStatus :
    ComesTo (At p h log (Known a c n S Q)) Setup.initVirtioStatus (.ok ())
      (At p h (log ++ statusAccesses c) (Known a c n (· = 3) Q)) := by
  unfold Setup.initVirtioStatus
  apply comesTo_get
  intro s hs
  rw [hs.dev.commonCfg]
  refine ((comesTo_write _ _ _).seq ((comesTo_write _ _ _).seq ((comesTo_write _ _ _).seq
    (comesTo_setDev fun dev hdev => ⟨hdev.addr, hdev.commonCfg, hdev.notifyOff, rfl, hdev.queue⟩)))).weaken
    fun t ht => ht.cast ?_
  rw [List.append_assoc, List.append_assoc]
  rfl

theorem comesTo_addStatus {st : UInt8} (bits : UInt8) :
    ComesTo (At p h log (Known a c n (· = st) Q)) (Setup.addStatus bits) (.ok ())
      (At p h (log ++ [.write 1 (c + DEVICE_STATUS) (st ||| bits).toUInt32])
        (Known a c n (· = st ||| bits) Q)) := by
  unfold Setup.addStatus
  have hset : ComesTo (At p h log (Known a c n (· = st) Q))
      (Setup.setDev fun dev => { dev with status := dev.status ||| bits }) (.ok ())
      (At p h log (Known a c n (· = st ||| bits) Q)) :=
    comesTo_setDev fun dev hdev => ⟨hdev.addr, hdev.commonCfg, hdev.notifyOff,
      congrArg (· ||| bits) hdev.status, hdev.queue⟩
  apply hset.seq
  apply comesTo_get
  intro s hs
  rw [hs.dev.commonCfg, hs.dev.status]
  exact comesTo_write _ _ _

/-- The accesses of `negotiate_virtio_features` before it reads the status back. -/
def featureAccesses (c : UInt64) : List Access :=
  [.write 4 (c + DEVICE_FEATURE_SELECT) 0, .read 4 (c + DEVICE_FEATURE),
    .write 4 (c + DEVICE_FEATURE_SELECT) 1, .read 4 (c + DEVICE_FEATURE),
    .write 4 (c + DRIVER_FEATURE_SELECT) 0, .write 4 (c + DRIVER_FEATURE) 0,
    .write 4 (c + DRIVER_FEATURE_SELECT) 1, .write 4 (c + DRIVER_FEATURE) 0,
    .write 1 (c + DEVICE_STATUS) 11]

/-- The read of the status after the features. -/
def featureRead (c : UInt64) : Access := .read 1 (c + DEVICE_STATUS)

/-- The device has accepted the features: its status has `VIRTIO_STATUS_FEATURES_OK`. -/
def featuresOk (D : Device) (p : PciSpace) (log : List Access) (c : UInt64) : Bool :=
  (D p ((log ++ featureAccesses c ++ [featureRead c]).filter Access.isMemory)).toUInt8 &&&
    VIRTIO_STATUS_FEATURES_OK != 0

theorem comesTo_negotiate (D : Device) (p : PciSpace) (h : Heap) (log : List Access)
    (a : PciDevAddr) (c n : UInt64) (Q : QueueStruct → Prop) :
    ComesTo (At p h log (Known a c n (· = 3) Q)) (Setup.negotiateVirtioFeatures D)
      (if featuresOk D p log c then .ok () else .error .ERR_INVALID)
      (At p h (log ++ featureAccesses c ++ [featureRead c]) (Known a c n (· = 11) Q)) := by
  unfold Setup.negotiateVirtioFeatures
  apply comesTo_get
  intro s hs
  rw [hs.dev.commonCfg]
  apply (comesTo_write _ _ _).seq
  apply (comesTo_read _ _).bind
  apply (comesTo_write _ _ _).seq
  apply (comesTo_read _ _).bind
  -- no feature is asked for
  apply comesTo_check_true (by simp [VIRTIO_BLK_REQUESTED_FEATURES])
  apply (comesTo_write _ _ _).seq
  apply (comesTo_write _ _ _).seq
  apply (comesTo_write _ _ _).seq
  apply (comesTo_write _ _ _).seq
  apply (comesTo_addStatus _).seq
  apply comesTo_of_log (log ++ featureAccesses c) (by simp only [List.append_assoc]; rfl)
  apply (comesTo_read _ _).bind
  cases hok : featuresOk D p log c with
  | true =>
    apply comesTo_check_true hok
    exact comesTo_setDev fun dev hdev =>
      ⟨hdev.addr, hdev.commonCfg, hdev.notifyOff, hdev.status, hdev.queue⟩
  | false => exact comesTo_check_false hok

/-! ## The parts of the queue -/

/-- The accesses once the size of the queue has been asked for. -/
def askedSize (log : List Access) (c : UInt64) : List Access :=
  log ++ [.write 2 (c + QUEUE_SELECT) 0] ++ [.read 2 (c + QUEUE_SIZE)]

/-- The size of the queue that the device answers with. -/
def queueSize (D : Device) (p : PciSpace) (log : List Access) (c : UInt64) : UInt16 :=
  (D p ((askedSize log c).filter Access.isMemory)).toUInt16

/-- The size is one that a queue can have. -/
def sizeOk (size : UInt16) : Bool :=
  size != VIRTIO_INVALID_QUEUE_SIZE && decide (size > 0)

/-- The first part of a queue of that size, and the heap after its allocation. -/
def callocDesc (size : UInt16) (h : Heap) : UInt64 × Heap := coreCalloc 16 size.toNat h

/-- The second part. -/
def callocAvail (size : UInt16) (h : Heap) : UInt64 × Heap :=
  coreCalloc (4 + 2 * size.toNat) 1 (callocDesc size h).2

/-- The third part. -/
def callocUsed (size : UInt16) (h : Heap) : UInt64 × Heap :=
  coreCalloc (4 + 8 * size.toNat) 1 (callocAvail size h).2

section Set

variable {queue : QueueStruct}

theorem Parts.setDesc (hq : Parts Rd Rv Ru queue) (x : UInt64) :
    Parts (· = x) Rv Ru { queue with desc := x } := ⟨hq.num, rfl, hq.avail, hq.used⟩

theorem Parts.setAvail (hq : Parts Rd Rv Ru queue) (x : UInt64) :
    Parts Rd (· = x) Ru { queue with avail := x } := ⟨hq.num, hq.desc, rfl, hq.used⟩

theorem Parts.setUsed (hq : Parts Rd Rv Ru queue) (x : UInt64) :
    Parts Rd Rv (· = x) { queue with used := x } := ⟨hq.num, hq.desc, hq.avail, rfl⟩

end Set

/-- The other fields of the queue are set. -/
theorem comesTo_setRest {f : QueueStruct → QueueStruct}
    (hf : ∀ queue, (f queue).num = queue.num ∧ (f queue).desc = queue.desc ∧
      (f queue).avail = queue.avail ∧ (f queue).used = queue.used) :
    ComesTo (At p h log (Known a c n S (Parts Rd Rv Ru))) (Setup.setQueue f) (.ok ())
      (At p h log (Known a c n S (Parts Rd Rv Ru))) := by
  refine comesTo_setQueue fun queue hq => ?_
  obtain ⟨hnum, hdesc, havail, hused⟩ := hf queue
  exact ⟨hnum.trans hq.num, hdesc ▸ hq.desc, havail ▸ hq.avail, hused ▸ hq.used⟩

section Part

variable {count size : ℕ} {set : UInt64 → QueueStruct → QueueStruct} {rest : Setup Unit}
  {r : Except Err Unit} {R : SetupState → Prop} {Q' : QueueStruct → Prop}

/-- A part of the queue that is allocated. -/
theorem comesTo_part_ok (hset : ∀ queue, Q queue → Q' (set (coreCalloc count size h).1 queue))
    (hptr : (coreCalloc count size h).1 ≠ 0)
    (hrest : ComesTo (At p (coreCalloc count size h).2 log (Known a c n S Q')) rest r R) :
    ComesTo (At p h log (Known a c n S Q)) (Setup.calloc count size >>= fun x =>
      Setup.setQueue (set x) >>= fun _ => check (x != 0) >>= fun _ => rest) r R := by
  apply (comesTo_calloc _ _).bind
  apply (comesTo_setQueue hset).seq
  exact comesTo_check_true (bne_iff_ne.mpr hptr) hrest

/-- A part of the queue that is not. -/
theorem comesTo_part_error (hset : ∀ queue, Q queue → Q' (set (coreCalloc count size h).1 queue))
    (hptr : (coreCalloc count size h).1 = 0) :
    ComesTo (At p h log (Known a c n S Q)) (Setup.calloc count size >>= fun x =>
      Setup.setQueue (set x) >>= fun _ => check (x != 0) >>= fun _ => rest) (.error .ERR_INVALID)
      (At p (coreCalloc count size h).2 log (Known a c n S Q')) := by
  apply (comesTo_calloc _ _).bind
  apply (comesTo_setQueue hset).seq
  exact comesTo_check_false (bne_eq_false_iff_eq.mpr hptr)

end Part

/-- The queue can be had: the device answers with a size, and the first two parts are allocated. -/
structure QueueReady (D : Device) (p : PciSpace) (log : List Access) (c : UInt64) (h : Heap) :
    Prop where
  size : sizeOk (queueSize D p log c) = true
  desc : (callocDesc (queueSize D p log c) h).1 ≠ 0
  avail : (callocAvail (queueSize D p log c) h).1 ≠ 0

/-- The device is asked for the size of the queue, and answers with one that a queue can have. -/
theorem comesTo_askSize {f : UInt32 → Setup Unit} {r : Except Err Unit} {R : SetupState → Prop}
    (hsize : sizeOk (queueSize D p log c) = true)
    (hrest : ComesTo (At p h (askedSize log c) (Known a c n S (Parts Rd Rv Ru)))
      (f (D p ((askedSize log c).filter Access.isMemory))) r R) :
    ComesTo (At p h log (Known a c n S (Parts Rd Rv Ru))) (Prog.get >>= fun s =>
      Setup.write 2 (s.dev.commonCfg + QUEUE_SELECT) s.dev.queue.num.toUInt32 >>= fun _ =>
      Setup.read D 2 (s.dev.commonCfg + QUEUE_SIZE) >>= fun size =>
      check (size.toUInt16 != VIRTIO_INVALID_QUEUE_SIZE && decide (size.toUInt16 > 0)) >>= fun _ =>
      Setup.setQueue (fun queue => { queue with size := size.toUInt16 }) >>= fun _ => f size) r R := by
  apply comesTo_get
  intro s hs
  rw [hs.dev.commonCfg, hs.dev.queue.num]
  apply (comesTo_write _ _ _).seq
  apply (comesTo_read _ _).bind
  apply comesTo_check_true hsize
  refine (comesTo_setRest ?_).seq hrest
  exact fun _ => ⟨rfl, rfl, rfl, rfl⟩

/-- **A queue that cannot be had**: the parts that have not been allocated hold what they held. -/
theorem queueBody_stops (S : UInt8 → Prop) (hready : ¬ QueueReady D p log c h) :
    ∃ h' log' desc avail, ∀ used, ComesTo
      (At p h log (Known a c n S (Parts (· = 0) (· = 0) (· = used))))
      (Setup.initVirtioBlkQueueBody D) (.error .ERR_INVALID)
      (At p h' log' (Known a c n S (Parts (· = desc) (· = avail) (· = used)))) := by
  unfold Setup.initVirtioBlkQueueBody
  by_cases hsize : sizeOk (queueSize D p log c) = true
  case neg =>
    refine ⟨h, askedSize log c, 0, 0, fun used => ?_⟩
    apply comesTo_get
    intro s hs
    rw [hs.dev.commonCfg, hs.dev.queue.num]
    apply (comesTo_write _ _ _).seq
    apply (comesTo_read _ _).bind
    exact comesTo_check_false (Bool.eq_false_iff.mpr hsize)
  by_cases hdesc : (callocDesc (queueSize D p log c) h).1 = 0
  case pos =>
    refine ⟨(callocDesc (queueSize D p log c) h).2, askedSize log c,
      (callocDesc (queueSize D p log c) h).1, 0, fun used => ?_⟩
    refine comesTo_askSize hsize ?_
    exact comesTo_part_error (fun _ hq => hq.setDesc _) hdesc
  have havail : (callocAvail (queueSize D p log c) h).1 = 0 := by
    by_contra havail
    exact hready ⟨hsize, hdesc, havail⟩
  refine ⟨(callocAvail (queueSize D p log c) h).2, askedSize log c,
    (callocDesc (queueSize D p log c) h).1, (callocAvail (queueSize D p log c) h).1, fun used => ?_⟩
  refine comesTo_askSize hsize ?_
  refine comesTo_part_ok (fun _ hq => hq.setDesc _) hdesc ?_
  exact comesTo_part_error (fun _ hq => hq.setAvail _) havail

/-! ## Starting the queue -/

/-- A change to memory that the known fields decide. -/
theorem comesTo_setMem {f : SetupState → (ℕ → UInt8) → ℕ → UInt8} {g : (ℕ → UInt8) → ℕ → UInt8}
    (hf : ∀ s, K s.dev → f s = g) :
    ComesTo (At p h log K) (Prog.modify fun s => s.setMem (f s) : Setup Unit) (.ok ())
      (At p { h with mem := g h.mem } log K) := by
  refine comesTo_modify fun s hs => ⟨hs.pci, ?_, hs.accesses, hs.dev⟩
  have hfs := hf s hs.dev
  simp only [SetupState.setMem, hfs, hs.heap]

/-- The accesses of `configure_queue_ptrs`. -/
def pointerAccesses (c x y z : UInt64) : List Access :=
  [.write 2 (c + QUEUE_SELECT) 0,
    .write 4 (c + QUEUE_DESC_LO) x.toUInt32, .write 4 (c + QUEUE_DESC_HI) (x >>> 32).toUInt32,
    .write 4 (c + QUEUE_DRIVER_LO) y.toUInt32, .write 4 (c + QUEUE_DRIVER_HI) (y >>> 32).toUInt32,
    .write 4 (c + QUEUE_DEVICE_LO) z.toUInt32, .write 4 (c + QUEUE_DEVICE_HI) (z >>> 32).toUInt32]

theorem comesTo_configureQueuePtrs {x y z : UInt64} :
    ComesTo (At p h log (Known a c n S (Parts (· = x) (· = y) (· = z)))) Setup.configureQueuePtrs
      (.ok ()) (At p h (log ++ pointerAccesses c x y z)
        (Known a c n S (Parts (· = x) (· = y) (· = z)))) := by
  unfold Setup.configureQueuePtrs
  apply comesTo_get
  intro s hs
  have hq := hs.dev.queue
  rw [hs.dev.commonCfg, hq.num, hq.desc, hq.avail, hq.used]
  apply (comesTo_write _ _ _).seq
  apply (comesTo_write _ _ _).seq
  apply (comesTo_write _ _ _).seq
  apply (comesTo_write _ _ _).seq
  apply (comesTo_write _ _ _).seq
  apply (comesTo_write _ _ _).seq
  refine (comesTo_write _ _ _).weaken fun t ht => ht.cast ?_
  simp only [List.append_assoc]
  rfl

theorem comesTo_initQueueNotifyOff (hn : n ≠ 0) :
    ComesTo (At p h log (Known a c n S (Parts Rd Rv Ru))) (Setup.initQueueNotifyOff D) (.ok ())
      (At p h (log ++ [.read 2 (c + QUEUE_NOTIFY_OFF)]) (Known a c n S (Parts Rd Rv Ru))) := by
  unfold Setup.initQueueNotifyOff
  apply comesTo_get
  intro s hs
  rw [hs.dev.commonCfg, hs.dev.notifyOff]
  apply comesTo_check_true (bne_iff_ne.mpr hn)
  apply (comesTo_read _ _).bind
  exact comesTo_setRest fun _ => ⟨rfl, rfl, rfl, rfl⟩

/-- The memory once the flag of the available ring is set. -/
def flaggedMem (y : UInt64) (mem : ℕ → UInt8) : ℕ → UInt8 :=
  put16 mem y.toNat (get16 mem y.toNat ||| VIRTQ_AVAIL_F_NO_INTERRUPT)

/-- The memory once the descriptors are chained. -/
def chainedMem (x : UInt64) (size : UInt16) (mem : ℕ → UInt8) : ℕ → UInt8 :=
  Setup.putNext x (size.toNat - 1) VIRTIO_INVALID_FREE_HEAD
    ((List.range size.toNat).foldl (fun mem i => Setup.putNext x i (UInt16.ofNat (i + 1)) mem) mem)

theorem comesTo_startQueue {x y z : UInt64} (hn : n ≠ 0) :
    ComesTo (At p h log (Known a c n S (Parts (· = x) (· = y) (· = z)))) (Setup.startQueue D q)
      (.ok ()) (At p { h with mem := chainedMem x q (flaggedMem y h.mem) }
        (log ++ pointerAccesses c x y z ++ [.read 2 (c + QUEUE_NOTIFY_OFF)] ++
          [.write 2 (c + QUEUE_ENABLE) 1])
        (Known a c n S (Parts (· = x) (· = y) (· = z)))) := by
  unfold Setup.startQueue
  have hflag : ∀ s : SetupState, Known a c n S (Parts (· = x) (· = y) (· = z)) s.dev →
      (fun mem => put16 mem s.dev.queue.avail.toNat
        (get16 mem s.dev.queue.avail.toNat ||| VIRTQ_AVAIL_F_NO_INTERRUPT)) = flaggedMem y := by
    intro s hs
    rw [hs.queue.avail]
    rfl
  have hchain : ∀ s : SetupState, Known a c n S (Parts (· = x) (· = y) (· = z)) s.dev →
      (fun mem => Setup.putNext s.dev.queue.desc (q.toNat - 1) VIRTIO_INVALID_FREE_HEAD
        ((List.range q.toNat).foldl
          (fun mem i => Setup.putNext s.dev.queue.desc i (UInt16.ofNat (i + 1)) mem) mem)) =
        chainedMem x q := by
    intro s hs
    rw [hs.queue.desc]
    rfl
  apply (comesTo_setMem hflag).seq
  apply comesTo_configureQueuePtrs.seq
  apply (comesTo_setMem hchain).seq
  refine (comesTo_setRest ?_).seq ((comesTo_setRest ?_).seq ?_)
  case refine_1 => exact fun _ => ⟨rfl, rfl, rfl, rfl⟩
  case refine_2 => exact fun _ => ⟨rfl, rfl, rfl, rfl⟩
  apply (comesTo_initQueueNotifyOff hn).seq
  apply comesTo_get
  intro s hs
  rw [hs.dev.commonCfg]
  exact comesTo_write _ _ _

/-- **A queue that can be had**: all its parts have been set, whether the last one is allocated or
not. -/
theorem queueBody_runs (Rd Rv Ru : UInt64 → Prop) (S : UInt8 → Prop) (a : PciDevAddr) (hn : n ≠ 0)
    (hready : QueueReady D p log c h) :
    ∃ r h' log' desc avail used, ComesTo (At p h log (Known a c n S (Parts Rd Rv Ru)))
      (Setup.initVirtioBlkQueueBody D) r
      (At p h' log' (Known a c n S (Parts (· = desc) (· = avail) (· = used)))) := by
  unfold Setup.initVirtioBlkQueueBody
  by_cases hused : (callocUsed (queueSize D p log c) h).1 = 0
  · refine ⟨.error .ERR_INVALID, (callocUsed (queueSize D p log c) h).2, askedSize log c,
      (callocDesc (queueSize D p log c) h).1, (callocAvail (queueSize D p log c) h).1,
      (callocUsed (queueSize D p log c) h).1, ?_⟩
    refine comesTo_askSize hready.size ?_
    refine comesTo_part_ok (fun _ hq => hq.setDesc _) hready.desc ?_
    refine comesTo_part_ok (fun _ hq => hq.setAvail _) hready.avail ?_
    exact comesTo_part_error (fun _ hq => hq.setUsed _) hused
  · refine ⟨.ok (), { (callocUsed (queueSize D p log c) h).2 with
        mem := chainedMem (callocDesc (queueSize D p log c) h).1 (queueSize D p log c)
          (flaggedMem (callocAvail (queueSize D p log c) h).1
            (callocUsed (queueSize D p log c) h).2.mem) },
      askedSize log c ++ pointerAccesses c (callocDesc (queueSize D p log c) h).1
        (callocAvail (queueSize D p log c) h).1 (callocUsed (queueSize D p log c) h).1 ++
        [.read 2 (c + QUEUE_NOTIFY_OFF)] ++ [.write 2 (c + QUEUE_ENABLE) 1],
      (callocDesc (queueSize D p log c) h).1, (callocAvail (queueSize D p log c) h).1,
      (callocUsed (queueSize D p log c) h).1, ?_⟩
    refine comesTo_askSize hready.size ?_
    refine comesTo_part_ok (fun _ hq => hq.setDesc _) hready.desc ?_
    refine comesTo_part_ok (fun _ hq => hq.setAvail _) hready.avail ?_
    refine comesTo_part_ok (fun _ hq => hq.setUsed _) hused ?_
    exact comesTo_startQueue hn

/-- The heap after the cleanup of a queue with these parts. -/
def freedParts (L : Layout) (x y z : UInt64) (h : Heap) : Heap :=
  coreFree L z (coreFree L y (coreFree L x h))

theorem at_freeQueue {x y z : UInt64} {s : SetupState}
    (hs : At p h log (Known a c n S (Parts (· = x) (· = y) (· = z))) s) :
    At p (freedParts L x y z h) log (Known a c n S (Parts (· = x) (· = y) (· = z)))
      (Setup.freeQueue L s) := by
  have hq := hs.dev.queue
  refine ⟨hs.pci, ?_, hs.accesses, hs.dev⟩
  simp only [Setup.freeQueue, freedParts, hs.heap, hq.desc, hq.avail, hq.used]

theorem queue_runs (L : Layout) (Rd Rv Ru : UInt64 → Prop) (S : UInt8 → Prop) (a : PciDevAddr)
    (hn : n ≠ 0) (hready : QueueReady D p log c h) :
    ∃ r h' log' Q, ComesTo (At p h log (Known a c n S (Parts Rd Rv Ru)))
      (Setup.initVirtioBlkQueue D L) r (At p h' log' (Known a c n S Q)) := by
  obtain ⟨r, h', log', x, y, z, hbody⟩ := queueBody_runs Rd Rv Ru S a hn hready
  cases r with
  | ok u => exact ⟨.ok u, h', log', _, hbody.orCleanup_ok⟩
  | error e => exact ⟨.error e, _, log', _, hbody.orCleanup_error fun s hs => at_freeQueue hs⟩

theorem queue_stops (L : Layout) (S : UInt8 → Prop) (a : PciDevAddr) (n : UInt64)
    (hready : ¬ QueueReady D p log c h) :
    ∃ h' log', ∀ used, ∃ Q, ComesTo
      (At p h log (Known a c n S (Parts (· = 0) (· = 0) (· = used)))) (Setup.initVirtioBlkQueue D L)
      (.error .ERR_INVALID) (At p (coreFree L used h') log' (Known a c n S Q)) := by
  obtain ⟨h', log', x, y, hbody⟩ := queueBody_stops S hready
  exact ⟨coreFree L y (coreFree L x h'), log', fun used =>
    ⟨_, (hbody used).orCleanup_error fun s hs => at_freeQueue hs⟩⟩

/-! ## The whole of it -/

/-- The configuration space once the memory of the device is enabled. -/
def enabledSpace (p : PciSpace) (a : PciDevAddr) : PciSpace :=
  pciWrite16 a PCI_COMMAND (pciRead16 p a PCI_COMMAND ||| PCI_COMMAND_MEMORY) p

/-- The accesses that enable it. -/
def enableAccesses (p : PciSpace) (a : PciDevAddr) : List Access :=
  [.pciRead 2 a PCI_COMMAND,
    .pciWrite 2 a PCI_COMMAND (pciRead16 p a PCI_COMMAND ||| PCI_COMMAND_MEMORY).toUInt32]

/-- The accesses before the features are negotiated. -/
def featureLog (p : PciSpace) (a : PciDevAddr) (log : List Access) (c : UInt64) : List Access :=
  log ++ enableAccesses p a ++ statusAccesses c

/-- The accesses before the queue is set up. -/
def queueLog (p : PciSpace) (a : PciDevAddr) (log : List Access) (c : UInt64) : List Access :=
  featureLog p a log c ++ featureAccesses c ++ [featureRead c]

theorem comesTo_startFeatures {r : Except Err Unit} {R : SetupState → Prop} (hc : c ≠ 0)
    (hn : n ≠ 0)
    (hrest : ComesTo (At (enabledSpace p a) h (featureLog p a log c) (Known a c n (· = 3) Q))
      (Setup.negotiateVirtioFeatures D >>= fun _ =>
        Setup.setQueue (fun queue => { queue with num := 0 }) >>= fun _ =>
        Setup.initVirtioBlkQueue D L >>= fun _ => Setup.addStatus VIRTIO_STATUS_DRIVER_OK) r R) :
    ComesTo (At p h log (Known a c n S Q)) (Setup.startVirtioBlkDev D L) r R := by
  unfold Setup.startVirtioBlkDev
  apply comesTo_get
  intro s hs
  rw [hs.dev.commonCfg, hs.dev.notifyOff]
  apply comesTo_check_true (by simp [hc, hn])
  apply (comesTo_pciRead16 _ fun _ hdev => hdev.addr).bind
  apply (comesTo_pciWrite16 _ _ fun _ hdev => hdev.addr).seq
  apply comesTo_of_log (log ++ enableAccesses p a) (by rw [List.append_assoc]; rfl)
  exact comesTo_initVirtioStatus.seq hrest

theorem comesTo_startQueueOf {r : Except Err Unit} {R : SetupState → Prop} (hc : c ≠ 0) (hn : n ≠ 0)
    (hQ : ∀ queue, Q queue → Parts Rd Rv Ru { queue with num := 0 })
    (hok : featuresOk D (enabledSpace p a) (featureLog p a log c) c = true)
    (hrest : ComesTo (At (enabledSpace p a) h (queueLog p a log c)
        (Known a c n (· = 11) (Parts Rd Rv Ru)))
      (Setup.initVirtioBlkQueue D L >>= fun _ => Setup.addStatus VIRTIO_STATUS_DRIVER_OK) r R) :
    ComesTo (At p h log (Known a c n S Q)) (Setup.startVirtioBlkDev D L) r R := by
  apply comesTo_startFeatures hc hn
  have hfeatures := comesTo_negotiate D (enabledSpace p a) h (featureLog p a log c) a c n Q
  rw [hok, if_pos rfl] at hfeatures
  apply hfeatures.seq
  exact (comesTo_setQueue hQ).seq hrest

/-- Without both addresses nothing is started. -/
theorem start_unset (D : Device) (L : Layout) {s : SetupState}
    (hunset : s.dev.commonCfg = 0 ∨ s.dev.notifyOff = 0) :
    Setup.startVirtioBlkDev D L s = some (.error .ERR_INVALID, s) := by
  unfold Setup.startVirtioBlkDev
  rw [Prog.bind_get_apply]
  refine Prog.bind_check_false ?_ _ _ _
  rw [Bool.and_eq_false_iff, bne_eq_false_iff_eq, bne_eq_false_iff_eq]
  exact hunset

theorem start_runs (D : Device) (L : Layout) (p : PciSpace) (h : Heap) (log : List Access)
    (S : UInt8 → Prop) (Q : QueueStruct → Prop)
    (hready : c ≠ 0 → n ≠ 0 → featuresOk D (enabledSpace p a) (featureLog p a log c) c = true →
      QueueReady D (enabledSpace p a) (queueLog p a log c) c h) :
    ∃ r p' h' log', ComesTo (At p h log (Known a c n S Q)) (Setup.startVirtioBlkDev D L) r
      (At p' h' log' fun dev => dev.commonCfg = c) := by
  by_cases hunset : c = 0 ∨ n = 0
  case pos =>
    refine ⟨.error .ERR_INVALID, p, h, log, fun s hs => ⟨s, start_unset D L ?_, hs.forget⟩⟩
    rwa [hs.dev.commonCfg, hs.dev.notifyOff]
  obtain ⟨hc, hn⟩ := not_or.mp hunset
  cases hok : featuresOk D (enabledSpace p a) (featureLog p a log c) c with
  | false =>
    refine ⟨.error .ERR_INVALID, enabledSpace p a, h, queueLog p a log c, ?_⟩
    apply comesTo_startFeatures hc hn
    have hfeatures := comesTo_negotiate D (enabledSpace p a) h (featureLog p a log c) a c n Q
    rw [hok, if_neg Bool.false_ne_true] at hfeatures
    exact hfeatures.bind_error.weaken fun t ht => ht.forget
  | true =>
    obtain ⟨r, h', log', Q', hqueue⟩ := queue_runs L (fun _ => True) (fun _ => True) (fun _ => True)
      (· = 11) a hn (hready hc hn hok)
    have hQ : ∀ queue, Q queue →
        Parts (fun _ => True) (fun _ => True) (fun _ => True) { queue with num := 0 } :=
      fun _ _ => ⟨rfl, trivial, trivial, trivial⟩
    cases r with
    | ok u =>
      have hend := (hqueue.seq (comesTo_addStatus VIRTIO_STATUS_DRIVER_OK)).weaken
        fun t ht => ht.forget
      exact ⟨.ok (), enabledSpace p a, h', _, comesTo_startQueueOf hc hn hQ hok hend⟩
    | error e =>
      refine ⟨.error e, enabledSpace p a, h', log', ?_⟩
      apply comesTo_startQueueOf hc hn hQ hok
      exact hqueue.bind_error.weaken fun t ht => ht.forget

theorem start_stops (L : Layout) (S : UInt8 → Prop) (hc : c ≠ 0) (hn : n ≠ 0)
    (hok : featuresOk D (enabledSpace p a) (featureLog p a log c) c = true)
    (hready : ¬ QueueReady D (enabledSpace p a) (queueLog p a log c) c h) :
    ∃ h' log', ∀ used, ComesTo
      (At p h log (Known a c n S fun queue => queue.desc = 0 ∧ queue.avail = 0 ∧ queue.used = used))
      (Setup.startVirtioBlkDev D L) (.error .ERR_INVALID)
      (At (enabledSpace p a) (coreFree L used h') log' fun dev => dev.commonCfg = c) := by
  obtain ⟨h', log', hqueue⟩ := queue_stops L (· = 11) a n hready
  refine ⟨h', log', fun used => ?_⟩
  obtain ⟨Q', hqueue⟩ := hqueue used
  have hQ : ∀ queue : QueueStruct, queue.desc = 0 ∧ queue.avail = 0 ∧ queue.used = used →
      Parts (· = 0) (· = 0) (· = used) { queue with num := 0 } :=
    fun _ hq => ⟨rfl, hq.1, hq.2.1, hq.2.2⟩
  apply comesTo_startQueueOf hc hn hQ hok
  exact hqueue.bind_error.weaken fun t ht => ht.forget

end Talking

end SwitchOs.Virtio
