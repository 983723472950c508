import SwitchOs.Virtio.Queue
import SwitchOs.Core.Dump

/-!
# The virtio block driver and its device

`request_virtio_blk` and `consume_response_virtio_blk` of `core/drivers/virtio/virtio_blk.c`, and the
device at the other end of the rings. The driver puts a `struct virtio_blk_req` on the heap and
chains three descriptors to it: header, data, status. The device takes the available chains in order,
moves `len` bytes for the data descriptor in the direction of its flags, writes a status byte and
posts the head of the chain with the number of bytes it wrote.

The device runs beside the driver: before each look at the used ring it may take a step, as a
schedule says (`Schedule`). The driver's wait loop ends when the used index moves, so it is given a
number of looks.
-/

namespace SwitchOs.Virtio

def VIRTIO_BLK_T_IN : UInt32 := 0
def VIRTIO_BLK_T_OUT : UInt32 := 1
def VIRTIO_BLK_S_OK : UInt8 := 0

/-- `sizeof(struct virtio_blk_req)`. -/
def VIRTIO_BLK_REQ_SIZE : ℕ := 17

/-- `offsetof(struct virtio_blk_req, sector)`. -/
def VIRTIO_BLK_REQ_SECTOR : ℕ := 8

def VIRTIO_BLK_REQ_HEADER_SIZE : ℕ := 16

def VIRTIO_BLK_REQ_FOOTER_SIZE : ℕ := VIRTIO_BLK_REQ_SIZE - VIRTIO_BLK_REQ_HEADER_SIZE

/-! ## The driver -/

/-- The `cleanup` label of `request_virtio_blk`, after an error. -/
def cleanupRequest (L : Layout) (desc1 desc2 desc3 : UInt16) (header : UInt64) (s : Hw) : Hw :=
  { s with
    queue := freeQueueDesc (freeQueueDesc (freeQueueDesc s.queue desc1) desc2) desc3
    heap := coreFree L header s.heap }

/-- `header->type`, `header->sector` and `header->status`. -/
def fillRequest (header : UInt64) (requestType : UInt32) (sector : UInt64) (mem : ℕ → UInt8) :
    ℕ → UInt8 :=
  setCell (put64 (put32 mem header.toNat requestType) (header.toNat + VIRTIO_BLK_REQ_SECTOR) sector)
    (header.toNat + VIRTIO_BLK_REQ_HEADER_SIZE) 0

/-- The flags of the data descriptor. -/
def dataFlags (requestType : UInt32) : UInt16 :=
  if requestType = VIRTIO_BLK_T_IN then VIRTQ_DESC_F_NEXT ||| VIRTQ_DESC_F_WRITE
  else VIRTQ_DESC_F_NEXT

/-- The three descriptors of a request. -/
def fillDescs (desc1 desc2 desc3 : UInt16) (header data size : UInt64) (requestType : UInt32)
    (desc : ℕ → VirtqDesc) : ℕ → VirtqDesc :=
  let desc := Function.update desc desc1.toNat
    ⟨header, UInt32.ofNat VIRTIO_BLK_REQ_HEADER_SIZE, VIRTQ_DESC_F_NEXT, desc2⟩
  let desc := Function.update desc desc2.toNat ⟨data, size.toUInt32, dataFlags requestType, desc3⟩
  Function.update desc desc3.toNat ⟨header + UInt64.ofNat VIRTIO_BLK_REQ_HEADER_SIZE,
    UInt32.ofNat VIRTIO_BLK_REQ_FOOTER_SIZE, VIRTQ_DESC_F_WRITE, (desc desc3.toNat).next⟩

/-- `avail->ring[avail_idx % size] = desc1`, and the index after it. -/
def makeAvailable (queue : VirtioQueue) (desc1 : UInt16) : VirtioQueue :=
  { queue with
    availRing := Function.update queue.availRing (queue.availIdx % queue.size).toNat desc1
    availIdx := queue.availIdx + 1 }

/-- `request_virtio_blk`. -/
def requestVirtioBlk (L : Layout) (requestType : UInt32) (sector data size : UInt64) :
    Driver Unit := do
  (check (size % 512 == 0)).orCleanup
    (cleanupRequest L VIRTIO_INVALID_DESC VIRTIO_INVALID_DESC VIRTIO_INVALID_DESC 0)
  let header ← calloc VIRTIO_BLK_REQ_SIZE 1
  (check (header != 0)).orCleanup
    (cleanupRequest L VIRTIO_INVALID_DESC VIRTIO_INVALID_DESC VIRTIO_INVALID_DESC header)
  Prog.modify fun s => { s with
    heap := { s.heap with mem := fillRequest header requestType sector s.heap.mem } }
  let desc1 ← allocQueueDesc.orCleanup
    (cleanupRequest L VIRTIO_INVALID_DESC VIRTIO_INVALID_DESC VIRTIO_INVALID_DESC header)
  let desc2 ← allocQueueDesc.orCleanup
    (cleanupRequest L desc1 VIRTIO_INVALID_DESC VIRTIO_INVALID_DESC header)
  let desc3 ← allocQueueDesc.orCleanup (cleanupRequest L desc1 desc2 VIRTIO_INVALID_DESC header)
  Prog.modify fun s => { s with
    queue := makeAvailable { s.queue with
      desc := fillDescs desc1 desc2 desc3 header data size requestType s.queue.desc } desc1 }

/-- `read_virtio_blk`. -/
def readVirtioBlk (L : Layout) (sector data size : UInt64) : Driver Unit :=
  requestVirtioBlk L VIRTIO_BLK_T_IN sector data size

/-- `write_virtio_blk`. -/
def writeVirtioBlk (L : Layout) (sector data size : UInt64) : Driver Unit :=
  requestVirtioBlk L VIRTIO_BLK_T_OUT sector data size

/-- `validate_used_response`. -/
def validateUsedResponse (desc : UInt16) (len : UInt32) : Driver Unit := do
  let s ← Prog.get
  let desc1 := s.queue.desc desc.toNat
  check (desc1.flags &&& VIRTQ_DESC_F_NEXT != 0)
  let desc2 := s.queue.desc desc1.next.toNat
  check (desc2.flags &&& VIRTQ_DESC_F_NEXT != 0)
  let desc3 := s.queue.desc desc2.next.toNat
  check (desc3.flags &&& VIRTQ_DESC_F_WRITE != 0)
  check (s.heap.mem desc3.addr.toNat == VIRTIO_BLK_S_OK)
  let len := len - desc3.len
  let len := if desc2.flags &&& VIRTQ_DESC_F_WRITE != 0 then len - desc2.len else len
  check (len == 0)

/-- The descriptors that `free_request` finds before a check of it fails. -/
def requestDescs (queue : VirtioQueue) (desc : UInt16) : UInt16 × UInt16 × UInt16 :=
  let desc1 := queue.desc desc.toNat
  if desc1.flags &&& VIRTQ_DESC_F_NEXT != 0 then
    let desc2 := queue.desc desc1.next.toNat
    if desc2.flags &&& VIRTQ_DESC_F_NEXT != 0 then (desc, desc1.next, desc2.next)
    else (desc, desc1.next, VIRTIO_INVALID_DESC)
  else (desc, VIRTIO_INVALID_DESC, VIRTIO_INVALID_DESC)

/-- `free_request`. -/
def freeRequest (L : Layout) (desc : UInt16) (s : Hw) : Hw :=
  let (desc1, desc2, desc3) := requestDescs s.queue desc
  let queue := freeQueueDesc (freeQueueDesc (freeQueueDesc s.queue desc1) desc2) desc3
  { s with queue := queue, heap := coreFree L (queue.desc desc1.toNat).addr s.heap }

/-! ## The device -/

/-- The descriptors of a chain, from its head on. -/
def descChain (desc : ℕ → VirtqDesc) : ℕ → UInt16 → List VirtqDesc
  | 0, _ => []
  | n + 1, i =>
    let d := desc i.toNat
    d :: if d.flags &&& VIRTQ_DESC_F_NEXT != 0 then descChain desc n d.next else []

/-- The transfer for a data descriptor. -/
def transfer (s : Hw) (sector : UInt64) (d : VirtqDesc) : Hw :=
  if d.flags &&& VIRTQ_DESC_F_WRITE != 0 then
    { s with heap := { s.heap with
      mem := blit s.heap.mem d.addr.toNat s.disk (sectorPos sector.toNat) d.len.toNat } }
  else
    { s with disk := blit s.disk (sectorPos sector.toNat) s.heap.mem d.addr.toNat d.len.toNat }

/-- The bytes that the device writes for a data descriptor and a status byte. -/
def writtenLen (d : VirtqDesc) : UInt32 :=
  (if d.flags &&& VIRTQ_DESC_F_WRITE != 0 then d.len else 0) + 1

/-- Posting a chain on the used ring. -/
def postUsed (queue : VirtioQueue) (head : UInt16) (len : UInt32) : VirtioQueue :=
  { queue with
    usedRing := Function.update queue.usedRing (queue.usedIdx % queue.size).toNat
      ⟨head.toUInt32, len⟩
    usedIdx := queue.usedIdx + 1 }

/-- The device on one chain, with the status it ends in. -/
def serveChain (status : UInt8) (s : Hw) (head : UInt16) : Hw :=
  match descChain s.queue.desc s.queue.size.toNat head with
  | [header, data, footer] =>
    let sector := get64 s.heap.mem (header.addr.toNat + VIRTIO_BLK_REQ_SECTOR)
    let s := transfer s sector data
    { s with
      heap := { s.heap with mem := setCell s.heap.mem footer.addr.toNat status }
      queue := postUsed s.queue head (writtenLen data) }
  | _ => s

/-- One step of the device: it takes the next available chain, if there is one. -/
def deviceStep (status : UInt8) (s : Hw) : Hw :=
  if s.lastAvail = s.queue.availIdx then s
  else { serveChain status s (s.queue.availRing (s.lastAvail % s.queue.size).toNat) with
    lastAvail := s.lastAvail + 1 }

/-- What the device does before each look at the used ring: nothing, or a step with a status. -/
abbrev Schedule := ℕ → Option UInt8

def scheduled (action : Option UInt8) (s : Hw) : Hw :=
  match action with
  | none => s
  | some status => deviceStep status s

/-- `while (!is_unseen_used_virtio_queue(queue)) {}`, for at most `fuel` looks. -/
def waitResponse : ℕ → Schedule → Driver Unit
  | 0, _ => Prog.diverge
  | fuel + 1, sched => do
    Prog.modify (scheduled (sched 0))
    let s ← Prog.get
    if isUnseenUsedVirtioQueue s.queue then pure ()
    else waitResponse fuel fun i => sched (i + 1)

/-- `consume_response_virtio_blk`. -/
def consumeResponseVirtioBlk (L : Layout) (sched : Schedule) (fuel : ℕ) : Driver Unit := do
  waitResponse fuel sched
  let (desc, len) ← popUsedVirtioQueue
  (validateUsedResponse desc len).andCleanup fun s =>
    if desc ≠ VIRTIO_INVALID_DESC then freeRequest L desc s else s

/-- A call of `read_virtio_blk` or of `write_virtio_blk`. -/
structure Request where
  isRead : Bool
  sector : UInt64
  data : UInt64
  size : UInt64

def Request.requestType (r : Request) : UInt32 :=
  if r.isRead then VIRTIO_BLK_T_IN else VIRTIO_BLK_T_OUT

/-- The call and the `consume_response_virtio_blk` that every caller makes after it. -/
def completeRequest (L : Layout) (r : Request) (sched : Schedule) (fuel : ℕ) : Driver Unit := do
  if r.isRead then readVirtioBlk L r.sector r.data r.size
  else writeVirtioBlk L r.sector r.data r.size
  consumeResponseVirtioBlk L sched fuel

theorem completeRequest_eq (L : Layout) (r : Request) (sched : Schedule) (fuel : ℕ) :
    completeRequest L r sched fuel =
      (requestVirtioBlk L r.requestType r.sector r.data r.size >>= fun _ =>
        consumeResponseVirtioBlk L sched fuel) := by
  rw [completeRequest, Request.requestType]
  cases r.isRead <;> rfl

theorem Request.requestType_eq (r : Request) :
    r.requestType = VIRTIO_BLK_T_IN ↔ r.isRead = true := by
  rw [Request.requestType]
  cases r.isRead <;> decide

end SwitchOs.Virtio
