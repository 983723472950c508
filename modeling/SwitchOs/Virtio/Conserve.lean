import SwitchOs.Virtio.Faulty

/-!
# Descriptors and headers are conserved

With a device that only completes outstanding chains, in any order. An entry of the used ring lies at
its index modulo the queue size, and the index counts modulo 2^16. Where the size does not divide
2^16, index 65535 and index 0 may fall on the same slot, and a completion overwrites one that the
driver has not seen. `driver_conserves` says what holds in every run in which that does not happen
(`SlotFree`), and `slotFree_of_size` for which sizes it never does.
-/

namespace SwitchOs.Virtio

/-- The slot of the `k`-th response that has not been popped. -/
def pendingSlot (queue : VirtioQueue) (k : ℕ) : UInt16 :=
  (queue.seenUsed + UInt16.ofNat k) % queue.size

/-- A completion goes to a slot of the used ring that holds no response yet to be popped. -/
def SlotFree (s : QueueState) (e : QueueEvent) : Prop :=
  ∀ head len, e = .complete head len → ∀ k < s.posted.length,
    pendingSlot s.hw.queue k ≠ s.hw.queue.usedIdx % s.hw.queue.size

theorem slotFree_request {s : QueueState} {r : Request} {result : Except Err Unit} :
    SlotFree s (.request r result) := nofun

theorem slotFree_consume {s : QueueState} {result : Except Err Unit} :
    SlotFree s (.consume result) := nofun

/-- The used ring holds the responses that have been posted and not popped, in order. -/
structure RingInv (s : QueueState) : Prop where
  heads : ∀ d ∈ s.posted, d ∈ s.outstanding.map Outstanding.desc1
  nodup : s.posted.Nodup
  count : s.hw.queue.usedIdx = s.hw.queue.seenUsed + UInt16.ofNat s.posted.length
  slots : ∀ k d, s.posted[k]? = some d →
    (s.hw.queue.usedRing (pendingSlot s.hw.queue k).toNat).id.toUInt16 = d

section Conserve

variable {L : Layout} {n : UInt16} {base : ℕ → List UInt64} {s s' : QueueState}
  {descs : List UInt16} {lists : ℕ → List UInt64} {e : QueueEvent}

theorem RingInv.initial (hw : Hw) (hqueue : hw.queue = initialQueue n) :
    RingInv (.initial hw) := by
  refine ⟨nofun, List.nodup_nil, ?_, nofun⟩
  rw [QueueState.initial, hqueue]
  rfl

/-- Only the rings matter, and the chains outstanding. -/
theorem RingInv.congr (h : RingInv s) (hw : Hw) {outstanding : List Outstanding}
    (hsize : hw.queue.size = s.hw.queue.size) (hseen : hw.queue.seenUsed = s.hw.queue.seenUsed)
    (hused : hw.queue.usedIdx = s.hw.queue.usedIdx)
    (hring : hw.queue.usedRing = s.hw.queue.usedRing) (hsub : s.outstanding ⊆ outstanding) :
    RingInv ⟨hw, outstanding, s.posted⟩ := by
  refine ⟨fun d hd => List.map_subset _ hsub (h.heads d hd), h.nodup, ?_, fun k d hk => ?_⟩
  · rw [hused, hseen]
    exact h.count
  · have hslot := h.slots k d hk
    rw [pendingSlot] at hslot ⊢
    rwa [hring, hseen, hsize]

/-- A response that is there is the head of an outstanding chain. -/
theorem RingInv.popsHead (h : RingInv s) (hunseen : s.hw.queue.seenUsed ≠ s.hw.queue.usedIdx) :
    ∃ t, s.posted = nextUsed s.hw.queue :: t ∧ PopsHead s := by
  have hcount := h.count
  have hslots := h.slots
  have hheads := h.heads
  cases hposted : s.posted with
  | nil =>
    rw [hposted] at hcount
    exact absurd (hcount.trans (UInt16.add_zero _)).symm hunseen
  | cons d t =>
    have hfirst := hslots 0 d (by rw [hposted]; rfl)
    have hslot : pendingSlot s.hw.queue 0 = s.hw.queue.seenUsed % s.hw.queue.size := by
      rw [pendingSlot, show UInt16.ofNat 0 = 0 from rfl, UInt16.add_zero]
    rw [hslot] at hfirst
    have hd : nextUsed s.hw.queue = d := hfirst
    obtain ⟨o, ho, hod⟩ := List.mem_map.mp (hheads d (by simp [hposted]))
    exact ⟨t, by rw [hd], o, ho, by rw [hd, hod]⟩

/-- A response moves the driver on by one entry of the used ring. -/
theorem consume_usedRing {result : Except Err Unit} {hw hw' : Hw}
    (hrun : consumeResponseVirtioBlk L (fun _ => none) 1 hw = some (result, hw')) :
    hw'.queue.size = hw.queue.size ∧ hw'.queue.seenUsed = hw.queue.seenUsed + 1 ∧
      hw'.queue.usedIdx = hw.queue.usedIdx ∧ hw'.queue.usedRing = hw.queue.usedRing := by
  obtain ⟨-, rfl⟩ := consumeResponseVirtioBlk_eq hrun
  split
  · obtain ⟨desc, head, heq⟩ := foldl_freeQueueDesc_rings (popped hw).queue
      (chainDescs (popped hw).queue (nextUsed hw.queue))
    rw [freeRequest_eq, heq]
    exact ⟨rfl, rfl, rfl, rfl⟩
  · exact ⟨rfl, rfl, rfl, rfl⟩

/-- A response that is popped leaves the rest of the ring. -/
theorem RingInv.consume (h : RingInv s) {result : Except Err Unit} {hw : Hw}
    (hrun : consumeResponseVirtioBlk L (fun _ => none) 1 s.hw = some (result, hw)) :
    RingInv ⟨hw, s.outstanding.filter fun o => o.desc1 ≠ nextUsed s.hw.queue, s.posted.tail⟩ := by
  obtain ⟨hsize, hseen, hused, hring⟩ := consume_usedRing hrun
  obtain ⟨t, hposted, -⟩ := h.popsHead (consumeResponseVirtioBlk_eq hrun).1
  have hcount := h.count
  have hslots := h.slots
  have hheads := h.heads
  have hnodup := h.nodup
  rw [hposted] at hcount hheads hnodup
  rw [List.nodup_cons] at hnodup
  rw [hposted, List.tail_cons]
  refine ⟨fun d hd => ?_, hnodup.2, ?_, fun k d hk => ?_⟩
  · obtain ⟨p, hp, rfl⟩ := List.mem_map.mp (hheads d (List.mem_cons_of_mem _ hd))
    refine List.mem_map_of_mem (List.mem_filter.mpr ⟨hp, decide_eq_true fun heq => ?_⟩)
    exact hnodup.1 (heq ▸ hd)
  · rw [hused, hseen, hcount, List.length_cons, UInt16.ofNat_add, UInt16.add_assoc, UInt16.add_comm 1]
    rfl
  · have hslot := hslots (k + 1) d (by rw [hposted, List.getElem?_cons_succ]; exact hk)
    have hnext : pendingSlot s.hw.queue (k + 1) =
        (s.hw.queue.seenUsed + 1 + UInt16.ofNat k) % s.hw.queue.size := by
      rw [pendingSlot, UInt16.ofNat_add, UInt16.add_assoc, UInt16.add_comm 1]
      rfl
    rw [pendingSlot, hring, hsize, hseen]
    rwa [hnext] at hslot

/-- A completion adds the last entry. -/
theorem RingInv.complete (h : RingInv s) {o : Outstanding} {len : UInt32} (ho : o ∈ s.outstanding)
    (hnew : o.desc1 ∉ s.posted) (hfree : SlotFree s (.complete o.desc1 len)) :
    RingInv ⟨{ s.hw with queue := postUsed s.hw.queue o.desc1 len }, s.outstanding,
      s.posted ++ [o.desc1]⟩ := by
  have hlast : pendingSlot s.hw.queue s.posted.length =
      s.hw.queue.usedIdx % s.hw.queue.size := by
    rw [pendingSlot, ← h.count]
  refine ⟨fun d hd => ?_, ?_, ?_, fun k d hk => ?_⟩
  · rcases List.mem_append.mp hd with hd | hd
    · exact h.heads d hd
    · rw [List.mem_singleton.mp hd]
      exact List.mem_map_of_mem ho
  · rw [← List.concat_eq_append]
    exact List.Nodup.concat hnew h.nodup
  · show s.hw.queue.usedIdx + 1 = s.hw.queue.seenUsed + UInt16.ofNat (s.posted ++ [o.desc1]).length
    rw [List.length_append, UInt16.ofNat_add, ← UInt16.add_assoc, ← h.count]
    rfl
  · show (Function.update s.hw.queue.usedRing (s.hw.queue.usedIdx % s.hw.queue.size).toNat
      ⟨o.desc1.toUInt32, len⟩ (pendingSlot s.hw.queue k).toNat).id.toUInt16 = d
    rw [List.getElem?_append] at hk
    split at hk
    case isTrue hlt =>
      rw [Function.update_of_ne fun heq => hfree _ _ rfl k hlt (UInt16.toNat_inj.mp heq)]
      exact h.slots k d hk
    case isFalse hge =>
      obtain ⟨hk0, hd⟩ := List.getElem?_eq_some_iff.mp hk
      rw [List.length_singleton] at hk0
      obtain rfl : k = s.posted.length := by omega
      rw [hlast, Function.update_self, UInt16.toUInt16_toUInt32, ← hd, List.getElem_singleton]

theorem RingInv.step (h : RingInv s) (hinv : DriverInv L n base s descs lists)
    (hstep : QueueStep L s e s') (hfree : SlotFree s e) : RingInv s' := by
  cases hstep with
  | request hrun =>
    obtain ⟨hsize, hseen, hused, hring⟩ := request_usedRing hinv hrun
    exact h.congr _ hsize hseen hused hring (List.subset_append_left _ _)
  | requestFailed hrun =>
    obtain ⟨hsize, hseen, hused, hring⟩ := request_usedRing hinv hrun
    exact h.congr _ hsize hseen hused hring (List.Subset.refl _)
  | consume hrun => exact h.consume hrun
  | environment _ => exact h.congr _ rfl rfl rfl rfl (List.Subset.refl _)
  | complete ho hnew => exact h.complete ho hnew hfree

/-- What every step keeps that finds its slot free. -/
def ConserveInv (L : Layout) (n : UInt16) (base : ℕ → List UInt64) (s : QueueState) : Prop :=
  (∃ descs lists, DriverInv L n base s descs lists) ∧ RingInv s

theorem ConserveInv.initial {hw : Hw} (hinit : Initialised L n hw)
    (hbase : FreeLists L hw.heap base) : ConserveInv L n base (.initial hw) :=
  ⟨⟨_, _, .initial hinit hbase⟩, .initial hw hinit.cases.2.1⟩

/-- Every response that is popped is the head of an outstanding chain. -/
theorem ConserveInv.step {h₀ : Heap} (hbase : FreeLists L h₀ base) (h : ConserveInv L n base s)
    (hstep : QueueStep L s e s') (hfree : SlotFree s e) : ConserveInv L n base s' := by
  obtain ⟨⟨descs, lists, hinv⟩, hring⟩ := h
  refine ⟨hinv.step hbase (.step hstep) ?_, hring.step hinv hstep hfree⟩
  rintro result rfl
  cases hstep with
  | consume hrun =>
    obtain ⟨-, -, hpops⟩ := hring.popsHead (consumeResponseVirtioBlk_eq hrun).1
    exact hpops

theorem ConserveInv.runs {hw : Hw} {es : List QueueEvent} (hinit : Initialised L n hw)
    (hbase : FreeLists L hw.heap base)
    (hrun : Runs (Where SlotFree (QueueStep L)) (.initial hw) es s) : ConserveInv L n base s :=
  hrun.invariant (I := ConserveInv L n base) (fun _ _ _ h ⟨hfree, hstep⟩ => h.step hbase hstep hfree)
    (.initial hinit hbase)

/-! ## Queue sizes -/

/-- Entries of a ring of `n` slots, counted modulo `M`: two of them at a distance `j` below `n` share
a slot only where `M` leaves the remainder `j`. -/
theorem slot_ne {M n a j : ℕ} (ha : a < M) (hj : 0 < j) (hjn : j < n) (hjM : j < M)
    (hM : M % n ≠ j) : a % n ≠ (a + j) % M % n := by
  intro heq
  by_cases hwrap : a + j < M
  · rw [Nat.mod_eq_of_lt hwrap] at heq
    have hzero := Nat.sub_mod_eq_zero_of_mod_eq heq.symm
    rw [Nat.add_sub_cancel_left, Nat.mod_eq_of_lt hjn] at hzero
    omega
  · have hmod : (a + j) % M = a + j - M := by
      rw [Nat.mod_eq_sub_mod (by omega), Nat.mod_eq_of_lt (by omega)]
    rw [hmod] at heq
    obtain ⟨q, hq⟩ := Nat.dvd_of_mod_eq_zero (Nat.sub_mod_eq_zero_of_mod_eq heq)
    refine hM ?_
    rw [show M = j + n * q by omega, Nat.add_mul_mod_self_left, Nat.mod_eq_of_lt hjn]

/-- Where the size divides 2^16, or the remainder is not below the number of chains there is room
for, no completion overwrites another. -/
theorem slotFree_of_size (hsize : 65536 % n.toNat = 0 ∨ n.toNat / 3 ≤ 65536 % n.toNat)
    (hinv : DriverInv L n base s descs lists) (hring : RingInv s) (hstep : QueueStep L s e s') :
    SlotFree s e := by
  rintro head len rfl k hk heq
  cases hstep with
  | @complete o _ ho hnew =>
    -- the posted chains are fewer than the outstanding ones
    have hsub : (o.desc1 :: s.posted) ⊆ s.outstanding.map Outstanding.desc1 := by
      intro d hd
      rcases List.mem_cons.mp hd with rfl | hd
      · exact List.mem_map_of_mem ho
      · exact hring.heads d hd
    have hle := (List.nodup_cons.mpr ⟨hnew, hring.nodup⟩).length_le_of_subset hsub
    rw [List.length_cons, List.length_map] at hle
    have hlen := hinv.length_outstanding
    have hn := n.toNat_lt
    have hroom : 3 * (s.posted.length + 1) ≤ n.toNat := by omega
    -- both slots, counted from that of entry `k`
    have hslot : (s.hw.queue.seenUsed + UInt16.ofNat k).toNat % n.toNat =
        s.hw.queue.usedIdx.toNat % n.toNat := by
      rw [pendingSlot, hinv.size, ← UInt16.toNat_inj, UInt16.toNat_mod, UInt16.toNat_mod] at heq
      exact heq
    have hused : s.hw.queue.usedIdx.toNat =
        ((s.hw.queue.seenUsed + UInt16.ofNat k).toNat + (s.posted.length - k)) % 65536 := by
      rw [hring.count, UInt16.toNat_add, UInt16.toNat_add, UInt16.toNat_ofNat',
        UInt16.toNat_ofNat']
      omega
    have hlt : (s.hw.queue.seenUsed + UInt16.ofNat k).toNat < 65536 := UInt16.toNat_lt _
    rw [hused] at hslot
    exact slot_ne (j := s.posted.length - k) hlt (by omega) (by omega) (by omega) (by omega) hslot

/-- For such a size, completions find their slot free in every run. -/
theorem runs_slotFree_of_size
    (hsize : 65536 % n.toNat = 0 ∨ n.toNat / 3 ≤ 65536 % n.toNat) {hw : Hw} {es : List QueueEvent}
    (hinit : Initialised L n hw) (hrun : Runs (QueueStep L) (.initial hw) es s) :
    Runs (Where SlotFree (QueueStep L)) (.initial hw) es s := by
  obtain ⟨-, -, base, hbase⟩ := hinit.cases
  refine hrun.where_of_invariant (I := ConserveInv L n base) ?_ ?_ (.initial hinit hbase)
  · rintro s e t ⟨⟨descs, lists, hinv⟩, hring⟩ hstep
    exact slotFree_of_size hsize hinv hring hstep
  · rintro s e t h ⟨hfree, hstep⟩
    exact h.step hbase hstep hfree

/-! ## A ring that wraps -/

/-- Nothing is outstanding, and the driver has popped `k` responses. -/
structure Rested (L : Layout) (n : UInt16) (base : ℕ → List UInt64) (k : ℕ) (s : QueueState) :
    Prop where
  inv : ConserveInv L n base s
  outstanding : s.outstanding = []
  posted : s.posted = []
  seen : s.hw.queue.seenUsed = UInt16.ofNat k

theorem exists_consume (hunseen : s.hw.queue.seenUsed ≠ s.hw.queue.usedIdx) :
    ∃ result s', QueueStep L s (.consume result) s' ∧
      s'.outstanding = (s.outstanding.filter fun o => o.desc1 ≠ nextUsed s.hw.queue) ∧
      s'.posted = s.posted.tail ∧ SameRing 1 s s' := by
  obtain ⟨result, hrun⟩ := consumeResponseVirtioBlk_run (L := L) hunseen
  obtain ⟨hsize, hseen, hused, hring⟩ := consume_usedRing hrun
  exact ⟨result, _, .consume hrun, rfl, rfl, hsize, hseen, hused, hring⟩

/-- A request, its completion and its response. -/
theorem Rested.round {h₀ : Heap} {k : ℕ} (hbase : FreeLists L h₀ base) (hroom : 3 ≤ n.toNat)
    (hblock : 0 < (base 0).length) {r : Request} (hsize : r.size % 512 = 0)
    (h : Rested L n base k s) :
    ∃ head result s', Runs (Where SlotFree (QueueStep L)) s
        [.request r (.ok ()), .complete head 0, .consume result] s' ∧
      Rested L n base (k + 1) s' := by
  obtain ⟨⟨descs, lists, hdriver⟩, -⟩ := h.inv
  obtain ⟨o, s₁, hstep₁, hout₁, hposted₁, hring₁⟩ := hdriver.exists_request
    (by rw [h.outstanding]; exact hroom) (by rw [h.outstanding]; exact hblock) hsize
  have hinv₁ := h.inv.step hbase hstep₁ slotFree_request
  rw [h.outstanding, List.nil_append] at hout₁
  rw [h.posted] at hposted₁
  obtain ⟨s₂, hstep₂, hout₂, hposted₂, hqueue₂⟩ := exists_complete (L := L) (s := s₁) (o := o)
    (by rw [hout₁]; exact List.mem_cons_self) (by rw [hposted₁]; exact List.not_mem_nil)
  have hfree₂ : SlotFree s₁ (.complete o.desc1 0) := fun _ _ _ j hj => by
    rw [hposted₁] at hj
    exact absurd hj (Nat.not_lt_zero j)
  have hinv₂ := hinv₁.step hbase hstep₂ hfree₂
  have hunseen : s₂.hw.queue.seenUsed ≠ s₂.hw.queue.usedIdx := by
    rw [hinv₂.2.count, hposted₂, hposted₁]
    exact ne_succ _
  obtain ⟨result, s₃, hstep₃, hout₃, hposted₃, hring₃⟩ := exists_consume (L := L) hunseen
  have hinv₃ := hinv₂.step hbase hstep₃ slotFree_consume
  refine ⟨_, result, s₃, .cons ⟨slotFree_request, hstep₁⟩ (.cons ⟨hfree₂, hstep₂⟩
    (.cons ⟨slotFree_consume, hstep₃⟩ (.nil _))), hinv₃, ?_, ?_, ?_⟩
  · obtain ⟨_, -, p, hp, hhead⟩ := hinv₂.2.popsHead hunseen
    rw [hout₂, hout₁, List.mem_singleton] at hp
    rw [hout₃, hout₂, hout₁, ← hhead, hp]
    exact List.filter_eq_nil_iff.mpr fun q hq => by simp [List.mem_singleton.mp hq]
  · rw [hposted₃, hposted₂, hposted₁]
    rfl
  · rw [hring₃.seen, hqueue₂, postUsed, hring₁.seen, h.seen, UInt16.add_zero, UInt16.ofNat_add]
    rfl

theorem Rested.initial {hw : Hw} (hinit : Initialised L n hw) (hbase : FreeLists L hw.heap base) :
    Rested L n base 0 (.initial hw) := by
  refine ⟨.initial hinit hbase, rfl, rfl, ?_⟩
  rw [QueueState.initial, hinit.cases.2.1]
  rfl

theorem exists_rested {hw : Hw} (hinit : Initialised L n hw) (hbase : FreeLists L hw.heap base)
    (hroom : 3 ≤ n.toNat) (hblock : 0 < (base 0).length) {r : Request} (hsize : r.size % 512 = 0)
    (k : ℕ) : ∃ es s, Runs (QueueStep L) (.initial hw) es s ∧ Rested L n base k s := by
  induction k with
  | zero => exact ⟨[], _, .nil _, .initial hinit hbase⟩
  | succ k ih =>
    obtain ⟨es, s, hrun, hrested⟩ := ih
    obtain ⟨_, _, s', hrun', hrested'⟩ := hrested.round hbase hroom hblock hsize
    exact ⟨_, s', hrun.append (hrun'.mono fun _ _ _ h => h.2), hrested'⟩

/-- A walk from a free descriptor with two more behind it stays in the table. -/
theorem chainDescs_lt_of_free {queue : VirtioQueue} {pre post : List UInt16} {d d2 d3 : UInt16}
    (hfree : FreeDescs queue (pre ++ d :: d2 :: d3 :: post)) :
    ∀ b ∈ chainDescs queue d, b < queue.size := by
  have hpost := hfree.chain.suffix.pop
  have hnext1 : (queue.desc d.toNat).next = d2 := hpost.1
  have hnext2 : (queue.desc d2.toNat).next = d3 := hpost.2.2.1
  have hsub : chainDescs queue d ⊆ [d, d2, d3] := by
    rw [chainDescs]
    simp only [hnext1, hnext2]
    split
    · split <;> simp
    · simp
  intro b hb
  refine hfree.lt_size b (List.mem_append_right _ ?_)
  exact List.IsPrefix.subset (List.prefix_append [d, d2, d3] post) (hsub hb)

/-- Where the two responses to be popped are the same chain, it is freed twice. -/
theorem DriverInv.double_pop {h₀ : Heap} {o : Outstanding} (hbase : FreeLists L h₀ base)
    (h : DriverInv L n base s descs lists) (ho : o ∈ s.outstanding) (hlen : 2 ≤ descs.length)
    (hused : s.hw.queue.usedIdx = s.hw.queue.seenUsed + 1 + 1)
    (hhead : o.desc1 = nextUsed s.hw.queue)
    (hslot : (s.hw.queue.seenUsed + 1) % n = s.hw.queue.seenUsed % n) :
    ∃ es s', Runs (QueueStep L) s es s' ∧ ∀ l : List UInt16, l.Nodup →
      ¬ Chain VIRTIO_INVALID_FREE_HEAD (nextDesc s'.hw.queue.desc) s'.hw.queue.freeHead l := by
  have hunseen₁ : s.hw.queue.seenUsed ≠ s.hw.queue.usedIdx := by
    rw [hused, UInt16.add_assoc]
    intro heq
    exact absurd (UInt16.left_eq_add.mp heq) (by decide)
  obtain ⟨result₁, hrun₁⟩ := consumeResponseVirtioBlk_run (L := L) hunseen₁
  have hinv₁ := h.consume s.posted.tail hbase ho hhead hrun₁
  have hstep₁ := QueueStep.consume hrun₁
  obtain ⟨hsize₁, hseen₁, hused₁, hring₁⟩ := consume_usedRing hrun₁
  revert hinv₁ hstep₁ hsize₁ hseen₁ hused₁ hring₁
  generalize (if nextUsed s.hw.queue ≠ VIRTIO_INVALID_DESC then
    freeRequest L (nextUsed s.hw.queue) (popped s.hw) else popped s.hw) = hw₁
  intro hinv₁ hstep₁ hsize₁ hseen₁ hused₁ hring₁
  have hhead₁ : nextUsed hw₁.queue = o.desc1 := by
    rw [hhead, nextUsed, nextUsed, hring₁, hseen₁, hsize₁, h.size, hslot]
  have hunseen₂ : hw₁.queue.seenUsed ≠ hw₁.queue.usedIdx := by
    rw [hseen₁, hused₁, hused]
    exact ne_succ _
  obtain ⟨result₂, hrun₂⟩ := consumeResponseVirtioBlk_run (L := L) hunseen₂
  have hstep₂ := QueueStep.consume
    (s := ⟨hw₁, s.outstanding.filter fun p => p.desc1 ≠ nextUsed s.hw.queue, s.posted.tail⟩) hrun₂
  refine ⟨_, _, .cons hstep₁ (.cons hstep₂ (.nil _)), fun l hnodup hchain => ?_⟩
  have hfree : FreeDescs (popped hw₁).queue (o.descs.reverse ++ descs) :=
    hinv₁.free.congr rfl rfl fun _ _ => rfl
  obtain ⟨x, y, t, rfl⟩ : ∃ x y t, descs = x :: y :: t := by
    rcases descs with _ | ⟨x, _ | ⟨y, t⟩⟩
    · exact absurd hlen (by decide)
    · exact absurd hlen (by simp)
    · exact ⟨x, y, t, rfl⟩
  have hsplit : FreeDescs (popped hw₁).queue ([o.desc3, o.desc2] ++ o.desc1 :: x :: y :: t) := hfree
  have hlt : ∀ b ∈ chainDescs (popped hw₁).queue o.desc1, b < (popped hw₁).queue.size :=
    chainDescs_lt_of_free hsplit
  have hmem : o.desc1 ∈ o.descs.reverse ++ x :: y :: t := by simp [Outstanding.descs]
  have hvalid := ne_invalid_of_lt_size (hfree.lt_size _ hmem)
  rw [hhead₁, if_pos hvalid, freeRequest_eq] at hchain
  exact double_free hfree hmem hlt hnodup hchain

/-- A chain that is posted over another one is popped twice. -/
theorem Rested.double {h₀ : Heap} {k : ℕ} (hbase : FreeLists L h₀ base) (hroom : 8 ≤ n.toNat)
    (hblock : 2 ≤ (base 0).length) {r : Request} (hsize : r.size % 512 = 0)
    (h : Rested L n base k s)
    (hslot : (UInt16.ofNat k + 1) % n = UInt16.ofNat k % n) :
    ∃ es s', Runs (QueueStep L) s es s' ∧ ∀ l : List UInt16, l.Nodup →
      ¬ Chain VIRTIO_INVALID_FREE_HEAD (nextDesc s'.hw.queue.desc) s'.hw.queue.freeHead l := by
  -- two requests
  obtain ⟨⟨descs, lists, hdriver⟩, hring⟩ := h.inv
  obtain ⟨a, s₁, hstep₁, hout₁, hposted₁, hring₁⟩ := hdriver.exists_request
    (by rw [h.outstanding, List.length_nil]; omega)
    (by rw [h.outstanding, List.length_nil]; omega) hsize
  rw [h.outstanding, List.nil_append] at hout₁
  obtain ⟨descs₁, lists₁, hdriver₁⟩ := hdriver.step hbase (.step hstep₁) consumesHead_request
  obtain ⟨b, s₂, hstep₂, hout₂, hposted₂, hring₂⟩ := hdriver₁.exists_request
    (by rw [hout₁, List.length_singleton]; omega) (by rw [hout₁, List.length_singleton]; omega) hsize
  rw [hout₁] at hout₂
  obtain ⟨descs₂, lists₂, hdriver₂⟩ := hdriver₁.step hbase (.step hstep₂) consumesHead_request
  rw [hposted₁, h.posted] at hposted₂
  have hab : b.desc1 ∉ [a.desc1] := by
    have hnodup := hdriver₂.heads_nodup
    rw [hout₂] at hnodup
    exact fun hmem => (List.nodup_cons.mp hnodup).1 (List.mem_singleton.mp hmem ▸ List.mem_cons_self)
  -- both are completed; the second response takes the slot of the first
  obtain ⟨s₃, hstep₃, hout₃, hposted₃, hqueue₃⟩ := exists_complete (L := L) (s := s₂) (o := a)
    (by rw [hout₂]; exact List.mem_cons_self) (by rw [hposted₂]; exact List.not_mem_nil)
  obtain ⟨descs₃, lists₃, hdriver₃⟩ := hdriver₂.step hbase (.step hstep₃) consumesHead_complete
  rw [hout₂] at hout₃
  have hb : b ∈ s₃.outstanding := by rw [hout₃]; exact List.mem_cons_of_mem _ List.mem_cons_self
  obtain ⟨s₄, hstep₄, hout₄, -, hqueue₄⟩ := exists_complete (L := L) hb
    (by rw [hposted₃, hposted₂]; exact hab)
  obtain ⟨descs₄, lists₄, hdriver₄⟩ := hdriver₃.step hbase (.step hstep₄) consumesHead_complete
  have hlen : descs₄.length + 3 * 2 = n.toNat := by
    have hlen := hdriver₄.length_outstanding
    rwa [hout₄, hout₃] at hlen
  have hseen : s₂.hw.queue.seenUsed = UInt16.ofNat k := by
    rw [hring₂.seen, hring₁.seen, h.seen, UInt16.add_zero, UInt16.add_zero]
  have hused : s₂.hw.queue.usedIdx = UInt16.ofNat k := by
    rw [hring₂.used, hring₁.used, hring.count, h.posted, h.seen]
    exact UInt16.add_zero _
  obtain ⟨es, s', hruns, hcycle⟩ := hdriver₄.double_pop hbase (o := b) (by rw [hout₄]; exact hb)
    (by omega)
    (by rw [hqueue₄, postUsed, hqueue₃, postUsed, hseen, hused])
    (by
      have hsize₂ : s₂.hw.queue.size = n := hdriver₂.size
      rw [nextUsed, hqueue₄, postUsed, hqueue₃, postUsed, hseen, hused, hsize₂]
      simp only [hslot, Function.update_self, UInt16.toUInt16_toUInt32])
    (by rw [hqueue₄, postUsed, hqueue₃, postUsed, hseen]; exact hslot)
  exact ⟨_, s', .cons hstep₁ (.cons hstep₂ (.cons hstep₃ (.cons hstep₄ hruns))), hcycle⟩

/-! ## Conservation -/

/-- The descriptor `d` is on the list of the free ones. -/
def FreeDesc (queue : VirtioQueue) (d : UInt16) : Prop :=
  Reaches VIRTIO_INVALID_FREE_HEAD (nextDesc queue.desc) d queue.freeHead

/-- Each of the `n` descriptors is once on the free list or once in one outstanding chain, and each
of the blocks that were free after initialisation is free or the header of one outstanding request. -/
structure Partitioned (n : UInt16) (hw₀ : Hw) (s : QueueState) : Prop where
  size : s.hw.queue.size = n
  descs : ∃ l, Chain VIRTIO_INVALID_FREE_HEAD (nextDesc s.hw.queue.desc) s.hw.queue.freeHead l ∧
    (l ++ s.outstanding.flatMap Outstanding.descs).Perm (allDescs n)
  linked : ∀ o ∈ s.outstanding, Linked s.hw.queue.desc o
  headers : (s.outstanding.map Outstanding.header).Nodup ∧
    ∀ o ∈ s.outstanding, ∀ i < 5, ¬ OnFreeList s.hw.heap i o.header
  blocks : ∀ i < 5, ∀ a, OnFreeList hw₀.heap i a ↔
    OnFreeList s.hw.heap i a ∨ i = 0 ∧ a ∈ s.outstanding.map Outstanding.header

/-- A request that failed had a reason to, and left the free descriptors and blocks as they were. -/
structure FailsCleanly (r : Request) (hw hw' : Hw) : Prop where
  reason : r.size % 512 ≠ 0 ∨
    (∃ l, Chain VIRTIO_INVALID_FREE_HEAD (nextDesc hw.queue.desc) hw.queue.freeHead l ∧
      l.length < 3) ∨ ∀ a, ¬ OnFreeList hw.heap 0 a
  descs : ∀ d, FreeDesc hw'.queue d ↔ FreeDesc hw.queue d
  blocks : ∀ i < 5, ∀ a, OnFreeList hw'.heap i a ↔ OnFreeList hw.heap i a

theorem DriverInv.partitioned {hw₀ : Hw} (hbase : FreeLists L hw₀.heap base)
    (h : DriverInv L n base s descs lists) : Partitioned n hw₀ s := by
  have hblocks := h.blocks.nodup_iff.mpr (hbase.nodup 0 (by omega))
  refine ⟨h.size, ⟨descs, h.free.chain, h.parts⟩, h.linked, ⟨?_, fun o ho i hi hfree => ?_⟩,
    fun i hi a => ?_⟩
  · exact (List.nodup_append.mp hblocks).2.1
  · exact (h.header_free hbase ho).2 i hi ((h.heap.onFreeList_iff hi).mp hfree)
  · rw [hbase.onFreeList_iff hi, h.heap.onFreeList_iff hi]
    by_cases hi0 : i = 0
    · subst hi0
      rw [← h.blocks.mem_iff, List.mem_append]
      simp
    · rw [h.others i hi hi0]
      simp [hi0]

theorem DriverInv.failsCleanly (h : DriverInv L n base s descs lists) {r : Request} {e : Err}
    {hw : Hw}
    (hrun : requestVirtioBlk L r.requestType r.sector r.data r.size s.hw = some (.error e, hw)) :
    FailsCleanly r s.hw hw := by
  obtain ⟨hreason, descs', hperm, h'⟩ := h.requestFailed hrun
  refine ⟨?_, fun d => ?_, fun i hi a => ?_⟩
  · refine hreason.imp_right fun hreason => hreason.imp (fun hlen => ?_) fun hempty a ha => ?_
    · exact ⟨descs, h.free.chain, hlen⟩
    · rw [h.heap.onFreeList_iff (by omega), hempty] at ha
      exact List.not_mem_nil ha
  · rw [FreeDesc, FreeDesc, h.free.chain.reaches_iff, h'.free.chain.reaches_iff]
    exact hperm.mem_iff
  · rw [h.heap.onFreeList_iff hi, h'.heap.onFreeList_iff hi]

/-- **Descriptors and headers are conserved** in every run of requests, responses and completions, in
any order, in which every completion finds its slot of the used ring free. -/
theorem driver_conserves {hw : Hw} {es : List QueueEvent} (hinit : Initialised L n hw)
    (hrun : Runs (Where SlotFree (QueueStep L)) (.initial hw) es s) :
    Partitioned n hw s ∧ ∀ r : Request,
      (∃ hw', requestVirtioBlk L r.requestType r.sector r.data r.size s.hw = some (.ok (), hw')) ∨
      ∃ e hw', requestVirtioBlk L r.requestType r.sector r.data r.size s.hw =
        some (.error e, hw') ∧ FailsCleanly r s.hw hw' := by
  obtain ⟨-, -, base, hbase⟩ := hinit.cases
  obtain ⟨⟨descs, lists, h⟩, -⟩ := ConserveInv.runs hinit hbase hrun
  refine ⟨h.partitioned hbase, fun r => ?_⟩
  rcases requestVirtioBlk_cases (r := r) h.free h.heap with
    ⟨_, _, _, _, _, _, -, -, hok, -, -⟩ | ⟨hw', herror, -, -⟩
  · exact Or.inl ⟨_, hok⟩
  · exact Or.inr ⟨_, hw', herror, h.failsCleanly herror⟩

/-- A queue of 15 descriptors: a request that is completed, its response, and another request. -/
theorem driver_conserves_sample : ∃ hw head result s, Initialised sampleLayout 15 hw ∧
    Runs (Where SlotFree (QueueStep sampleLayout)) (.initial hw)
      [.request sampleRead (.ok ()), .complete head 0, .consume result,
        .request sampleRead (.ok ())] s ∧
    s.outstanding.length = 1 ∧ Partitioned 15 hw s := by
  obtain ⟨hw, base, hinit, hbase, hblocks⟩ := exists_initialised (n := 15) (by decide) (by decide)
  obtain ⟨head, result, s, hround, hrested⟩ := (Rested.initial hinit hbase).round (r := sampleRead)
    hbase (by decide) (by omega) rfl
  obtain ⟨descs, lists, hdriver⟩ := hrested.inv.1
  have hout := hrested.outstanding
  obtain ⟨o, s', hstep, hout', -⟩ := hdriver.exists_request (r := sampleRead)
    (by rw [hout]; decide) (by rw [hout, List.length_nil]; omega) rfl
  have hrun : Runs (Where SlotFree (QueueStep sampleLayout)) (.initial hw) _ s' :=
    hround.snoc ⟨slotFree_request, hstep⟩
  exact ⟨hw, head, result, s', hinit, hrun, by rw [hout', hout]; rfl,
    (driver_conserves hinit hrun).1⟩

/-- **A chain that is freed twice.** In a queue of 15 descriptors index 65535 and index 0 of the used
ring have the same slot: after 65535 responses, the second of two completions overwrites the first,
and its chain is popped twice. -/
theorem wrapped_ring_double_frees : ∃ hw es s, Initialised sampleLayout 15 hw ∧
    Runs (QueueStep sampleLayout) (.initial hw) es s ∧ ¬ Partitioned 15 hw s := by
  obtain ⟨hw, base, hinit, hbase, hblocks⟩ := exists_initialised (n := 15) (by decide) (by decide)
  obtain ⟨es, s, hrun, hrested⟩ := exists_rested hinit hbase (by decide) (by omega)
    (r := sampleRead) rfl 65535
  obtain ⟨es', s', hrun', hcycle⟩ := hrested.double hbase (by decide) hblocks (r := sampleRead) rfl rfl
  refine ⟨hw, _, s', hinit, hrun.append hrun', fun hparts => ?_⟩
  obtain ⟨l, hchain, hperm⟩ := hparts.descs
  exact hcycle l (List.nodup_append.mp (hperm.nodup_iff.mpr (allDescs_nodup 15))).1 hchain

end Conserve

end SwitchOs.Virtio
