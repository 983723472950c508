import SwitchOs.Virtio.QueueRuns
import SwitchOs.Virtio.Exact

/-!
# A faulty device

The id on the used ring comes from memory that the device writes to; `consume_response_virtio_blk`
narrows it to 16 bits, walks from it and frees what it has met, whether the response is accepted or
not. `consume_unharmed_iff`: this is safe exactly if the id is the head of an outstanding chain. An id
that is out of range is read all the same; the middle or the end of an outstanding chain is freed
while the chain is outstanding; a free descriptor is freed twice, and the free list becomes a cycle.
-/

namespace SwitchOs.Virtio

/-- The descriptors that `consume_response_virtio_blk` reads and writes: the chain for
`validate_used_response`; then, for `free_request`, the chain again, those of it that
`free_queue_desc` accepts, and the first one for its address. -/
def consumeAccesses (queue : VirtioQueue) : List UInt16 :=
  let desc := nextUsed queue
  chainDescs queue desc ++
    if desc ≠ VIRTIO_INVALID_DESC then
      chainDescs queue desc ++
        (chainDescs queue desc).filter (fun d => d ≠ VIRTIO_INVALID_DESC ∧ d < queue.size) ++ [desc]
    else []

/-- The step from `s` to `s'` was safe: it looked at descriptors of the table only, and the free list
is finite, duplicate-free and apart from the chains still outstanding. -/
structure Unharmed (s s' : QueueState) : Prop where
  accesses : ∀ d ∈ consumeAccesses s.hw.queue, d < s.hw.queue.size
  free : ∃ l, Chain VIRTIO_INVALID_FREE_HEAD (nextDesc s'.hw.queue.desc) s'.hw.queue.freeHead l ∧
    l.Nodup ∧ ∀ o ∈ s'.outstanding, ∀ d ∈ o.descs, d ∉ l

section Faulty

variable {L : Layout} {n : UInt16} {base : ℕ → List UInt64} {s s' : QueueState}
  {descs : List UInt16} {lists : ℕ → List UInt64} {o : Outstanding} {d : UInt16}
  {queue : VirtioQueue}

theorem mem_chainDescs (queue : VirtioQueue) (d : UInt16) : ∃ ws, chainDescs queue d = d :: ws := by
  rw [chainDescs]
  simp only
  split
  · split <;> exact ⟨_, rfl⟩
  · exact ⟨_, rfl⟩

theorem mem_consumeAccesses (hd : d ∈ chainDescs queue (nextUsed queue)) :
    d ∈ consumeAccesses queue :=
  List.mem_append_left _ hd

/-- Every descriptor that is accessed is one of the chain. -/
theorem consumeAccesses_subset (hd : d ∈ consumeAccesses queue) :
    d ∈ chainDescs queue (nextUsed queue) := by
  obtain ⟨ws, hws⟩ := mem_chainDescs queue (nextUsed queue)
  rcases List.mem_append.mp hd with hd | hd
  · exact hd
  · split at hd
    case isFalse => exact absurd hd List.not_mem_nil
    case isTrue =>
      rcases List.mem_append.mp hd with hd | hd
      · rcases List.mem_append.mp hd with hd | hd
        · exact hd
        · exact (List.mem_filter.mp hd).1
      · rw [List.mem_singleton.mp hd, hws]
        exact List.mem_cons_self

/-- What a response does depends on the descriptors accessed only: on two tables that agree on them it
is accepted or rejected alike, and the same descriptors are freed. -/
theorem consume_congr {hw : Hw} {desc : ℕ → VirtqDesc} {len : UInt32}
    (hdesc : ∀ b ∈ chainDescs hw.queue d, desc b.toNat = hw.queue.desc b.toNat) :
    (validateUsedResponse d len { hw with queue := { hw.queue with desc := desc } }).map Prod.fst =
        (validateUsedResponse d len hw).map Prod.fst ∧
      chainDescs { hw.queue with desc := desc } d = chainDescs hw.queue d := by
  have h1 : desc d.toNat = hw.queue.desc d.toNat := by
    obtain ⟨ws, hws⟩ := mem_chainDescs hw.queue d
    exact hdesc d (by simp [hws])
  rw [chainDescs] at hdesc
  have hcheck : ∀ {c : Bool} {f g : Unit → Driver Unit} {t u : Hw},
      (f () t).map Prod.fst = (g () u).map Prod.fst →
      ((check c >>= f) t).map Prod.fst = ((check c >>= g) u).map Prod.fst := by
    rintro (_ | _) f g t u hfg
    · rfl
    · exact hfg
  have hlast : ∀ {c : Bool} {t u : Hw},
      ((check c : Driver Unit) t).map Prod.fst = ((check c : Driver Unit) u).map Prod.fst := by
    rintro (_ | _) t u <;> rfl
  rw [chainDescs, chainDescs, validateUsedResponse, Prog.bind_get_apply, Prog.bind_get_apply]
  simp only [h1] at hdesc ⊢
  cases hnext1 : ((hw.queue.desc d.toNat).flags &&& VIRTQ_DESC_F_NEXT != 0) with
  | false => exact ⟨rfl, rfl⟩
  | true =>
    simp only [hnext1, if_true] at hdesc ⊢
    have h2 : desc (hw.queue.desc d.toNat).next.toNat = _ := hdesc _ (by split <;> simp)
    simp only [h2]
    cases hnext2 : ((hw.queue.desc (hw.queue.desc d.toNat).next.toNat).flags &&&
        VIRTQ_DESC_F_NEXT != 0) with
    | false => exact ⟨rfl, trivial⟩
    | true =>
      simp only [hnext2, if_true] at hdesc ⊢
      have h3 : desc (hw.queue.desc (hw.queue.desc d.toNat).next.toNat).next.toNat = _ :=
        hdesc _ (by simp)
      simp only [h3]
      exact ⟨hcheck (hcheck (hcheck (hcheck hlast))), trivial⟩

/-- A walk from a free descriptor that stays in the table goes along the free list. -/
theorem chainDescs_of_free {pre post : List UInt16} (hfree : FreeDescs queue (pre ++ d :: post))
    (hlt : ∀ b ∈ chainDescs queue d, b < queue.size) :
    ∃ ws, chainDescs queue d = d :: ws ∧ ws <+: post := by
  have hpost := hfree.chain.suffix.pop
  rw [chainDescs] at hlt ⊢
  simp only at hlt ⊢
  split
  case isFalse => exact ⟨[], rfl, List.nil_prefix⟩
  case isTrue h1 =>
    rw [if_pos h1] at hlt
    split
    case isFalse h2 =>
      rw [if_neg h2] at hlt
      obtain ⟨post', rfl, -⟩ := hpost.exists_cons (ne_invalid_of_lt_size (hlt _ (by simp [nextDesc])))
      exact ⟨_, rfl, List.prefix_append [_] post'⟩
    case isTrue h2 =>
      rw [if_pos h2] at hlt
      obtain ⟨post', rfl, hpost'⟩ :=
        hpost.exists_cons (ne_invalid_of_lt_size (hlt _ (by simp [nextDesc])))
      obtain ⟨post'', rfl, -⟩ :=
        hpost'.exists_cons (ne_invalid_of_lt_size (hlt _ (by simp [nextDesc])))
      exact ⟨_, rfl, List.prefix_append [_, _] post''⟩

/-- **A double free.** After a chain that starts with a free descriptor has been freed, the free list
is no duplicate-free chain. -/
theorem double_free {l : List UInt16} (hfree : FreeDescs queue descs) (hd : d ∈ descs)
    (hlt : ∀ b ∈ chainDescs queue d, b < queue.size) (hnodup : l.Nodup)
    (hchain : Chain VIRTIO_INVALID_FREE_HEAD
      (nextDesc ((chainDescs queue d).foldl freeQueueDesc queue).desc)
      ((chainDescs queue d).foldl freeQueueDesc queue).freeHead l) : False := by
  obtain ⟨pre, post, rfl⟩ := List.append_of_mem hd
  obtain ⟨ws, hws, hprefix⟩ := chainDescs_of_free hfree hlt
  obtain ⟨-, hpost, hapart⟩ := List.nodup_append.mp hfree.nodup
  rw [hws] at hlt hchain
  have hwalk : (d :: ws) <+: (d :: post) := List.cons_prefix_cons.mpr ⟨rfl, hprefix⟩
  obtain ⟨rest, rfl, hrest⟩ := chain_freeAll hlt (hpost.sublist hwalk.sublist) hchain
  -- the link of `d` is the old head, and the links from there to `d` are the old ones
  obtain ⟨desc, head, hqueue, hdesc, -⟩ := foldl_freeQueueDesc_frame hlt
  have hreach : Reaches VIRTIO_INVALID_FREE_HEAD
      (nextDesc ((d :: ws).foldl freeQueueDesc queue).desc) d queue.freeHead := by
    refine hfree.chain.reaches_of_append fun b hb => ?_
    rw [nextDesc, nextDesc, hqueue]
    exact congrArg VirtqDesc.next (hdesc b fun hbw => hapart b hb b (hwalk.subset hbw) rfl)
  have hmem : d ∈ rest := hrest.reaches_iff.mp hreach
  exact (List.nodup_append.mp hnodup).2.2 d (by simp) d hmem rfl

/-- After a walk from the middle or the end of an outstanding chain has been freed, the end of the
chain is free. -/
theorem freed_inside {l : List UInt16} (hlinked : Linked queue.desc o) (hnodup : o.descs.Nodup)
    (hlt : ∀ b ∈ o.descs, b < queue.size) (hd : d ∈ o.descs) (hne : d ≠ o.desc1)
    (hchain : Chain VIRTIO_INVALID_FREE_HEAD
      (nextDesc ((chainDescs queue d).foldl freeQueueDesc queue).desc)
      ((chainDescs queue d).foldl freeQueueDesc queue).freeHead l) : o.desc3 ∈ l := by
  have hwalk : chainDescs queue d = [o.desc2, o.desc3] ∨ chainDescs queue d = [o.desc3] := by
    simp only [Outstanding.descs, List.mem_cons, List.not_mem_nil, or_false] at hd
    rcases hd with rfl | rfl | rfl
    · exact absurd rfl hne
    · left
      rw [chainDescs]
      simp only [hlinked.flags2, hlinked.next2, hlinked.flags3, if_true, Bool.false_eq_true, if_false]
    · right
      rw [chainDescs]
      simp only [hlinked.flags3, Bool.false_eq_true, if_false]
  have hsub : chainDescs queue d <:+ o.descs := by
    rcases hwalk with hwalk | hwalk
    · exact ⟨[o.desc1], by rw [hwalk]; rfl⟩
    · exact ⟨[o.desc1, o.desc2], by rw [hwalk]; rfl⟩
  have hend : o.desc3 ∈ chainDescs queue d := by
    rcases hwalk with hwalk | hwalk <;> simp [hwalk]
  obtain ⟨rest, rfl, -⟩ := chain_freeAll (fun b hb => hlt b (hsub.subset hb))
    (hnodup.sublist hsub.sublist) hchain
  exact List.mem_append_left _ (List.mem_reverse.mpr hend)

/-- A response to an outstanding chain does no harm. -/
theorem DriverInv.unharmed {h₀ : Heap} (hbase : FreeLists L h₀ base)
    (h : DriverInv L n base s descs lists) (hpops : PopsHead s) {result : Except Err Unit}
    (hstep : QueueStep L s (.consume result) s') : Unharmed s s' := by
  obtain ⟨o, ho, hhead⟩ := hpops
  cases hstep with
  | consume hrun =>
    have hinv := h.consume s.posted.tail hbase ho hhead hrun
    refine ⟨fun d hd => ?_, _, hinv.free.chain, hinv.free.nodup, fun p hp d hd hfree => ?_⟩
    · have hmem := consumeAccesses_subset hd
      rw [← hhead, (h.linked o ho).chainDescs_eq] at hmem
      rw [h.size]
      exact h.lt_size ho hmem
    · exact (List.nodup_append.mp hinv.nodup).2.2 d hfree d (List.mem_flatMap.mpr ⟨p, hp, hd⟩) rfl

/-- Any other response does. -/
theorem DriverInv.popsHead (h : DriverInv L n base s descs lists) {result : Except Err Unit}
    (hstep : QueueStep L s (.consume result) s') (hsafe : Unharmed s s') : PopsHead s := by
  obtain ⟨l, hchain, hnodup, hapart⟩ := hsafe.free
  have hlt : ∀ b ∈ chainDescs s.hw.queue (nextUsed s.hw.queue), b < s.hw.queue.size :=
    fun b hb => hsafe.accesses b (mem_consumeAccesses hb)
  obtain ⟨ws, hws⟩ := mem_chainDescs s.hw.queue (nextUsed s.hw.queue)
  have hhead : nextUsed s.hw.queue < s.hw.queue.size := hlt _ (by simp [hws])
  cases hstep with
  | @consume _ hw hrun =>
    obtain ⟨-, heq⟩ := consumeResponseVirtioBlk_eq hrun
    rw [if_pos (ne_invalid_of_lt_size hhead), freeRequest_eq] at heq
    rw [heq] at hchain
    have hlt' : ∀ b ∈ chainDescs (popped s.hw).queue (nextUsed s.hw.queue),
        b < (popped s.hw).queue.size := hlt
    rcases h.mem_cases (h.size ▸ hhead) with hfree | ⟨o, ho, hd⟩
    · have hfree' : FreeDescs (popped s.hw).queue descs := h.free.congr rfl rfl fun _ _ => rfl
      exact (double_free hfree' hfree hlt' hnodup hchain).elim
    · refine ⟨o, ho, ?_⟩
      by_contra hne
      have hkept : o ∈ s.outstanding.filter fun p => p.desc1 ≠ nextUsed s.hw.queue :=
        List.mem_filter.mpr ⟨ho, decide_eq_true hne⟩
      have hlinked : Linked (popped s.hw).queue.desc o := h.linked o ho
      have hend := freed_inside hlinked
        (List.nodup_append.mp ((h.chain_apart ho).nodup_iff.mpr (allDescs_nodup _))).1
        (fun b hb => h.size ▸ h.lt_size ho hb) hd (Ne.symm hne) hchain
      exact hapart o hkept o.desc3 (by simp [Outstanding.descs]) hend

/-- **When a used element cannot corrupt the driver.** In every state that is reached from an
initialised driver, whatever the device has put on the used ring: the next response is safe if and
only if the id, cut to 16 bits, is the head of an outstanding chain. -/
theorem consume_unharmed_iff {hw : Hw} {es : List QueueEvent} (hinit : Initialised L n hw)
    (hrun : Runs (Where ConsumesHead (FaultyStep L)) (.initial hw) es s)
    {result : Except Err Unit} (hstep : FaultyStep L s (.consume result) s') :
    Unharmed s s' ↔ PopsHead s := by
  obtain ⟨base, descs, lists, hbase, h⟩ := DriverInv.runs hinit hrun
  cases hstep with
  | step hstep => exact ⟨h.popsHead hstep, fun hpops => h.unharmed hbase hpops hstep⟩

/-- A queue that was set up on a fresh heap, with blocks to spare. -/
theorem exists_initialised (hpos : 0 < n.toNat) (hmax : n.toNat ≤ 512) :
    ∃ hw base, Initialised sampleLayout n hw ∧ FreeLists sampleLayout hw.heap base ∧
      2 ≤ (base 0).length := by
  obtain ⟨hw, base, hinit, -, hlists, hcount⟩ := initVirtioBlkQueue_ok (L := sampleLayout)
    (s := ⟨coreInitAllocators sampleLayout ⟨fun _ => 0, fun _ => 0⟩, fun _ => 0, initialQueue n, 0⟩)
    hpos hmax rfl
  refine ⟨hw, base, ⟨_, [], _, _, .nil _, rfl, hinit⟩, hlists.freeLists, ?_⟩
  have hblocks : 5 ≤ blockCount 0 := by decide
  have hleft := hcount 0 (by omega)
  omega

/-- An initialised queue of 4 descriptors, and a device that posts the id 4. -/
theorem exists_wild : ∃ hw s s' result, Initialised sampleLayout 4 hw ∧
    Runs (Where ConsumesHead (FaultyStep sampleLayout)) (.initial hw) [.fault] s ∧
    FaultyStep sampleLayout s (.consume result) s' ∧ s.hw.queue.size = 4 ∧
    nextUsed s.hw.queue = 4 := by
  obtain ⟨hw, -, hinit, -⟩ := exists_initialised (n := 4) (by decide) (by decide)
  -- one entry more on the used ring, and every entry has the id 4
  let s : QueueState := { QueueState.initial hw with hw := { hw with queue := { hw.queue with
    usedIdx := hw.queue.seenUsed + 1, usedRing := fun _ => ⟨4, 0⟩ } } }
  have hstep : FaultyStep sampleLayout (.initial hw) .fault s := .fault
  have hsize : hw.queue.size = 4 := congrArg VirtioQueue.size hinit.cases.2.1
  have hunseen : s.hw.queue.seenUsed ≠ s.hw.queue.usedIdx := ne_succ hw.queue.seenUsed
  obtain ⟨result, hrun⟩ := consumeResponseVirtioBlk_run (L := sampleLayout) hunseen
  exact ⟨hw, s, _, result, hinit, .cons ⟨nofun, hstep⟩ (.nil _), .step (.consume hrun), hsize, rfl⟩

/-- A request to it, and a device that completes the request. -/
theorem exists_completed : ∃ hw head s s' result, Initialised sampleLayout 4 hw ∧
    Runs (Where ConsumesHead (FaultyStep sampleLayout)) (.initial hw)
      [.request sampleRead (.ok ()), .complete head 0] s ∧
    FaultyStep sampleLayout s (.consume result) s' ∧ s.outstanding.map Outstanding.desc1 = [head] ∧
    nextUsed s.hw.queue = head := by
  obtain ⟨hw, base, hinit, hbase, hblocks⟩ := exists_initialised (n := 4) (by decide) (by decide)
  have hqueue := hinit.cases.2.1
  obtain ⟨o, s, hrequest, hout, hposted, hring⟩ :=
    (DriverInv.initial hinit hbase).exists_request (r := sampleRead)
      (show 3 * 1 ≤ (4 : UInt16).toNat by decide) (show 0 < (base 0).length by omega) rfl
  obtain ⟨t, hcomplete, hout', -, hqueue'⟩ := exists_complete (L := sampleLayout) (s := s) (o := o)
    (by rw [hout]; exact List.mem_cons_self) (by rw [hposted]; exact List.not_mem_nil)
  have hsame : s.hw.queue.seenUsed = s.hw.queue.usedIdx := by
    rw [hring.seen, hring.used, QueueState.initial, hqueue]
    rfl
  have hunseen : t.hw.queue.seenUsed ≠ t.hw.queue.usedIdx := by
    rw [hqueue', postUsed, hsame]
    exact ne_succ _
  obtain ⟨result, hrun⟩ := consumeResponseVirtioBlk_run (L := sampleLayout) hunseen
  refine ⟨hw, o.desc1, t, _, result, hinit, .cons ⟨consumesHead_request, .step hrequest⟩
    (.cons ⟨consumesHead_complete, .step hcomplete⟩ (.nil _)), .step (.consume hrun),
    by rw [hout', hout]; rfl, ?_⟩
  rw [nextUsed, hqueue', postUsed]
  simp only [hsame, Function.update_self, UInt16.toUInt16_toUInt32]

/-- Both responses: the id 4, and the head of the chain that is outstanding. -/
theorem consume_unharmed_iff_sample :
    (∃ hw s s' result, Initialised sampleLayout 4 hw ∧
      Runs (Where ConsumesHead (FaultyStep sampleLayout)) (.initial hw) [.fault] s ∧
      FaultyStep sampleLayout s (.consume result) s' ∧ (Unharmed s s' ↔ PopsHead s)) ∧
    ∃ hw head s s' result, Initialised sampleLayout 4 hw ∧
      Runs (Where ConsumesHead (FaultyStep sampleLayout)) (.initial hw)
        [.request sampleRead (.ok ()), .complete head 0] s ∧
      FaultyStep sampleLayout s (.consume result) s' ∧
      s.outstanding.map Outstanding.desc1 = [head] ∧ Unharmed s s' := by
  obtain ⟨hw, s, s', result, hinit, hrun, hstep, -, -⟩ := exists_wild
  obtain ⟨hw₁, head, s₁, s₁', result₁, hinit₁, hrun₁, hstep₁, hout, hnext⟩ := exists_completed
  obtain ⟨o, ho, hhead⟩ : ∃ o ∈ s₁.outstanding, o.desc1 = head := by
    rw [← List.mem_map, hout]
    exact List.mem_cons_self
  exact ⟨⟨hw, s, s', result, hinit, hrun, hstep, consume_unharmed_iff hinit hrun hstep⟩,
    hw₁, head, s₁, s₁', result₁, hinit₁, hrun₁, hstep₁, hout,
    (consume_unharmed_iff hinit₁ hrun₁ hstep₁).mpr ⟨o, ho, hhead.trans hnext.symm⟩⟩

/-- **A descriptor outside the table.** The device posts the id 4 to a queue of 4 descriptors;
descriptor 4 is read, and what is read there says what is freed. -/
theorem wild_id_harms : ∃ hw s s' result, Initialised sampleLayout 4 hw ∧
    Runs (Where ConsumesHead (FaultyStep sampleLayout)) (.initial hw) [.fault] s ∧
    FaultyStep sampleLayout s (.consume result) s' ∧ nextUsed s.hw.queue = 4 ∧
    ¬ Unharmed s s' := by
  obtain ⟨hw, s, s', result, hinit, hrun, hstep, hsize, hnext⟩ := exists_wild
  refine ⟨hw, s, s', result, hinit, hrun, hstep, hnext, fun hsafe => ?_⟩
  obtain ⟨ws, hws⟩ := mem_chainDescs s.hw.queue (nextUsed s.hw.queue)
  have hlt := hsafe.accesses _ (mem_consumeAccesses (by rw [hws]; exact List.mem_cons_self))
  rw [hnext, hsize] at hlt
  exact absurd hlt (by decide)

end Faulty

end SwitchOs.Virtio
