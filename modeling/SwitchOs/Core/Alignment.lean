import SwitchOs.Core.HeapRuns

/-!
# Alignment of the blocks

`alloc.h` says that all memory is aligned to the requested size. The buffer of each allocator is
aligned to its block size, but for the last one: its blocks are of 8192 bytes, and it is aligned to
4096. Every block on a list is aligned as the buffers of that list are (`Listed.aligned`), wherever
it came from, so that a request of 8192 bytes is the only one that may come out wrong.
-/

namespace SwitchOs

/-- A placement of the buffers that keeps to what `DEFINE_ALLOCATOR` declares. -/
structure AlignedLayout extends Layout where
  aligned : ∀ i < 5, gAlignments.getD i 1 ∣ buf i

/-- The five buffers one after the other, a page behind the start of core's memory. -/
def shiftedLayout : AlignedLayout where
  buf := fun i => CORE_PHYS_ADDR + 4096 + ((List.range i).map fun j => (gAllocator j).bufSize).sum
  buf_pos := by decide
  buf_lt := by decide
  apart := by decide
  aligned := by decide

/-- The blocks of a buffer are as aligned as the buffer. -/
theorem gAlignments_dvd_blockSize : ∀ i < 5, gAlignments.getD i 1 ∣ (gAllocator i).blockSize := by
  decide

/-- The buffer of a later allocator is at least as aligned. -/
theorem gAlignments_dvd : ∀ j < 5, ∀ i ≤ j, gAlignments.getD i 1 ∣ gAlignments.getD j 1 := by
  decide

/-- Below 8192, the buffer that a power of two is taken from is aligned to it. -/
theorem pow_dvd_alignment : ∀ k < 13, ∃ i < 5,
    findAllocatorForSize (2 ^ k) = some i ∧ 2 ^ k ∣ gAlignments.getD i 1 := by
  decide

theorem findAllocatorForSize_last : findAllocatorForSize 8192 = some 4 := by decide

section Alignment

variable {L : AlignedLayout} {h : Heap} {s : HeapState} {lists : ℕ → List UInt64} {i n : ℕ}
  {a : UInt64} {ops : List HeapOp}

theorem IsBlock.aligned (ha : IsBlock L.toLayout i a) (hi : i < 5) :
    gAlignments.getD i 1 ∣ a.toNat := by
  obtain ⟨k, -, hak⟩ := ha
  rw [hak]
  exact Nat.dvd_add (L.aligned i hi) (Dvd.dvd.mul_right (gAlignments_dvd_blockSize i hi) k)

/-- A block on a list is aligned as the buffer of the list is: its owner's buffer is at least as
aligned. -/
theorem Listed.aligned (ha : Listed L.toLayout i a) : gAlignments.getD i 1 ∣ a.toNat := by
  obtain ⟨j, hj, hij, hblock⟩ := ha.owner
  exact (gAlignments_dvd j hj i hij).trans (hblock.aligned hj)

/-- A block on the last list is one of its own. -/
theorem Listed.dvd_last_iff (ha : Listed L.toLayout 4 a) : 8192 ∣ a.toNat ↔ 8192 ∣ L.buf 4 := by
  obtain ⟨j, hj, hle, hblock⟩ := ha.owner
  obtain rfl : j = 4 := by omega
  obtain ⟨k, -, hak⟩ := hblock
  have hsize : (gAllocator 4).blockSize = 8192 := rfl
  rw [hak, hsize]
  exact Nat.dvd_add_left (Nat.dvd_mul_right 8192 k)

/-- Requests below 8192 bytes are aligned. -/
theorem HeapInv.aligned_lt (hinv : HeapInv L.toLayout s lists) {k : ℕ} (hk : k < 13)
    (hptr : (coreMalloc (2 ^ k) s.heap).1 ≠ 0) : 2 ^ k ∣ (coreMalloc (2 ^ k) s.heap).1.toNat := by
  obtain ⟨i, -, hfind, hdvd⟩ := pow_dvd_alignment k hk
  obtain ⟨i', -, hfind', hlisted⟩ := hinv.free.malloc_listed hptr
  obtain rfl : i = i' := Option.some.inj (hfind.symm.trans hfind')
  exact hdvd.trans hlisted.aligned

theorem coreMalloc_last_eq_zero_iff {h : Heap} : (coreMalloc 8192 h).1 = 0 ↔ h.head 4 = 0 := by
  rw [coreMalloc_eq_zero_iff, findAllocatorForSize_last]
  exact ⟨fun hempty => hempty 4 rfl, fun hhead i hi => Option.some.inj hi ▸ hhead⟩

/-- Requests of 8192 bytes are aligned if their buffer is. -/
theorem HeapInv.aligned_last_iff (hinv : HeapInv L.toLayout s lists)
    (hptr : (coreMalloc 8192 s.heap).1 ≠ 0) :
    8192 ∣ (coreMalloc 8192 s.heap).1.toNat ↔ 8192 ∣ L.buf 4 := by
  obtain ⟨i, -, hfind, hlisted⟩ := hinv.free.malloc_listed hptr
  obtain rfl : 4 = i := Option.some.inj (findAllocatorForSize_last.symm.trans hfind)
  exact hlisted.dvd_last_iff

/-- **The alignment of one allocation.** -/
theorem HeapInv.aligned_iff (hinv : HeapInv L.toLayout s lists) (hn : n.isPowerOfTwo)
    (hle : n ≤ 8192) :
    ((coreMalloc n s.heap).1 ≠ 0 → n ∣ (coreMalloc n s.heap).1.toNat) ↔
      n < 8192 ∨ 8192 ∣ L.buf 4 ∨ s.heap.head 4 = 0 := by
  rcases Nat.lt_or_eq_of_le hle with hlt | rfl
  · obtain ⟨k, rfl⟩ := hn
    have hk : k < 13 := (Nat.pow_lt_pow_iff_right (by omega)).mp hlt
    exact iff_of_true (fun hptr => hinv.aligned_lt hk hptr) (Or.inl hlt)
  · rw [or_iff_right (lt_irrefl _), ← coreMalloc_last_eq_zero_iff]
    by_cases hptr : (coreMalloc 8192 s.heap).1 = 0
    · exact iff_of_true (fun hne => absurd hptr hne) (Or.inr hptr)
    · rw [or_iff_left hptr, ← hinv.aligned_last_iff hptr]
      exact forall_prop_of_true hptr

/-- **Alignment to the requested size**, for every placement and in every order of calls: `core_malloc`
of a power of two up to 8192 returns a multiple of it, if it returns anything, except for 8192 itself
where the last buffer is not aligned to it and has a block left. -/
theorem core_malloc_aligned_iff
    (hrun : Runs (HeapStep L.toLayout) (HeapState.initial L.toLayout h) ops s)
    (hn : n.isPowerOfTwo) (hle : n ≤ 8192) :
    ((coreMalloc n s.heap).1 ≠ 0 → n ∣ (coreMalloc n s.heap).1.toNat) ↔
      n < 8192 ∨ 8192 ∣ L.buf 4 ∨ s.heap.head 4 = 0 := by
  obtain ⟨lists, hinv⟩ := HeapInv.runs hrun
  exact hinv.aligned_iff hn hle

/-- A page in the shifted placement. -/
theorem core_malloc_aligned_iff_page : ∃ s, Runs (HeapStep shiftedLayout.toLayout)
    (HeapState.initial shiftedLayout.toLayout ⟨fun _ => 0, fun _ => 0⟩) [.malloc 4096] s ∧
      (((coreMalloc 4096 s.heap).1 ≠ 0 → 4096 ∣ (coreMalloc 4096 s.heap).1.toNat) ↔
        4096 < 8192 ∨ 8192 ∣ shiftedLayout.buf 4 ∨ s.heap.head 4 = 0) := by
  have hrun := Runs.cons (HeapStep.malloc (L := shiftedLayout.toLayout)
    (HeapState.initial shiftedLayout.toLayout ⟨fun _ => 0, fun _ => 0⟩) 4096) (.nil _)
  exact ⟨_, hrun, core_malloc_aligned_iff hrun ⟨12, by norm_num⟩ (by decide)⟩

/-- After the initialisation there is a block of 8192 bytes. -/
theorem coreMalloc_last_initial (L : Layout) (h : Heap) :
    (coreMalloc 8192 (HeapState.initial L h).heap).1 ≠ 0 := by
  obtain ⟨lists, -, hlists, hlen⟩ := HeapInv.initial L h
  rw [ne_eq, coreMalloc_last_eq_zero_iff]
  intro hhead
  have hcount := hlen 4 (by decide)
  rw [(hlists 4 (by decide)).chain.eq_nil_iff.mpr hhead] at hcount
  exact absurd hcount (by decide)

/-- **A block that is not aligned.** With all the buffers aligned as they are declared, the first
request of 8192 bytes returns an address that is not a multiple of 8192. -/
theorem malloc_misaligned : ∃ s, Runs (HeapStep shiftedLayout.toLayout)
    (HeapState.initial shiftedLayout.toLayout ⟨fun _ => 0, fun _ => 0⟩) [] s ∧
      (coreMalloc 8192 s.heap).1 ≠ 0 ∧ ¬ 8192 ∣ (coreMalloc 8192 s.heap).1.toNat := by
  obtain ⟨lists, hinv, -⟩ := HeapInv.initial shiftedLayout.toLayout ⟨fun _ => 0, fun _ => 0⟩
  have hptr := coreMalloc_last_initial shiftedLayout.toLayout ⟨fun _ => 0, fun _ => 0⟩
  refine ⟨_, .nil _, hptr, ?_⟩
  rw [hinv.aligned_last_iff hptr]
  decide

end Alignment

end SwitchOs
