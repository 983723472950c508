import SwitchOs.Core.HeapRuns

/-!
# Clearing allocations

`core_calloc` with any two sizes, in any reachable heap. Their product is a `size_t`: where it wraps,
the block is chosen for what is left of it, and no more than that is cleared. A block has room for
the product of the two numbers exactly where the product does not wrap (`core_calloc_cleared_iff`).
-/

namespace SwitchOs

/-- What the caller of `core_calloc` takes for granted: the null pointer, or a block with room for
`n` bytes, all of them zero. -/
def Cleared (L : Layout) (n : ℕ) (r : UInt64 × Heap) : Prop :=
  r.1 ≠ 0 → ∃ i < 5, IsBlock L i r.1 ∧ n ≤ (gAllocator i).blockSize ∧
    ∀ k < n, r.2.mem (r.1.toNat + k) = 0

/-- A step of the heap, or a `core_calloc` of any two sizes. The block that it returns is live, and
its owner writes to it as far as it has been cleared. -/
inductive CallocStep (L : Layout) : HeapState → HeapOp → HeapState → Prop
  | step {s s' : HeapState} {op : HeapOp} (h : HeapStep L s op s') : CallocStep L s op s'
  | calloc (s : HeapState) (count size : UInt64) :
      CallocStep L s (.calloc count.toNat size.toNat)
        (s.took (coreCalloc count.toNat size.toNat s.heap) (count.toNat * size.toNat % 2 ^ 64))

section Calloc

variable {L : Layout} {h : Heap} {s s' : HeapState} {lists : ℕ → List UInt64} {count size : ℕ}
  {ops : List HeapOp} {op : HeapOp}

/-- A step with any two sizes keeps the invariant. -/
theorem HeapInv.callocStep (hinv : HeapInv L s lists) (hstep : CallocStep L s op s') :
    ∃ lists', HeapInv L s' lists' := by
  cases hstep with
  | step hstep =>
    obtain ⟨lists', hinv', -⟩ := hinv.step hstep
    exact ⟨lists', hinv'⟩
  | calloc count size =>
    rcases hinv.calloc count.toNat size.toNat with ⟨-, hinv'⟩ | ⟨i, t, -, -, -, hinv'⟩
    · exact ⟨lists, hinv'⟩
    · exact ⟨_, hinv'⟩

theorem HeapInv.callocRuns (hrun : Runs (CallocStep L) (HeapState.initial L h) ops s) :
    ∃ lists, HeapInv L s lists := by
  obtain ⟨lists, hinv, -⟩ := HeapInv.initial L h
  exact hrun.invariant (I := fun s => ∃ lists, HeapInv L s lists)
    (fun _ _ _ ⟨_, hs⟩ hstep => hs.callocStep hstep) ⟨lists, hinv⟩

/-- The pointer is the one that `core_malloc` returns. -/
theorem coreCalloc_fst (count size : ℕ) (h : Heap) :
    (coreCalloc count size h).1 = (coreMalloc (count * size % 2 ^ 64) h).1 := by
  unfold coreCalloc
  simp only
  split
  case isTrue hmalloc => exact hmalloc.symm
  case isFalse => rfl

/-- Null is returned where there is no allocator for the product, or its list is empty. -/
theorem coreCalloc_eq_zero_iff : (coreCalloc count size h).1 = 0 ↔
    ∀ i, findAllocatorForSize (count * size % 2 ^ 64) = some i → h.head i = 0 := by
  rw [coreCalloc_fst]
  exact coreMalloc_eq_zero_iff

/-- What is cleared is the product, as far as it has not wrapped. -/
theorem coreCalloc_zero (hptr : (coreCalloc count size h).1 ≠ 0) {k : ℕ}
    (hk : k < count * size % 2 ^ 64) :
    (coreCalloc count size h).2.mem ((coreCalloc count size h).1.toNat + k) = 0 := by
  rw [coreCalloc_fst] at hptr ⊢
  unfold coreCalloc
  simp only
  rw [if_neg hptr]
  show blit _ _ (fun _ => 0) 0 _ _ = 0
  rw [blit_add hk]

/-- The block of a `core_calloc` has room for the product that has wrapped. -/
theorem HeapInv.cleared (hinv : HeapInv L s lists) (count size : ℕ) :
    Cleared L (count * size % 2 ^ 64) (coreCalloc count size s.heap) := by
  intro hptr
  have hmalloc := hptr
  rw [coreCalloc_fst] at hmalloc
  obtain ⟨i, -, hfind, hlisted⟩ := hinv.free.malloc_listed hmalloc
  rw [← coreCalloc_fst] at hlisted
  obtain ⟨j, hj, hij, hblock⟩ := hlisted.owner
  exact ⟨j, hj, hblock, (findAllocatorForSize_spec hfind).2.trans (blockSize_mono j hj i hij),
    fun k hk => coreCalloc_zero hptr hk⟩

/-- No block has room for a product that wraps. -/
theorem not_cleared_of_wraps (hptr : (coreCalloc count size h).1 ≠ 0)
    (hwraps : 2 ^ 64 ≤ count * size) : ¬ Cleared L (count * size) (coreCalloc count size h) := by
  intro hcleared
  obtain ⟨i, hi, -, hfit, -⟩ := hcleared hptr
  have hlargest : ∀ i < 5, (gAllocator i).blockSize < 2 ^ 64 := by decide
  exact absurd (hwraps.trans hfit) (not_le.mpr (hlargest i hi))

/-- **No short block**, wherever the linker puts the buffers and in every order of calls: a block
that `core_calloc` returns has room for the product of its arguments, all zero, if and only if the
product does not wrap or there is no block for what is left of it. -/
theorem core_calloc_cleared_iff (hrun : Runs (CallocStep L) (HeapState.initial L h) ops s)
    (count size : UInt64) :
    Cleared L (count.toNat * size.toNat) (coreCalloc count.toNat size.toNat s.heap) ↔
      count.toNat * size.toNat < 2 ^ 64 ∨
        ∀ i, findAllocatorForSize (count.toNat * size.toNat % 2 ^ 64) = some i →
          s.heap.head i = 0 := by
  obtain ⟨lists, hinv⟩ := HeapInv.callocRuns hrun
  rw [← coreCalloc_eq_zero_iff]
  constructor
  · intro hcleared
    by_contra hcon
    rw [not_or, not_lt] at hcon
    exact not_cleared_of_wraps hcon.2 hcon.1 hcleared
  · rintro (hlt | hnull)
    · have hcleared := hinv.cleared count.toNat size.toNat
      rwa [Nat.mod_eq_of_lt hlt] at hcleared
    · exact fun hptr => absurd hnull hptr

/-- Sixteen descriptors of 16 bytes, after a first allocation. -/
theorem core_calloc_cleared_iff_sample : ∃ s, Runs (CallocStep sampleLayout)
    (HeapState.initial sampleLayout ⟨fun _ => 0, fun _ => 0⟩) [.malloc 100] s ∧
      (Cleared sampleLayout ((16 : UInt64).toNat * (16 : UInt64).toNat)
          (coreCalloc (16 : UInt64).toNat (16 : UInt64).toNat s.heap) ↔
        (16 : UInt64).toNat * (16 : UInt64).toNat < 2 ^ 64 ∨
          ∀ i, findAllocatorForSize ((16 : UInt64).toNat * (16 : UInt64).toNat % 2 ^ 64) = some i →
            s.heap.head i = 0) := by
  have hrun := Runs.cons (CallocStep.step (HeapStep.malloc (L := sampleLayout)
    (HeapState.initial sampleLayout ⟨fun _ => 0, fun _ => 0⟩) 100)) (.nil _)
  exact ⟨_, hrun, core_calloc_cleared_iff hrun 16 16⟩

/-- **A short block.** 2⁶³ elements of two bytes wrap to nothing: right after the initialisation,
`core_calloc` returns one of the smallest blocks for them. -/
theorem calloc_wraps_short : ∃ s, Runs (CallocStep sampleLayout)
    (HeapState.initial sampleLayout ⟨fun _ => 0, fun _ => 0⟩) [] s ∧
      (coreCalloc (0x8000000000000000 : UInt64).toNat (2 : UInt64).toNat s.heap).1 ≠ 0 ∧
      ¬ Cleared sampleLayout ((0x8000000000000000 : UInt64).toNat * (2 : UInt64).toNat)
        (coreCalloc (0x8000000000000000 : UInt64).toNat (2 : UInt64).toNat s.heap) := by
  have hfind : findAllocatorForSize
      ((0x8000000000000000 : UInt64).toNat * (2 : UInt64).toNat % 2 ^ 64) = some 0 := by decide
  obtain ⟨lists, -, hlists, hlen⟩ := HeapInv.initial sampleLayout ⟨fun _ => 0, fun _ => 0⟩
  have hne : lists 0 ≠ [] := by
    rw [← List.length_pos_iff, hlen 0 (by decide)]
    decide
  have hptr := coreCalloc_ne_zero hlists hfind hne
  exact ⟨_, .nil _, hptr, not_cleared_of_wraps hptr (by decide)⟩

end Calloc

end SwitchOs
