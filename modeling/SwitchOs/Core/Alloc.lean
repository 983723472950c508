import SwitchOs.Core.Header
import SwitchOs.Lib.Chain

/-!
# The block allocators

`core/alloc.c`: five allocators, each a buffer of equal blocks with a list of the free ones. The
list lives in the free blocks themselves, the first eight bytes of each being a pointer to the next.
`HeapLists` says which blocks are free; `coreMalloc_spec` and `coreFree_spec` are what an allocation
and its release do to them, `coreInitAllocators_lists` that every block is free to begin with.

`find_allocator_for_allocation` takes an address one past the end of a buffer to be in it; an
address in the first buffer is found all the same, and those are the only blocks core ever frees.
-/

namespace SwitchOs

/-- The constant part of `struct allocator`. -/
structure Allocator where
  blockSize : ℕ
  bufSize : ℕ

/-- `g_allocators`, in its order. -/
def gAllocators : List Allocator :=
  [⟨32, 32 * 4096⟩, ⟨64, 64 * 1024⟩, ⟨128, 128 * 1024⟩, ⟨256, 256 * 1024⟩, ⟨8192, 8192 * 32⟩]

/-- Allocator `i`. -/
def gAllocator (i : ℕ) : Allocator := gAllocators.getD i ⟨0, 0⟩

/-- Where the linker has put the buffers: apart from each other, not at the null address, and each
with its end inside the address space. -/
structure Layout where
  buf : ℕ → ℕ
  buf_pos : ∀ i < 5, 0 < buf i
  buf_lt : ∀ i < 5, buf i + (gAllocator i).bufSize < 2 ^ 64
  apart : ∀ i < 5, ∀ j < 5, i ≠ j →
    buf i + (gAllocator i).bufSize ≤ buf j ∨ buf j + (gAllocator j).bufSize ≤ buf i

/-- The five buffers one after the other, at the start of core's memory. -/
def sampleLayout : Layout where
  buf := fun i => CORE_PHYS_ADDR + ((List.range i).map fun j => (gAllocator j).bufSize).sum
  buf_pos := by decide
  buf_lt := by decide
  apart := by decide

/-- Memory, and the head of each allocator's list. -/
structure Heap where
  mem : ℕ → UInt8
  head : ℕ → UInt64

/-- `find_allocator_for_allocation`. -/
def findAllocatorForAllocation (L : Layout) (addr : UInt64) : Option ℕ :=
  (List.range 5).find? fun i =>
    decide (L.buf i ≤ addr.toNat) && decide (L.buf i + (gAllocator i).bufSize ≥ addr.toNat)

/-- `find_allocator_for_size`. -/
def findAllocatorForSize (size : ℕ) : Option ℕ :=
  (List.range 5).find? fun i => decide ((gAllocator i).blockSize ≥ size)

/-- The loop of `core_init_allocators` over the `n` blocks from `addr` on. -/
def chainBlocks (blockSize : ℕ) : ℕ → ℕ → UInt64 × (ℕ → UInt8) → UInt64 × (ℕ → UInt8)
  | _, 0, s => s
  | addr, n + 1, (head, mem) =>
    chainBlocks blockSize (addr + blockSize) n (UInt64.ofNat addr, put64 mem addr head)

/-- One allocator of `core_init_allocators`. -/
def initAllocator (L : Layout) (h : Heap) (i : ℕ) : Heap :=
  let a := gAllocator i
  let (head, mem) := chainBlocks a.blockSize (L.buf i) (a.bufSize / a.blockSize) (0, h.mem)
  { mem := mem, head := Function.update h.head i head }

/-- `core_init_allocators`. -/
def coreInitAllocators (L : Layout) (h : Heap) : Heap := (List.range 5).foldl (initAllocator L) h

/-- `core_malloc`. -/
def coreMalloc (size : ℕ) (h : Heap) : UInt64 × Heap :=
  match findAllocatorForSize size with
  | none => (0, h)
  | some i =>
    if h.head i = 0 then (0, h)
    else (h.head i, { h with head := Function.update h.head i (get64 h.mem (h.head i).toNat) })

/-- `core_calloc`. The product is a `size_t`. -/
def coreCalloc (count size : ℕ) (h : Heap) : UInt64 × Heap :=
  let totalSize := count * size % 2 ^ 64
  let (ptr, h) := coreMalloc totalSize h
  if ptr = 0 then (0, h)
  else (ptr, { h with mem := blit h.mem ptr.toNat (fun _ => 0) 0 totalSize })

/-- `core_free`. -/
def coreFree (L : Layout) (ptr : UInt64) (h : Heap) : Heap :=
  match findAllocatorForAllocation L ptr with
  | none => h
  | some i => { mem := put64 h.mem ptr.toNat (h.head i), head := Function.update h.head i ptr }

/-! ## Blocks -/

/-- The number of blocks of allocator `i`. -/
def blockCount (i : ℕ) : ℕ := (gAllocator i).bufSize / (gAllocator i).blockSize

/-- A buffer is a whole number of blocks, each with room for the pointer to the next. -/
theorem gAllocator_sizes : ∀ i < 5, (gAllocator i).bufSize =
    (gAllocator i).blockSize * blockCount i ∧ 32 ≤ (gAllocator i).blockSize := by
  decide

/-- `a` is the address of a block of allocator `i`. -/
def IsBlock (L : Layout) (i : ℕ) (a : UInt64) : Prop :=
  ∃ k < blockCount i, a.toNat = L.buf i + (gAllocator i).blockSize * k

/-- The byte `x` lies in one of the buffers. -/
def InHeap (L : Layout) (x : ℕ) : Prop :=
  ∃ i < 5, L.buf i ≤ x ∧ x < L.buf i + (gAllocator i).bufSize

section Blocks

variable {L : Layout} {i j : ℕ} {a b : UInt64}

/-- A block lies in its buffer. -/
theorem IsBlock.bounds (ha : IsBlock L i a) (hi : i < 5) : L.buf i ≤ a.toNat ∧
    a.toNat + (gAllocator i).blockSize ≤ L.buf i + (gAllocator i).bufSize := by
  obtain ⟨k, hk, hak⟩ := ha
  have hmul := Nat.mul_le_mul_left (gAllocator i).blockSize (Nat.succ_le_of_lt hk)
  rw [Nat.mul_succ, ← (gAllocator_sizes i hi).1] at hmul
  omega

theorem IsBlock.inHeap (ha : IsBlock L i a) (hi : i < 5) {x : ℕ} (h1 : a.toNat ≤ x)
    (h2 : x < a.toNat + (gAllocator i).blockSize) : InHeap L x := by
  have := ha.bounds hi
  exact ⟨i, hi, by omega, by omega⟩

theorem IsBlock.ne_zero (ha : IsBlock L i a) (hi : i < 5) : a ≠ 0 := by
  rintro rfl
  have h1 := ha.bounds hi
  have h2 := L.buf_pos i hi
  have h0 : (0 : UInt64).toNat = 0 := rfl
  omega

/-- Different blocks do not meet. -/
theorem IsBlock.apart (ha : IsBlock L i a) (hb : IsBlock L j b) (hi : i < 5) (hj : j < 5)
    (hne : i = j → a ≠ b) : a.toNat + (gAllocator i).blockSize ≤ b.toNat ∨
      b.toNat + (gAllocator j).blockSize ≤ a.toNat := by
  by_cases hij : i = j
  · subst hij
    obtain ⟨k, hk, hak⟩ := ha
    obtain ⟨l, hl, hbl⟩ := hb
    have hkl : k ≠ l := by
      rintro rfl
      exact hne rfl (UInt64.toNat_inj.mp (hak.trans hbl.symm))
    rcases Nat.lt_or_gt_of_ne hkl with hlt | hlt
    · have := Nat.mul_le_mul_left (gAllocator i).blockSize (Nat.succ_le_of_lt hlt)
      rw [Nat.mul_succ] at this
      omega
    · have := Nat.mul_le_mul_left (gAllocator i).blockSize (Nat.succ_le_of_lt hlt)
      rw [Nat.mul_succ] at this
      omega
  · have h1 := ha.bounds hi
    have h2 := hb.bounds hj
    have := L.apart i hi j hj hij
    omega

end Blocks

/-! ## Free lists -/

/-- The pointer to the next free block. -/
def nextBlock (mem : ℕ → UInt8) (a : UInt64) : UInt64 := get64 mem a.toNat

/-- The free blocks of allocator `i`, from its head on, are those of `l`. -/
structure FreeBlocks (L : Layout) (i : ℕ) (mem : ℕ → UInt8) (head : UInt64) (l : List UInt64) :
    Prop where
  chain : Chain 0 (nextBlock mem) head l
  blocks : ∀ a ∈ l, IsBlock L i a
  nodup : l.Nodup

/-- The free blocks of all allocators. -/
def HeapLists (L : Layout) (h : Heap) (lists : ℕ → List UInt64) : Prop :=
  ∀ i < 5, FreeBlocks L i h.mem (h.head i) (lists i)

section Lists

variable {L : Layout} {h : Heap} {lists : ℕ → List UInt64} {mem mem' : ℕ → UInt8} {i : ℕ}

theorem FreeBlocks.congr {head : UInt64} {l : List UInt64} (hf : FreeBlocks L i mem head l)
    (hmem : ∀ a ∈ l, ∀ k < 8, mem' (a.toNat + k) = mem (a.toNat + k)) :
    FreeBlocks L i mem' head l :=
  ⟨hf.chain.congr fun a ha => get64_congr (hmem a ha), hf.blocks, hf.nodup⟩

/-- A block that is linked to the head of a list becomes its head. -/
theorem FreeBlocks.push {head a : UInt64} {l : List UInt64} (hf : FreeBlocks L i mem head l)
    (hi : i < 5) (ha : IsBlock L i a) (hfree : a ∉ l) :
    FreeBlocks L i (put64 mem a.toNat head) a (a :: l) := by
  refine ⟨hf.chain.push (ha.ne_zero hi) (get64_put64 _ _ _) fun b hb => ?_, fun b hb => ?_,
    List.nodup_cons.mpr ⟨hfree, hf.nodup⟩⟩
  · -- the other blocks of the list keep their links
    have hsize := (gAllocator_sizes i hi).2
    have hapart := ha.apart (hf.blocks b hb) hi hi fun _ hab => hfree (hab ▸ hb)
    exact get64_congr fun j hj => put64_outside (by omega)
  · rcases List.mem_cons.mp hb with rfl | hb
    · exact ha
    · exact hf.blocks b hb

/-- The lists only depend on the bytes of the buffers. -/
theorem HeapLists.congr_outside (hl : HeapLists L h lists)
    (hmem : ∀ x, InHeap L x → mem' x = h.mem x) : HeapLists L { h with mem := mem' } lists := by
  intro i hi
  refine (hl i hi).congr fun a ha k hk => hmem _ ?_
  have hsize := (gAllocator_sizes i hi).2
  exact ((hl i hi).blocks a ha).inHeap hi (by omega) (by omega)

/-- Writing inside a block that is not free changes no list. -/
theorem HeapLists.congr_block (hl : HeapLists L h lists) (hi : i < 5) {a : UInt64}
    (ha : IsBlock L i a) (hfree : a ∉ lists i)
    (hmem : ∀ x, x < a.toNat ∨ a.toNat + (gAllocator i).blockSize ≤ x → mem' x = h.mem x) :
    HeapLists L { h with mem := mem' } lists := by
  intro j hj
  refine (hl j hj).congr fun b hb k hk => hmem _ ?_
  have hsize := (gAllocator_sizes j hj).2
  have hapart := ha.apart ((hl j hj).blocks b hb) hi hj (by
    rintro rfl rfl
    exact hfree hb)
  omega

/-! ## Allocation and release -/

theorem findAllocatorForSize_spec {size : ℕ} (hfind : findAllocatorForSize size = some i) :
    i < 5 ∧ size ≤ (gAllocator i).blockSize := by
  have hmem := List.mem_of_find?_eq_some hfind
  have hsize := List.find?_some hfind
  rw [List.mem_range] at hmem
  exact ⟨hmem, by simpa using hsize⟩

/-- An allocation takes the head of a list. -/
theorem coreMalloc_pop {size : ℕ} (hptr : (coreMalloc size h).1 ≠ 0) :
    ∃ i, findAllocatorForSize size = some i ∧ h.head i = (coreMalloc size h).1 ∧
      (coreMalloc size h).2 =
        { h with head := Function.update h.head i (nextBlock h.mem (coreMalloc size h).1) } := by
  unfold coreMalloc at hptr ⊢
  split at hptr
  case h_1 => exact absurd rfl hptr
  case h_2 i hfind =>
    rw [hfind]
    split at hptr
    case isTrue => exact absurd rfl hptr
    case isFalse hhead =>
      rw [if_neg hhead]
      exact ⟨i, rfl, rfl, rfl⟩

/-- An allocation takes the first free block of the smallest blocks that are large enough. -/
theorem coreMalloc_spec {size : ℕ} (hl : HeapLists L h lists) (hptr : (coreMalloc size h).1 ≠ 0) :
    ∃ i t, findAllocatorForSize size = some i ∧ lists i = (coreMalloc size h).1 :: t ∧
      HeapLists L (coreMalloc size h).2 (Function.update lists i t) ∧
      (coreMalloc size h).2.mem = h.mem := by
  obtain ⟨i, hfind, hhead, heap_eq⟩ := coreMalloc_pop hptr
  obtain ⟨hi, -⟩ := findAllocatorForSize_spec hfind
  obtain ⟨t, ht, hchain⟩ := (hl i hi).chain.exists_cons (by rwa [hhead])
  rw [hhead] at ht hchain
  rw [heap_eq]
  refine ⟨i, t, hfind, ht, fun j hj => ?_, rfl⟩
  by_cases hij : j = i
  · subst hij
    rw [Function.update_self]
    simp only [Function.update_self]
    have hblocks := (hl j hj).blocks
    have hnodup := (hl j hj).nodup
    rw [ht] at hblocks hnodup
    exact ⟨hchain, fun a ha => hblocks a (List.mem_cons_of_mem _ ha),
      (List.nodup_cons.mp hnodup).2⟩
  · rw [Function.update_of_ne hij]
    simp only [Function.update_of_ne hij]
    exact hl j hj

/-- An allocation that clears its memory. -/
theorem coreCalloc_spec {count size : ℕ} (hl : HeapLists L h lists)
    (hptr : (coreCalloc count size h).1 ≠ 0) :
    ∃ i t, findAllocatorForSize (count * size % 2 ^ 64) = some i ∧
      lists i = (coreCalloc count size h).1 :: t ∧
      HeapLists L (coreCalloc count size h).2 (Function.update lists i t) ∧
      (coreCalloc count size h).2.mem =
        blit h.mem (coreCalloc count size h).1.toNat (fun _ => 0) 0 (count * size % 2 ^ 64) := by
  unfold coreCalloc at hptr ⊢
  simp only at hptr ⊢
  split at hptr
  case isTrue => exact absurd rfl hptr
  case isFalse hmalloc =>
    rw [if_neg hmalloc]
    obtain ⟨i, t, hfind, ht, hlists, hmem⟩ := coreMalloc_spec hl hmalloc
    obtain ⟨hi, hsize⟩ := findAllocatorForSize_spec hfind
    have hblock : IsBlock L i (coreMalloc (count * size % 2 ^ 64) h).1 :=
      (hl i hi).blocks _ (by simp [ht])
    have hnodup := (hl i hi).nodup
    rw [ht] at hnodup
    refine ⟨i, t, hfind, ht, ?_, by rw [hmem]⟩
    refine hlists.congr_block hi hblock ?_ fun x hx => blit_outside (by omega)
    rw [Function.update_self]
    exact (List.nodup_cons.mp hnodup).1

/-- An allocation succeeds if there is a free block of the size it takes. -/
theorem coreCalloc_ne_zero {count size : ℕ} (hl : HeapLists L h lists)
    (hfind : findAllocatorForSize (count * size % 2 ^ 64) = some i) (hne : lists i ≠ []) :
    (coreCalloc count size h).1 ≠ 0 := by
  obtain ⟨hi, -⟩ := findAllocatorForSize_spec hfind
  have hhead : h.head i ≠ 0 := mt (hl i hi).chain.eq_nil_iff.mpr hne
  have hmalloc : (coreMalloc (count * size % 2 ^ 64) h).1 = h.head i := by
    rw [coreMalloc, hfind]
    simp only
    rw [if_neg hhead]
  unfold coreCalloc
  simp only
  rw [hmalloc, if_neg hhead]
  exact hhead

theorem findAllocatorForAllocation_first {a : UInt64} (ha : IsBlock L 0 a) :
    findAllocatorForAllocation L a = some 0 := by
  have hb := ha.bounds (by omega)
  rw [findAllocatorForAllocation, List.range_succ_eq_map, List.find?_cons_of_pos]
  simp only [Bool.and_eq_true, decide_eq_true_eq]
  omega

/-- Releasing a block of the first allocator puts it in front of its list. -/
theorem coreFree_spec {a : UInt64} (hl : HeapLists L h lists) (ha : IsBlock L 0 a)
    (hfree : a ∉ lists 0) :
    HeapLists L (coreFree L a h) (Function.update lists 0 (a :: lists 0)) ∧
      ∀ x, x < a.toNat ∨ a.toNat + 8 ≤ x → (coreFree L a h).mem x = h.mem x := by
  have hout : ∀ x, x < a.toNat ∨ a.toNat + 8 ≤ x →
      put64 h.mem a.toNat (h.head 0) x = h.mem x := fun x hx => put64_outside hx
  rw [coreFree, findAllocatorForAllocation_first ha]
  refine ⟨fun j hj => ?_, hout⟩
  have hlists := hl.congr_block (by omega) ha hfree
    fun x hx => hout x (by
      have : (gAllocator 0).blockSize = 32 := rfl
      omega)
  by_cases h0 : j = 0
  · subst h0
    rw [Function.update_self]
    simp only [Function.update_self]
    exact (hl 0 hj).push hj ha hfree
  · rw [Function.update_of_ne h0]
    simp only [Function.update_of_ne h0]
    exact hlists j hj

/-! ## Initialisation -/

/-- The loop over the blocks of one buffer: the free ones are those below the block it has come to. -/
theorem chainBlocks_spec (hi : i < 5) : ∀ (n k : ℕ) (head : UInt64) (mem : ℕ → UInt8)
    (l : List UInt64), k + n = blockCount i → FreeBlocks L i mem head l → l.length = k →
    (∀ a ∈ l, a.toNat < L.buf i + (gAllocator i).blockSize * k) →
    ∃ l', FreeBlocks L i
        (chainBlocks (gAllocator i).blockSize (L.buf i + (gAllocator i).blockSize * k) n
          (head, mem)).2
        (chainBlocks (gAllocator i).blockSize (L.buf i + (gAllocator i).blockSize * k) n
          (head, mem)).1 l' ∧ l'.length = blockCount i ∧
      ∀ x, x < L.buf i ∨ L.buf i + (gAllocator i).bufSize ≤ x →
        (chainBlocks (gAllocator i).blockSize (L.buf i + (gAllocator i).blockSize * k) n
          (head, mem)).2 x = mem x := by
  obtain ⟨hbuf, hsize⟩ := gAllocator_sizes i hi
  have hle := L.buf_lt i hi
  intro n
  induction n with
  | zero =>
    intro k head mem l hk hfree hlen _
    exact ⟨l, hfree, by omega, fun _ _ => rfl⟩
  | succ n ih =>
    intro k head mem l hk hfree hlen hbelow
    -- the block the loop has come to
    have hkb := Nat.mul_le_mul_left (gAllocator i).blockSize (show k + 1 ≤ blockCount i by omega)
    rw [Nat.mul_succ, ← hbuf] at hkb
    have haddr : (UInt64.ofNat (L.buf i + (gAllocator i).blockSize * k)).toNat =
        L.buf i + (gAllocator i).blockSize * k := by
      rw [UInt64.toNat_ofNat']
      exact Nat.mod_eq_of_lt (by omega)
    have hblock : IsBlock L i (UInt64.ofNat (L.buf i + (gAllocator i).blockSize * k)) :=
      ⟨k, by omega, haddr⟩
    have hpush := hfree.push hi hblock fun ha => by
      have := hbelow _ ha
      omega
    rw [haddr] at hpush
    have hbelow' : ∀ a ∈ UInt64.ofNat (L.buf i + (gAllocator i).blockSize * k) :: l,
        a.toNat < L.buf i + (gAllocator i).blockSize * (k + 1) := by
      intro a ha
      rw [Nat.mul_succ]
      rcases List.mem_cons.mp ha with rfl | ha
      · omega
      · have := hbelow a ha
        omega
    obtain ⟨l', hfree', hlen', hout⟩ := ih (k + 1) _ _ _ (by omega) hpush
      (congrArg (· + 1) hlen) hbelow'
    rw [Nat.mul_succ, ← Nat.add_assoc] at hfree' hout
    refine ⟨l', hfree', hlen', fun x hx => ?_⟩
    rw [chainBlocks, hout x hx]
    exact put64_outside (by omega)

/-- One allocator is initialised; the others keep their lists. -/
theorem initAllocator_spec (hi : i < 5) (h : Heap) :
    (∃ l, FreeBlocks L i (initAllocator L h i).mem ((initAllocator L h i).head i) l ∧
      l.length = blockCount i) ∧
    ∀ j < 5, j ≠ i → ∀ l, FreeBlocks L j h.mem (h.head j) l →
      FreeBlocks L j (initAllocator L h i).mem ((initAllocator L h i).head j) l := by
  obtain ⟨l, hfree, hlen, hout⟩ := chainBlocks_spec (L := L) hi (blockCount i) 0 0 h.mem []
    (by omega) ⟨rfl, nofun, List.nodup_nil⟩ rfl nofun
  simp only [Nat.mul_zero, Nat.add_zero] at hfree hout
  refine ⟨⟨l, ?_, hlen⟩, fun j hj hji l' hl' => ?_⟩
  · simp only [initAllocator, Function.update_self]
    exact hfree
  · simp only [initAllocator, Function.update_of_ne hji]
    refine hl'.congr fun a ha k hk => hout _ ?_
    have h1 := (hl'.blocks a ha).bounds hj
    have h2 := (gAllocator_sizes j hj).2
    have := L.apart i hi j hj (Ne.symm hji)
    omega

/-- After `core_init_allocators` every block is free. -/
theorem coreInitAllocators_lists (L : Layout) (h : Heap) :
    ∃ lists, HeapLists L (coreInitAllocators L h) lists ∧
      ∀ i < 5, (lists i).length = blockCount i := by
  have hrun : ∀ n ≤ 5, ∃ lists : ℕ → List UInt64, ∀ i < n, FreeBlocks L i
      ((List.range n).foldl (initAllocator L) h).mem
      (((List.range n).foldl (initAllocator L) h).head i) (lists i) ∧
        (lists i).length = blockCount i := by
    intro n
    induction n with
    | zero => exact fun _ => ⟨fun _ => [], nofun⟩
    | succ n ih =>
      intro hn
      obtain ⟨lists, hlists⟩ := ih (by omega)
      obtain ⟨⟨l, hl, hlen⟩, hothers⟩ := initAllocator_spec (L := L) (i := n) (by omega)
        ((List.range n).foldl (initAllocator L) h)
      rw [List.range_succ, List.foldl_append]
      refine ⟨Function.update lists n l, fun i hi => ?_⟩
      by_cases hin : i = n
      · subst hin
        rw [Function.update_self]
        exact ⟨hl, hlen⟩
      · rw [Function.update_of_ne hin]
        have hi' := hlists i (by omega)
        exact ⟨hothers i (by omega) hin _ hi'.1, hi'.2⟩
  obtain ⟨lists, hlists⟩ := hrun 5 le_rfl
  exact ⟨lists, fun i hi => (hlists i hi).1, fun i hi => (hlists i hi).2⟩

theorem initAllocator_outside (hi : i < 5) (h : Heap) {x : ℕ}
    (hx : x < L.buf i ∨ L.buf i + (gAllocator i).bufSize ≤ x) :
    (initAllocator L h i).mem x = h.mem x := by
  obtain ⟨-, -, -, hout⟩ := chainBlocks_spec (L := L) hi (blockCount i) 0 0 h.mem []
    (by omega) ⟨rfl, nofun, List.nodup_nil⟩ rfl nofun
  exact hout x hx

/-- `core_init_allocators` writes to the buffers only. -/
theorem coreInitAllocators_outside (h : Heap) {x : ℕ} (hx : ¬ InHeap L x) :
    (coreInitAllocators L h).mem x = h.mem x := by
  have hrun : ∀ n ≤ 5, ((List.range n).foldl (initAllocator L) h).mem x = h.mem x := by
    intro n
    induction n with
    | zero => exact fun _ => rfl
    | succ n ih =>
      intro hn
      rw [List.range_succ, List.foldl_append, List.foldl_cons, List.foldl_nil,
        initAllocator_outside (by omega), ih (by omega)]
      by_contra hcon
      exact hx ⟨n, by omega, by omega, by omega⟩
  exact hrun 5 le_rfl

end Lists

end SwitchOs
