import SwitchOs.Core.Alloc
import SwitchOs.Lib.Runs
import Mathlib.Data.Finset.Card

/-!
# Runs of the heap

Every order of `core_malloc`, `core_calloc` and `core_free`, from `core_init_allocators` on, with
whatever the owners of the live blocks write to them in between.

`core_free` looks for the owner of a block by its address, and takes the address right behind a
buffer to be in it. The first block of a buffer that lies right behind one of an earlier allocator
then goes to the list of that allocator. Blocks of a later allocator are larger, so that nothing ever
overlaps (`heap_never_overlaps`); but the block is lost to its own allocator
(`heap_keeps_capacity_iff`).
-/

namespace SwitchOs

/-! ## The owner of a block -/

section Owner

variable {L : Layout} {h : Heap} {lists : ℕ → List UInt64} {i j : ℕ} {a b : UInt64}

/-- The blocks of a later allocator are at least as large. -/
theorem blockSize_mono : ∀ j < 5, ∀ i ≤ j, (gAllocator i).blockSize ≤ (gAllocator j).blockSize := by
  decide

/-- A block has one owner. -/
theorem IsBlock.owner_unique (ha : IsBlock L i a) (hb : IsBlock L j a) (hi : i < 5) (hj : j < 5) :
    i = j := by
  by_contra hij
  have hsize := (gAllocator_sizes i hi).2
  have hsize' := (gAllocator_sizes j hj).2
  have := ha.apart hb hi hj fun h => absurd h hij
  omega

/-- Freeing the block puts it back: no buffer of an earlier allocator ends where it begins. -/
def PutsBack (L : Layout) (a : UInt64) : Prop :=
  ∀ i j, i < j → j < 5 → IsBlock L j a → L.buf i + (gAllocator i).bufSize ≠ a.toNat

/-- `find_allocator_for_allocation` stops at the first buffer that contains the address, its end
included. -/
theorem findAllocatorForAllocation_some (hfind : findAllocatorForAllocation L a = some i) :
    i < 5 ∧ (L.buf i ≤ a.toNat ∧ a.toNat ≤ L.buf i + (gAllocator i).bufSize) ∧
      ∀ k < i, ¬ (L.buf k ≤ a.toNat ∧ a.toNat ≤ L.buf k + (gAllocator k).bufSize) := by
  have hi := List.mem_range.mp (List.mem_of_find?_eq_some hfind)
  have hin := List.find?_some hfind
  simp only [Bool.and_eq_true, decide_eq_true_eq] at hin
  obtain ⟨-, n, hn, hget, hbefore⟩ := List.find?_eq_some_iff_getElem.mp hfind
  rw [List.getElem_range] at hget
  refine ⟨hi, hin, fun k hk hcon => ?_⟩
  have hnot := hbefore k (by omega)
  simp only [List.getElem_range, Bool.not_eq_true', Bool.and_eq_false_iff,
    decide_eq_false_iff_not] at hnot
  omega

/-- Where `find_allocator_for_allocation` finds a block: with its owner, or with an earlier allocator
whose buffer ends where the block begins. -/
theorem findAllocatorForAllocation_cases (ha : IsBlock L j a) (hj : j < 5) :
    ∃ i ≤ j, findAllocatorForAllocation L a = some i ∧
      (i = j ∨ L.buf i + (gAllocator i).bufSize = a.toNat) := by
  have hbounds := ha.bounds hj
  have hsize := (gAllocator_sizes j hj).2
  have hsome : (findAllocatorForAllocation L a).isSome := by
    rw [findAllocatorForAllocation, List.find?_isSome]
    refine ⟨j, List.mem_range.mpr hj, ?_⟩
    simp only [Bool.and_eq_true, decide_eq_true_eq]
    omega
  obtain ⟨i, hfind⟩ := Option.isSome_iff_exists.mp hsome
  obtain ⟨hi, hin, hbefore⟩ := findAllocatorForAllocation_some hfind
  have hle : i ≤ j := by
    by_contra hcon
    exact hbefore j (by omega) ⟨by omega, by omega⟩
  refine ⟨i, hle, hfind, ?_⟩
  by_cases hij : i = j
  · exact Or.inl hij
  · have := L.apart i hi j hj hij
    exact Or.inr (by omega)

theorem findAllocatorForAllocation_eq_iff (ha : IsBlock L j a) (hj : j < 5) :
    findAllocatorForAllocation L a = some j ↔ PutsBack L a := by
  constructor
  · rintro hfind i j' hlt hj' ha' hend
    obtain rfl := ha'.owner_unique ha hj' hj
    exact (findAllocatorForAllocation_some hfind).2.2 i hlt ⟨by omega, by omega⟩
  · intro hback
    obtain ⟨i, hle, hfind, hij | hend⟩ := findAllocatorForAllocation_cases ha hj
    · exact hij ▸ hfind
    · obtain rfl : i = j := by
        by_contra hij
        exact hback i j (by omega) hj ha hend
      exact hfind

/-! ## Free lists with foreign blocks -/

/-- A block that may be on the list of allocator `i`: one of its own, or one that
`find_allocator_for_allocation` takes to be. -/
def Listed (L : Layout) (i : ℕ) (a : UInt64) : Prop :=
  ∃ j < 5, IsBlock L j a ∧ (j = i ∨ findAllocatorForAllocation L a = some i)

theorem Listed.owner (ha : Listed L i a) : ∃ j < 5, i ≤ j ∧ IsBlock L j a := by
  obtain ⟨j, hj, hblock, hcases⟩ := ha
  refine ⟨j, hj, ?_, hblock⟩
  rcases hcases with rfl | hfind
  · exact le_refl j
  · obtain ⟨i', hle, hfind', -⟩ := findAllocatorForAllocation_cases hblock hj
    rw [hfind, Option.some.injEq] at hfind'
    omega

/-- The free lists of all allocators, whatever has been freed to them. -/
structure FreeLists (L : Layout) (h : Heap) (lists : ℕ → List UInt64) : Prop where
  chain : ∀ i < 5, Chain 0 (nextBlock h.mem) (h.head i) (lists i)
  listed : ∀ i < 5, ∀ a ∈ lists i, Listed L i a
  nodup : ∀ i < 5, (lists i).Nodup
  apart : ∀ i < 5, ∀ j < 5, i ≠ j → ∀ a ∈ lists i, a ∉ lists j

/-- The block `a` is on the list of allocator `i`. -/
def OnFreeList (h : Heap) (i : ℕ) (a : UInt64) : Prop :=
  Reaches 0 (nextBlock h.mem) a (h.head i)

theorem FreeLists.onFreeList_iff (hl : FreeLists L h lists) (hi : i < 5) :
    OnFreeList h i a ↔ a ∈ lists i :=
  (hl.chain i hi).reaches_iff

/-- Lists on which every block is its owner's. -/
theorem HeapLists.freeLists (hl : HeapLists L h lists) : FreeLists L h lists where
  chain i hi := (hl i hi).chain
  listed i hi a ha := ⟨i, hi, (hl i hi).blocks a ha, Or.inl rfl⟩
  nodup i hi := (hl i hi).nodup
  apart i hi j hj hij a ha ha' :=
    hij (((hl i hi).blocks a ha).owner_unique ((hl j hj).blocks a ha') hi hj)

/-- Only the link of each free block matters. -/
theorem FreeLists.congr {mem' : ℕ → UInt8} (hl : FreeLists L h lists)
    (hmem : ∀ i < 5, ∀ b ∈ lists i, ∀ k < 8, mem' (b.toNat + k) = h.mem (b.toNat + k)) :
    FreeLists L { h with mem := mem' } lists where
  chain i hi := (hl.chain i hi).congr fun b hb => get64_congr (hmem i hi b hb)
  listed := hl.listed
  nodup := hl.nodup
  apart := hl.apart

/-- Writing inside a block that is on no list changes no list. -/
theorem FreeLists.congr_block {mem' : ℕ → UInt8} (hl : FreeLists L h lists) (hj : j < 5)
    (ha : IsBlock L j a) (hfree : ∀ i < 5, a ∉ lists i)
    (hmem : ∀ x, x < a.toNat ∨ a.toNat + (gAllocator j).blockSize ≤ x → mem' x = h.mem x) :
    FreeLists L { h with mem := mem' } lists := by
  refine hl.congr fun i hi b hb k hk => hmem _ ?_
  obtain ⟨j', hj', -, hblock⟩ := (hl.listed i hi b hb).owner
  have hsize := (gAllocator_sizes j' hj').2
  have := ha.apart hblock hj hj' fun _ hab => hfree i hi (hab ▸ hb)
  omega

/-- An allocation takes the first block of its list. -/
theorem FreeLists.malloc {size : ℕ} (hl : FreeLists L h lists)
    (hptr : (coreMalloc size h).1 ≠ 0) :
    ∃ i t, findAllocatorForSize size = some i ∧ lists i = (coreMalloc size h).1 :: t ∧
      FreeLists L (coreMalloc size h).2 (Function.update lists i t) ∧
      (coreMalloc size h).2.mem = h.mem := by
  obtain ⟨i, hfind, hhead, heap_eq⟩ := coreMalloc_pop hptr
  obtain ⟨hi, -⟩ := findAllocatorForSize_spec hfind
  obtain ⟨t, ht, hchain⟩ := (hl.chain i hi).exists_cons (by rwa [hhead])
  rw [hhead] at ht hchain
  have hsub : ∀ k, ∀ b ∈ Function.update lists i t k, b ∈ lists k := by
    intro k b hb
    by_cases hki : k = i
    · subst hki
      rw [Function.update_self] at hb
      rw [ht]
      exact List.mem_cons_of_mem _ hb
    · rwa [Function.update_of_ne hki] at hb
  refine ⟨i, t, hfind, ht, ?_, by rw [heap_eq]⟩
  rw [heap_eq]
  refine ⟨fun k hk => ?_, fun k hk b hb => hl.listed k hk b (hsub k b hb), fun k hk => ?_,
    fun k hk k' hk' hne b hb hb' => hl.apart k hk k' hk' hne b (hsub k b hb) (hsub k' b hb')⟩
  · by_cases hki : k = i
    · subst hki
      simp only [Function.update_self]
      exact hchain
    · simp only [Function.update_of_ne hki]
      exact hl.chain k hk
  · by_cases hki : k = i
    · subst hki
      rw [Function.update_self]
      have hnodup := hl.nodup k hk
      rw [ht] at hnodup
      exact (List.nodup_cons.mp hnodup).2
    · rw [Function.update_of_ne hki]
      exact hl.nodup k hk

/-- What an allocation returns was on the list of the smallest blocks that are large enough. -/
theorem FreeLists.malloc_listed {size : ℕ} (hl : FreeLists L h lists)
    (hptr : (coreMalloc size h).1 ≠ 0) :
    ∃ i < 5, findAllocatorForSize size = some i ∧ Listed L i (coreMalloc size h).1 := by
  obtain ⟨i, t, hfind, ht, -⟩ := hl.malloc hptr
  have hi := (findAllocatorForSize_spec hfind).1
  have hmem : (coreMalloc size h).1 ∈ lists i := by simp [ht]
  exact ⟨i, hi, hfind, hl.listed i hi _ hmem⟩

/-- Releasing a block puts it in front of the list of the allocator that is found for it. -/
theorem FreeLists.free (hl : FreeLists L h lists) (hj : j < 5) (ha : IsBlock L j a)
    (hfree : ∀ i < 5, a ∉ lists i) (hfind : findAllocatorForAllocation L a = some i) :
    FreeLists L (coreFree L a h) (Function.update lists i (a :: lists i)) := by
  have hi := (findAllocatorForAllocation_some hfind).1
  have hsize := (gAllocator_sizes j hj).2
  have hput : FreeLists L { h with mem := put64 h.mem a.toNat (h.head i) } lists :=
    hl.congr_block hj ha hfree fun x hx => put64_outside (by omega)
  have hmem : ∀ k, ∀ b ∈ Function.update lists i (a :: lists i) k,
      b ∈ lists k ∨ b = a ∧ k = i := by
    intro k b hb
    by_cases hki : k = i
    · subst hki
      rw [Function.update_self, List.mem_cons] at hb
      exact hb.symm.imp id fun h => ⟨h, rfl⟩
    · rw [Function.update_of_ne hki] at hb
      exact Or.inl hb
  rw [coreFree, hfind]
  refine ⟨fun k hk => ?_, fun k hk b hb => ?_, fun k hk => ?_, fun k hk k' hk' hne b hb hb' => ?_⟩
  · by_cases hki : k = i
    · subst hki
      simp only [Function.update_self]
      exact (hput.chain k hk).push (ha.ne_zero hj) (get64_put64 _ _ _) fun _ _ => rfl
    · simp only [Function.update_of_ne hki]
      exact hput.chain k hk
  · rcases hmem k b hb with hb | ⟨rfl, rfl⟩
    · exact hl.listed k hk b hb
    · exact ⟨j, hj, ha, Or.inr hfind⟩
  · by_cases hki : k = i
    · subst hki
      rw [Function.update_self]
      exact List.nodup_cons.mpr ⟨hfree k hk, hl.nodup k hk⟩
    · rw [Function.update_of_ne hki]
      exact hl.nodup k hk
  · rcases hmem k b hb with hin | ⟨hba, hki⟩ <;> rcases hmem k' b hb' with hin' | ⟨hba', hki'⟩
    · exact hl.apart k hk k' hk' hne b hin hin'
    · exact hfree k hk (hba' ▸ hin)
    · exact hfree k' hk' (hba ▸ hin')
    · exact hne (hki.trans hki'.symm)

/-- An allocation that fails changes nothing; the list it looked at is empty. -/
theorem coreMalloc_null {size : ℕ} (hptr : (coreMalloc size h).1 = 0) :
    (coreMalloc size h).2 = h ∧ ∀ i, findAllocatorForSize size = some i → h.head i = 0 := by
  unfold coreMalloc at hptr ⊢
  split at hptr
  case h_1 hfind =>
    rw [hfind]
    exact ⟨rfl, nofun⟩
  case h_2 i hfind =>
    rw [hfind]
    split at hptr
    case isTrue hhead =>
      rw [if_pos hhead]
      exact ⟨rfl, fun k hk => Option.some.inj hk ▸ hhead⟩
    case isFalse hhead => exact absurd hptr hhead

/-- Null is returned where there are no blocks that are large enough, or their list is empty. -/
theorem coreMalloc_eq_zero_iff {size : ℕ} : (coreMalloc size h).1 = 0 ↔
    ∀ i, findAllocatorForSize size = some i → h.head i = 0 := by
  constructor
  · exact fun hptr => (coreMalloc_null hptr).2
  · intro hempty
    by_contra hptr
    obtain ⟨i, hfind, hhead, -⟩ := coreMalloc_pop hptr
    exact hptr (hhead.symm.trans (hempty i hfind))

/-- An allocation that clears its block takes it from its list all the same. -/
theorem FreeLists.calloc {count size : ℕ} (hl : FreeLists L h lists)
    (hptr : (coreCalloc count size h).1 ≠ 0) :
    ∃ i t, findAllocatorForSize (count * size % 2 ^ 64) = some i ∧
      lists i = (coreCalloc count size h).1 :: t ∧
      FreeLists L (coreCalloc count size h).2 (Function.update lists i t) := by
  unfold coreCalloc at hptr ⊢
  simp only at hptr ⊢
  split at hptr
  case isTrue => exact absurd rfl hptr
  case isFalse hmalloc =>
    rw [if_neg hmalloc]
    obtain ⟨i, t, hfind, ht, hlists, -⟩ := hl.malloc hmalloc
    obtain ⟨hi, hsize⟩ := findAllocatorForSize_spec hfind
    have hmem : (coreMalloc (count * size % 2 ^ 64) h).1 ∈ lists i := by simp [ht]
    obtain ⟨j, hj, hij, hblock⟩ := (hl.listed i hi _ hmem).owner
    have hnodup := hl.nodup i hi
    rw [ht] at hnodup
    refine ⟨i, t, hfind, ht, hlists.congr_block hj hblock (fun k hk => ?_) fun x hx => ?_⟩
    · by_cases hki : k = i
      · subst hki
        rw [Function.update_self]
        exact (List.nodup_cons.mp hnodup).1
      · rw [Function.update_of_ne hki]
        exact hl.apart i hi k hk (Ne.symm hki) _ hmem
    · have := blockSize_mono j hj i hij
      exact blit_outside (by omega)

/-- An allocation that fails changes nothing. -/
theorem coreCalloc_null {count size : ℕ} (hptr : (coreCalloc count size h).1 = 0) :
    (coreCalloc count size h).2 = h ∧ (coreMalloc (count * size % 2 ^ 64) h).1 = 0 := by
  unfold coreCalloc at hptr ⊢
  simp only at hptr ⊢
  split at hptr
  case isTrue hmalloc =>
    rw [if_pos hmalloc]
    exact ⟨(coreMalloc_null hmalloc).1, hmalloc⟩
  case isFalse hmalloc => exact absurd hptr hmalloc

/-- Whether it succeeds or not, an allocation leaves what is outside the buffers. -/
theorem coreCalloc_outside (count size : ℕ) (hl : HeapLists L h lists) :
    (∃ lists', HeapLists L (coreCalloc count size h).2 lists') ∧
      ∀ x, ¬ InHeap L x → (coreCalloc count size h).2.mem x = h.mem x := by
  by_cases hptr : (coreCalloc count size h).1 = 0
  · have hsame := (coreCalloc_null hptr).1
    rw [hsame]
    exact ⟨⟨lists, hl⟩, fun _ _ => rfl⟩
  · obtain ⟨i, t, hfind, ht, hlists, hmem⟩ := coreCalloc_spec hl hptr
    obtain ⟨hi, hsize⟩ := findAllocatorForSize_spec hfind
    refine ⟨⟨_, hlists⟩, fun x hx => ?_⟩
    rw [hmem]
    refine blit_outside ?_
    by_contra hcon
    have hblock : IsBlock L i (coreCalloc count size h).1 := (hl i hi).blocks _ (by simp [ht])
    exact hx (hblock.inHeap hi (by omega) (by omega))

/-- Releasing the null pointer does nothing: no buffer lies there. -/
theorem coreFree_null (L : Layout) (h : Heap) : coreFree L 0 h = h := by
  have hfind : findAllocatorForAllocation L 0 = none := by
    cases hcases : findAllocatorForAllocation L 0 with
    | none => rfl
    | some i =>
      obtain ⟨hi, hin, -⟩ := findAllocatorForAllocation_some hcases
      have hpos := L.buf_pos i hi
      have h0 : (0 : UInt64).toNat = 0 := rfl
      omega
  rw [coreFree, hfind]

end Owner

/-! ## Runs -/

/-- The heap, and the pointers that have been returned and not freed, with the sizes asked for. -/
structure HeapState where
  heap : Heap
  live : List (UInt64 × ℕ)

/-- A call, or a write by the owners of the live blocks. -/
inductive HeapOp where
  | malloc (size : ℕ)
  | calloc (count size : ℕ)
  | free (ptr : UInt64)
  | write (mem : ℕ → UInt8)

namespace HeapState

/-- The state after an allocation that returned `r`. -/
def took (s : HeapState) (r : UInt64 × Heap) (size : ℕ) : HeapState :=
  if r.1 = 0 then ⟨r.2, s.live⟩ else ⟨r.2, (r.1, size) :: s.live⟩

/-- The block `a` is live. -/
def Live (s : HeapState) (a : UInt64) : Prop := a ∈ s.live.map Prod.fst

/-- The state after `core_init_allocators`. -/
def initial (L : Layout) (h : Heap) : HeapState := ⟨coreInitAllocators L h, []⟩

end HeapState

/-- Calls of the allocator: only live pointers are freed, and no multiplication overflows. Between
them, memory changes outside the heap and in the bytes that live pointers were asked for. -/
inductive HeapStep (L : Layout) : HeapState → HeapOp → HeapState → Prop
  | malloc (s : HeapState) (size : ℕ) :
      HeapStep L s (.malloc size) (s.took (coreMalloc size s.heap) size)
  | calloc (s : HeapState) (count size : ℕ) (h : count * size < 2 ^ 64) :
      HeapStep L s (.calloc count size) (s.took (coreCalloc count size s.heap) (count * size))
  | free (s : HeapState) (ptr : UInt64) (h : s.Live ptr) :
      HeapStep L s (.free ptr) ⟨coreFree L ptr s.heap, s.live.filter fun p => p.1 ≠ ptr⟩
  | write (s : HeapState) (mem : ℕ → UInt8)
      (h : ∀ x, mem x ≠ s.heap.mem x → ¬ InHeap L x ∨
        ∃ p ∈ s.live, p.1.toNat ≤ x ∧ x < p.1.toNat + p.2) :
      HeapStep L s (.write mem) { s with heap := { s.heap with mem := mem } }

/-- The invariant: the lists hold blocks, no block twice and no live one, and the live pointers are
blocks of at least the sizes asked for. -/
structure HeapInv (L : Layout) (s : HeapState) (lists : ℕ → List UInt64) : Prop where
  free : FreeLists L s.heap lists
  fits : ∀ p ∈ s.live, ∃ j < 5, IsBlock L j p.1 ∧ p.2 ≤ (gAllocator j).blockSize
  nodup : (s.live.map Prod.fst).Nodup
  apart : ∀ a, s.Live a → ∀ i < 5, a ∉ lists i

section Runs

variable {L : Layout} {h : Heap} {s s' : HeapState} {lists : ℕ → List UInt64} {i j : ℕ}
  {a : UInt64} {ops : List HeapOp} {op : HeapOp}

theorem HeapInv.live_block (hinv : HeapInv L s lists) (ha : s.Live a) :
    ∃ j < 5, IsBlock L j a := by
  obtain ⟨p, hp, rfl⟩ := List.mem_map.mp ha
  obtain ⟨j, hj, hblock, -⟩ := hinv.fits p hp
  exact ⟨j, hj, hblock⟩

/-- An allocation that returned the first block of list `i`. -/
theorem HeapInv.took (hinv : HeapInv L s lists) {r : UInt64 × Heap} {t : List UInt64} {n : ℕ}
    (hi : i < 5) (hn : n ≤ (gAllocator i).blockSize) (hptr : r.1 ≠ 0) (ht : lists i = r.1 :: t)
    (hlists : FreeLists L r.2 (Function.update lists i t)) :
    HeapInv L (s.took r n) (Function.update lists i t) := by
  have hmem : r.1 ∈ lists i := by simp [ht]
  obtain ⟨j, hj, hij, hblock⟩ := (hinv.free.listed i hi _ hmem).owner
  have hlive : ¬ s.Live r.1 := fun hl => hinv.apart _ hl i hi hmem
  have hnodup := hinv.free.nodup i hi
  rw [ht] at hnodup
  rw [HeapState.took, if_neg hptr]
  refine ⟨hlists, fun p hp => ?_, List.nodup_cons.mpr ⟨hlive, hinv.nodup⟩, fun b hb k hk hbk => ?_⟩
  · rcases List.mem_cons.mp hp with rfl | hp
    · exact ⟨j, hj, hblock, hn.trans (blockSize_mono j hj i hij)⟩
    · exact hinv.fits p hp
  · by_cases hki : k = i
    · subst hki
      rw [Function.update_self] at hbk
      rcases List.mem_cons.mp hb with rfl | hb
      · exact (List.nodup_cons.mp hnodup).1 hbk
      · exact hinv.apart b hb k hk (by simp [ht, hbk])
    · rw [Function.update_of_ne hki] at hbk
      rcases List.mem_cons.mp hb with rfl | hb
      · exact hinv.free.apart k hk i hi hki _ hbk hmem
      · exact hinv.apart b hb k hk hbk

theorem HeapInv.malloc (hinv : HeapInv L s lists) (size : ℕ) :
    (coreMalloc size s.heap).1 = 0 ∧ HeapInv L (s.took (coreMalloc size s.heap) size) lists ∨
      ∃ i t, findAllocatorForSize size = some i ∧ lists i = (coreMalloc size s.heap).1 :: t ∧
        (coreMalloc size s.heap).1 ≠ 0 ∧
        HeapInv L (s.took (coreMalloc size s.heap) size) (Function.update lists i t) := by
  by_cases hptr : (coreMalloc size s.heap).1 = 0
  · refine Or.inl ⟨hptr, ?_⟩
    rw [HeapState.took, if_pos hptr, (coreMalloc_null hptr).1]
    exact hinv
  · obtain ⟨i, t, hfind, ht, hlists, -⟩ := hinv.free.malloc hptr
    obtain ⟨hi, hsize⟩ := findAllocatorForSize_spec hfind
    exact Or.inr ⟨i, t, hfind, ht, hptr, hinv.took hi hsize hptr ht hlists⟩

theorem HeapInv.calloc (hinv : HeapInv L s lists) (count size : ℕ) :
    (coreCalloc count size s.heap).1 = 0 ∧
        HeapInv L (s.took (coreCalloc count size s.heap) (count * size % 2 ^ 64)) lists ∨
      ∃ i t, findAllocatorForSize (count * size % 2 ^ 64) = some i ∧
        lists i = (coreCalloc count size s.heap).1 :: t ∧ (coreCalloc count size s.heap).1 ≠ 0 ∧
        HeapInv L (s.took (coreCalloc count size s.heap) (count * size % 2 ^ 64))
          (Function.update lists i t) := by
  by_cases hptr : (coreCalloc count size s.heap).1 = 0
  · refine Or.inl ⟨hptr, ?_⟩
    rw [HeapState.took, if_pos hptr, (coreCalloc_null hptr).1]
    exact hinv
  · obtain ⟨i, t, hfind, ht, hlists⟩ := hinv.free.calloc hptr
    obtain ⟨hi, hsize⟩ := findAllocatorForSize_spec hfind
    exact Or.inr ⟨i, t, hfind, ht, hptr, hinv.took hi hsize hptr ht hlists⟩

/-- A live block goes to the list that its address finds. -/
theorem HeapInv.freed (hinv : HeapInv L s lists) (hlive : s.Live a) :
    ∃ i, findAllocatorForAllocation L a = some i ∧
      HeapInv L ⟨coreFree L a s.heap, s.live.filter fun p => p.1 ≠ a⟩
        (Function.update lists i (a :: lists i)) := by
  obtain ⟨j, hj, hblock⟩ := hinv.live_block hlive
  obtain ⟨i, -, hfind, -⟩ := findAllocatorForAllocation_cases hblock hj
  have hsub : ∀ p ∈ s.live.filter (fun p => p.1 ≠ a), p ∈ s.live ∧ p.1 ≠ a := by
    intro p hp
    rw [List.mem_filter, decide_eq_true_eq] at hp
    exact hp
  refine ⟨i, hfind, hinv.free.free hj hblock (hinv.apart a hlive) hfind,
    fun p hp => hinv.fits p (hsub p hp).1, hinv.nodup.sublist (List.filter_sublist.map _),
    fun b hb k hk hbk => ?_⟩
  obtain ⟨p, hp, rfl⟩ := List.mem_map.mp hb
  have hold := hinv.apart p.1 (List.mem_map_of_mem (hsub p hp).1) k hk
  by_cases hki : k = i
  · subst hki
    rw [Function.update_self, List.mem_cons] at hbk
    exact hbk.elim (hsub p hp).2 hold
  · rw [Function.update_of_ne hki] at hbk
    exact hold hbk

/-- Writing outside the heap and in live blocks changes no list. -/
theorem HeapInv.written (hinv : HeapInv L s lists) {mem : ℕ → UInt8}
    (hmem : ∀ x, mem x ≠ s.heap.mem x → ¬ InHeap L x ∨
      ∃ p ∈ s.live, p.1.toNat ≤ x ∧ x < p.1.toNat + p.2) :
    HeapInv L { s with heap := { s.heap with mem := mem } } lists := by
  refine ⟨hinv.free.congr fun i hi b hb k hk => ?_, hinv.fits, hinv.nodup, hinv.apart⟩
  -- a free block is in the heap, and no live block meets it
  by_contra hne
  obtain ⟨j, hj, -, hblock⟩ := (hinv.free.listed i hi b hb).owner
  have hsize := (gAllocator_sizes j hj).2
  rcases hmem _ hne with hout | ⟨p, hp, hlo, hhi⟩
  · exact hout (hblock.inHeap hj (by omega) (by omega))
  · obtain ⟨j', hj', hblock', hfit⟩ := hinv.fits p hp
    have := hblock.apart hblock' hj hj' fun _ hbp =>
      hinv.apart p.1 (List.mem_map_of_mem hp) i hi (hbp ▸ hb)
    omega

/-- **What a step does** to the lists and the live pointers. -/
theorem HeapInv.step (hinv : HeapInv L s lists) (hstep : HeapStep L s op s') :
    ∃ lists', HeapInv L s' lists' ∧
      (lists' = lists ∧ s'.live = s.live ∨
        (∃ i t ptr n, i < 5 ∧ lists i = ptr :: t ∧ lists' = Function.update lists i t ∧
          s'.live = (ptr, n) :: s.live) ∨
        ∃ i ptr, op = .free ptr ∧ s.Live ptr ∧ findAllocatorForAllocation L ptr = some i ∧
          lists' = Function.update lists i (ptr :: lists i) ∧
          s'.live = s.live.filter fun p => p.1 ≠ ptr) := by
  cases hstep with
  | malloc size =>
    rcases hinv.malloc size with ⟨hptr, hinv'⟩ | ⟨i, t, hfind, ht, hptr, hinv'⟩
    · exact ⟨lists, hinv', Or.inl ⟨rfl, by rw [HeapState.took, if_pos hptr]⟩⟩
    · exact ⟨_, hinv', Or.inr (Or.inl ⟨i, t, _, _, (findAllocatorForSize_spec hfind).1, ht, rfl,
        by rw [HeapState.took, if_neg hptr]⟩)⟩
  | calloc count size hsize =>
    rw [← Nat.mod_eq_of_lt hsize]
    rcases hinv.calloc count size with ⟨hptr, hinv'⟩ | ⟨i, t, hfind, ht, hptr, hinv'⟩
    · exact ⟨lists, hinv', Or.inl ⟨rfl, by rw [HeapState.took, if_pos hptr]⟩⟩
    · exact ⟨_, hinv', Or.inr (Or.inl ⟨i, t, _, _, (findAllocatorForSize_spec hfind).1, ht, rfl,
        by rw [HeapState.took, if_neg hptr]⟩)⟩
  | free ptr hlive =>
    obtain ⟨i, hfind, hinv'⟩ := hinv.freed hlive
    exact ⟨_, hinv', Or.inr (Or.inr ⟨i, ptr, rfl, hlive, hfind, rfl, rfl⟩)⟩
  | write mem hmem => exact ⟨lists, hinv.written hmem, Or.inl ⟨rfl, rfl⟩⟩

/-- The state after `core_init_allocators`. -/
theorem HeapInv.initial (L : Layout) (h : Heap) :
    ∃ lists, HeapInv L (HeapState.initial L h) lists ∧ HeapLists L (coreInitAllocators L h) lists ∧
      ∀ i < 5, (lists i).length = blockCount i := by
  obtain ⟨lists, hlists, hlen⟩ := coreInitAllocators_lists L h
  exact ⟨lists, ⟨hlists.freeLists, nofun, List.nodup_nil, nofun⟩, hlists, hlen⟩

theorem HeapInv.runs (hrun : Runs (HeapStep L) (HeapState.initial L h) ops s) :
    ∃ lists, HeapInv L s lists := by
  obtain ⟨lists, hinv, -⟩ := HeapInv.initial L h
  exact hrun.invariant (I := fun s => ∃ lists, HeapInv L s lists)
    (fun s e t ⟨lists, hs⟩ hstep => by
      obtain ⟨lists', ht, -⟩ := hs.step hstep
      exact ⟨lists', ht⟩) ⟨lists, hinv⟩

/-! ## No overlap -/

/-- Two blocks have no byte in common. -/
def BlocksApart (L : Layout) (a b : UInt64) : Prop :=
  ∃ i < 5, ∃ j < 5, IsBlock L i a ∧ IsBlock L j b ∧
    (a.toNat + (gAllocator i).blockSize ≤ b.toNat ∨ b.toNat + (gAllocator j).blockSize ≤ a.toNat)

/-- Every live pointer points to a block that is large enough and inside a buffer, and that is apart
from the other live ones and from every free one. -/
structure Separated (L : Layout) (s : HeapState) : Prop where
  fits : ∀ p ∈ s.live, ∃ i < 5, IsBlock L i p.1 ∧ p.2 ≤ (gAllocator i).blockSize ∧
    L.buf i ≤ p.1.toNat ∧
    p.1.toNat + (gAllocator i).blockSize ≤ L.buf i + (gAllocator i).bufSize
  live_apart : s.live.Pairwise fun p q => BlocksApart L p.1 q.1
  free_apart : ∀ p ∈ s.live, ∀ i < 5, ∀ a, OnFreeList s.heap i a → BlocksApart L p.1 a

/-- **Allocations never overlap**, wherever the linker puts the buffers and in every order of calls. -/
theorem heap_never_overlaps (hrun : Runs (HeapStep L) (HeapState.initial L h) ops s) :
    Separated L s := by
  obtain ⟨lists, hinv⟩ := HeapInv.runs hrun
  refine ⟨fun p hp => ?_, ?_, fun p hp i hi a ha => ?_⟩
  · obtain ⟨j, hj, hblock, hfit⟩ := hinv.fits p hp
    exact ⟨j, hj, hblock, hfit, hblock.bounds hj⟩
  · have hne : s.live.Pairwise fun p q => p.1 ≠ q.1 := List.pairwise_map.mp hinv.nodup
    refine hne.imp_of_mem fun {p q} hp hq hpq => ?_
    obtain ⟨i, hi, hblock, -⟩ := hinv.fits p hp
    obtain ⟨j, hj, hblock', -⟩ := hinv.fits q hq
    exact ⟨i, hi, j, hj, hblock, hblock', hblock.apart hblock' hi hj fun _ => hpq⟩
  · rw [hinv.free.onFreeList_iff hi] at ha
    obtain ⟨j, hj, hblock, -⟩ := hinv.fits p hp
    obtain ⟨k, hk, -, hblock'⟩ := (hinv.free.listed i hi a ha).owner
    exact ⟨j, hj, k, hk, hblock, hblock', hblock.apart hblock' hj hk fun _ hpa =>
      hinv.apart p.1 (List.mem_map_of_mem hp) i hi (hpa ▸ ha)⟩

/-- After the start a block is taken and freed again. -/
theorem exists_malloc_free (L : Layout) (h : Heap) {size : ℕ}
    (hfind : findAllocatorForSize size = some i) :
    ∃ ptr s, IsBlock L i ptr ∧
      Runs (HeapStep L) (HeapState.initial L h) [.malloc size, .free ptr] s := by
  obtain ⟨lists, hinv, hlists, hlen⟩ := HeapInv.initial L h
  have hi := (findAllocatorForSize_spec hfind).1
  rcases hinv.malloc size with ⟨hnull, -⟩ | ⟨j, t, hj, ht, hptr, -⟩
  · -- the list of the allocator is not empty
    have hempty := (hinv.free.chain i hi).eq_nil_iff.mpr ((coreMalloc_null hnull).2 i hfind)
    have hcount := hlen i hi
    have hsome : ∀ i < 5, blockCount i ≠ 0 := by decide
    rw [hempty] at hcount
    exact absurd hcount.symm (hsome i hi)
  · obtain rfl : i = j := Option.some.inj (hfind.symm.trans hj)
    have hlive : ((HeapState.initial L h).took (coreMalloc size (HeapState.initial L h).heap)
        size).Live (coreMalloc size (HeapState.initial L h).heap).1 := by
      rw [HeapState.took, if_neg hptr, HeapState.Live, List.map_cons]
      exact List.mem_cons_self
    exact ⟨_, _, (hlists i hi).blocks _ (ht ▸ List.mem_cons_self),
      .cons (.malloc _ size) (.cons (.free _ _ hlive) (.nil _))⟩

/-- A block is taken and freed, and then another one is taken. -/
theorem heap_never_overlaps_sample : ∃ ptr s, Runs (HeapStep sampleLayout)
    (HeapState.initial sampleLayout ⟨fun _ => 0, fun _ => 0⟩)
    [.malloc 17, .free ptr, .calloc 1 100] s ∧ Separated sampleLayout s := by
  obtain ⟨ptr, s, -, hrun⟩ := exists_malloc_free sampleLayout ⟨fun _ => 0, fun _ => 0⟩
    (show findAllocatorForSize 17 = some 0 by decide)
  have hcalloc := hrun.snoc (.calloc s 1 100 (by decide))
  exact ⟨ptr, _, hcalloc, heap_never_overlaps hcalloc⟩

/-! ## No loss of capacity -/

/-- Every block is live or on the list of its owner, and an allocation of up to 8192 bytes fails only
where all the blocks of the smallest size that fits are live. -/
structure KeepsCapacity (L : Layout) (s : HeapState) : Prop where
  conserved : ∀ i < 5, ∀ a, IsBlock L i a → s.Live a ∨ OnFreeList s.heap i a
  exhausted : ∀ n ≤ 8192, (coreMalloc n s.heap).1 = 0 →
    ∃ i < 5, findAllocatorForSize n = some i ∧ ∀ a, IsBlock L i a → s.Live a

/-- The lists hold all the blocks of their owners that are not live. -/
def Conserved (L : Layout) (s : HeapState) (lists : ℕ → List UInt64) : Prop :=
  ∀ i < 5, ∀ a, IsBlock L i a → s.Live a ∨ a ∈ lists i

/-- A list of as many different blocks as there are holds them all. -/
theorem mem_of_blockCount {l : List UInt64} (hblocks : ∀ a ∈ l, IsBlock L i a)
    (hnodup : l.Nodup) (hlen : l.length = blockCount i) (ha : IsBlock L i a) : a ∈ l := by
  classical
  let block : ℕ → UInt64 := fun k => UInt64.ofNat (L.buf i + (gAllocator i).blockSize * k)
  have hmem : ∀ b, IsBlock L i b → b ∈ (Finset.range (blockCount i)).image block := by
    rintro b ⟨k, hk, hbk⟩
    refine Finset.mem_image.mpr ⟨k, Finset.mem_range.mpr hk, ?_⟩
    simp only [block]
    rw [← hbk, UInt64.ofNat_toNat]
  have hsub : l.toFinset ⊆ (Finset.range (blockCount i)).image block := fun b hb =>
    hmem b (hblocks b (List.mem_toFinset.mp hb))
  have hcard : ((Finset.range (blockCount i)).image block).card ≤ l.toFinset.card := by
    rw [List.toFinset_card_of_nodup hnodup, hlen]
    exact Finset.card_image_le.trans (Finset.card_range _).le
  rw [← List.mem_toFinset, Finset.eq_of_subset_of_card_le hsub hcard]
  exact hmem a ha

theorem Conserved.initial {lists : ℕ → List UInt64} (hlists : HeapLists L s.heap lists)
    (hlen : ∀ i < 5, (lists i).length = blockCount i) : Conserved L s lists :=
  fun i hi _ ha => Or.inr (mem_of_blockCount (hlists i hi).blocks (hlists i hi).nodup
    (hlen i hi) ha)

/-- A step that puts back what it frees loses no block. -/
theorem HeapInv.step_conserved (hinv : HeapInv L s lists) (hcons : Conserved L s lists)
    (hstep : HeapStep L s op s') (hback : ∀ ptr, op = .free ptr → PutsBack L ptr) :
    ∃ lists', HeapInv L s' lists' ∧ Conserved L s' lists' := by
  obtain ⟨lists', hinv', hcases⟩ := hinv.step hstep
  refine ⟨lists', hinv', fun i hi a ha => ?_⟩
  have hold := hcons i hi a ha
  rw [HeapState.Live] at hold ⊢
  rcases hcases with ⟨rfl, hlive⟩ | ⟨k, t, ptr, n, -, ht, rfl, hlive⟩ |
    ⟨k, ptr, hop, hptr, hfind, rfl, hlive⟩
  · rwa [hlive]
  · rw [hlive, List.map_cons, List.mem_cons]
    by_cases hik : i = k
    · subst hik
      rw [Function.update_self]
      rw [ht, List.mem_cons] at hold
      rcases hold with hold | rfl | hold
      · exact Or.inl (Or.inr hold)
      · exact Or.inl (Or.inl rfl)
      · exact Or.inr hold
    · rw [Function.update_of_ne hik]
      exact hold.imp_left Or.inr
  · rw [hlive]
    by_cases hap : a = ptr
    · subst hap
      rw [(findAllocatorForAllocation_eq_iff ha hi).mpr (hback a hop), Option.some.injEq] at hfind
      subst hfind
      rw [Function.update_self]
      exact Or.inr List.mem_cons_self
    · refine hold.imp (fun hl => ?_) fun hl => ?_
      · obtain ⟨p, hp, rfl⟩ := List.mem_map.mp hl
        exact List.mem_map_of_mem (List.mem_filter.mpr ⟨hp, decide_eq_true hap⟩)
      · by_cases hik : i = k
        · subst hik
          rw [Function.update_self]
          exact List.mem_cons_of_mem _ hl
        · rwa [Function.update_of_ne hik]

theorem HeapInv.keepsCapacity (hinv : HeapInv L s lists) (hcons : Conserved L s lists) :
    KeepsCapacity L s := by
  refine ⟨fun i hi a ha => ?_, fun n hn hnull => ?_⟩
  · rw [hinv.free.onFreeList_iff hi]
    exact hcons i hi a ha
  · have hsome : (findAllocatorForSize n).isSome := by
      rw [findAllocatorForSize, List.find?_isSome]
      exact ⟨4, by decide, decide_eq_true hn⟩
    obtain ⟨i, hfind⟩ := Option.isSome_iff_exists.mp hsome
    obtain ⟨hi, -⟩ := findAllocatorForSize_spec hfind
    have hempty := (hinv.free.chain i hi).eq_nil_iff.mpr ((coreMalloc_null hnull).2 i hfind)
    refine ⟨i, hi, hfind, fun a ha => (hcons i hi a ha).resolve_right fun hmem => ?_⟩
    rw [hempty] at hmem
    exact List.not_mem_nil hmem

/-- Freeing a block that is not put back loses it. -/
theorem HeapInv.free_loses {ptr : UInt64} (hinv : HeapInv L s lists)
    (hstep : HeapStep L s (.free ptr) s') (hkeep : KeepsCapacity L s') : PutsBack L ptr := by
  obtain ⟨lists', hinv', hcases⟩ := hinv.step hstep
  cases hstep with
  | free _ hlive =>
    obtain ⟨j, hj, hblock⟩ := hinv.live_block hlive
    obtain ⟨i, -, hfind, -⟩ := findAllocatorForAllocation_cases hblock hj
    have hgone : ¬ (⟨coreFree L ptr s.heap, s.live.filter fun p => p.1 ≠ ptr⟩ : HeapState).Live
        ptr := by
      intro hl
      obtain ⟨p, hp, hpp⟩ := List.mem_map.mp hl
      rw [List.mem_filter, decide_eq_true_eq] at hp
      exact hp.2 hpp
    have hon := (hkeep.conserved j hj ptr hblock).resolve_left hgone
    have hfreed := hinv.free.free hj hblock (hinv.apart ptr hlive) hfind
    rw [hfreed.onFreeList_iff hj] at hon
    rw [← findAllocatorForAllocation_eq_iff hblock hj, hfind, Option.some.injEq]
    by_contra hij
    rw [Function.update_of_ne (Ne.symm hij)] at hon
    exact hinv.apart ptr hlive j hj hon

/-- **The heap keeps its capacity** along a run if and only if every block that is freed is put back:
no earlier allocator's buffer ends where it begins. -/
theorem heap_keeps_capacity_iff (hrun : Runs (HeapStep L) (HeapState.initial L h) ops s) :
    (∀ pre s', pre <+: ops → Runs (HeapStep L) (HeapState.initial L h) pre s' →
        KeepsCapacity L s') ↔
      ∀ ptr, HeapOp.free ptr ∈ ops → PutsBack L ptr := by
  constructor
  · intro hkeep ptr hptr
    obtain ⟨pre, post, rfl⟩ := List.append_of_mem hptr
    obtain ⟨t, t', hpre, hfree, -⟩ := hrun.split
    obtain ⟨lists, hinv⟩ := HeapInv.runs hpre
    exact hinv.free_loses hfree (hkeep (pre ++ [.free ptr]) t' ⟨post, by simp⟩ (hpre.snoc hfree))
  · intro hback pre s' hpre hrun'
    obtain ⟨lists₀, hinv₀, hlists₀, hlen⟩ := HeapInv.initial L h
    have hwhere := hrun'.where_event (C := fun op => ∀ ptr, op = .free ptr → PutsBack L ptr)
      (by
        rintro op hop ptr rfl
        exact hback ptr (hpre.subset hop))
    obtain ⟨lists, hinv, hcons⟩ := hwhere.invariant
      (I := fun s => ∃ lists, HeapInv L s lists ∧ Conserved L s lists)
      (fun s op t ⟨lists, hinv, hcons⟩ ⟨hop, hstep⟩ => hinv.step_conserved hcons hstep hop)
      ⟨lists₀, hinv₀, Conserved.initial hlists₀ hlen⟩
    exact hinv.keepsCapacity hcons

/-- The block that is taken and freed lies in the first buffer. -/
theorem heap_keeps_capacity_iff_sample : ∃ ptr s, Runs (HeapStep sampleLayout)
    (HeapState.initial sampleLayout ⟨fun _ => 0, fun _ => 0⟩)
    [.malloc 17, .free ptr, .calloc 1 100] s ∧ KeepsCapacity sampleLayout s := by
  obtain ⟨ptr, s, hptr, hrun⟩ := exists_malloc_free sampleLayout ⟨fun _ => 0, fun _ => 0⟩
    (show findAllocatorForSize 17 = some 0 by decide)
  have hcalloc := hrun.snoc (.calloc s 1 100 (by decide))
  refine ⟨ptr, _, hcalloc, (heap_keeps_capacity_iff hcalloc).mpr ?_ _ _ (List.prefix_refl _) hcalloc⟩
  intro a ha
  obtain rfl : a = ptr := by simpa using ha
  intro i j hij hj hblock
  obtain rfl := hptr.owner_unique hblock (by decide) hj
  exact absurd hij (Nat.not_lt_zero i)

/-- Allocating until the list is empty. -/
theorem HeapInv.drain {size : ℕ} (hfind : findAllocatorForSize size = some i) :
    ∀ (l : List UInt64) (s : HeapState) (lists : ℕ → List UInt64), HeapInv L s lists →
      lists i = l → ∃ ops s' lists', Runs (HeapStep L) s ops s' ∧ HeapInv L s' lists' ∧
        lists' i = [] ∧ ∀ a, s.Live a ∨ a ∈ l → s'.Live a := by
  have hi := (findAllocatorForSize_spec hfind).1
  intro l
  induction l with
  | nil =>
    intro s lists hinv hlist
    exact ⟨[], s, lists, .nil s, hinv, hlist, fun a ha => ha.resolve_right List.not_mem_nil⟩
  | cons b l ih =>
    intro s lists hinv hlist
    rcases hinv.malloc size with ⟨hptr, -⟩ | ⟨k, t, hk, ht, hptr, hinv'⟩
    · have hempty := (hinv.free.chain i hi).eq_nil_iff.mpr ((coreMalloc_null hptr).2 i hfind)
      rw [hlist] at hempty
      cases hempty
    · obtain rfl : i = k := Option.some.inj (hfind.symm.trans hk)
      rw [hlist] at ht
      obtain ⟨hb, rfl⟩ := List.cons.inj ht
      obtain ⟨ops, s', lists', hrun, hinv'', hempty, hlive⟩ := ih _ _ hinv' (Function.update_self _ _ _)
      refine ⟨.malloc size :: ops, s', lists', .cons (.malloc s size) hrun, hinv'', hempty,
        fun a ha => hlive a ?_⟩
      rw [HeapState.took, if_neg hptr, HeapState.Live, List.map_cons, List.mem_cons, ← hb]
      rw [HeapState.Live, List.mem_cons] at ha
      rcases ha with ha | rfl | ha
      · exact Or.inl (Or.inr ha)
      · exact Or.inl (Or.inl rfl)
      · exact Or.inr ha

/-- The alignments of the buffers. -/
def gAlignments : List ℕ := [32, 64, 128, 256, 4096]

/-- **A block that is lost.** The buffers follow each other; the 32 blocks of 8192 bytes are all
taken, and the one at the start of their buffer is freed. It goes to the list of the 256-byte blocks,
and there is no block of 8192 bytes any more. -/
theorem freed_block_lost : (∀ i < 5, gAlignments.getD i 1 ∣ sampleLayout.buf i) ∧
    ∃ ops s a, Runs (HeapStep sampleLayout)
      (HeapState.initial sampleLayout ⟨fun _ => 0, fun _ => 0⟩) ops s ∧
      IsBlock sampleLayout 4 a ∧ ¬ s.Live a ∧ (coreMalloc 8192 s.heap).1 = 0 ∧
      ¬ KeepsCapacity sampleLayout s := by
  refine ⟨by decide, ?_⟩
  have hfirst : IsBlock sampleLayout 4 (UInt64.ofNat (sampleLayout.buf 4)) :=
    ⟨0, by decide, by decide⟩
  have hback : ¬ PutsBack sampleLayout (UInt64.ofNat (sampleLayout.buf 4)) :=
    fun h => h 3 4 (by decide) (by decide) hfirst (by decide)
  have hfind : findAllocatorForSize 8192 = some 4 := by decide
  obtain ⟨lists, hinv, hlists, hlen⟩ :=
    HeapInv.initial sampleLayout ⟨fun _ => 0, fun _ => 0⟩
  obtain ⟨ops, s, lists', hrun, hinv', hempty, hlive⟩ := HeapInv.drain hfind _ _ _ hinv rfl
  have hfirst_live : s.Live (UInt64.ofNat (sampleLayout.buf 4)) :=
    hlive _ (Or.inr (mem_of_blockCount (hlists 4 (by decide)).blocks
      (hlists 4 (by decide)).nodup (hlen 4 (by decide)) hfirst))
  have hstep := HeapStep.free (L := sampleLayout) s _ hfirst_live
  have hlost := mt (hinv'.free_loses hstep) hback
  have hhead : s.heap.head 4 = 0 := (hinv'.free.chain 4 (by decide)).eq_nil_iff.mp hempty
  have hother : findAllocatorForAllocation sampleLayout (UInt64.ofNat (sampleLayout.buf 4)) =
      some 3 := by decide
  refine ⟨ops ++ [.free _], _, _, hrun.snoc hstep, hfirst, fun hl => ?_, ?_, hlost⟩
  · obtain ⟨p, hp, hpp⟩ := List.mem_map.mp hl
    rw [List.mem_filter, decide_eq_true_eq] at hp
    exact hp.2 hpp
  · rw [coreMalloc, hfind]
    simp only [coreFree, hother]
    rw [Function.update_of_ne (by decide), if_pos hhead]

end Runs

end SwitchOs
