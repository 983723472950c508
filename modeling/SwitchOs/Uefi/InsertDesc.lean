import SwitchOs.Core.Extents

/-!
# One descriptor into the RAM table

`insert_desc` of `uefi/core_header_utils.c`: a usable descriptor of the UEFI memory map goes into
`g_core_header->ram_areas`, merged into an area that it adjoins if there is one.

An area that ends where the descriptor begins grows by its size. An area that begins where the
descriptor ends only has its start moved, and so loses as many bytes at its end as the descriptor
has: `Misplaced` is the condition under which a descriptor does not go in right, and
`Covers.insert` and `misplaced_loses` are the two outcomes of one insertion. A full table takes no
descriptor at all, not even one that would only make an area larger
(`insertDesc_failsForSpace_iff`).
-/

namespace SwitchOs

def EFI_PAGE_SIZE : ℕ := 4096

/-- `EFI_MEMORY_DESCRIPTOR`, the fields that are read. -/
structure EfiMemoryDescriptor where
  type : UInt32
  physicalStart : UInt64
  numberOfPages : UInt64
  deriving DecidableEq, Repr

namespace EfiMemoryDescriptor

/-- `desc_size`. -/
def size (desc : EfiMemoryDescriptor) : UInt64 := desc.numberOfPages * UInt64.ofNat EFI_PAGE_SIZE

/-- `desc_end`. -/
def stop (desc : EfiMemoryDescriptor) : UInt64 := desc.physicalStart + desc.size

/-- The number of bytes that the descriptor describes. -/
def bytes (desc : EfiMemoryDescriptor) : ℕ := desc.numberOfPages.toNat * EFI_PAGE_SIZE

/-- The descriptor describes the byte `x`. -/
def Contains (desc : EfiMemoryDescriptor) (x : ℕ) : Prop :=
  desc.physicalStart.toNat ≤ x ∧ x < desc.physicalStart.toNat + desc.bytes

/-- At least one page, inside the address space. -/
structure WellFormed (desc : EfiMemoryDescriptor) : Prop where
  pos : 0 < desc.bytes
  no_wrap : desc.physicalStart.toNat + desc.bytes ≤ 2 ^ 64

/-- Two descriptors have no byte in common. -/
def Apart (desc desc' : EfiMemoryDescriptor) : Prop := ∀ x, desc.Contains x → ¬ desc'.Contains x

end EfiMemoryDescriptor

/-- What the loop of `insert_desc` finds first: an area that begins where the descriptor ends, or one
that ends where the descriptor begins. -/
inductive Adjacent where
  | begins (i : ℕ)
  | ends (i : ℕ)
  deriving DecidableEq, Repr

/-- The loop of `insert_desc` over the areas of the list. -/
def findAdjacent (core : CoreHeader) (desc : EfiMemoryDescriptor) : List ℕ → Option Adjacent
  | [] => none
  | i :: is =>
    if (core.ramAreas i).start = desc.stop then some (.begins i)
    else if (core.ramAreas i).start + (core.ramAreas i).size = desc.physicalStart then
      some (.ends i)
    else findAdjacent core desc is

/-- `g_core_header->ram_areas[i] = area`. -/
def CoreHeader.setRamArea (core : CoreHeader) (i : ℕ) (area : MemArea) : CoreHeader :=
  { core with ramAreas := Function.update core.ramAreas i area }

/-- The header after `insert_desc`, once the table is known to have room. -/
def CoreHeader.inserted (core : CoreHeader) (desc : EfiMemoryDescriptor) : CoreHeader :=
  match findAdjacent core desc (List.range core.areaCount) with
  | some (.begins i) =>
    core.setRamArea i { core.ramAreas i with start := desc.physicalStart }
  | some (.ends i) =>
    core.setRamArea i { core.ramAreas i with size := (core.ramAreas i).size + desc.size }
  | none =>
    { core.setRamArea core.areaCount ⟨desc.physicalStart, desc.size⟩ with
      ramAreasSize := core.ramAreasSize + 1 }

/-- `insert_desc`. -/
def insertDesc (desc : EfiMemoryDescriptor) : Prog Err CoreHeader Unit := do
  let core ← Prog.get
  check (decide (core.areaCount < MAX_RAM_AREAS))
  Prog.modify fun core => core.inserted desc

/-! ## One insertion -/

/-- The byte `x` lies in the area. -/
def MemArea.Contains (a : MemArea) (x : ℕ) : Prop :=
  a.start.toNat ≤ x ∧ x < a.start.toNat + a.size.toNat

variable {core core' : CoreHeader} {desc : EfiMemoryDescriptor} {U : ℕ → Prop} {i : ℕ}

theorem insertDesc_room (hroom : core.areaCount < MAX_RAM_AREAS) :
    insertDesc desc core = some (.ok (), core.inserted desc) := by
  rw [insertDesc, Prog.bind_get_apply, Prog.bind_ok (Prog.check_ok (decide_eq_true hroom)),
    Prog.modify_apply]

theorem insertDesc_full (hfull : ¬ core.areaCount < MAX_RAM_AREAS) :
    insertDesc desc core = some (.error .ERR_INVALID, core) := by
  rw [insertDesc, Prog.bind_get_apply, Prog.bind_error (Prog.check_error (decide_eq_false hfull))]

theorem inRam_iff {x : ℕ} :
    core.InRam x ↔ ∃ i < core.areaCount, (core.ramAreas i).Contains x := Iff.rfl

theorem inRam_setRamArea (hi : i < core.areaCount) (a : MemArea) {x : ℕ} :
    (core.setRamArea i a).InRam x ↔
      a.Contains x ∨ ∃ j < core.areaCount, j ≠ i ∧ (core.ramAreas j).Contains x := by
  rw [inRam_iff]
  have hcount : (core.setRamArea i a).areaCount = core.areaCount := rfl
  have hareas : ∀ j, (core.setRamArea i a).ramAreas j = Function.update core.ramAreas i a j :=
    fun _ => rfl
  simp only [hcount, hareas]
  constructor
  · rintro ⟨j, hj, hx⟩
    by_cases hji : j = i
    · subst hji
      rw [Function.update_self] at hx
      exact Or.inl hx
    · rw [Function.update_of_ne hji] at hx
      exact Or.inr ⟨j, hj, hji, hx⟩
  · rintro (hx | ⟨j, hj, hji, hx⟩)
    · exact ⟨i, hi, by rwa [Function.update_self]⟩
    · exact ⟨j, hj, by rwa [Function.update_of_ne hji]⟩

/-- Area `i` of the table touches the descriptor. -/
def Adjoins (core : CoreHeader) (desc : EfiMemoryDescriptor) (i : ℕ) : Prop :=
  (core.ramAreas i).start = desc.stop ∨
    (core.ramAreas i).start + (core.ramAreas i).size = desc.physicalStart

/-- What the loop of `insert_desc` says of the areas: it stops at the first one that adjoins. -/
theorem findAdjacent_spec (core : CoreHeader) (desc : EfiMemoryDescriptor) (is : List ℕ)
    (hsorted : is.Pairwise (· < ·)) :
    match findAdjacent core desc is with
    | some (.begins i) => i ∈ is ∧ (∀ j ∈ is, j < i → ¬ Adjoins core desc j) ∧
        (core.ramAreas i).start = desc.stop
    | some (.ends i) => i ∈ is ∧ (∀ j ∈ is, j < i → ¬ Adjoins core desc j) ∧
        (core.ramAreas i).start ≠ desc.stop ∧
        (core.ramAreas i).start + (core.ramAreas i).size = desc.physicalStart
    | none => ∀ i ∈ is, ¬ Adjoins core desc i := by
  induction is with
  | nil => nofun
  | cons i is ih =>
    obtain ⟨hi, hsorted⟩ := List.pairwise_cons.mp hsorted
    have hfirst : ∀ j ∈ i :: is, j < i → ¬ Adjoins core desc j := by
      intro j hj hji
      rcases List.mem_cons.mp hj with rfl | hj
      · exact absurd hji (lt_irrefl j)
      · exact absurd hji (lt_asymm (hi j hj))
    rw [findAdjacent]
    split_ifs with h1 h2
    · exact ⟨List.mem_cons_self, hfirst, h1⟩
    · exact ⟨List.mem_cons_self, hfirst, h1, h2⟩
    · have hnot : ¬ Adjoins core desc i := fun h => h.elim h1 h2
      have hcons : ∀ {P : ℕ → Prop}, (∀ j ∈ is, P j → ¬ Adjoins core desc j) →
          ∀ j ∈ i :: is, P j → ¬ Adjoins core desc j := by
        intro P hrest j hj hP
        rcases List.mem_cons.mp hj with rfl | hj
        · exact hnot
        · exact hrest j hj hP
      specialize ih hsorted
      cases hfind : findAdjacent core desc is with
      | none =>
        rw [hfind] at ih
        exact fun j hj => hcons (P := fun _ => True) (fun j hj _ => ih j hj) j hj trivial
      | some a =>
        rw [hfind] at ih
        cases a with
        | begins j => exact ⟨List.mem_cons_of_mem _ ih.1, hcons ih.2.1, ih.2.2⟩
        | ends j => exact ⟨List.mem_cons_of_mem _ ih.1, hcons ih.2.1, ih.2.2⟩

/-- The three outcomes of an insertion. -/
theorem inserted_cases (core : CoreHeader) (desc : EfiMemoryDescriptor) :
    (∃ i < core.areaCount, findAdjacent core desc (List.range core.areaCount) = some (.begins i) ∧
        (∀ j < i, ¬ Adjoins core desc j) ∧ (core.ramAreas i).start = desc.stop ∧
        core.inserted desc =
          core.setRamArea i { core.ramAreas i with start := desc.physicalStart }) ∨
      (∃ i < core.areaCount, findAdjacent core desc (List.range core.areaCount) = some (.ends i) ∧
        (∀ j < i, ¬ Adjoins core desc j) ∧ (core.ramAreas i).start ≠ desc.stop ∧
        (core.ramAreas i).start + (core.ramAreas i).size = desc.physicalStart ∧
        core.inserted desc =
          core.setRamArea i { core.ramAreas i with size := (core.ramAreas i).size + desc.size }) ∨
      findAdjacent core desc (List.range core.areaCount) = none ∧
        (∀ i < core.areaCount, ¬ Adjoins core desc i) ∧
        core.inserted desc = { core.setRamArea core.areaCount ⟨desc.physicalStart, desc.size⟩ with
          ramAreasSize := core.ramAreasSize + 1 } := by
  have hspec := findAdjacent_spec core desc (List.range core.areaCount)
    List.pairwise_lt_range
  cases hfind : findAdjacent core desc (List.range core.areaCount) with
  | none =>
    rw [hfind] at hspec
    exact Or.inr (Or.inr ⟨rfl, fun i hi => hspec i (List.mem_range.mpr hi),
      by rw [CoreHeader.inserted, hfind]⟩)
  | some a =>
    rw [hfind] at hspec
    cases a with
    | begins i =>
      obtain ⟨hi, hfirst, hstart⟩ := hspec
      rw [List.mem_range] at hi
      exact Or.inl ⟨i, hi, rfl, fun j hj => hfirst j (List.mem_range.mpr (hj.trans hi)) hj, hstart,
        by rw [CoreHeader.inserted, hfind]⟩
    | ends i =>
      obtain ⟨hi, hfirst, hstart, hend⟩ := hspec
      rw [List.mem_range] at hi
      exact Or.inr (Or.inl ⟨i, hi, rfl,
        fun j hj => hfirst j (List.mem_range.mpr (hj.trans hi)) hj, hstart, hend,
        by rw [CoreHeader.inserted, hfind]⟩)

theorem toNat_size_le (desc : EfiMemoryDescriptor) : desc.size.toNat ≤ desc.bytes := by
  have h4096 : (UInt64.ofNat EFI_PAGE_SIZE).toNat = EFI_PAGE_SIZE := rfl
  rw [EfiMemoryDescriptor.size, UInt64.toNat_mul, h4096]
  exact Nat.mod_le _ _

theorem toNat_size (h : desc.bytes < 2 ^ 64) : desc.size.toNat = desc.bytes := by
  have h4096 : (UInt64.ofNat EFI_PAGE_SIZE).toNat = EFI_PAGE_SIZE := rfl
  rw [EfiMemoryDescriptor.size, UInt64.toNat_mul, h4096]
  exact Nat.mod_eq_of_lt h

theorem toNat_stop (desc : EfiMemoryDescriptor) :
    desc.stop.toNat = (desc.physicalStart.toNat + desc.bytes) % 2 ^ 64 := by
  have h4096 : (UInt64.ofNat EFI_PAGE_SIZE).toNat = EFI_PAGE_SIZE := rfl
  have hsize : desc.size.toNat = desc.bytes % 2 ^ 64 := by
    rw [EfiMemoryDescriptor.size, UInt64.toNat_mul, h4096]
    rfl
  rw [EfiMemoryDescriptor.stop, UInt64.toNat_add, hsize]
  omega

theorem areaCount_append (hroom : core.areaCount < MAX_RAM_AREAS) (a : MemArea) :
    ({ core.setRamArea core.areaCount a with ramAreasSize := core.ramAreasSize + 1 } :
      CoreHeader).areaCount = core.areaCount + 1 := by
  have h1 : (1 : UInt32).toNat = 1 := rfl
  simp only [CoreHeader.areaCount, MAX_RAM_AREAS] at hroom ⊢
  rw [UInt32.toNat_add, h1]
  omega

/-- A new area at the end of the table. -/
theorem inRam_append (hroom : core.areaCount < MAX_RAM_AREAS) (a : MemArea) {x : ℕ} :
    ({ core.setRamArea core.areaCount a with ramAreasSize := core.ramAreasSize + 1 } :
      CoreHeader).InRam x ↔ a.Contains x ∨ core.InRam x := by
  have hcount := areaCount_append hroom a
  rw [inRam_iff, inRam_iff]
  simp only [CoreHeader.areaCount, CoreHeader.setRamArea] at hcount ⊢
  rw [hcount]
  constructor
  · rintro ⟨j, hj, hx⟩
    by_cases hjc : j = core.ramAreasSize.toNat
    · subst hjc
      rw [Function.update_self] at hx
      exact Or.inl hx
    · rw [Function.update_of_ne hjc] at hx
      exact Or.inr ⟨j, by omega, hx⟩
  · rintro (hx | ⟨j, hj, hx⟩)
    · exact ⟨core.ramAreasSize.toNat, by omega, by rwa [Function.update_self]⟩
    · exact ⟨j, by omega, by rwa [Function.update_of_ne (by omega)]⟩

/-- From `core` to `core'` nothing but entry `n` has changed, which may be a new one. -/
structure OnlyEntry (n : ℕ) (core core' : CoreHeader) : Prop where
  same : ∀ j, j ≠ n → core'.ramAreas j = core.ramAreas j
  old : ∀ j < core'.areaCount, j ≠ n → j < core.areaCount
  kept : core.areaCount ≤ core'.areaCount

theorem onlyEntry_setRamArea (i : ℕ) (a : MemArea) : OnlyEntry i core (core.setRamArea i a) where
  same := fun _ hji => Function.update_of_ne hji _ _
  old := fun _ hj _ => hj
  kept := le_refl core.areaCount

theorem onlyEntry_append (hroom : core.areaCount < MAX_RAM_AREAS) (a : MemArea) :
    OnlyEntry core.areaCount core
      { core.setRamArea core.areaCount a with ramAreasSize := core.ramAreasSize + 1 } where
  same := fun _ hjc => Function.update_of_ne hjc _ _
  old := by
    intro j hj hjc
    rw [areaCount_append hroom] at hj
    omega
  kept := by
    rw [areaCount_append hroom]
    exact Nat.le_succ _

/-- **An insertion adds nothing but the descriptor** to what the table covers, however it goes. -/
theorem inserted_subset (hroom : core.areaCount < MAX_RAM_AREAS) {x : ℕ} (hx : x < 2 ^ 64)
    (hin : (core.inserted desc).InRam x) : core.InRam x ∨ desc.Contains x := by
  have hsize := toNat_size_le desc
  rcases inserted_cases core desc with
    ⟨i, hi, -, -, hstart, heq⟩ | ⟨i, hi, -, -, -, hend, heq⟩ | ⟨-, -, heq⟩
  · rw [heq, inRam_setRamArea hi] at hin
    rcases hin with hin | ⟨j, hj, -, hin⟩
    · have hstop : (core.ramAreas i).start.toNat =
          (desc.physicalStart.toNat + desc.size.toNat) % 2 ^ 64 := by
        rw [hstart, EfiMemoryDescriptor.stop, UInt64.toNat_add]
      by_cases hd : x < desc.physicalStart.toNat + desc.bytes
      · exact Or.inr ⟨hin.1, hd⟩
      · refine Or.inl ⟨i, hi, ?_⟩
        simp only [MemArea.Contains, CoreHeader.areaStart, CoreHeader.areaSize] at hin ⊢
        omega
    · exact Or.inl ⟨j, hj, hin⟩
  · rw [heq, inRam_setRamArea hi] at hin
    rcases hin with hin | ⟨j, hj, -, hin⟩
    · have hend' := congrArg UInt64.toNat hend
      rw [UInt64.toNat_add] at hend'
      simp only [MemArea.Contains, UInt64.toNat_add] at hin
      by_cases hold : x < (core.ramAreas i).start.toNat + (core.ramAreas i).size.toNat
      · exact Or.inl ⟨i, hi, hin.1, hold⟩
      · refine Or.inr ⟨by omega, by omega⟩
    · exact Or.inl ⟨j, hj, hin⟩
  · rw [heq, inRam_append hroom] at hin
    rcases hin with hin | hin
    · exact Or.inr ⟨hin.1, by have := hin.2; simp only at this; omega⟩
    · exact Or.inl hin

/-! ## Right and wrong insertions -/

/-- The areas of the table have no byte in common. -/
def AreasApart (core : CoreHeader) : Prop :=
  ∀ i < core.areaCount, ∀ j < core.areaCount, i ≠ j →
    core.areaStart i + core.areaSize i ≤ core.areaStart j ∨
      core.areaStart j + core.areaSize j ≤ core.areaStart i

/-- The table covers the bytes of `U`, with nonempty areas that are apart. -/
structure Covers (core : CoreHeader) (U : ℕ → Prop) : Prop where
  covers : ∀ x < 2 ^ 64, core.InRam x ↔ U x
  apart : AreasApart core
  pos : ∀ i < core.areaCount, 0 < core.areaSize i
  no_wrap : ∀ i < core.areaCount, core.areaStart i + core.areaSize i ≤ 2 ^ 64

/-- The descriptor does not go into the table right: the first area that `insert_desc` finds begins
where the descriptor ends, or it ends at the end of the address space where the descriptor begins at
zero; or the descriptor is the whole address space, with a size that is zero. -/
def Misplaced (core : CoreHeader) (desc : EfiMemoryDescriptor) : Prop :=
  (∃ i, findAdjacent core desc (List.range core.areaCount) = some (.begins i)) ∨
    (desc.physicalStart = 0 ∧
      ∃ i, findAdjacent core desc (List.range core.areaCount) = some (.ends i)) ∨
    desc.bytes = 2 ^ 64

/-- An area that ends where the descriptor begins, not at the end of the address space, grows by
exactly the bytes of the descriptor. -/
theorem grown_contains (hstart : (core.ramAreas i).start ≠ desc.stop)
    (hadj : (core.ramAreas i).start + (core.ramAreas i).size = desc.physicalStart)
    (hzero : desc.physicalStart.toNat ≠ 0) (hwrap : core.areaStart i + core.areaSize i ≤ 2 ^ 64)
    (hsize : desc.size.toNat = desc.bytes) (hend : desc.physicalStart.toNat + desc.bytes ≤ 2 ^ 64) :
    ((core.ramAreas i).size + desc.size).toNat = (core.ramAreas i).size.toNat + desc.bytes ∧
      ∀ x, (⟨(core.ramAreas i).start, (core.ramAreas i).size + desc.size⟩ : MemArea).Contains x ↔
        (core.ramAreas i).Contains x ∨ desc.Contains x := by
  have hadj' := congrArg UInt64.toNat hadj
  rw [UInt64.toNat_add] at hadj'
  have hstart' : (core.ramAreas i).start.toNat ≠
      (desc.physicalStart.toNat + desc.bytes) % 2 ^ 64 :=
    fun hcon => hstart (UInt64.toNat_inj.mp (hcon.trans (toNat_stop desc).symm))
  simp only [CoreHeader.areaStart, CoreHeader.areaSize] at hwrap
  have hgrown : ((core.ramAreas i).size + desc.size).toNat =
      (core.ramAreas i).size.toNat + desc.bytes := by
    rw [UInt64.toNat_add, hsize]
    omega
  refine ⟨hgrown, fun x => ?_⟩
  simp only [MemArea.Contains, EfiMemoryDescriptor.Contains, hgrown]
  omega

section Insert

variable (h : Covers core U) (hroom : core.areaCount < MAX_RAM_AREAS) (hwf : desc.WellFormed)
  (hnew : ∀ x, desc.Contains x → ¬ U x)

include h in
theorem Covers.mem_of_area (hi : i < core.areaCount) {x : ℕ} (hx : (core.ramAreas i).Contains x) :
    x < 2 ^ 64 ∧ U x := by
  have hlt : x < 2 ^ 64 := lt_of_lt_of_le hx.2 (h.no_wrap i hi)
  exact ⟨hlt, (h.covers x hlt).mp ⟨i, hi, hx⟩⟩

include h hwf hnew in
/-- The areas of the table are apart from a new descriptor. -/
theorem Covers.apart_desc (hi : i < core.areaCount) :
    core.areaStart i + core.areaSize i ≤ desc.physicalStart.toNat ∨
      desc.physicalStart.toNat + desc.bytes ≤ core.areaStart i := by
  have hpos := h.pos i hi
  have hpos' := hwf.pos
  by_contra hcon
  have hx : (core.ramAreas i).Contains (max (core.areaStart i) desc.physicalStart.toNat) := by
    simp only [MemArea.Contains, CoreHeader.areaStart, CoreHeader.areaSize] at hcon hpos ⊢
    omega
  exact hnew _ ⟨by omega, by omega⟩ (h.mem_of_area hi hx).2

/-- If one entry is new, or has gained the descriptor, the table has gained the descriptor. -/
theorem OnlyEntry.inRam_iff {n : ℕ} (honly : OnlyEntry n core core') (hn : n < core'.areaCount)
    (hself : ∀ x, (core'.ramAreas n).Contains x ↔
      desc.Contains x ∨ n < core.areaCount ∧ (core.ramAreas n).Contains x) (x : ℕ) :
    core'.InRam x ↔ core.InRam x ∨ desc.Contains x := by
  rw [SwitchOs.inRam_iff, SwitchOs.inRam_iff]
  constructor
  · rintro ⟨j, hj, hin⟩
    by_cases hjn : j = n
    · rw [hjn, hself] at hin
      exact hin.symm.imp_left fun hold => ⟨n, hold⟩
    · rw [honly.same j hjn] at hin
      exact Or.inl ⟨j, honly.old j hj hjn, hin⟩
  · rintro (⟨j, hj, hin⟩ | hin)
    · by_cases hjn : j = n
      · rw [hjn] at hj hin
        exact ⟨n, hn, (hself x).mpr (Or.inr ⟨hj, hin⟩)⟩
      · refine ⟨j, lt_of_lt_of_le hj honly.kept, ?_⟩
        rwa [honly.same j hjn]
    · exact ⟨n, hn, (hself x).mpr (Or.inl hin)⟩

include h in
/-- The table covers the descriptor too if one entry is new, or has gained just that, and stays apart
from the others. -/
theorem Covers.replace {n : ℕ} (honly : OnlyEntry n core core') (hn : n < core'.areaCount)
    (hself : ∀ x, (core'.ramAreas n).Contains x ↔
      desc.Contains x ∨ n < core.areaCount ∧ (core.ramAreas n).Contains x)
    (hapart : ∀ j < core.areaCount, j ≠ n →
      core.areaStart j + core.areaSize j ≤ core'.areaStart n ∨
        core'.areaStart n + core'.areaSize n ≤ core.areaStart j)
    (hpos : 0 < core'.areaSize n) (hwrap : core'.areaStart n + core'.areaSize n ≤ 2 ^ 64) :
    Covers core' fun x => U x ∨ desc.Contains x := by
  have hsame : ∀ j, j ≠ n →
      core'.areaStart j = core.areaStart j ∧ core'.areaSize j = core.areaSize j := fun j hjn =>
    ⟨congrArg (fun a => a.start.toNat) (honly.same j hjn),
      congrArg (fun a => a.size.toNat) (honly.same j hjn)⟩
  refine ⟨fun x hx => ?_, fun j hj k hk hjk => ?_, fun j hj => ?_, fun j hj => ?_⟩
  · rw [← h.covers x hx]
    exact honly.inRam_iff hn hself x
  · by_cases hjn : j = n
    · have hkn : k ≠ n := fun hkn => hjk (hjn.trans hkn.symm)
      rw [hjn, (hsame k hkn).1, (hsame k hkn).2]
      exact (hapart k (honly.old k hk hkn) hkn).symm
    · have hj' := honly.old j hj hjn
      rw [(hsame j hjn).1, (hsame j hjn).2]
      by_cases hkn : k = n
      · rw [hkn]
        exact hapart j hj' hjn
      · rw [(hsame k hkn).1, (hsame k hkn).2]
        exact h.apart j hj' k (honly.old k hk hkn) hjk
  · by_cases hjn : j = n
    · rw [hjn]
      exact hpos
    · rw [(hsame j hjn).2]
      exact h.pos j (honly.old j hj hjn)
  · by_cases hjn : j = n
    · rw [hjn]
      exact hwrap
    · rw [(hsame j hjn).1, (hsame j hjn).2]
      exact h.no_wrap j (honly.old j hj hjn)

include h hwf hnew in
/-- Area `i` grows by a descriptor that starts at its end, and not at the address 0. -/
theorem Covers.grow (hi : i < core.areaCount) (hzero : desc.physicalStart.toNat ≠ 0)
    (hsize : desc.size.toNat = desc.bytes) (hstart : (core.ramAreas i).start ≠ desc.stop)
    (hadj : (core.ramAreas i).start + (core.ramAreas i).size = desc.physicalStart) :
    Covers (core.setRamArea i ⟨(core.ramAreas i).start, (core.ramAreas i).size + desc.size⟩)
      fun x => U x ∨ desc.Contains x := by
  have hend := hwf.no_wrap
  have hwrap := h.no_wrap i hi
  have hadj' := congrArg UInt64.toNat hadj
  rw [UInt64.toNat_add] at hadj'
  obtain ⟨hgrown, hcontains⟩ := grown_contains hstart hadj hzero hwrap hsize hend
  simp only [CoreHeader.areaStart, CoreHeader.areaSize] at hwrap
  have hself : (core.setRamArea i ⟨(core.ramAreas i).start,
      (core.ramAreas i).size + desc.size⟩).ramAreas i =
        ⟨(core.ramAreas i).start, (core.ramAreas i).size + desc.size⟩ := Function.update_self _ _ _
  refine h.replace (onlyEntry_setRamArea i _) hi (fun x => ?_) (fun j hj hji => ?_) ?_ ?_
  · rw [hself, hcontains, or_comm]
    exact or_congr_right (and_iff_right hi).symm
  · have h1 := h.apart i hi j hj (Ne.symm hji)
    have h2 := h.apart_desc hwf hnew hj
    have h3 := h.pos j hj
    have h4 := h.pos i hi
    simp only [CoreHeader.areaStart, CoreHeader.areaSize] at h1 h2 h3 h4 ⊢
    rw [hself, hgrown]
    dsimp only
    omega
  · have hpos := hwf.pos
    rw [CoreHeader.areaSize, hself, hgrown]
    omega
  · rw [CoreHeader.areaStart, CoreHeader.areaSize, hself, hgrown]
    dsimp only
    omega

include h hroom hwf hnew in
/-- The descriptor becomes a new area. -/
theorem Covers.append (hsize : desc.size.toNat = desc.bytes)
    (heq : core.inserted desc =
      { core.setRamArea core.areaCount ⟨desc.physicalStart, desc.size⟩ with
        ramAreasSize := core.ramAreasSize + 1 }) :
    Covers (core.inserted desc) fun x => U x ∨ desc.Contains x := by
  have hself : (core.inserted desc).ramAreas core.areaCount = ⟨desc.physicalStart, desc.size⟩ := by
    rw [heq]
    exact Function.update_self _ _ _
  have honly : OnlyEntry core.areaCount core (core.inserted desc) := by
    rw [heq]
    exact onlyEntry_append hroom _
  have hcount : (core.inserted desc).areaCount = core.areaCount + 1 := by
    rw [heq]
    exact areaCount_append hroom _
  refine h.replace honly (by omega) (fun x => ?_) (fun j hj _ => ?_) ?_ ?_
  · rw [hself, MemArea.Contains, hsize]
    exact (or_iff_left fun hold => lt_irrefl _ hold.1).symm
  · simp only [CoreHeader.areaStart, CoreHeader.areaSize, hself, hsize]
    exact h.apart_desc hwf hnew hj
  · rw [CoreHeader.areaSize, hself, hsize]
    exact hwf.pos
  · rw [CoreHeader.areaStart, CoreHeader.areaSize, hself, hsize]
    exact hwf.no_wrap

include h hroom hwf hnew in
/-- **A descriptor that is not misplaced** is added to what the table covers. -/
theorem Covers.insert (hplaced : ¬ Misplaced core desc) :
    Covers (core.inserted desc) fun x => U x ∨ desc.Contains x := by
  simp only [Misplaced, not_or, not_exists, not_and] at hplaced
  obtain ⟨hbegins, hends, hfull⟩ := hplaced
  have hend := hwf.no_wrap
  have hsize : desc.size.toNat = desc.bytes := toNat_size (by omega)
  rcases inserted_cases core desc with
    ⟨i, -, hfind, -⟩ | ⟨i, hi, hfind, -, hstart, hadj, heq⟩ | ⟨-, -, heq⟩
  · exact absurd hfind (hbegins i)
  · have hzero : desc.physicalStart.toNat ≠ 0 := by
      intro hz
      exact hends (UInt64.toNat_inj.mp hz) i hfind
    rw [heq]
    exact h.grow hwf hnew hi hzero hsize hstart hadj
  · exact h.append hroom hwf hnew hsize heq

include h hwf hnew in
/-- An area that begins where the descriptor ends loses its last byte. -/
theorem Covers.moved_loses (hi : i < core.areaCount) (hstart : (core.ramAreas i).start = desc.stop) :
    ∃ y < 2 ^ 64, U y ∧
      ¬ (core.setRamArea i ⟨desc.physicalStart, (core.ramAreas i).size⟩).InRam y := by
  have hend := hwf.no_wrap
  have hpos := hwf.pos
  have hsize := h.pos i hi
  have hwrap := h.no_wrap i hi
  have hstop : (core.ramAreas i).start.toNat =
      (desc.physicalStart.toNat + desc.size.toNat) % 2 ^ 64 := by
    rw [hstart, EfiMemoryDescriptor.stop, UInt64.toNat_add]
  have happart := h.apart_desc hwf hnew hi
  have hdesc := toNat_size_le desc
  have hmod : desc.size.toNat = desc.bytes ∨ desc.bytes = 2 ^ 64 := by
    by_cases hlt : desc.bytes < 2 ^ 64
    · exact Or.inl (toNat_size hlt)
    · exact Or.inr (by omega)
  simp only [CoreHeader.areaStart, CoreHeader.areaSize] at hsize hwrap happart
  have hlast : (core.ramAreas i).Contains
      ((core.ramAreas i).start.toNat + (core.ramAreas i).size.toNat - 1) :=
    ⟨by omega, by omega⟩
  refine ⟨_, (h.mem_of_area hi hlast).1, (h.mem_of_area hi hlast).2, ?_⟩
  rw [inRam_setRamArea hi]
  rintro (hx | ⟨j, hj, hji, hx⟩)
  · simp only [MemArea.Contains] at hx
    omega
  · have := h.apart i hi j hj (Ne.symm hji)
    simp only [MemArea.Contains, CoreHeader.areaStart, CoreHeader.areaSize] at hx this
    omega

include h hwf hnew in
/-- An area that ends where the address space does, before a descriptor at its start, does not come
to cover the byte zero. -/
theorem Covers.wrapped_loses (hi : i < core.areaCount) (hzero : desc.physicalStart = 0)
    (hadj : (core.ramAreas i).start + (core.ramAreas i).size = desc.physicalStart) :
    desc.Contains 0 ∧ ¬ (core.setRamArea i
      ⟨(core.ramAreas i).start, (core.ramAreas i).size + desc.size⟩).InRam 0 := by
  have hpos := hwf.pos
  have hz : desc.physicalStart.toNat = 0 := by rw [hzero]; rfl
  have hcontains : desc.Contains 0 := ⟨by omega, by omega⟩
  have hnot : ¬ core.InRam 0 := fun hin =>
    hnew 0 hcontains ((h.covers 0 (by omega)).mp hin)
  refine ⟨hcontains, ?_⟩
  rw [inRam_setRamArea hi]
  rintro (hx | ⟨j, hj, -, hx⟩)
  · have hsize := h.pos i hi
    have hadj' := congrArg UInt64.toNat hadj
    rw [UInt64.toNat_add, hz] at hadj'
    refine hnot ⟨i, hi, ?_, ?_⟩
    · exact hx.1
    · simp only [CoreHeader.areaStart, CoreHeader.areaSize] at hsize ⊢
      omega
  · exact hnot ⟨j, hj, hx⟩

include h hroom hwf hnew in
/-- A descriptor of the whole address space has a size of zero, and covers nothing. -/
theorem Covers.whole_loses (hfull : desc.bytes = 2 ^ 64) :
    desc.Contains 0 ∧ ¬ (core.inserted desc).InRam 0 := by
  have hend := hwf.no_wrap
  have hz : desc.physicalStart.toNat = 0 := by omega
  have hnone : ∀ i, ¬ i < core.areaCount := by
    intro i hi
    have happart := h.apart_desc hwf hnew hi
    have := h.pos i hi
    have := h.no_wrap i hi
    omega
  have hsize : desc.size.toNat = 0 := by
    have h4096 : (UInt64.ofNat EFI_PAGE_SIZE).toNat = EFI_PAGE_SIZE := rfl
    have hmul : desc.size.toNat = desc.bytes % 2 ^ 64 := by
      rw [EfiMemoryDescriptor.size, UInt64.toNat_mul, h4096]
      rfl
    rw [hmul, hfull, Nat.mod_self]
  refine ⟨⟨by omega, by omega⟩, ?_⟩
  rcases inserted_cases core desc with ⟨i, hi, -⟩ | ⟨i, hi, -⟩ | ⟨-, -, heq⟩
  · exact absurd hi (hnone i)
  · exact absurd hi (hnone i)
  · rw [heq, inRam_append hroom]
    rintro (hx | ⟨j, hj, -⟩)
    · have := hx.2
      simp only at this
      omega
    · exact hnone j hj

include h hroom hwf hnew in
/-- **A misplaced descriptor** leaves a byte of usable memory out of the table. -/
theorem misplaced_loses (hmis : Misplaced core desc) :
    ∃ y < 2 ^ 64, (U y ∨ desc.Contains y) ∧ ¬ (core.inserted desc).InRam y := by
  rcases hmis with ⟨i, hfind⟩ | ⟨hzero, i, hfind⟩ | hfull
  · rcases inserted_cases core desc with
      ⟨i', hi, -, -, hstart, heq⟩ | ⟨i', -, hfind', -⟩ | ⟨hfind', -⟩
    · obtain ⟨y, hy, hyU, hlost⟩ := h.moved_loses hwf hnew hi hstart
      rw [heq]
      exact ⟨y, hy, Or.inl hyU, hlost⟩
    · simp [hfind] at hfind'
    · simp [hfind] at hfind'
  · rcases inserted_cases core desc with
      ⟨i', -, hfind', -⟩ | ⟨i', hi, -, -, -, hadj, heq⟩ | ⟨hfind', -⟩
    · simp [hfind] at hfind'
    · obtain ⟨hcontains, hlost⟩ := h.wrapped_loses hwf hnew hi hzero hadj
      rw [heq]
      exact ⟨0, by omega, Or.inr hcontains, hlost⟩
    · simp [hfind] at hfind'
  · obtain ⟨hcontains, hlost⟩ := h.whole_loses hroom hwf hnew hfull
    exact ⟨0, by omega, Or.inr hcontains, hlost⟩

end Insert

/-! ## A full table -/

/-- `insert_desc` fails for lack of space only: if it fails, the table is full, no area adjoins the
descriptor, and the table is as it was. -/
def FailsForSpace (core : CoreHeader) (desc : EfiMemoryDescriptor) : Prop :=
  ∀ e core', insertDesc desc core = some (.error e, core') →
    (core.areaCount = MAX_RAM_AREAS ∧ ∀ i < core.areaCount, ¬ Adjoins core desc i) ∧ core' = core

/-- **When `insert_desc` fails for lack of space only**: if and only if the table is not full, or no
area adjoins the descriptor. The room is looked at before the areas are. -/
theorem insertDesc_failsForSpace_iff (hcount : core.areaCount ≤ MAX_RAM_AREAS) :
    FailsForSpace core desc ↔
      core.areaCount < MAX_RAM_AREAS ∨ ∀ i < core.areaCount, ¬ Adjoins core desc i := by
  by_cases hroom : core.areaCount < MAX_RAM_AREAS
  · refine iff_of_true (fun e core' h => ?_) (Or.inl hroom)
    rw [insertDesc_room hroom] at h
    cases h
  · have hfull : insertDesc desc core = some (.error .ERR_INVALID, core) := insertDesc_full hroom
    constructor
    · intro h
      exact Or.inr (h _ _ hfull).1.2
    · rintro (hlt | hnone) e core' h
      · exact absurd hlt hroom
      · rw [hfull] at h
        obtain rfl := congrArg Prod.snd (Option.some.inj h)
        exact ⟨⟨Nat.le_antisymm hcount (not_lt.mp hroom), hnone⟩, rfl⟩

/-- A full table: every second page of the lowest 128. -/
def fullTable : CoreHeader :=
  { emptyCore with ramAreasSize := 64, ramAreas := fun i => ⟨UInt64.ofNat (0x2000 * i), 0x1000⟩ }

theorem insertDesc_failsForSpace_iff_fullTable : FailsForSpace fullTable ⟨7, 0x1000, 1⟩ ↔
    fullTable.areaCount < MAX_RAM_AREAS ∨
      ∀ i < fullTable.areaCount, ¬ Adjoins fullTable ⟨7, 0x1000, 1⟩ i :=
  insertDesc_failsForSpace_iff (by decide)

/-- **A descriptor that needs no room is refused**: it begins where the first area of a full table
ends. -/
theorem fullTable_refuses_adjoining : ∃ (core : CoreHeader) (desc : EfiMemoryDescriptor),
    core.areaCount ≤ MAX_RAM_AREAS ∧ ¬ FailsForSpace core desc := by
  refine ⟨fullTable, ⟨7, 0x1000, 1⟩, by decide, fun h => ?_⟩
  have hfull : insertDesc ⟨7, 0x1000, 1⟩ fullTable = some (.error .ERR_INVALID, fullTable) :=
    insertDesc_full (by decide)
  exact (h _ _ hfull).1.2 0 (by decide) (Or.inr (by decide))

end SwitchOs
