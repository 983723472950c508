import SwitchOs.Hooks.SetVariable
import SwitchOs.Uefi.InsertDesc

/-!
# The `GetMemoryMap` hook

`uefi/services/hooks/get_memory_map/`: the descriptors that contain a runtime area are marked as
runtime, so that an OS maps what the `SetVariable` hook goes on to use. The areas are the waking vector
in the FACS and the core header; the saved vector is not among them, but lies in the page of the first.

The map is a buffer of bytes: the descriptors stand at multiples of whatever size the firmware gives
them.
-/

namespace SwitchOs

/-- Fields of `EFI_MEMORY_DESCRIPTOR`. -/
def DESC_PHYSICAL_START : ℕ := 8
def DESC_NUMBER_OF_PAGES : ℕ := 24
def DESC_ATTRIBUTE : ℕ := 32

/-- `sizeof(EFI_MEMORY_DESCRIPTOR)`. -/
def DESC_SIZE : ℕ := 40

def EFI_MEMORY_RUNTIME : UInt64 := 0x8000000000000000

def EFI_MEMORY_ATTRIBUTES_TABLE_GUID : Guid :=
  ⟨0xdcfa911d, 0x26eb, 0x469f, [0xa2, 0x20, 0x38, 0xb7, 0xdc, 0x46, 0x12, 0x20]⟩

/-- The length of `runtime_areas`. -/
def RUNTIME_AREAS : ℕ := 32

/-- `sizeof(struct core_header)`. -/
def CORE_HEADER_SIZE : ℕ := 1080

/-! ## The hook -/

/-- What the arguments of `GetMemoryMap` point to. -/
structure MapBuffers where
  memoryMapSize : UInt64
  memoryMap : ℕ → UInt8
  mapKey : UInt64
  descriptorSize : UInt64
  descriptorVersion : UInt32

/-- `struct get_memory_map_hook_header`. The services of the firmware work on a state of its own, and
the original `GetMemoryMap` on the buffers of its caller. -/
structure GetMemoryMapHookHeader (σ : Type) where
  originalGetMemoryMap : MapBuffers → σ → UInt64 × MapBuffers × σ
  installConfigurationTable : Guid → σ → σ
  runtimeAreas : ℕ → MemArea

def isMemAreaContainedInRange (area : MemArea) (start stop : UInt64) : Bool :=
  decide (start ≤ area.start) && decide (area.start + area.size ≤ stop)

/-- The inner loop of the hook, over the areas of the list: an area of size 0 is the end. -/
def containsRuntimeArea (runtimeAreas : ℕ → MemArea) (start stop : UInt64) : List ℕ → Bool
  | [] => false
  | i :: is =>
    if (runtimeAreas i).size = 0 then false
    else if isMemAreaContainedInRange (runtimeAreas i) start stop then true
    else containsRuntimeArea runtimeAreas start stop is

/-- The descriptor at an offset of the map. -/
def descAt (map : ℕ → UInt8) (off : ℕ) : EfiMemoryDescriptor :=
  ⟨get32 map off, get64 map (off + DESC_PHYSICAL_START), get64 map (off + DESC_NUMBER_OF_PAGES)⟩

/-- `desc->Attribute`. -/
def attributeAt (map : ℕ → UInt8) (off : ℕ) : UInt64 := get64 map (off + DESC_ATTRIBUTE)

/-- The body of the outer loop. -/
def markDescriptor (runtimeAreas : ℕ → MemArea) (map : ℕ → UInt8) (off : ℕ) : ℕ → UInt8 :=
  let desc := descAt map off
  if containsRuntimeArea runtimeAreas desc.physicalStart desc.stop (List.range RUNTIME_AREAS) then
    put64 map (off + DESC_ATTRIBUTE) (attributeAt map off ||| EFI_MEMORY_RUNTIME)
  else map

/-- The outer loop, for `n` descriptors. -/
def markDescriptors (runtimeAreas : ℕ → MemArea) (descriptorSize : ℕ) (map : ℕ → UInt8) :
    ℕ → (ℕ → UInt8)
  | 0 => map
  | n + 1 => markDescriptor runtimeAreas (markDescriptors runtimeAreas descriptorSize map n)
      (n * descriptorSize)

/-- How many descriptors the map has. -/
def MapBuffers.descriptors (out : MapBuffers) : ℕ := (out.memoryMapSize / out.descriptorSize).toNat

/-- `_start` of the `GetMemoryMap` hook. -/
def getMemoryMapHook {σ : Type} (header : GetMemoryMapHookHeader σ) (args : MapBuffers) (s : σ) :
    UInt64 × MapBuffers × σ :=
  let (res, out, s) := header.originalGetMemoryMap args s
  let out :=
    if res = EFI_SUCCESS then
      { out with
        memoryMap := markDescriptors header.runtimeAreas out.descriptorSize.toNat out.memoryMap
          out.descriptors }
    else out
  (res, out, header.installConfigurationTable EFI_MEMORY_ATTRIBUTES_TABLE_GUID s)

/-- The areas that `hook_get_memory_map` registers. -/
def hookRuntimeAreas (facs : UInt64) : ℕ → MemArea
  | 0 => ⟨facs + UInt64.ofNat FACS_FIRMWARE_WAKING_VECTOR, 4⟩
  | 1 => ⟨UInt64.ofNat CORE_PHYS_ADDR, UInt64.ofNat CORE_HEADER_SIZE⟩
  | _ => ⟨0, 0⟩

/-- The header that `hook_get_memory_map` fills in. -/
def getMemoryMapHeader {σ : Type} (originalGetMemoryMap : MapBuffers → σ → UInt64 × MapBuffers × σ)
    (installConfigurationTable : Guid → σ → σ) (facs : UInt64) : GetMemoryMapHookHeader σ :=
  ⟨originalGetMemoryMap, installConfigurationTable, hookRuntimeAreas facs⟩

/-! ## What is to be exposed -/

/-- The descriptor describes all of the bytes. -/
def EfiMemoryDescriptor.Covers (desc : EfiMemoryDescriptor) (a len : ℕ) : Prop :=
  desc.physicalStart.toNat ≤ a ∧ a + len ≤ desc.physicalStart.toNat + desc.bytes

/-- The descriptor describes one of the things that the `SetVariable` hook uses: the waking vector, the
reserved bytes with the saved vector, or the core header. -/
def Uses (facs : UInt64) (desc : EfiMemoryDescriptor) : Prop :=
  desc.Covers (facs.toNat + FACS_FIRMWARE_WAKING_VECTOR) 4 ∨
    desc.Covers (facs.toNat + FACS_RSVD1) 24 ∨ desc.Covers CORE_PHYS_ADDR CORE_HEADER_SIZE

/-- Descriptor `i` of the map. -/
def MapBuffers.desc (out : MapBuffers) (i : ℕ) : EfiMemoryDescriptor :=
  descAt out.memoryMap (i * out.descriptorSize.toNat)

/-- A map as the firmware makes it: page-aligned descriptors whose ends are addresses, and that
describe the pages of the FACS and of the core header. -/
structure MapBuffers.WellFormed (facs : UInt64) (out : MapBuffers) : Prop where
  size : DESC_SIZE ≤ out.descriptorSize.toNat
  aligned : ∀ i < out.descriptors, (out.desc i).physicalStart.toNat % EFI_PAGE_SIZE = 0
  no_wrap : ∀ i < out.descriptors,
    (out.desc i).physicalStart.toNat + (out.desc i).bytes < 2 ^ 64
  facs : ∃ i < out.descriptors,
    (out.desc i).Covers (facs.toNat / EFI_PAGE_SIZE * EFI_PAGE_SIZE) EFI_PAGE_SIZE
  core : ∃ i < out.descriptors, (out.desc i).Covers CORE_PHYS_ADDR EFI_PAGE_SIZE

/-- What the hook makes of the map: what it uses is described, the descriptors of that are marked as
runtime, and no other byte is changed. -/
structure Exposes (facs : UInt64) (out : MapBuffers) (map : ℕ → UInt8) : Prop where
  vectors : ∃ i < out.descriptors,
    (out.desc i).Covers (facs.toNat + FACS_FIRMWARE_WAKING_VECTOR) 4 ∧
      (out.desc i).Covers (facs.toNat + FACS_RSVD1) 24
  core : ∃ i < out.descriptors, (out.desc i).Covers CORE_PHYS_ADDR CORE_HEADER_SIZE
  marked : ∀ i < out.descriptors, Uses facs (out.desc i) →
    attributeAt map (i * out.descriptorSize.toNat) =
      attributeAt out.memoryMap (i * out.descriptorSize.toNat) ||| EFI_MEMORY_RUNTIME
  kept : ∀ x, (∀ i < out.descriptors, Uses facs (out.desc i) →
      x < i * out.descriptorSize.toNat + DESC_ATTRIBUTE ∨
        i * out.descriptorSize.toNat + DESC_ATTRIBUTE + 8 ≤ x) →
    map x = out.memoryMap x

/-! ## The loops -/

section Loops

variable {areas : ℕ → MemArea} {map : ℕ → UInt8} {stride n : ℕ}

/-- The descriptor contains an area, as the inner loop sees it. -/
def Marks (areas : ℕ → MemArea) (desc : EfiMemoryDescriptor) : Prop :=
  containsRuntimeArea areas desc.physicalStart desc.stop (List.range RUNTIME_AREAS) = true

theorem markDescriptor_marks {off : ℕ} (h : Marks areas (descAt map off)) :
    markDescriptor areas map off =
      put64 map (off + DESC_ATTRIBUTE) (attributeAt map off ||| EFI_MEMORY_RUNTIME) :=
  if_pos h

theorem markDescriptor_skips {off : ℕ} (h : ¬ Marks areas (descAt map off)) :
    markDescriptor areas map off = map :=
  if_neg h

/-- The body changes at most the attribute of its descriptor. -/
theorem markDescriptor_outside {off x : ℕ}
    (h : x < off + DESC_ATTRIBUTE ∨ off + DESC_ATTRIBUTE + 8 ≤ x) :
    markDescriptor areas map off x = map x := by
  by_cases hmarks : Marks areas (descAt map off)
  · rw [markDescriptor_marks hmarks]
    exact put64_outside h
  · rw [markDescriptor_skips hmarks]

/-- The descriptors that the loop has not come to are as they were. -/
theorem markDescriptors_later (hstride : DESC_SIZE ≤ stride) {x : ℕ} (h : n * stride ≤ x) :
    markDescriptors areas stride map n x = map x := by
  induction n with
  | zero => rfl
  | succ n ih =>
    rw [Nat.succ_mul] at h
    rw [markDescriptors, markDescriptor_outside, ih (by omega)]
    right
    simp only [DESC_SIZE, DESC_ATTRIBUTE] at *
    omega

theorem descAt_congr {map' : ℕ → UInt8} {off : ℕ}
    (h : ∀ x, off ≤ x → x < off + DESC_ATTRIBUTE → map' x = map x) :
    descAt map' off = descAt map off := by
  simp only [DESC_ATTRIBUTE] at h
  simp only [descAt, DESC_PHYSICAL_START, DESC_NUMBER_OF_PAGES]
  rw [get32_congr fun i hi => h (off + i) (by omega) (by omega),
    get64_congr fun i hi => h (off + 8 + i) (by omega) (by omega),
    get64_congr fun i hi => h (off + 24 + i) (by omega) (by omega)]

/-- The loop comes to a descriptor as the firmware has left it. -/
theorem descAt_markDescriptors (hstride : DESC_SIZE ≤ stride) :
    descAt (markDescriptors areas stride map n) (n * stride) = descAt map (n * stride) :=
  descAt_congr fun _ hx _ => markDescriptors_later hstride hx

/-- What the loop makes of one descriptor. -/
theorem markDescriptors_attribute (hstride : DESC_SIZE ≤ stride) {i : ℕ} (hi : i < n)
    (hmarks : Marks areas (descAt map (i * stride))) :
    attributeAt (markDescriptors areas stride map n) (i * stride) =
      attributeAt map (i * stride) ||| EFI_MEMORY_RUNTIME := by
  induction n with
  | zero => omega
  | succ n ih =>
    rw [markDescriptors]
    rcases Nat.lt_or_eq_of_le (Nat.le_of_lt_succ hi) with hlt | rfl
    · rw [← ih hlt]
      have hnext : i * stride + stride ≤ n * stride := by
        rw [← Nat.succ_mul]
        exact Nat.mul_le_mul_right stride hlt
      refine get64_congr fun j hj => markDescriptor_outside (Or.inl ?_)
      simp only [DESC_SIZE, DESC_ATTRIBUTE] at *
      omega
    · have hattribute : attributeAt (markDescriptors areas stride map i) (i * stride) =
          attributeAt map (i * stride) :=
        get64_congr fun j _ => markDescriptors_later hstride (by omega)
      rw [markDescriptor_marks (by rwa [descAt_markDescriptors hstride]), hattribute, attributeAt,
        get64_put64]

/-- Only the attributes of the descriptors that contain an area change. -/
theorem markDescriptors_outside (hstride : DESC_SIZE ≤ stride) {x : ℕ}
    (h : ∀ i < n, Marks areas (descAt map (i * stride)) →
      x < i * stride + DESC_ATTRIBUTE ∨ i * stride + DESC_ATTRIBUTE + 8 ≤ x) :
    markDescriptors areas stride map n x = map x := by
  induction n with
  | zero => rfl
  | succ n ih =>
    have ih' := ih fun i hi => h i (Nat.lt_succ_of_lt hi)
    rw [markDescriptors]
    by_cases hmarks : Marks areas (descAt map (n * stride))
    · rw [markDescriptor_outside (h n (Nat.lt_succ_self n) hmarks), ih']
    · rw [markDescriptor_skips (by rwa [descAt_markDescriptors hstride]), ih']

end Loops

/-! ## What the loops find -/

section Marks

variable {facs : UInt64} {desc : EfiMemoryDescriptor}

/-- The inner loop looks at the two areas that are registered. -/
theorem marks_iff : Marks (hookRuntimeAreas facs) desc ↔
    isMemAreaContainedInRange (hookRuntimeAreas facs 0) desc.physicalStart desc.stop = true ∨
      isMemAreaContainedInRange (hookRuntimeAreas facs 1) desc.physicalStart desc.stop = true := by
  have hrange : List.range RUNTIME_AREAS = 0 :: 1 :: 2 :: List.range' 3 29 := rfl
  have hfirst : (hookRuntimeAreas facs 0).size ≠ 0 := by
    show (4 : UInt64) ≠ 0
    decide
  have hsecond : (hookRuntimeAreas facs 1).size ≠ 0 := by
    show UInt64.ofNat CORE_HEADER_SIZE ≠ 0
    decide
  have hthird : (hookRuntimeAreas facs 2).size = 0 := rfl
  unfold Marks
  rw [hrange, containsRuntimeArea, if_neg hfirst, containsRuntimeArea, if_neg hsecond,
    containsRuntimeArea, if_pos hthird]
  by_cases h₀ : isMemAreaContainedInRange (hookRuntimeAreas facs 0) desc.physicalStart desc.stop
  · simp [h₀]
  · simp [h₀]

/-- The test of an area, for a descriptor whose end is an address. -/
theorem contained_iff {area : MemArea} (hdesc : desc.physicalStart.toNat + desc.bytes < 2 ^ 64)
    (harea : area.start.toNat + area.size.toNat < 2 ^ 64) :
    isMemAreaContainedInRange area desc.physicalStart desc.stop = true ↔
      desc.Covers area.start.toNat area.size.toNat := by
  have hbytes : desc.size.toNat = desc.bytes := by
    have h4096 : (UInt64.ofNat EFI_PAGE_SIZE).toNat = EFI_PAGE_SIZE := rfl
    rw [EfiMemoryDescriptor.bytes] at hdesc ⊢
    rw [EfiMemoryDescriptor.size, UInt64.toNat_mul, h4096]
    exact Nat.mod_eq_of_lt (by omega)
  have hstop : desc.stop.toNat = desc.physicalStart.toNat + desc.bytes := by
    rw [EfiMemoryDescriptor.stop, UInt64.toNat_add, hbytes, Nat.mod_eq_of_lt hdesc]
  rw [isMemAreaContainedInRange, Bool.and_eq_true, decide_eq_true_eq, decide_eq_true_eq,
    UInt64.le_iff_toNat_le, UInt64.le_iff_toNat_le, UInt64.toNat_add, Nat.mod_eq_of_lt harea, hstop]
  rfl

/-- The descriptors that the loops mark are those of what the `SetVariable` hook uses: one that
describes the reserved bytes describes the page, and with it the waking vector. -/
theorem marks_iff_uses (hfacs : facs.toNat % 64 = 0)
    (haligned : desc.physicalStart.toNat % EFI_PAGE_SIZE = 0)
    (hdesc : desc.physicalStart.toNat + desc.bytes < 2 ^ 64) :
    Marks (hookRuntimeAreas facs) desc ↔ Uses facs desc := by
  have hlt := facs.toNat_lt
  have hvector : (hookRuntimeAreas facs 0).start.toNat =
      facs.toNat + FACS_FIRMWARE_WAKING_VECTOR := by
    show (facs + UInt64.ofNat FACS_FIRMWARE_WAKING_VECTOR).toNat = _
    rw [UInt64.toNat_add, FACS_FIRMWARE_WAKING_VECTOR]
    exact Nat.mod_eq_of_lt (by simp; omega)
  have hsize : (hookRuntimeAreas facs 0).size.toNat = 4 := rfl
  have hcore : (hookRuntimeAreas facs 1).start.toNat = CORE_PHYS_ADDR := rfl
  have hcoreSize : (hookRuntimeAreas facs 1).size.toNat = CORE_HEADER_SIZE := rfl
  rw [marks_iff,
    contained_iff hdesc (by rw [hvector, hsize, FACS_FIRMWARE_WAKING_VECTOR]; omega),
    contained_iff hdesc (by rw [hcore, hcoreSize, CORE_PHYS_ADDR, CORE_HEADER_SIZE]; omega),
    hvector, hsize, hcore, hcoreSize, Uses]
  have hpage : desc.Covers (facs.toNat + FACS_RSVD1) 24 →
      desc.Covers (facs.toNat + FACS_FIRMWARE_WAKING_VECTOR) 4 := by
    simp only [EfiMemoryDescriptor.Covers, EfiMemoryDescriptor.bytes, FACS_RSVD1,
      FACS_FIRMWARE_WAKING_VECTOR, EFI_PAGE_SIZE] at *
    omega
  constructor
  · rintro (h | h)
    · exact Or.inl h
    · exact Or.inr (Or.inr h)
  · rintro (h | h | h)
    · exact Or.inl h
    · exact Or.inl (hpage h)
    · exact Or.inr h

end Marks

/-! ## What the hook exposes -/

theorem MapBuffers.WellFormed.vectors {facs : UInt64} {out : MapBuffers} (h : out.WellFormed facs)
    (hfacs : facs.toNat % 64 = 0) : ∃ i < out.descriptors,
      (out.desc i).Covers (facs.toNat + FACS_FIRMWARE_WAKING_VECTOR) 4 ∧
        (out.desc i).Covers (facs.toNat + FACS_RSVD1) 24 := by
  obtain ⟨i, hi, hcovers⟩ := h.facs
  refine ⟨i, hi, ?_⟩
  simp only [EfiMemoryDescriptor.Covers, FACS_RSVD1, FACS_FIRMWARE_WAKING_VECTOR,
    EFI_PAGE_SIZE] at *
  omega

theorem exposes_markDescriptors {facs : UInt64} {out : MapBuffers} (h : out.WellFormed facs)
    (hfacs : facs.toNat % 64 = 0) :
    Exposes facs out (markDescriptors (hookRuntimeAreas facs) out.descriptorSize.toNat
      out.memoryMap out.descriptors) := by
  have hiff : ∀ i < out.descriptors, Marks (hookRuntimeAreas facs) (out.desc i) ↔
      Uses facs (out.desc i) := fun i hi => marks_iff_uses hfacs (h.aligned i hi) (h.no_wrap i hi)
  refine ⟨h.vectors hfacs, ?_, fun i hi huses => ?_, fun x hx => ?_⟩
  · obtain ⟨i, hi, hcovers⟩ := h.core
    have hsize : CORE_HEADER_SIZE ≤ EFI_PAGE_SIZE := by decide
    exact ⟨i, hi, hcovers.1, le_trans (Nat.add_le_add_left hsize _) hcovers.2⟩
  · exact markDescriptors_attribute h.size hi ((hiff i hi).mpr huses)
  · exact markDescriptors_outside h.size fun i hi hmarks => hx i hi ((hiff i hi).mp hmarks)

/-- With the status of the original service, the hook returns its buffers: where it has succeeded, with
the descriptors marked that describe what the `SetVariable` hook uses, and otherwise as they are. -/
theorem getMemoryMapHook_exposes {σ : Type}
    (originalGetMemoryMap : MapBuffers → σ → UInt64 × MapBuffers × σ)
    (installConfigurationTable : Guid → σ → σ) (facs : UInt64) (args : MapBuffers) (s : σ)
    (hfacs : facs.toNat % 64 = 0)
    (hmap : (originalGetMemoryMap args s).1 = EFI_SUCCESS →
      (originalGetMemoryMap args s).2.1.WellFormed facs) :
    let out := (originalGetMemoryMap args s).2.1
    let r := getMemoryMapHook (getMemoryMapHeader originalGetMemoryMap installConfigurationTable facs)
      args s
    r.1 = (originalGetMemoryMap args s).1 ∧
      (r.1 = EFI_SUCCESS → Exposes facs out r.2.1.memoryMap ∧
        r.2.1 = { out with memoryMap := r.2.1.memoryMap }) ∧
      (r.1 ≠ EFI_SUCCESS → r.2.1 = out) := by
  intro out r
  by_cases hres : (originalGetMemoryMap args s).1 = EFI_SUCCESS
  · have hr : r.2.1 = { out with
        memoryMap := markDescriptors (hookRuntimeAreas facs) out.descriptorSize.toNat
          out.memoryMap out.descriptors } := if_pos hres
    have hmarked : r.2.1.memoryMap = markDescriptors (hookRuntimeAreas facs)
        out.descriptorSize.toNat out.memoryMap out.descriptors := congrArg MapBuffers.memoryMap hr
    refine ⟨rfl, fun _ => ⟨?_, ?_⟩, fun hne => absurd hres hne⟩
    · rw [hmarked]
      exact exposes_markDescriptors (hmap hres) hfacs
    · rw [hmarked]
      exact hr
  · exact ⟨rfl, fun h => absurd h hres, fun _ => if_neg hres⟩

/-- A map of two descriptors, 48 bytes apart: a page with the FACS, and the memory of core. -/
def sampleMap : MapBuffers where
  memoryMapSize := 96
  memoryMap := put64 (put64 (put64 (put64 (fun _ => 0) 8 0x7000) 24 1) 56 0x41000000) 72 16
  mapKey := 0
  descriptorSize := 48
  descriptorVersion := 1

theorem sampleMap_desc : sampleMap.desc 0 = ⟨0, 0x7000, 1⟩ ∧
    sampleMap.desc 1 = ⟨0, 0x41000000, 16⟩ := by
  constructor <;> decide

theorem sampleMap_wellFormed : sampleMap.WellFormed 0x7000 := by
  obtain ⟨hfirst, hsecond⟩ := sampleMap_desc
  have hcases : ∀ i < sampleMap.descriptors, i = 0 ∨ i = 1 := fun i hi => by
    have hlt : i < 2 := hi
    omega
  refine ⟨by decide, fun i hi => ?_, fun i hi => ?_, ⟨0, by decide, ?_⟩, ⟨1, by decide, ?_⟩⟩
  · obtain rfl | rfl := hcases i hi
    · rw [hfirst]
      decide
    · rw [hsecond]
      decide
  · obtain rfl | rfl := hcases i hi
    · rw [hfirst]
      decide
    · rw [hsecond]
      decide
  · rw [hfirst]
    unfold EfiMemoryDescriptor.Covers
    decide
  · rw [hsecond]
    unfold EfiMemoryDescriptor.Covers
    decide

theorem getMemoryMapHook_exposes_sampleMap : Exposes 0x7000 sampleMap
    (getMemoryMapHook (getMemoryMapHeader (fun _ s => (EFI_SUCCESS, sampleMap, s)) (fun _ s => s)
      0x7000) sampleMap ()).2.1.memoryMap :=
  ((getMemoryMapHook_exposes (fun _ s => (EFI_SUCCESS, sampleMap, s)) (fun _ s => s) 0x7000 sampleMap
    () (by decide) fun _ => sampleMap_wellFormed).2.1 rfl).1

end SwitchOs
