import SwitchOs.Hooks.VirtualMap
import SwitchOs.Hooks.GetMemoryMap
import SwitchOs.Hooks.Commands
import SwitchOs.Hooks.WakingVector
import SwitchOs.Lib.Regions

/-!
# The hooks of an OS that maps its firmware

`virtual_hook_agrees` follows an OS through the three hooks: it takes the memory map from the
`GetMemoryMap` hook and maps what is marked as runtime there; then the event converts all pointers, and
behind the mapping the `SetVariable` hook does what it does on physical memory, call by call.
-/

namespace SwitchOs

open CoreAction

/-! ## The `SetVariable` hook behind a mapping -/

/-- `struct set_variable_hook_header`. -/
structure SetVariablePointers where
  originalSetVariable : UInt64
  wakingVectorAddr : UInt64
  originalWakingVectorAddr : UInt64
  coreHeader : UInt64

/-- The header as `hook_set_variable` fills it in. -/
def writeSetVariableHeader (hook originalSetVariable facs : UInt64) (mem : ℕ → UInt8) : ℕ → UInt8 :=
  put64 (put64 (put64 (put64 mem hook.toNat originalSetVariable) (hook + 8).toNat
    (setVariableHeader facs).wakingVectorAddr) (hook + 16).toNat
      (setVariableHeader facs).originalWakingVectorAddr) (hook + 24).toNat (UInt64.ofNat CORE_PHYS_ADDR)

def readSetVariableHeader (hook : UInt64) (mem : ℕ → UInt8) : SetVariablePointers :=
  ⟨get64 mem hook.toNat, get64 mem (hook + 8).toNat, get64 mem (hook + 16).toNat,
    get64 mem (hook + 24).toNat⟩

/-- `offsetof(struct core_header, action)`. -/
def CORE_HEADER_ACTION : ℕ := 4

section Virtual

variable {facs : UInt64}

/-- `g_hook_header.core_header->action = action`, where the pointer leads to core's header. -/
def storeAction (rs : List Region) (coreHeader : UInt64) (core : CoreHeader) (m : Machine) :
    Option Machine :=
  if Maps rs (coreHeader.toNat + CORE_HEADER_ACTION) (CORE_PHYS_ADDR + CORE_HEADER_ACTION) 4 then
    some { m with core := core }
  else none

/-- What the hook does to the waking vector. -/
def overrideVirtual (rs : List Region) (p : SetVariablePointers) (mem : ℕ → UInt8) :
    Option (ℕ → UInt8) := do
  let waking ← load32 rs mem p.wakingVectorAddr.toNat
  if waking ≠ CORE_WAKEUP_PHYS_ADDR then
    let mem ← store32 rs mem p.originalWakingVectorAddr.toNat waking
    store32 rs mem p.wakingVectorAddr.toNat CORE_WAKEUP_PHYS_ADDR
  else some mem

/-- `_start` of the `SetVariable` hook, with every access through the mapping: nothing comes back where
one faults, or where a pointer leads elsewhere. `original` is where the firmware's service lies. -/
def setVariableVirtual (rs : List Region) (F : Firmware facs) (original : ℕ) (p : SetVariablePointers)
    (call : SetVariableCall) (m : Machine) : Option (UInt64 × Machine) :=
  if isCommandsGuid call.vendorGuid then
    if call.dataSize = 0 then some (EFI_SUCCESS, m)
    else if wstrcmp call.variableName 0 (wideLiteral "SET_CORE_ACTION") = 0 then
      match setCoreActionHandler call.data call.dataSize m.core with
      | .ok core => (storeAction rs p.coreHeader core m).map fun m => (EFI_SUCCESS, m)
      | .error e => some (efierr e, m)
    else some (EFI_SUCCESS, m)
  else do
    let mem ← if wstrcmp call.variableName 0 (wideLiteral "SystemSleepCheckpoint") = 0 then
        overrideVirtual rs p m.mem
      else some m.mem
    if toPhysical rs p.originalSetVariable.toNat = some original then
      some ((F.setVariable call mem).1, { m with mem := (F.setVariable call mem).2 })
    else none

/-- The pointers lead through the mapping to what they stand for. -/
structure LeadTo (rs : List Region) (facs : UInt64) (original : ℕ) (p : SetVariablePointers) : Prop where
  original : toPhysical rs p.originalSetVariable.toNat = some original
  waking : Maps rs p.wakingVectorAddr.toNat (facs.toNat + FACS_FIRMWARE_WAKING_VECTOR) 4
  saved : Maps rs p.originalWakingVectorAddr.toNat (facs.toNat + FACS_RSVD1) 4
  core : Maps rs (p.coreHeader.toNat + CORE_HEADER_ACTION) (CORE_PHYS_ADDR + CORE_HEADER_ACTION) 4

variable {rs : List Region} {F : Firmware facs} {original : ℕ} {p : SetVariablePointers} {m : Machine}

theorem overrideVirtual_eq (h : LeadTo rs facs original p) (hfacs : m.core.facs = facs) :
    overrideVirtual rs p m.mem = some (if m.core.wakingVector m.mem ≠ CORE_WAKEUP_PHYS_ADDR then
      m.core.overrideWakingVector m.mem else m.mem) := by
  subst hfacs
  have hget : get32 m.mem (m.core.facs.toNat + FACS_FIRMWARE_WAKING_VECTOR) =
      m.core.wakingVector m.mem := rfl
  rw [overrideVirtual, load32_eq _ h.waking, Option.bind_eq_bind, Option.bind_some, hget]
  split_ifs with hwaking
  · rw [store32_eq _ _ h.saved, Option.bind_eq_bind, Option.bind_some, store32_eq _ _ h.waking]
    rfl
  · rfl

/-- **One call** behind the mapping is a call of the hook. -/
theorem setVariableVirtual_eq (h : LeadTo rs facs original p) (hfacs : m.core.facs = facs)
    (call : SetVariableCall) :
    setVariableVirtual rs F original p call m = some (setVariableHook F call m) := by
  unfold setVariableVirtual setVariableHook
  by_cases hguid : isCommandsGuid call.vendorGuid = true
  · rw [if_pos hguid, if_pos hguid]
    by_cases hsize : call.dataSize = 0
    · rw [if_pos hsize, if_pos hsize]
    · rw [if_neg hsize, if_neg hsize, handleCommand]
      by_cases hname : wstrcmp call.variableName 0 (wideLiteral "SET_CORE_ACTION") = 0
      · rw [if_pos hname, if_pos hname]
        cases setCoreActionHandler call.data call.dataSize m.core with
        | ok core =>
          show (storeAction rs p.coreHeader core m).map _ = _
          rw [storeAction, if_pos h.core]
          rfl
        | error e => rfl
      · rw [if_neg hname, if_neg hname]
  · rw [if_neg hguid, if_neg hguid]
    by_cases hname : wstrcmp call.variableName 0 (wideLiteral "SystemSleepCheckpoint") = 0
    · simp only [hname, if_true, overrideVirtual_eq h hfacs, Option.bind_eq_bind, Option.bind_some,
        h.original, true_and]
    · simp only [hname, if_false, Option.bind_eq_bind, Option.bind_some, h.original, if_true,
        false_and]

/-- Calls of the hook behind the mapping, one after the other: their statuses, and the machine. -/
def callsVirtual (rs : List Region) (F : Firmware facs) (original : ℕ) (p : SetVariablePointers) :
    List SetVariableCall → Machine → Option (List UInt64 × Machine)
  | [], m => some ([], m)
  | call :: calls, m => do
    let r ← setVariableVirtual rs F original p call m
    let rest ← callsVirtual rs F original p calls r.2
    some (r.1 :: rest.1, rest.2)

/-- Calls of the hook on physical memory. -/
def callsPhysical (F : Firmware facs) : List SetVariableCall → Machine → List UInt64 × Machine
  | [], m => ([], m)
  | call :: calls, m =>
    ((setVariableHook F call m).1 :: (callsPhysical F calls (setVariableHook F call m).2).1,
      (callsPhysical F calls (setVariableHook F call m).2).2)

theorem setVariableHook_facs (call : SetVariableCall) (hfacs : m.core.facs = facs) :
    (setVariableHook F call m).2.core.facs = facs := by
  rcases setVariableHook_cases F call m hfacs with (heq | ⟨action, -, heq⟩) | ⟨hcore, -⟩
  · rw [heq, hfacs]
  · rw [heq]
    exact hfacs
  · rw [hcore, hfacs]

/-- **Every sequence of calls** behind the mapping comes to what it comes to on physical memory. -/
theorem callsVirtual_eq (h : LeadTo rs facs original p) (calls : List SetVariableCall) :
    ∀ m : Machine, m.core.facs = facs →
      callsVirtual rs F original p calls m = some (callsPhysical F calls m) := by
  induction calls with
  | nil => exact fun _ _ => rfl
  | cons call calls ih =>
    intro m hfacs
    rw [callsVirtual, setVariableVirtual_eq h hfacs, Option.bind_eq_bind, Option.bind_some,
      ih _ (setVariableHook_facs call hfacs), Option.bind_eq_bind, Option.bind_some, callsPhysical]

end Virtual

/-! ## An OS that maps its firmware -/

/-- What is relied on of `ConvertPointer` under the map of an OS: a pointer that is not null and lies in
a region of the map becomes the address at which the region has it. -/
def ConvertsBy (rs : List Region) (convert : UInt64 → Option UInt64) : Prop :=
  ∀ p, p ≠ 0 → (∃ r ∈ rs, r.Holds p.toNat) → ∃ r ∈ rs, r.Holds p.toNat ∧
    convert p = some (UInt64.ofNat (r.virtualStart + (p.toNat - r.physicalStart)))

/-- Descriptor `i` of the map is marked as runtime. -/
def MapBuffers.IsRuntime (out : MapBuffers) (i : ℕ) : Prop :=
  attributeAt out.memoryMap (i * out.descriptorSize.toNat) &&& EFI_MEMORY_RUNTIME ≠ 0

/-- The map has a runtime descriptor of the byte `a`. -/
def MapBuffers.RuntimeAt (out : MapBuffers) (a : ℕ) : Prop :=
  ∃ i < out.descriptors, out.IsRuntime i ∧ (out.desc i).Covers a 1

/-- The OS maps the runtime descriptors of its map, in whole pages, and no virtual address twice. -/
structure MapsRuntime (out : MapBuffers) (rs : List Region) : Prop where
  runtime : ∀ i < out.descriptors, out.IsRuntime i → ∃ r ∈ rs,
    r.physicalStart = (out.desc i).physicalStart.toNat ∧ r.length = (out.desc i).bytes
  aligned : ∀ r ∈ rs, r.physicalStart % EFI_PAGE_SIZE = 0 ∧ r.length % EFI_PAGE_SIZE = 0
  separate : Separate rs
  bound : ∀ r ∈ rs, r.virtualStart + r.length ≤ 2 ^ 64

section Os

variable {out : MapBuffers} {map : ℕ → UInt8} {rs : List Region} {convert : UInt64 → Option UInt64}
  {facs : UInt64}

theorem MapsRuntime.holds (h : MapsRuntime out rs) {a : ℕ} (ha : out.RuntimeAt a) :
    ∃ r ∈ rs, r.Holds a := by
  obtain ⟨i, hi, hruntime, hstart, hend⟩ := ha
  obtain ⟨r, hr, hphysical, hlength⟩ := h.runtime i hi hruntime
  exact ⟨r, hr, by rw [hphysical]; exact hstart, by rw [hphysical, hlength]; omega⟩

/-- A region that holds a byte holds the rest of its page. -/
theorem MapsRuntime.page (h : MapsRuntime out rs) {r : Region} (hr : r ∈ rs) {a k : ℕ}
    (ha : r.Holds a) (hpage : a % EFI_PAGE_SIZE + k < EFI_PAGE_SIZE) : r.Holds (a + k) := by
  obtain ⟨hstart, hlength⟩ := h.aligned r hr
  obtain ⟨hlow, hhigh⟩ := ha
  simp only [EFI_PAGE_SIZE] at hpage hstart hlength
  exact ⟨by omega, by omega⟩

/-- A pointer to what does not go beyond its page is converted, to where all of it is mapped. -/
theorem MapsRuntime.converts (h : MapsRuntime out rs) (hconvert : ConvertsBy rs convert) {p : UInt64}
    {n : ℕ} (hp : p ≠ 0) (hheld : ∃ r ∈ rs, r.Holds p.toNat)
    (hpage : ∀ k < n, p.toNat % EFI_PAGE_SIZE + k < EFI_PAGE_SIZE) :
    ∃ v, convert p = some v ∧ Maps rs v.toNat p.toNat n := by
  obtain ⟨r, hr, hholds, hv⟩ := hconvert p hp hheld
  have hbound := h.bound r hr
  have htoNat : (UInt64.ofNat (r.virtualStart + (p.toNat - r.physicalStart))).toNat =
      r.virtualStart + (p.toNat - r.physicalStart) := by
    obtain ⟨hstart, hend⟩ := hholds
    rw [UInt64.toNat_ofNat']
    exact Nat.mod_eq_of_lt (by omega)
  refine ⟨_, hv, ?_⟩
  rw [htoNat]
  refine maps_of_mem h.separate hr hholds ?_
  cases n with
  | zero =>
    obtain ⟨-, hhigh⟩ := hholds
    omega
  | succ n =>
    have hlast := h.page hr hholds (hpage n (Nat.lt_succ_self n))
    exact hlast.2

/-! ### The map from the hook -/

theorem or_runtime_ne_zero (a : UInt64) : (a ||| EFI_MEMORY_RUNTIME) &&& EFI_MEMORY_RUNTIME ≠ 0 := by
  have hself : (a ||| EFI_MEMORY_RUNTIME) &&& EFI_MEMORY_RUNTIME = EFI_MEMORY_RUNTIME := by
    refine UInt64.toNat_inj.mp (Nat.eq_of_testBit_eq fun i => ?_)
    rw [UInt64.toNat_and, UInt64.toNat_or, Nat.testBit_and, Nat.testBit_or]
    cases EFI_MEMORY_RUNTIME.toNat.testBit i <;> simp
  rw [hself]
  decide

/-- The descriptors of different numbers are apart. -/
theorem descriptors_apart {stride i j : ℕ} (hstride : DESC_SIZE ≤ stride) (hij : i ≠ j) :
    i * stride + DESC_SIZE ≤ j * stride ∨ j * stride + DESC_SIZE ≤ i * stride := by
  rcases Nat.lt_or_gt_of_ne hij with hlt | hgt
  · have hnext := Nat.mul_le_mul_right stride (Nat.succ_le_of_lt hlt)
    rw [Nat.succ_mul] at hnext
    exact Or.inl (by omega)
  · have hnext := Nat.mul_le_mul_right stride (Nat.succ_le_of_lt hgt)
    rw [Nat.succ_mul] at hnext
    exact Or.inr (by omega)

variable (hx : Exposes facs out map) (hsize : DESC_SIZE ≤ out.descriptorSize.toNat)

include hx hsize

/-- The hook leaves the descriptors as they are, but for their attributes. -/
theorem Exposes.desc (i : ℕ) : ({ out with memoryMap := map } : MapBuffers).desc i = out.desc i := by
  refine descAt_congr fun x hlow hhigh => hx.kept x fun j hj _ => ?_
  show x < j * out.descriptorSize.toNat + DESC_ATTRIBUTE ∨
    j * out.descriptorSize.toNat + DESC_ATTRIBUTE + 8 ≤ x
  simp only [DESC_SIZE, DESC_ATTRIBUTE] at hsize hlow hhigh ⊢
  by_cases hij : i = j
  · subst hij
    omega
  · have hapart := descriptors_apart hsize hij
    simp only [DESC_SIZE] at hapart
    omega

/-- What was a runtime descriptor still is one. -/
theorem Exposes.isRuntime {i : ℕ} (hi : i < out.descriptors) (hruntime : out.IsRuntime i) :
    ({ out with memoryMap := map } : MapBuffers).IsRuntime i := by
  by_cases huses : Uses facs (out.desc i)
  · show attributeAt map (i * out.descriptorSize.toNat) &&& EFI_MEMORY_RUNTIME ≠ 0
    rw [hx.marked i hi huses]
    exact or_runtime_ne_zero _
  · have hkept : attributeAt map (i * out.descriptorSize.toNat) =
        attributeAt out.memoryMap (i * out.descriptorSize.toNat) := by
      refine get64_congr fun k hk => hx.kept _ fun j hj huses' => ?_
      have hij : i ≠ j := fun hij => huses (hij ▸ huses')
      have hapart := descriptors_apart hsize hij
      simp only [DESC_SIZE, DESC_ATTRIBUTE] at hsize hapart ⊢
      omega
    show attributeAt map (i * out.descriptorSize.toNat) &&& EFI_MEMORY_RUNTIME ≠ 0
    rw [hkept]
    exact hruntime

theorem Exposes.runtimeAt {a : ℕ} (ha : out.RuntimeAt a) :
    ({ out with memoryMap := map } : MapBuffers).RuntimeAt a := by
  obtain ⟨i, hi, hruntime, hcovers⟩ := ha
  exact ⟨i, hi, hx.isRuntime hsize hi hruntime, by rwa [hx.desc hsize]⟩

/-- What the `SetVariable` hook uses is in runtime descriptors. -/
theorem Exposes.runtimeAt_uses :
    ({ out with memoryMap := map } : MapBuffers).RuntimeAt
        (facs.toNat + FACS_FIRMWARE_WAKING_VECTOR) ∧
      ({ out with memoryMap := map } : MapBuffers).RuntimeAt (facs.toNat + FACS_RSVD1) ∧
      ({ out with memoryMap := map } : MapBuffers).RuntimeAt CORE_PHYS_ADDR := by
  have hruntime : ∀ i < out.descriptors, Uses facs (out.desc i) →
      ({ out with memoryMap := map } : MapBuffers).IsRuntime i := by
    intro i hi huses
    show attributeAt map (i * out.descriptorSize.toNat) &&& EFI_MEMORY_RUNTIME ≠ 0
    rw [hx.marked i hi huses]
    exact or_runtime_ne_zero _
  have hfirst : ∀ {i a n : ℕ}, (out.desc i).Covers a n → 0 < n →
      (({ out with memoryMap := map } : MapBuffers).desc i).Covers a 1 := by
    intro i a n hcovers hn
    rw [hx.desc hsize]
    exact ⟨hcovers.1, by have := hcovers.2; omega⟩
  obtain ⟨i, hi, hwaking, hsaved⟩ := hx.vectors
  obtain ⟨j, hj, hcore⟩ := hx.core
  exact ⟨⟨i, hi, hruntime i hi (Or.inl hwaking), hfirst hwaking (by decide)⟩,
    ⟨i, hi, hruntime i hi (Or.inl hwaking), hfirst hsaved (by decide)⟩,
    ⟨j, hj, hruntime j hj (Or.inr (Or.inr hcore)), hfirst hcore (by decide)⟩⟩

end Os

/-! ### The way through -/

/-- The headers of the hooks lie in pages of their own. -/
structure HookPages (hook : UInt64) (header : ℕ) : Prop where
  hook_ne : hook ≠ 0
  hook_aligned : hook.toNat % EFI_PAGE_SIZE = 0
  header_aligned : header % EFI_PAGE_SIZE = 0
  apart : hook.toNat ≠ header

section Way

variable {hook : UInt64} {header : ℕ}

theorem HookPages.targets (h : HookPages hook header) :
    (setVariablePtrs hook).length = 4 ∧
      ∀ i < 4, target (setVariablePtrs hook) i = hook.toNat + 8 * i := by
  have hlt := hook.toNat_lt
  have haligned := h.hook_aligned
  rw [EFI_PAGE_SIZE] at haligned
  refine ⟨rfl, fun i hi => ?_⟩
  rw [target, setVariablePtrs]
  obtain rfl | rfl | rfl | rfl : i = 0 ∨ i = 1 ∨ i = 2 ∨ i = 3 := by omega
  · rfl
  · show (hook + 8).toNat = _
    rw [UInt64.toNat_add, show (8 : UInt64).toNat = 8 from rfl]
    omega
  · show (hook + 16).toNat = _
    rw [UInt64.toNat_add, show (16 : UInt64).toNat = 16 from rfl]
    omega
  · show (hook + 24).toNat = _
    rw [UInt64.toNat_add, show (24 : UInt64).toNat = 24 from rfl]
    omega

theorem HookPages.layout (h : HookPages hook header) : FixLayout header (setVariablePtrs hook) := by
  obtain ⟨hlength, htarget⟩ := h.targets
  have hne := h.hook_ne
  have haligned := h.hook_aligned
  have haligned' := h.header_aligned
  have hapart := h.apart
  rw [EFI_PAGE_SIZE] at haligned haligned'
  have hpos : hook.toNat ≠ 0 := fun hzero => hne (UInt64.toNat_inj.mp hzero)
  refine ⟨by rw [hlength]; decide, fun i hi hzero => ?_, fun i hi j hj hij => ?_, fun i hi => ?_⟩
  · have htarget' := htarget i hi
    rw [target, hzero] at htarget'
    exact hpos (by have : (0 : UInt64).toNat = 0 := rfl; omega)
  · rw [htarget i hi, htarget j hj]
    omega
  · rw [hlength] at hi
    rw [htarget i hi, EVENT_HEADER_SIZE]
    omega

/-- Four words on end, one after the other, read as they have been written. -/
theorem get64_words (mem : ℕ → UInt8) (a : ℕ) (v₀ v₁ v₂ v₃ : UInt64) :
    get64 (put64 (put64 (put64 (put64 mem a v₀) (a + 8) v₁) (a + 16) v₂) (a + 24) v₃) a = v₀ ∧
      get64 (put64 (put64 (put64 (put64 mem a v₀) (a + 8) v₁) (a + 16) v₂) (a + 24) v₃) (a + 8) = v₁ ∧
      get64 (put64 (put64 (put64 (put64 mem a v₀) (a + 8) v₁) (a + 16) v₂) (a + 24) v₃) (a + 16) =
        v₂ ∧
      get64 (put64 (put64 (put64 (put64 mem a v₀) (a + 8) v₁) (a + 16) v₂) (a + 24) v₃) (a + 24) =
        v₃ := by
  refine ⟨?_, ?_, ?_, get64_put64 _ _ _⟩
  · rw [get64_put64_outside (by omega), get64_put64_outside (by omega),
      get64_put64_outside (by omega), get64_put64]
  · rw [get64_put64_outside (by omega), get64_put64_outside (by omega), get64_put64]
  · rw [get64_put64_outside (by omega), get64_put64]

/-- The header of the `SetVariable` hook reads as it has been written. -/
theorem HookPages.read (h : HookPages hook header) (original facs : UInt64) (mem : ℕ → UInt8) :
    readSetVariableHeader hook (writeSetVariableHeader hook original facs mem) =
      ⟨original, (setVariableHeader facs).wakingVectorAddr,
        (setVariableHeader facs).originalWakingVectorAddr, UInt64.ofNat CORE_PHYS_ADDR⟩ := by
  obtain ⟨-, htarget⟩ := h.targets
  have h₁ : (hook + 8).toNat = hook.toNat + 8 := htarget 1 (by decide)
  have h₂ : (hook + 16).toNat = hook.toNat + 16 := htarget 2 (by decide)
  have h₃ : (hook + 24).toNat = hook.toNat + 24 := htarget 3 (by decide)
  obtain ⟨hfirst, hsecond, hthird, hfourth⟩ := get64_words mem hook.toNat original
    (setVariableHeader facs).wakingVectorAddr (setVariableHeader facs).originalWakingVectorAddr
    (UInt64.ofNat CORE_PHYS_ADDR)
  rw [readSetVariableHeader, writeSetVariableHeader, h₁, h₂, h₃, hfirst, hsecond, hthird, hfourth]

/-- The fields that the pointers point to, as the hook reads them. -/
theorem get64_targets (hook : UInt64) (mem : ℕ → UInt8) :
    get64 mem (target (setVariablePtrs hook) 0) =
        (readSetVariableHeader hook mem).originalSetVariable ∧
      get64 mem (target (setVariablePtrs hook) 1) =
        (readSetVariableHeader hook mem).wakingVectorAddr ∧
      get64 mem (target (setVariablePtrs hook) 2) =
        (readSetVariableHeader hook mem).originalWakingVectorAddr ∧
      get64 mem (target (setVariablePtrs hook) 3) = (readSetVariableHeader hook mem).coreHeader :=
  ⟨rfl, rfl, rfl, rfl⟩

section Converted

variable {out : MapBuffers} {rs : List Region} {convert : UInt64 → Option UInt64}
  {facs original : UInt64}

/-- The fields of the header, converted under a map that holds what they point to. -/
theorem MapsRuntime.fields (hrs : MapsRuntime out rs) (hconvert : ConvertsBy rs convert)
    (hfacs : facs.toNat % 64 = 0) (horiginal : original ≠ 0)
    (hcode : out.RuntimeAt original.toNat)
    (hwaking : out.RuntimeAt (facs.toNat + FACS_FIRMWARE_WAKING_VECTOR))
    (hsaved : out.RuntimeAt (facs.toNat + FACS_RSVD1)) (hcore : out.RuntimeAt CORE_PHYS_ADDR) :
    ∃ v₀ v₁ v₂ v₃, convert original = some v₀ ∧
      convert (setVariableHeader facs).wakingVectorAddr = some v₁ ∧
      convert (setVariableHeader facs).originalWakingVectorAddr = some v₂ ∧
      convert (UInt64.ofNat CORE_PHYS_ADDR) = some v₃ ∧
      LeadTo rs facs original.toNat ⟨v₀, v₁, v₂, v₃⟩ := by
  have hlt := facs.toNat_lt
  have hwakingAddr : (setVariableHeader facs).wakingVectorAddr.toNat =
      facs.toNat + FACS_FIRMWARE_WAKING_VECTOR := by
    rw [setVariableHeader, UInt64.toNat_add, FACS_FIRMWARE_WAKING_VECTOR]
    exact Nat.mod_eq_of_lt (by simp; omega)
  have hsavedAddr : (setVariableHeader facs).originalWakingVectorAddr.toNat =
      facs.toNat + FACS_RSVD1 := by
    rw [setVariableHeader, UInt64.toNat_add, FACS_RSVD1]
    exact Nat.mod_eq_of_lt (by simp; omega)
  have hcoreAddr : (UInt64.ofNat CORE_PHYS_ADDR).toNat = CORE_PHYS_ADDR := rfl
  obtain ⟨v₀, hv₀, hto₀⟩ := @MapsRuntime.converts _ _ _ hrs hconvert original 1 horiginal (hrs.holds hcode)
    fun k hk => by rw [EFI_PAGE_SIZE]; omega
  obtain ⟨v₁, hv₁, hto₁⟩ := @MapsRuntime.converts _ _ _ hrs hconvert (setVariableHeader facs).wakingVectorAddr 4
    (fun hzero => by
      rw [hzero, FACS_FIRMWARE_WAKING_VECTOR] at hwakingAddr
      exact absurd hwakingAddr.symm (Nat.succ_ne_zero _))
    (by rw [hwakingAddr]; exact hrs.holds hwaking)
    fun k hk => by rw [hwakingAddr, EFI_PAGE_SIZE, FACS_FIRMWARE_WAKING_VECTOR]; omega
  obtain ⟨v₂, hv₂, hto₂⟩ := @MapsRuntime.converts _ _ _ hrs hconvert
    (setVariableHeader facs).originalWakingVectorAddr 4
    (fun hzero => by
      rw [hzero, FACS_RSVD1] at hsavedAddr
      exact absurd hsavedAddr.symm (Nat.succ_ne_zero _))
    (by rw [hsavedAddr]; exact hrs.holds hsaved)
    fun k hk => by rw [hsavedAddr, EFI_PAGE_SIZE, FACS_RSVD1]; omega
  obtain ⟨v₃, hv₃, hto₃⟩ := @MapsRuntime.converts _ _ _ hrs hconvert (UInt64.ofNat CORE_PHYS_ADDR) 8 (by decide)
    (by rw [hcoreAddr]; exact hrs.holds hcore)
    fun k hk => by rw [hcoreAddr, EFI_PAGE_SIZE, CORE_PHYS_ADDR]; omega
  exact ⟨v₀, v₁, v₂, v₃, hv₀, hv₁, hv₂, hv₃, hto₀ 0 (by decide), hwakingAddr ▸ hto₁,
    hsavedAddr ▸ hto₂, (hcoreAddr ▸ hto₃).drop⟩

/-- The pointers to the fields are converted, since the map holds the page of the hook. -/
theorem HookPages.pointers (h : HookPages hook header) (hrs : MapsRuntime out rs)
    (hconvert : ConvertsBy rs convert) (hhook : out.RuntimeAt hook.toNat) :
    ∀ i < 4, convert ((setVariablePtrs hook).getD i 0) ≠ none := by
  obtain ⟨hlength, htarget⟩ := h.targets
  have haligned := h.hook_aligned
  intro i hi
  have hptr : ((setVariablePtrs hook).getD i 0).toNat = hook.toNat + 8 * i := htarget i hi
  obtain ⟨r, hr, hholds⟩ := hrs.holds hhook
  have hheld : r.Holds ((setVariablePtrs hook).getD i 0).toNat := by
    rw [hptr]
    exact hrs.page hr hholds (by rw [haligned, EFI_PAGE_SIZE]; omega)
  obtain ⟨w, hw, -⟩ := @MapsRuntime.converts _ _ _ hrs hconvert _ 0
    (h.layout.nonzero i (by rw [hlength]; exact hi)) ⟨r, hr, hheld⟩
    fun k hk => absurd hk (Nat.not_lt_zero k)
  rw [hw]
  exact Option.some_ne_none w

/-- The event under a map that holds everything, and the hook after it. -/
theorem HookPages.leadTo (h : HookPages hook header) (hrs : MapsRuntime out rs)
    (hconvert : ConvertsBy rs convert) {service : UInt64} (hfacs : facs.toNat % 64 = 0)
    (horiginal : original ≠ 0) (hservice : service ≠ 0) (hcode : out.RuntimeAt original.toNat)
    (hcode' : out.RuntimeAt service.toNat) (hhook : out.RuntimeAt hook.toNat)
    (hwaking : out.RuntimeAt (facs.toNat + FACS_FIRMWARE_WAKING_VECTOR))
    (hsaved : out.RuntimeAt (facs.toNat + FACS_RSVD1)) (hcore : out.RuntimeAt CORE_PHYS_ADDR)
    (mem : ℕ → UInt8) :
    ∃ mem', virtualAddressMapEvent convert header
        (writeEventHeader header service (setVariablePtrs hook)
          (writeSetVariableHeader hook original facs mem)) = some (.ok (), mem') ∧
      LeadTo rs facs original.toNat (readSetVariableHeader hook mem') := by
  obtain ⟨hlength, -⟩ := h.targets
  have hread := h.read original facs mem
  generalize hmem₀ : writeSetVariableHeader hook original facs mem = mem₀ at hread
  obtain ⟨v₀, v₁, v₂, v₃, hv₀, hv₁, hv₂, hv₃, hlead⟩ :=
    hrs.fields hconvert hfacs horiginal hcode hwaking hsaved hcore
  obtain ⟨v, hv, -⟩ := @MapsRuntime.converts _ _ _ hrs hconvert service 0 hservice (hrs.holds hcode')
    fun k hk => absurd hk (Nat.not_lt_zero k)
  have hfields : ∀ i < 4, convert (get64 mem₀ (target (setVariablePtrs hook) i)) =
      some ([v₀, v₁, v₂, v₃].getD i 0) := by
    obtain ⟨h₀, h₁, h₂, h₃⟩ := get64_targets hook mem₀
    rw [hread] at h₀ h₁ h₂ h₃
    intro i hi
    obtain rfl | rfl | rfl | rfl : i = 0 ∨ i = 1 ∨ i = 2 ∨ i = 3 := by omega
    · rw [h₀, hv₀, List.getD_cons_zero]
    · rw [h₁, hv₁, List.getD_cons_succ, List.getD_cons_zero]
    · rw [h₂, hv₂, List.getD_cons_succ, List.getD_cons_succ, List.getD_cons_zero]
    · rw [h₃, hv₃, List.getD_cons_succ, List.getD_cons_succ, List.getD_cons_succ, List.getD_cons_zero]
  have hall : ∀ i < 4, Convertible convert (setVariablePtrs hook) mem₀ i :=
    fun i hi => ⟨by rw [hfields i hi]; exact Option.some_ne_none _, h.pointers hrs hconvert hhook i hi⟩
  obtain ⟨mem', hrun, hconverted⟩ := virtualAddressMapEvent_ok h.layout
    (fun i hi => hall i (by rwa [hlength] at hi)) (by rw [hv]; exact Option.some_ne_none v)
  have hnew : ∀ i < 4, get64 mem' (target (setVariablePtrs hook) i) = [v₀, v₁, v₂, v₃].getD i 0 :=
    fun i hi => hconverted i (by rw [hlength]; exact hi) _ (hfields i hi)
  have hheader : readSetVariableHeader hook mem' = ⟨v₀, v₁, v₂, v₃⟩ := by
    obtain ⟨h₀, h₁, h₂, h₃⟩ := get64_targets hook mem'
    rw [hnew 0 (by decide), List.getD_cons_zero] at h₀
    rw [hnew 1 (by decide), List.getD_cons_succ, List.getD_cons_zero] at h₁
    rw [hnew 2 (by decide), List.getD_cons_succ, List.getD_cons_succ, List.getD_cons_zero] at h₂
    rw [hnew 3 (by decide), List.getD_cons_succ, List.getD_cons_succ, List.getD_cons_succ,
      List.getD_cons_zero] at h₃
    rw [h₀, h₁, h₂, h₃]
  refine ⟨mem', hrun, ?_⟩
  rw [hheader]
  exact hlead

end Converted

/-- **An OS that maps its firmware.** It takes the memory map from the `GetMemoryMap` hook and maps what
is marked as runtime there; the firmware's code and the headers of the hooks are runtime memory. Then
the event converts all pointers, and behind the mapping the `SetVariable` hook comes to what it comes to
on physical memory, whatever it is called with, and however often. -/
theorem virtual_hook_agrees {σ : Type}
    (originalGetMemoryMap : MapBuffers → σ → UInt64 × MapBuffers × σ)
    (installConfigurationTable : Guid → σ → σ) {facs : UInt64} (F : Firmware facs) (args : MapBuffers)
    (s : σ) (hfacs : facs.toNat % 64 = 0) (hsuccess : (originalGetMemoryMap args s).1 = EFI_SUCCESS)
    (hmap : (originalGetMemoryMap args s).2.1.WellFormed facs) {original service : UInt64}
    (hpages : HookPages hook header) (horiginal : original ≠ 0) (hservice : service ≠ 0)
    (hcode : (originalGetMemoryMap args s).2.1.RuntimeAt original.toNat)
    (hcode' : (originalGetMemoryMap args s).2.1.RuntimeAt service.toNat)
    (hhook : (originalGetMemoryMap args s).2.1.RuntimeAt hook.toNat) {rs : List Region}
    (hrs : MapsRuntime (getMemoryMapHook (getMemoryMapHeader originalGetMemoryMap
      installConfigurationTable facs) args s).2.1 rs) {convert : UInt64 → Option UInt64}
    (hconvert : ConvertsBy rs convert) (mem : ℕ → UInt8) :
    ∃ mem', virtualAddressMapEvent convert header
        (writeEventHeader header service (setVariablePtrs hook)
          (writeSetVariableHeader hook original facs mem)) = some (.ok (), mem') ∧
      ∀ (calls : List SetVariableCall) (m : Machine), m.core.facs = facs →
        callsVirtual rs F original.toNat (readSetVariableHeader hook mem') calls m =
          some (callsPhysical F calls m) := by
  have hout : (getMemoryMapHook (getMemoryMapHeader originalGetMemoryMap installConfigurationTable
      facs) args s).2.1 = { (originalGetMemoryMap args s).2.1 with
        memoryMap := markDescriptors (hookRuntimeAreas facs)
          (originalGetMemoryMap args s).2.1.descriptorSize.toNat
          (originalGetMemoryMap args s).2.1.memoryMap
          (originalGetMemoryMap args s).2.1.descriptors } := if_pos hsuccess
  have hx := exposes_markDescriptors hmap hfacs
  rw [hout] at hrs
  obtain ⟨hwaking, hsaved, hcore⟩ := hx.runtimeAt_uses hmap.size
  obtain ⟨mem', hrun, hlead⟩ := hpages.leadTo hrs hconvert hfacs horiginal hservice
    (hx.runtimeAt hmap.size hcode) (hx.runtimeAt hmap.size hcode') (hx.runtimeAt hmap.size hhook)
    hwaking hsaved hcore mem
  exact ⟨mem', hrun, fun calls m hm => callsVirtual_eq hlead calls m hm⟩

end Way

/-! ### One OS -/

theorem sample_hookPages : HookPages 0xA000 0xB000 := ⟨by decide, by decide, by decide, by decide⟩

/-- A map of three descriptors: a page with the FACS, the memory of core, and, as runtime memory, pages
with the firmware's code and the headers of the hooks. -/
def bootMap : MapBuffers where
  memoryMapSize := 144
  memoryMap := put64 (put64 (put64 (put64 (put64 (put64 (put64 (fun _ => 0) 8 0x7000) 24 1)
    56 0x41000000) 72 16) 104 0x9000) 120 4) 128 EFI_MEMORY_RUNTIME
  mapKey := 0
  descriptorSize := 48
  descriptorVersion := 1

theorem bootMap_desc : bootMap.desc 0 = ⟨0, 0x7000, 1⟩ ∧ bootMap.desc 1 = ⟨0, 0x41000000, 16⟩ ∧
    bootMap.desc 2 = ⟨0, 0x9000, 4⟩ := by
  refine ⟨?_, ?_, ?_⟩ <;> decide

theorem bootMap_cases {i : ℕ} (hi : i < bootMap.descriptors) : i = 0 ∨ i = 1 ∨ i = 2 := by
  have hlt : i < 3 := hi
  omega

theorem bootMap_wellFormed : bootMap.WellFormed 0x7000 := by
  obtain ⟨h₀, h₁, h₂⟩ := bootMap_desc
  refine ⟨by decide, fun i hi => ?_, fun i hi => ?_, ⟨0, by decide, ?_⟩, ⟨1, by decide, ?_⟩⟩
  · obtain rfl | rfl | rfl := bootMap_cases hi
    · rw [h₀]
      decide
    · rw [h₁]
      decide
    · rw [h₂]
      decide
  · obtain rfl | rfl | rfl := bootMap_cases hi
    · rw [h₀]
      decide
    · rw [h₁]
      decide
    · rw [h₂]
      decide
  · rw [h₀]
    unfold EfiMemoryDescriptor.Covers
    decide
  · rw [h₁]
    unfold EfiMemoryDescriptor.Covers
    decide

/-- The OS puts the three in its upper half. -/
def bootRegions : List Region :=
  [⟨0x7000, 0xFFFF800000000000, 0x1000⟩, ⟨0x41000000, 0xFFFF800000001000, 0x10000⟩,
    ⟨0x9000, 0xFFFF800000011000, 0x4000⟩]

theorem bootRegions_mapsRuntime {map : ℕ → UInt8} (hx : Exposes 0x7000 bootMap map) :
    MapsRuntime { bootMap with memoryMap := map } bootRegions := by
  obtain ⟨h₀, h₁, h₂⟩ := bootMap_desc
  refine ⟨fun i hi _ => ?_, by decide, ?_, by decide⟩
  · rw [hx.desc (by decide)]
    obtain rfl | rfl | rfl := bootMap_cases hi
    · exact ⟨_, List.mem_cons_self, by rw [h₀]; decide, by rw [h₀]; decide⟩
    · exact ⟨_, List.mem_cons_of_mem _ List.mem_cons_self, by rw [h₁]; decide, by rw [h₁]; decide⟩
    · exact ⟨_, List.mem_cons_of_mem _ (List.mem_cons_of_mem _ List.mem_cons_self),
        by rw [h₂]; decide, by rw [h₂]; decide⟩
  · simp only [Separate, bootRegions, List.pairwise_cons, List.mem_cons, List.not_mem_nil, or_false,
      forall_eq_or_imp, forall_eq, Region.Maps, List.Pairwise.nil, IsEmpty.forall_iff, implies_true,
      and_true]
    refine ⟨⟨fun v h h' => ?_, fun v h h' => ?_⟩, fun v h h' => ?_⟩ <;> omega

theorem bootMap_runtimeAt {a : ℕ} (h : 0x9000 ≤ a) (h' : a < 0xD000) : bootMap.RuntimeAt a := by
  refine ⟨2, by decide, ?_, ?_⟩
  · unfold MapBuffers.IsRuntime
    decide
  · rw [bootMap_desc.2.2]
    exact ⟨h, Nat.succ_le_of_lt h'⟩

/-- A `ConvertPointer` that looks a pointer up in the map. -/
def lookupPointer (rs : List Region) (p : UInt64) : Option UInt64 :=
  if p = 0 then none else (toVirtual rs p.toNat).map UInt64.ofNat

theorem lookupPointer_convertsBy (rs : List Region) : ConvertsBy rs (lookupPointer rs) := by
  rintro p hp ⟨r, hr, hholds⟩
  obtain ⟨v, hv⟩ := exists_toVirtual hr hholds
  obtain ⟨r', hr', hholds', rfl⟩ := toVirtual_eq_some hv
  exact ⟨r', hr', hholds', by rw [lookupPointer, if_neg hp, hv, Option.map_some]⟩

/-- The machine that has booted, with the FACS in the first page of the map. -/
def bootMachine : Machine := { zeroMachine with core := { emptyCore with facs := 0x7000 } }

/-- The OS asks for a store through the hook that it has mapped. -/
theorem virtual_hook_agrees_boot :
    ∃ mem', virtualAddressMapEvent (lookupPointer bootRegions) 0xB000
        (writeEventHeader 0xB000 0x9010 (setVariablePtrs 0xA000)
          (writeSetVariableHeader 0xA000 0x9020 0x7000 fun _ => 0)) = some (.ok (), mem') ∧
      callsVirtual bootRegions (quietFirmware 0x7000) 0x9020 (readSetVariableHeader 0xA000 mem')
          [storeCommand] bootMachine = some ([EFI_SUCCESS],
            { bootMachine with core := bootMachine.core.setAction CORE_ACTION_STORE.toUInt32 }) := by
  have hx : Exposes 0x7000 bootMap _ := exposes_markDescriptors bootMap_wellFormed (by decide)
  obtain ⟨mem', hrun, hcalls⟩ := virtual_hook_agrees (fun _ s => (EFI_SUCCESS, bootMap, s))
    (fun _ s => s) (quietFirmware 0x7000) bootMap () (by decide) rfl bootMap_wellFormed
    sample_hookPages (by decide) (by decide) (bootMap_runtimeAt (a := (0x9020 : UInt64).toNat)
      (by decide) (by decide))
    (bootMap_runtimeAt (a := (0x9010 : UInt64).toNat) (by decide) (by decide))
    (bootMap_runtimeAt (by decide) (by decide)) (bootRegions_mapsRuntime hx)
    (lookupPointer_convertsBy _) fun _ => 0
  exact ⟨mem', hrun, (hcalls [storeCommand] _ rfl).trans rfl⟩

end SwitchOs
