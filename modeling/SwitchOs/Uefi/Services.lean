import SwitchOs.Uefi.Types
import Mathlib.Algebra.Order.Group.Multiset
import Mathlib.Tactic.Abel

/-!
# Hooking the UEFI services

`uefi/services/hooks_loader.c` and its loaders: the UEFI application loads three hooks into pages of
their own, points two services at them and registers an event for the third, and takes it all back if
anything after it fails.

The pointers and the pages come back from every intermediate point (`unhook_pointers`,
`unhook_pages`). The event does not: `CloseEvent` is given the address of the variable that holds the
handle instead of the handle, so once the event is created it stays registered, with a function in
pages that are freed. `unhook_undoes_iff` is the exact statement.
-/

namespace SwitchOs

def HOOK_HEADER_SIZE : ℕ := 0x1000
def RAW_HOOK_HEADER_OFFSET : ℕ := 0
def RAW_HOOK_ENTRY_OFFSET : ℕ := 0x1000

/-- The three hooks. -/
inductive HookName where
  | set_variable
  | get_memory_map
  | virtual_address_map_event
  deriving DecidableEq, Repr

/-- `struct loaded_hook`. -/
structure LoadedHook where
  isLoaded : Bool
  header : ℕ
  entry : ℕ
  deriving DecidableEq, Repr

/-- An event of the firmware: its handle and its notification function. -/
structure UefiEvent where
  handle : ℕ
  notify : ℕ
  deriving DecidableEq, Repr

/-- What the build and the firmware decide: how large the hook binaries are (the entry lies behind the
header page), where `AllocatePages` puts each hook, as a page number, or that it fails, the handle
that `CreateEventEx` returns, or that it fails; and the address of `g_virtual_address_map_event_obj`. -/
structure BootServices where
  hookSize : HookName → ℕ
  hookSize_gt : ∀ hook, HOOK_HEADER_SIZE < hookSize hook
  allocatePages : HookName → Option ℕ
  createEventEx : Option ℕ
  eventObjAddr : ℕ

/-- The service pointers, the globals of the loaders, the events that are registered, and the pages
that `AllocatePages` has given and that `FreePages` has been called for. -/
structure Services where
  setVariable : ℕ
  getMemoryMap : ℕ
  originalSetVariable : ℕ
  originalGetMemoryMap : ℕ
  loaded : HookName → LoadedHook
  eventObj : ℕ
  events : List UefiEvent
  allocated : List ℕ
  freed : List ℕ

/-- `hook_pages`. -/
def BootServices.hookPages (B : BootServices) (hook : HookName) : ℕ :=
  alignUp (B.hookSize hook) PAGE_SIZE / PAGE_SIZE

namespace Services

/-- The state after `load_hook` has put the hook at page `page`. -/
def load (B : BootServices) (hook : HookName) (page : ℕ) (s : Services) : Services :=
  { s with
    allocated := s.allocated ++ List.range' page (B.hookPages hook)
    loaded := Function.update s.loaded hook
      ⟨true, page * PAGE_SIZE + RAW_HOOK_HEADER_OFFSET, page * PAGE_SIZE + RAW_HOOK_ENTRY_OFFSET⟩ }

/-- `gRT->SetVariable` is saved and points to the hook. -/
def installSetVariable (s : Services) : Services :=
  { s with
    originalSetVariable := s.setVariable
    setVariable := (s.loaded .set_variable).entry }

/-- `gBS->GetMemoryMap` is saved and points to the hook. -/
def installGetMemoryMap (s : Services) : Services :=
  { s with
    originalGetMemoryMap := s.getMemoryMap
    getMemoryMap := (s.loaded .get_memory_map).entry }

/-- The event is registered, and its handle stored. -/
def registerEvent (handle : ℕ) (s : Services) : Services :=
  { s with
    eventObj := handle
    events := ⟨handle, (s.loaded .virtual_address_map_event).entry⟩ :: s.events }

/-- `CloseEvent`: the event with this handle is closed, and no other. -/
def closeEvent (handle : ℕ) (s : Services) : Services :=
  { s with events := s.events.filter fun e => e.handle ≠ handle }

/-- `FreePages`. -/
def freePages (addr pages : ℕ) (s : Services) : Services :=
  { s with freed := s.freed ++ List.range' (addr / PAGE_SIZE) pages }

end Services

/-- `load_hook`. -/
def loadHook (B : BootServices) (hook : HookName) : Prog Err Services Unit := do
  let s ← Prog.get
  check (!(s.loaded hook).isLoaded)
  match B.allocatePages hook with
  | some page => Prog.modify fun s => s.load B hook page
  | none => Prog.throw .ERR_INVALID

/-- `free_hook`. -/
def freeHook (B : BootServices) (hook : HookName) (s : Services) : Services :=
  if (s.loaded hook).isLoaded then
    let hookHeaderPages := HOOK_HEADER_SIZE / PAGE_SIZE
    let s := s.freePages (s.loaded hook).header hookHeaderPages
    let s := s.freePages (s.loaded hook).entry (B.hookPages hook - hookHeaderPages)
    { s with loaded := Function.update s.loaded hook { s.loaded hook with isLoaded := false } }
  else s

/-- `hook_set_variable`. -/
def hookSetVariable (B : BootServices) : Prog Err Services Unit := do
  loadHook B .set_variable
  Prog.modify Services.installSetVariable

/-- `hook_get_memory_map`. -/
def hookGetMemoryMap (B : BootServices) : Prog Err Services Unit := do
  loadHook B .get_memory_map
  Prog.modify Services.installGetMemoryMap

/-- `create_virtual_address_map_event`. -/
def createVirtualAddressMapEvent (B : BootServices) : Prog Err Services Unit := do
  let s ← Prog.get
  check ((s.loaded .set_variable).isLoaded && (s.loaded .get_memory_map).isLoaded)
  loadHook B .virtual_address_map_event
  match B.createEventEx with
  | some handle => Prog.modify (Services.registerEvent handle)
  | none => Prog.throw .ERR_INVALID

/-- `hook_services`. -/
def hookServices (B : BootServices) : Prog Err Services Unit := do
  hookSetVariable B
  hookGetMemoryMap B
  createVirtualAddressMapEvent B

/-- `unhook_set_variable`. -/
def unhookSetVariable (B : BootServices) (s : Services) : Services :=
  if (s.loaded .set_variable).isLoaded then
    freeHook B .set_variable { s with setVariable := s.originalSetVariable }
  else s

/-- `unhook_get_memory_map`. -/
def unhookGetMemoryMap (B : BootServices) (s : Services) : Services :=
  if (s.loaded .get_memory_map).isLoaded then
    freeHook B .get_memory_map { s with getMemoryMap := s.originalGetMemoryMap }
  else s

/-- `remove_virtual_address_map_event`: it closes the event whose handle is the address of
`g_virtual_address_map_event_obj`. -/
def removeVirtualAddressMapEvent (B : BootServices) (s : Services) : Services :=
  if (s.loaded .virtual_address_map_event).isLoaded then
    freeHook B .virtual_address_map_event (s.closeEvent B.eventObjAddr)
  else s

/-- `unhook_services`. -/
def unhookServices (B : BootServices) (s : Services) : Services :=
  unhookSetVariable B (unhookGetMemoryMap B (removeVirtualAddressMapEvent B s))

/-! ## How far `hook_services` has come -/

variable {B : BootServices} {s s' : Services} {hook : HookName} {page : ℕ}

/-- No hook is loaded, and no page has been given or freed. -/
structure Services.Fresh (s : Services) : Prop where
  unloaded : ∀ hook, (s.loaded hook).isLoaded = false
  allocated : s.allocated = []
  freed : s.freed = []

theorem loadHook_some (hpage : B.allocatePages hook = some page)
    (hfree : (s.loaded hook).isLoaded = false) :
    loadHook B hook s = some (.ok (), s.load B hook page) := by
  rw [loadHook, Prog.bind_get_apply, check, Prog.bind_check_true (by rw [hfree]; rfl), hpage]
  rfl

theorem loadHook_none (hpage : B.allocatePages hook = none)
    (hfree : (s.loaded hook).isLoaded = false) :
    loadHook B hook s = some (.error .ERR_INVALID, s) := by
  rw [loadHook, Prog.bind_get_apply, check, Prog.bind_check_true (by rw [hfree]; rfl), hpage]
  rfl

/-- The pages of a hook: its header page, and those from its entry on. -/
theorem hookPages_eq (B : BootServices) (hook : HookName) (page : ℕ) :
    List.range' page (B.hookPages hook) =
      List.range' ((page * PAGE_SIZE + RAW_HOOK_HEADER_OFFSET) / PAGE_SIZE)
          (HOOK_HEADER_SIZE / PAGE_SIZE) ++
        List.range' ((page * PAGE_SIZE + RAW_HOOK_ENTRY_OFFSET) / PAGE_SIZE)
          (B.hookPages hook - HOOK_HEADER_SIZE / PAGE_SIZE) := by
  have hsize := B.hookSize_gt hook
  have hpages : 2 ≤ B.hookPages hook := by
    simp only [BootServices.hookPages, alignUp, PAGE_SIZE, HOOK_HEADER_SIZE] at hsize ⊢
    omega
  have hheader : (page * PAGE_SIZE + RAW_HOOK_HEADER_OFFSET) / PAGE_SIZE = page := by
    simp only [PAGE_SIZE, RAW_HOOK_HEADER_OFFSET]
    omega
  have hentry : (page * PAGE_SIZE + RAW_HOOK_ENTRY_OFFSET) / PAGE_SIZE = page + 1 := by
    simp only [PAGE_SIZE, RAW_HOOK_ENTRY_OFFSET]
    omega
  have hone : HOOK_HEADER_SIZE / PAGE_SIZE = 1 := by decide
  obtain ⟨n, hn⟩ : ∃ n, B.hookPages hook = n + 1 := ⟨B.hookPages hook - 1, by omega⟩
  rw [hheader, hentry, hone, hn, Nat.add_sub_cancel, List.range'_succ, List.range'_one]
  rfl

/-- The pages of a hook that is loaded at `page`, if it is. -/
def pagesOf (B : BootServices) (page : HookName → Option ℕ) (hook : HookName) : List ℕ :=
  match page hook with
  | some p => List.range' p (B.hookPages hook)
  | none => []

/-- The pages of all the hooks that are loaded. -/
def loadedPages (B : BootServices) (page : HookName → Option ℕ) : List ℕ :=
  pagesOf B page .set_variable ++
    (pagesOf B page .get_memory_map ++ pagesOf B page .virtual_address_map_event)

/-- `s'` has been hooked from `s` up to some point: `page` says which hooks are loaded, and where. -/
structure HookedUpTo (B : BootServices) (s : Services) (page : HookName → Option ℕ) (s' : Services) :
    Prop where
  loaded : ∀ hook p, page hook = some p → s'.loaded hook =
    ⟨true, p * PAGE_SIZE + RAW_HOOK_HEADER_OFFSET, p * PAGE_SIZE + RAW_HOOK_ENTRY_OFFSET⟩
  unloaded : ∀ hook, page hook = none → (s'.loaded hook).isLoaded = false
  setVariable : page .set_variable = none ∧ s'.setVariable = s.setVariable ∨
    page .set_variable ≠ none ∧ s'.originalSetVariable = s.setVariable
  getMemoryMap : page .get_memory_map = none ∧ s'.getMemoryMap = s.getMemoryMap ∨
    page .get_memory_map ≠ none ∧ s'.originalGetMemoryMap = s.getMemoryMap
  pages : s'.allocated.Perm (s'.freed ++ loadedPages B page)

variable {pages : HookName → Option ℕ}

/-- One more hook, one more block of pages. -/
theorem loadedPages_load (page : ℕ) (hnone : pages hook = none) :
    (loadedPages B (Function.update pages hook (some page))).Perm
      (List.range' page (B.hookPages hook) ++ loadedPages B pages) := by
  have hself : pagesOf B (Function.update pages hook (some page)) hook =
      List.range' page (B.hookPages hook) := by
    rw [pagesOf, Function.update_self]
  have hother : ∀ other, other ≠ hook →
      pagesOf B (Function.update pages hook (some page)) other = pagesOf B pages other := by
    intro other hne
    rw [pagesOf, pagesOf, Function.update_of_ne hne]
  have hempty : pagesOf B pages hook = [] := by rw [pagesOf, hnone]
  rw [← Multiset.coe_eq_coe]
  simp only [loadedPages, ← Multiset.coe_add]
  cases hook with
  | set_variable =>
    rw [hself, hother .get_memory_map (by decide), hother .virtual_address_map_event (by decide),
      hempty, Multiset.coe_nil]
    abel
  | get_memory_map =>
    rw [hself, hother .set_variable (by decide), hother .virtual_address_map_event (by decide),
      hempty, Multiset.coe_nil]
    abel
  | virtual_address_map_event =>
    rw [hself, hother .set_variable (by decide), hother .get_memory_map (by decide),
      hempty, Multiset.coe_nil]
    abel

theorem loadedPages_free (hsome : pages hook = some page) :
    (loadedPages B pages).Perm
      (List.range' page (B.hookPages hook) ++
        loadedPages B (Function.update pages hook none)) := by
  have hupdate : Function.update (Function.update pages hook none) hook (some page) = pages := by
    rw [Function.update_idem, ← hsome, Function.update_eq_self]
  have hload := loadedPages_load (B := B) page (Function.update_self hook none pages)
  rwa [hupdate] at hload

theorem Services.Fresh.hookedUpTo (h : s.Fresh) : HookedUpTo B s (fun _ => none) s := by
  refine ⟨nofun, fun hook _ => h.unloaded hook, Or.inl ⟨rfl, rfl⟩, Or.inl ⟨rfl, rfl⟩, ?_⟩
  rw [h.allocated, h.freed]
  exact List.Perm.nil

/-! ## Loading and freeing one hook -/

/-- What `free_hook` does to a hook that is loaded at `page`. -/
theorem freeHook_loaded (h : s.loaded hook =
      ⟨true, page * PAGE_SIZE + RAW_HOOK_HEADER_OFFSET, page * PAGE_SIZE + RAW_HOOK_ENTRY_OFFSET⟩) :
    freeHook B hook s =
      { s with
        freed := s.freed ++ List.range' page (B.hookPages hook)
        loaded := Function.update s.loaded hook
          ⟨false, page * PAGE_SIZE + RAW_HOOK_HEADER_OFFSET,
            page * PAGE_SIZE + RAW_HOOK_ENTRY_OFFSET⟩ } := by
  simp only [freeHook, Services.freePages, h, if_true, hookPages_eq B hook page, List.append_assoc]

section OneHook

variable (h : HookedUpTo B s pages s')

include h in
/-- The pages after one more `load_hook`. -/
theorem HookedUpTo.load_pages (hnone : pages hook = none) (page : ℕ) :
    (s'.load B hook page).allocated.Perm ((s'.load B hook page).freed ++
      loadedPages B (Function.update pages hook (some page))) := by
  have hload := loadedPages_load (B := B) page hnone
  have hpages := h.pages
  rw [← Multiset.coe_eq_coe] at hload hpages ⊢
  simp only [Services.load, ← Multiset.coe_add] at hload hpages ⊢
  rw [hpages, hload]
  abel

include h in
/-- The hooks after one more `load_hook`. -/
theorem HookedUpTo.load_loaded (hook : HookName) (page : ℕ) :
    (∀ other p, Function.update pages hook (some page) other = some p →
      (s'.load B hook page).loaded other =
        ⟨true, p * PAGE_SIZE + RAW_HOOK_HEADER_OFFSET, p * PAGE_SIZE + RAW_HOOK_ENTRY_OFFSET⟩) ∧
    ∀ other, Function.update pages hook (some page) other = none →
      ((s'.load B hook page).loaded other).isLoaded = false := by
  constructor
  · intro other p hp
    by_cases hother : other = hook
    · subst hother
      rw [Function.update_self] at hp
      obtain rfl := Option.some.inj hp
      exact Function.update_self _ _ _
    · rw [Function.update_of_ne hother] at hp
      exact (Function.update_of_ne hother _ _).trans (h.loaded other p hp)
  · intro other hp
    by_cases hother : other = hook
    · subst hother
      rw [Function.update_self] at hp
      cases hp
    · rw [Function.update_of_ne hother] at hp
      have hload : (s'.load B hook page).loaded other = s'.loaded other :=
        Function.update_of_ne hother _ _
      rw [hload]
      exact h.unloaded other hp

include h in
/-- The pages and the hooks after a hook has been freed. -/
theorem HookedUpTo.free (hsome : pages hook = some page) :
    (freeHook B hook s').allocated.Perm ((freeHook B hook s').freed ++
      loadedPages B (Function.update pages hook none)) ∧
    (∀ other p, Function.update pages hook none other = some p →
      (freeHook B hook s').loaded other =
        ⟨true, p * PAGE_SIZE + RAW_HOOK_HEADER_OFFSET, p * PAGE_SIZE + RAW_HOOK_ENTRY_OFFSET⟩) ∧
    ∀ other, Function.update pages hook none other = none →
      ((freeHook B hook s').loaded other).isLoaded = false := by
  rw [freeHook_loaded (h.loaded hook page hsome)]
  refine ⟨?_, fun other p hp => ?_, fun other hp => ?_⟩
  · have hfree := loadedPages_free (B := B) hsome
    have hpages := h.pages
    rw [← Multiset.coe_eq_coe] at hfree hpages ⊢
    simp only [← Multiset.coe_add] at hfree hpages ⊢
    rw [hpages, hfree]
    abel
  · by_cases hother : other = hook
    · subst hother
      rw [Function.update_self] at hp
      cases hp
    · rw [Function.update_of_ne hother] at hp
      exact (Function.update_of_ne hother _ _).trans (h.loaded other p hp)
  · by_cases hother : other = hook
    · subst hother
      simp only [Function.update_self]
    · rw [Function.update_of_ne hother] at hp
      simp only [Function.update_of_ne hother]
      exact h.unloaded other hp

theorem freeHook_pointers (B : BootServices) (hook : HookName) (s : Services) :
    (freeHook B hook s).setVariable = s.setVariable ∧
      (freeHook B hook s).getMemoryMap = s.getMemoryMap ∧
      (freeHook B hook s).originalSetVariable = s.originalSetVariable ∧
      (freeHook B hook s).originalGetMemoryMap = s.originalGetMemoryMap ∧
      (freeHook B hook s).events = s.events ∧ (freeHook B hook s).allocated = s.allocated := by
  rw [freeHook]
  split <;> exact ⟨rfl, rfl, rfl, rfl, rfl, rfl⟩

end OneHook

/-! ## `unhook_services` -/

section Unhook

variable (h : HookedUpTo B s pages s')

include h in
/-- A hook that is not loaded is left alone. -/
theorem HookedUpTo.skip (hnone : pages hook = none) :
    HookedUpTo B s (Function.update pages hook none) s' := by
  have hupdate : Function.update pages hook none = pages := by
    rw [← hnone, Function.update_eq_self]
  rwa [hupdate]

include h in
theorem HookedUpTo.event_step :
    HookedUpTo B s (Function.update pages .virtual_address_map_event none)
        (removeVirtualAddressMapEvent B s') ∧
      (removeVirtualAddressMapEvent B s').allocated = s'.allocated ∧
      (removeVirtualAddressMapEvent B s').events =
        (if pages .virtual_address_map_event = none then s'.events
          else s'.events.filter fun e => e.handle ≠ B.eventObjAddr) := by
  rw [removeVirtualAddressMapEvent]
  cases hpage : pages .virtual_address_map_event with
  | none =>
    rw [h.unloaded _ hpage, if_neg Bool.false_ne_true, if_pos rfl]
    exact ⟨h.skip hpage, rfl, rfl⟩
  | some page =>
    rw [h.loaded _ page hpage, if_pos rfl, if_neg (by simp)]
    have hclosed : HookedUpTo B s pages (s'.closeEvent B.eventObjAddr) :=
      ⟨h.loaded, h.unloaded, h.setVariable, h.getMemoryMap, h.pages⟩
    obtain ⟨hpages, hloaded, hunloaded⟩ := hclosed.free hpage
    obtain ⟨hsv, hgmm, hosv, hogmm, hevents, halloc⟩ :=
      freeHook_pointers B .virtual_address_map_event (s'.closeEvent B.eventObjAddr)
    refine ⟨⟨hloaded, hunloaded, ?_, ?_, hpages⟩, halloc, hevents⟩
    · rw [hsv, hosv, Function.update_of_ne (by decide)]
      exact hclosed.setVariable
    · rw [hgmm, hogmm, Function.update_of_ne (by decide)]
      exact hclosed.getMemoryMap

include h in
theorem HookedUpTo.getMemoryMap_step :
    HookedUpTo B s (Function.update pages .get_memory_map none) (unhookGetMemoryMap B s') ∧
      (unhookGetMemoryMap B s').allocated = s'.allocated ∧
      (unhookGetMemoryMap B s').events = s'.events := by
  rw [unhookGetMemoryMap]
  cases hpage : pages .get_memory_map with
  | none =>
    rw [h.unloaded _ hpage, if_neg Bool.false_ne_true]
    exact ⟨h.skip hpage, rfl, rfl⟩
  | some page =>
    rw [h.loaded _ page hpage, if_pos rfl]
    have hsaved : s'.originalGetMemoryMap = s.getMemoryMap := by simpa [hpage] using h.getMemoryMap
    have hrestored : HookedUpTo B s pages { s' with getMemoryMap := s'.originalGetMemoryMap } :=
      ⟨h.loaded, h.unloaded, h.setVariable, Or.inr ⟨by simp [hpage], hsaved⟩, h.pages⟩
    obtain ⟨hpages, hloaded, hunloaded⟩ := hrestored.free hpage
    obtain ⟨hsv, hgmm, hosv, hogmm, hevents, halloc⟩ :=
      freeHook_pointers B .get_memory_map { s' with getMemoryMap := s'.originalGetMemoryMap }
    refine ⟨⟨hloaded, hunloaded, ?_, Or.inl ⟨Function.update_self _ _ _, hgmm.trans hsaved⟩,
      hpages⟩, halloc, hevents⟩
    rw [hsv, hosv, Function.update_of_ne (by decide)]
    exact h.setVariable

include h in
theorem HookedUpTo.setVariable_step :
    HookedUpTo B s (Function.update pages .set_variable none) (unhookSetVariable B s') ∧
      (unhookSetVariable B s').allocated = s'.allocated ∧
      (unhookSetVariable B s').events = s'.events := by
  rw [unhookSetVariable]
  cases hpage : pages .set_variable with
  | none =>
    rw [h.unloaded _ hpage, if_neg Bool.false_ne_true]
    exact ⟨h.skip hpage, rfl, rfl⟩
  | some page =>
    rw [h.loaded _ page hpage, if_pos rfl]
    have hsaved : s'.originalSetVariable = s.setVariable := by simpa [hpage] using h.setVariable
    have hrestored : HookedUpTo B s pages { s' with setVariable := s'.originalSetVariable } :=
      ⟨h.loaded, h.unloaded, Or.inr ⟨by simp [hpage], hsaved⟩, h.getMemoryMap, h.pages⟩
    obtain ⟨hpages, hloaded, hunloaded⟩ := hrestored.free hpage
    obtain ⟨hsv, hgmm, hosv, hogmm, hevents, halloc⟩ :=
      freeHook_pointers B .set_variable { s' with setVariable := s'.originalSetVariable }
    refine ⟨⟨hloaded, hunloaded, Or.inl ⟨Function.update_self _ _ _, hsv.trans hsaved⟩, ?_, hpages⟩,
      halloc, hevents⟩
    rw [hgmm, hogmm, Function.update_of_ne (by decide)]
    exact h.getMemoryMap

include h in
/-- **What `unhook_services` brings back from every point**: both pointers, and all the pages, each
freed as often as it was given. -/
theorem HookedUpTo.unhooked :
    (unhookServices B s').setVariable = s.setVariable ∧
      (unhookServices B s').getMemoryMap = s.getMemoryMap ∧
      (unhookServices B s').allocated = s'.allocated ∧
      (unhookServices B s').freed.Perm (unhookServices B s').allocated ∧
      (unhookServices B s').events =
        (if pages .virtual_address_map_event = none then s'.events
          else s'.events.filter fun e => e.handle ≠ B.eventObjAddr) := by
  obtain ⟨h₁, halloc₁, hevents₁⟩ := h.event_step
  obtain ⟨h₂, halloc₂, hevents₂⟩ := h₁.getMemoryMap_step
  obtain ⟨h₃, halloc₃, hevents₃⟩ := h₂.setVariable_step
  have hnone : ∀ hook, Function.update (Function.update (Function.update pages
      .virtual_address_map_event none) .get_memory_map none) .set_variable none hook = none := by
    intro hook
    cases hook <;> simp [Function.update]
  have hsv : (unhookServices B s').setVariable = s.setVariable := by
    simpa [hnone, unhookServices] using h₃.setVariable
  have hgmm : (unhookServices B s').getMemoryMap = s.getMemoryMap := by
    simpa [hnone, unhookServices] using h₃.getMemoryMap
  have hpages := h₃.pages
  rw [loadedPages, pagesOf, pagesOf, pagesOf, hnone, hnone, hnone, List.append_nil, List.append_nil,
    List.append_nil] at hpages
  exact ⟨hsv, hgmm, halloc₃.trans (halloc₂.trans halloc₁), hpages.symm,
    hevents₃.trans (hevents₂.trans hevents₁)⟩

end Unhook

/-! ## `hook_services` -/

/-- `hook_services` comes to `CreateEventEx`, which succeeds with this handle. -/
def EventCreated (B : BootServices) (handle : ℕ) : Prop :=
  B.createEventEx = some handle ∧ ∀ hook, B.allocatePages hook ≠ none

/-- `s'` has been hooked from `s` with the pages that `AllocatePages` gave, without an event. -/
structure Hooking (B : BootServices) (s s' : Services) (pages : HookName → Option ℕ) : Prop where
  hooked : HookedUpTo B s pages s'
  placed : ∀ hook p, pages hook = some p → B.allocatePages hook = some p
  freed : s'.freed = []
  events : s'.events = s.events

/-- One more hook is loaded where `AllocatePages` puts it. -/
theorem Hooking.placed_load (h : Hooking B s s' pages) (hpage : B.allocatePages hook = some page) :
    ∀ other p, Function.update pages hook (some page) other = some p →
      B.allocatePages other = some p := by
  intro other p hp
  by_cases hother : other = hook
  · subst hother
    rw [Function.update_self] at hp
    exact hpage.trans hp
  · rw [Function.update_of_ne hother] at hp
    exact h.placed other p hp

theorem hookSetVariable_some (h : Hooking B s s' pages) (hnone : pages .set_variable = none)
    (hpage : B.allocatePages .set_variable = some page) :
    ∃ t, hookSetVariable B s' = some (.ok (), t) ∧
      Hooking B s t (Function.update pages .set_variable (some page)) := by
  have hload := loadHook_some hpage (h.hooked.unloaded _ hnone)
  obtain ⟨hloaded, hunloaded⟩ := h.hooked.load_loaded .set_variable page
  refine ⟨(s'.load B .set_variable page).installSetVariable, ?_,
    ⟨hloaded, hunloaded, Or.inr ⟨by simp, ?_⟩, ?_, h.hooked.load_pages hnone page⟩,
    h.placed_load hpage, h.freed, h.events⟩
  · rw [hookSetVariable, Prog.bind_ok hload, Prog.modify_apply]
  · have hpointer : s'.setVariable = s.setVariable := by simpa [hnone] using h.hooked.setVariable
    exact hpointer
  · rw [Function.update_of_ne (by decide)]
    exact h.hooked.getMemoryMap

theorem hookGetMemoryMap_some (h : Hooking B s s' pages) (hnone : pages .get_memory_map = none)
    (hpage : B.allocatePages .get_memory_map = some page) :
    ∃ t, hookGetMemoryMap B s' = some (.ok (), t) ∧
      Hooking B s t (Function.update pages .get_memory_map (some page)) := by
  have hload := loadHook_some hpage (h.hooked.unloaded _ hnone)
  obtain ⟨hloaded, hunloaded⟩ := h.hooked.load_loaded .get_memory_map page
  refine ⟨(s'.load B .get_memory_map page).installGetMemoryMap, ?_,
    ⟨hloaded, hunloaded, ?_, Or.inr ⟨by simp, ?_⟩, h.hooked.load_pages hnone page⟩,
    h.placed_load hpage, h.freed, h.events⟩
  · rw [hookGetMemoryMap, Prog.bind_ok hload, Prog.modify_apply]
  · rw [Function.update_of_ne (by decide)]
    exact h.hooked.setVariable
  · have hpointer : s'.getMemoryMap = s.getMemoryMap := by simpa [hnone] using h.hooked.getMemoryMap
    exact hpointer

/-- The hook of the event is loaded before the event is created. -/
theorem loadEventHook_some (h : Hooking B s s' pages)
    (hnone : pages .virtual_address_map_event = none)
    (hpage : B.allocatePages .virtual_address_map_event = some page) :
    loadHook B .virtual_address_map_event s' =
        some (.ok (), s'.load B .virtual_address_map_event page) ∧
      Hooking B s (s'.load B .virtual_address_map_event page)
        (Function.update pages .virtual_address_map_event (some page)) := by
  obtain ⟨hloaded, hunloaded⟩ := h.hooked.load_loaded .virtual_address_map_event page
  refine ⟨loadHook_some hpage (h.hooked.unloaded _ hnone),
    ⟨hloaded, hunloaded, ?_, ?_, h.hooked.load_pages hnone page⟩, h.placed_load hpage, h.freed,
    h.events⟩
  · rw [Function.update_of_ne (by decide)]
    exact h.hooked.setVariable
  · rw [Function.update_of_ne (by decide)]
    exact h.hooked.getMemoryMap

/-- With both pointers hooked, `create_virtual_address_map_event` loads its hook and creates the
event, or stops before either of them. -/
theorem createVirtualAddressMapEvent_reaches {psv pgmm : ℕ} (h : Hooking B s s' pages)
    (hsv : pages .set_variable = some psv) (hgmm : pages .get_memory_map = some pgmm)
    (hnone : pages .virtual_address_map_event = none) :
    ∃ r t pages, createVirtualAddressMapEvent B s' = some (r, t) ∧ HookedUpTo B s pages t ∧
      (∀ hook p, pages hook = some p → B.allocatePages hook = some p) ∧ t.freed = [] ∧
      ((∃ handle p, EventCreated B handle ∧ pages .virtual_address_map_event = some p ∧
          t.events = ⟨handle, p * PAGE_SIZE + RAW_HOOK_ENTRY_OFFSET⟩ :: s.events) ∨
        ((∀ handle, ¬ EventCreated B handle) ∧ t.events = s.events)) := by
  have hboth : ((s'.loaded .set_variable).isLoaded && (s'.loaded .get_memory_map).isLoaded) =
      true := by
    rw [h.hooked.loaded .set_variable psv hsv, h.hooked.loaded .get_memory_map pgmm hgmm]
    rfl
  rw [createVirtualAddressMapEvent, Prog.bind_get_apply, check, Prog.bind_check_true hboth]
  cases hev : B.allocatePages .virtual_address_map_event with
  | none =>
    have hload := loadHook_none hev (h.hooked.unloaded _ hnone)
    exact ⟨_, s', _, Prog.bind_error hload, h.hooked, h.placed, h.freed,
      Or.inr ⟨fun handle hc => hc.2 _ hev, h.events⟩⟩
  | some pev =>
    obtain ⟨hrun, hloaded⟩ := loadEventHook_some h hnone hev
    rw [Prog.bind_ok hrun]
    cases hcreate : B.createEventEx with
    | none =>
      exact ⟨_, _, _, rfl, hloaded.hooked, hloaded.placed, hloaded.freed,
        Or.inr ⟨fun handle hc => by simp [EventCreated, hcreate] at hc, hloaded.events⟩⟩
    | some handle =>
      have hentry : ((s'.load B .virtual_address_map_event pev).loaded
          .virtual_address_map_event).entry = pev * PAGE_SIZE + RAW_HOOK_ENTRY_OFFSET := by
        rw [hloaded.hooked.loaded .virtual_address_map_event pev (Function.update_self _ _ _)]
      refine ⟨_, _, _, rfl, ⟨hloaded.hooked.loaded, hloaded.hooked.unloaded,
        hloaded.hooked.setVariable, hloaded.hooked.getMemoryMap, hloaded.hooked.pages⟩,
        hloaded.placed, hloaded.freed,
        Or.inl ⟨handle, pev, ⟨hcreate, fun hook => ?_⟩, Function.update_self _ _ _, ?_⟩⟩
      · have hsv' := h.placed _ _ hsv
        have hgmm' := h.placed _ _ hgmm
        cases hook <;> simp [hsv', hgmm', hev]
      · rw [← hloaded.events, ← hentry]
        rfl

/-- **Every outcome of `hook_services`** leaves the services hooked up to some point, with the event
registered if it was created. -/
theorem hookServices_reaches (B : BootServices) (hs : s.Fresh) :
    ∃ r s' pages, hookServices B s = some (r, s') ∧ HookedUpTo B s pages s' ∧
      (∀ hook p, pages hook = some p → B.allocatePages hook = some p) ∧ s'.freed = [] ∧
      ((∃ handle p, EventCreated B handle ∧ pages .virtual_address_map_event = some p ∧
          s'.events = ⟨handle, p * PAGE_SIZE + RAW_HOOK_ENTRY_OFFSET⟩ :: s.events) ∨
        ((∀ handle, ¬ EventCreated B handle) ∧ s'.events = s.events)) := by
  have h₀ : Hooking B s s fun _ => none := ⟨hs.hookedUpTo, nofun, hs.freed, rfl⟩
  rw [hookServices]
  cases hsv : B.allocatePages .set_variable with
  | none =>
    have hload := loadHook_none hsv (h₀.hooked.unloaded _ rfl)
    rw [hookSetVariable]
    exact ⟨_, s, _, Prog.bind_error (Prog.bind_error hload), h₀.hooked, h₀.placed, h₀.freed,
      Or.inr ⟨fun handle hc => hc.2 _ hsv, h₀.events⟩⟩
  | some psv =>
    obtain ⟨s₁, hrun₁, h₁⟩ := hookSetVariable_some h₀ rfl hsv
    rw [Prog.bind_ok hrun₁]
    cases hgmm : B.allocatePages .get_memory_map with
    | none =>
      have hload := loadHook_none hgmm (h₁.hooked.unloaded _ rfl)
      rw [hookGetMemoryMap]
      exact ⟨_, s₁, _, Prog.bind_error (Prog.bind_error hload), h₁.hooked, h₁.placed, h₁.freed,
        Or.inr ⟨fun handle hc => hc.2 _ hgmm, h₁.events⟩⟩
    | some pgmm =>
      obtain ⟨s₂, hrun₂, h₂⟩ := hookGetMemoryMap_some h₁ rfl hgmm
      rw [Prog.bind_ok hrun₂]
      exact createVirtualAddressMapEvent_reaches h₂ rfl rfl rfl

/-! ## Both together -/

/-- The services are as they were: the two pointers, no event that refers to a page that has been
freed, and every page freed exactly as often as it was given. -/
structure Unhooked (s s' : Services) : Prop where
  setVariable : s'.setVariable = s.setVariable
  getMemoryMap : s'.getMemoryMap = s.getMemoryMap
  events : ∀ e ∈ s'.events, e.notify / PAGE_SIZE ∉ s'.freed
  pages : s'.freed.Perm s'.allocated

/-- The pages that `AllocatePages` gives hold no notification function of the firmware. -/
def PagesFree (B : BootServices) (s : Services) : Prop :=
  ∀ e ∈ s.events, ∀ hook p, B.allocatePages hook = some p →
    e.notify / PAGE_SIZE ∉ List.range' p (B.hookPages hook)

/-- The entry of a hook lies in its own pages. -/
theorem entry_mem_pages (B : BootServices) (hook : HookName) (p : ℕ) :
    (p * PAGE_SIZE + RAW_HOOK_ENTRY_OFFSET) / PAGE_SIZE ∈ List.range' p (B.hookPages hook) := by
  have hsize := B.hookSize_gt hook
  have hpages : 2 ≤ B.hookPages hook := by
    simp only [BootServices.hookPages, alignUp, PAGE_SIZE, HOOK_HEADER_SIZE] at hsize ⊢
    omega
  have hentry : (p * PAGE_SIZE + RAW_HOOK_ENTRY_OFFSET) / PAGE_SIZE = p + 1 := by
    simp only [PAGE_SIZE, RAW_HOOK_ENTRY_OFFSET]
    omega
  rw [hentry, List.mem_range'_1]
  omega

theorem mem_loadedPages {x : ℕ} :
    x ∈ loadedPages B pages ↔
      ∃ hook p, pages hook = some p ∧ x ∈ List.range' p (B.hookPages hook) := by
  have hone : ∀ hook, x ∈ pagesOf B pages hook ↔
      ∃ p, pages hook = some p ∧ x ∈ List.range' p (B.hookPages hook) := by
    intro hook
    rw [pagesOf]
    cases hp : pages hook <;> simp
  simp only [loadedPages, List.mem_append, hone]
  constructor
  · rintro (⟨p, hp⟩ | ⟨p, hp⟩ | ⟨p, hp⟩)
    · exact ⟨_, p, hp⟩
    · exact ⟨_, p, hp⟩
    · exact ⟨_, p, hp⟩
  · rintro ⟨hook, p, hp⟩
    cases hook with
    | set_variable => exact Or.inl ⟨p, hp⟩
    | get_memory_map => exact Or.inr (Or.inl ⟨p, hp⟩)
    | virtual_address_map_event => exact Or.inr (Or.inr ⟨p, hp⟩)

/-- **Undoing `hook_services`**: whatever outcome each of its calls has, `unhook_services` undoes it
if and only if the event was not created, or its handle is the address that `CloseEvent` is given. -/
theorem unhook_undoes_iff (B : BootServices) (s : Services) (hs : s.Fresh) (hfree : PagesFree B s) :
    ∃ r s', hookServices B s = some (r, s') ∧
      (Unhooked s (unhookServices B s') ↔ ∀ handle, EventCreated B handle → handle = B.eventObjAddr) := by
  obtain ⟨r, s', pages, hrun, hhooked, hplaced, hfreed, hevents⟩ := hookServices_reaches B hs
  obtain ⟨hsv, hgmm, halloc, hperm, hleft⟩ := hhooked.unhooked
  refine ⟨r, s', hrun, ?_⟩
  have hpages := hhooked.pages
  rw [hfreed, List.nil_append] at hpages
  have hmem : ∀ x, x ∈ (unhookServices B s').freed ↔
      ∃ hook p, pages hook = some p ∧ x ∈ List.range' p (B.hookPages hook) := by
    intro x
    rw [hperm.mem_iff, halloc, hpages.mem_iff, mem_loadedPages]
  -- the events of the firmware are elsewhere
  have hold : ∀ e ∈ s.events, e.notify / PAGE_SIZE ∉ (unhookServices B s').freed := by
    intro e he hin
    obtain ⟨hook, p, hp, hin⟩ := (hmem _).mp hin
    exact hfree e he hook p (hplaced hook p hp) hin
  rcases hevents with ⟨handle, p, hcreated, hp, hevents⟩ | ⟨hno, hevents⟩
  · rw [hp, if_neg (by simp), hevents] at hleft
    constructor
    · -- an event that is not closed refers to the entry of a hook that is freed
      intro hundone handle' hcreated'
      obtain rfl : handle = handle' := Option.some.inj (hcreated.1.symm.trans hcreated'.1)
      by_contra hne
      refine hundone.events ⟨handle, p * PAGE_SIZE + RAW_HOOK_ENTRY_OFFSET⟩ ?_
        ((hmem _).mpr ⟨_, p, hp, entry_mem_pages B _ p⟩)
      rw [hleft, List.mem_filter]
      exact ⟨List.mem_cons_self, by simpa using hne⟩
    · intro hhandle
      refine ⟨hsv, hgmm, fun e he => ?_, hperm⟩
      rw [hleft, List.mem_filter] at he
      rcases List.mem_cons.mp he.1 with rfl | he'
      · simp [hhandle handle hcreated] at he
      · exact hold e he'
  · refine ⟨fun _ handle hcreated => absurd hcreated (hno handle), fun _ => ⟨hsv, hgmm, ?_, hperm⟩⟩
    intro e he
    rw [hleft, hevents] at he
    split at he
    · exact hold e he
    · exact hold e (List.mem_filter.mp he).1

/-- A firmware that gives every hook a block of two pages and registers the event. -/
def sampleBoot : BootServices where
  hookSize _ := 0x2000
  hookSize_gt _ := by decide
  allocatePages
    | .set_variable => some 0x100
    | .get_memory_map => some 0x200
    | .virtual_address_map_event => some 0x300
  createEventEx := some 0xabc
  eventObjAddr := 0x5000

/-- The services as the application finds them, without events. -/
def sampleServices : Services where
  setVariable := 0x1111
  getMemoryMap := 0x2222
  originalSetVariable := 0
  originalGetMemoryMap := 0
  loaded _ := ⟨false, 0, 0⟩
  eventObj := 0
  events := []
  allocated := []
  freed := []

theorem sampleServices_fresh : sampleServices.Fresh := ⟨fun _ => rfl, rfl, rfl⟩

theorem unhook_undoes_iff_sample :
    ∃ r s', hookServices sampleBoot sampleServices = some (r, s') ∧
      (Unhooked sampleServices (unhookServices sampleBoot s') ↔
        ∀ handle, EventCreated sampleBoot handle → handle = sampleBoot.eventObjAddr) :=
  unhook_undoes_iff sampleBoot sampleServices sampleServices_fresh nofun

/-- **A dangling event**: after the hooks are taken back, the event of the third one is still
registered, with its entry in a page that has been freed. -/
theorem unhook_leaves_event :
    ∃ (B : BootServices) (s s' : Services), s.Fresh ∧ PagesFree B s ∧
      hookServices B s = some (.ok (), s') ∧ ¬ Unhooked s (unhookServices B s') := by
  refine ⟨sampleBoot, sampleServices, _, sampleServices_fresh, nofun, rfl, fun h => ?_⟩
  exact h.events ⟨0xabc, 0x301000⟩ (by decide) (by decide)

end SwitchOs
