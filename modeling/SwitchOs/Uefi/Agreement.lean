import SwitchOs.Hooks.Session
import SwitchOs.Uefi.FailedStart

/-!
# The core header, from the application to core

The application writes core's header and the `SetVariable` hook changes it, and core checks it twice:
`is_core_header_valid` when it starts, and `fill_dump_header` when it stores. `HeaderInv` is what they
agree on. The stages of `efi_main` establish it, every `SetVariable` call keeps it, and core accepts
every header that meets it (`header_agrees`).
-/

namespace SwitchOs

open Acpi

/-- At least one page, and a size in bytes that fits in 64 bits. -/
structure EfiMemoryDescriptor.Sized (desc : EfiMemoryDescriptor) : Prop where
  pos : 0 < desc.bytes
  lt : desc.bytes < 2 ^ 64

/-- The areas of the table: whole pages, at least one. -/
structure PagedAreas (core : CoreHeader) : Prop where
  count_le : core.areaCount ≤ MAX_RAM_AREAS
  pos : ∀ i < core.areaCount, 0 < core.areaSize i
  paged : ∀ i < core.areaCount, EFI_PAGE_SIZE ∣ core.areaSize i

/-- What the application and core agree on. -/
structure HeaderInv (core : CoreHeader) : Prop where
  magic : core.magic = CORE_HEADER_MAGIC
  action : isCoreHeaderActionValid core.action = true
  facs : core.facs ≠ 0
  rsdp : core.rsdp ≠ 0
  areas : PagedAreas core

/-! ## Core accepts the header -/

section Accepts

variable {core : CoreHeader} {mem : ℕ → UInt8}

theorem HeaderInv.valid (h : HeaderInv core) : isCoreHeaderValid core = true := by
  have hcount : ¬ core.ramAreasSize.toNat > MAX_RAM_AREAS := not_lt.mpr h.areas.count_le
  have hareas : isCoreHeaderRamAreasValid core.ramAreas core.ramAreasSize = true := by
    rw [isCoreHeaderRamAreasValid, if_neg hcount, List.all_eq_true]
    intro i hi
    have hpos := h.areas.pos i (List.mem_range.mp hi)
    simp only [CoreHeader.areaSize] at hpos
    rw [bne_iff_ne]
    intro hzero
    rw [hzero] at hpos
    exact absurd hpos (by decide)
  simp only [isCoreHeaderValid, isCoreHeaderMagicValid, isCoreHeaderFacsValid, isCoreHeaderRsdpValid,
    Bool.and_eq_true, beq_iff_eq, bne_iff_ne]
  exact ⟨⟨⟨⟨h.magic, h.action⟩, h.facs⟩, h.rsdp⟩, hareas⟩

/-- Whole pages are whole sectors. -/
theorem PagedAreas.aligned (h : PagedAreas core) : AreasAligned core := by
  intro i hi
  have hpos := h.pos i hi
  have hpaged := h.paged i hi
  simp only [CoreHeader.areaSize, EFI_PAGE_SIZE] at hpos hpaged
  refine ⟨fun hzero => ?_, ?_⟩
  · rw [hzero] at hpos
    exact absurd hpos (by decide)
  · simp only [VIRTIO_BLK_SECTOR_SIZE]
    omega

theorem HeaderInv.accepted (h : HeaderInv core) (header : DumpHeader)
    (hsaved : core.savedVector mem ≠ 0) : ∃ header', fillDumpHeader core mem header = .ok header' := by
  obtain ⟨header', hfill, -⟩ := fillDumpHeader_laidOut header (findOriginalWakingVector_eq hsaved)
    h.areas.count_le h.areas.aligned
  exact ⟨header', hfill⟩

theorem HeaderInv.setAction (h : HeaderInv core) {action : UInt32}
    (haction : isCoreHeaderActionValid action = true) : HeaderInv (core.setAction action) :=
  ⟨h.magic, haction, h.facs, h.rsdp, ⟨h.areas.count_le, h.areas.pos, h.areas.paged⟩⟩

end Accepts

/-! ## The application makes one -/

section Fill

variable {core : CoreHeader} {desc : EfiMemoryDescriptor}

/-- A table that has the pages of another one, but for area `i`. -/
theorem PagedAreas.update (h : PagedAreas core) {table : CoreHeader} {i : ℕ} {area : MemArea}
    (hcount : ∀ j < table.areaCount, j ≠ i → j < core.areaCount)
    (hmax : table.areaCount ≤ MAX_RAM_AREAS)
    (hareas : table.ramAreas = Function.update core.ramAreas i area) (hpos : 0 < area.size.toNat)
    (hpaged : EFI_PAGE_SIZE ∣ area.size.toNat) : PagedAreas table := by
  have hcases : ∀ j < table.areaCount, table.ramAreas j = area ∨
      (j < core.areaCount ∧ table.ramAreas j = core.ramAreas j) := by
    intro j hj
    rw [hareas]
    by_cases hji : j = i
    · rw [hji, Function.update_self]
      exact Or.inl rfl
    · rw [Function.update_of_ne hji]
      exact Or.inr ⟨hcount j hj hji, rfl⟩
  refine ⟨hmax, fun j hj => ?_, fun j hj => ?_⟩ <;> simp only [CoreHeader.areaSize] <;>
    rcases hcases j hj with harea | ⟨hj', harea⟩ <;> rw [harea]
  · exact hpos
  · exact h.pos j hj'
  · exact hpaged
  · exact h.paged j hj'

/-- **One descriptor** leaves whole pages, whichever area it goes into. An area that grows cannot
grow to nothing: it would begin where the descriptor ends. -/
theorem PagedAreas.inserted (h : PagedAreas core) (hdesc : desc.Sized)
    (hroom : core.areaCount < MAX_RAM_AREAS) : PagedAreas (core.inserted desc) := by
  have hsize : desc.size.toNat = desc.bytes := toNat_size hdesc.lt
  have hpos := hdesc.pos
  have hpaged : EFI_PAGE_SIZE ∣ desc.bytes := Nat.dvd_mul_left _ _
  rcases inserted_cases core desc with
    ⟨i, hi, -, -, -, heq⟩ | ⟨i, hi, -, -, hstart, hends, heq⟩ | ⟨-, -, heq⟩
  · rw [heq]
    exact h.update (fun j hj _ => hj) h.count_le rfl (h.pos i hi) (h.paged i hi)
  · have hnonzero : (core.ramAreas i).size + desc.size ≠ 0 := by
      intro hzero
      refine hstart ?_
      rw [EfiMemoryDescriptor.stop, ← hends, UInt64.add_assoc, hzero, UInt64.add_zero]
    have hpaged' : EFI_PAGE_SIZE ∣ ((core.ramAreas i).size + desc.size).toNat := by
      have hi' := h.paged i hi
      simp only [CoreHeader.areaSize] at hi'
      rw [UInt64.toNat_add, hsize]
      refine (Nat.dvd_mod_iff (by decide)).mpr (Nat.dvd_add hi' hpaged)
    rw [heq]
    refine h.update (fun j hj _ => hj) h.count_le rfl ?_ hpaged'
    exact Nat.pos_of_ne_zero fun hzero => hnonzero (UInt64.toNat_inj.mp hzero)
  · have hcount := areaCount_append hroom ⟨desc.physicalStart, desc.size⟩
    rw [heq]
    refine h.update (i := core.areaCount) (fun j hj hne => ?_) ?_ rfl ?_ ?_
    · omega
    · omega
    · rw [hsize]
      exact hpos
    · rw [hsize]
      exact hpaged

theorem HeaderInv.inserted (h : HeaderInv core) (hdesc : desc.Sized)
    (hroom : core.areaCount < MAX_RAM_AREAS) : HeaderInv (core.inserted desc) := by
  have hareas := h.areas.inserted hdesc hroom
  have hrest : (core.inserted desc).magic = core.magic ∧ (core.inserted desc).action = core.action ∧
      (core.inserted desc).facs = core.facs ∧ (core.inserted desc).rsdp = core.rsdp := by
    rcases inserted_cases core desc with
      ⟨i, -, -, -, -, heq⟩ | ⟨i, -, -, -, -, -, heq⟩ | ⟨-, -, heq⟩ <;> rw [heq] <;> exact ⟨rfl, rfl, rfl, rfl⟩
  obtain ⟨hmagic, haction, hfacs, hrsdp⟩ := hrest
  exact ⟨hmagic.trans h.magic, haction ▸ h.action, hfacs ▸ h.facs, hrsdp ▸ h.rsdp, hareas⟩

theorem insertDesc_headerInv (hdesc : desc.Sized) : Prog.Preserves HeaderInv (insertDesc desc) := by
  intro core r core' h hrun
  by_cases hroom : core.areaCount < MAX_RAM_AREAS
  · rw [insertDesc_room hroom] at hrun
    obtain rfl : core' = core.inserted desc := (congrArg Prod.snd (Option.some.inj hrun)).symm
    exact h.inserted hdesc hroom
  · rw [insertDesc_full hroom] at hrun
    obtain rfl : core' = core := (congrArg Prod.snd (Option.some.inj hrun)).symm
    exact h

/-- The table of the whole map. -/
theorem fillRamAreas_headerInv {map : MemoryMap}
    (hdescs : ∀ desc ∈ usableDescs map.descs, desc.Sized) :
    Prog.Preserves HeaderInv (fillRamAreas map) := by
  rw [fillRamAreas]
  refine Prog.preserves_bind (Prog.preserves_check _ _) fun _ => ?_
  refine Prog.preserves_bind (Prog.preserves_check _ _) fun _ => ?_
  refine Prog.preserves_bind (Prog.preserves_check _ _) fun _ => ?_
  refine Prog.preserves_forEach _ fun desc hdesc => ?_
  rw [fillDesc]
  split
  case isTrue husable => exact insertDesc_headerInv (hdescs desc (List.mem_filter.mpr ⟨hdesc, husable⟩))
  case isFalse => exact Prog.preserves_pure ()

theorem fillDiskPci_headerInv (pci : PciSpace) : Prog.Preserves HeaderInv (fillDiskPci pci) := by
  have hkeep : ∀ core disk, HeaderInv core → HeaderInv { core with diskPci := disk } :=
    fun core disk h => ⟨h.magic, h.action, h.facs, h.rsdp,
      ⟨h.areas.count_le, h.areas.pos, h.areas.paged⟩⟩
  rw [fillDiskPci]
  refine Prog.preserves_bind (Prog.preserves_lift _) fun dev => ?_
  refine Prog.preserves_bind (Prog.preserves_modify fun core h => hkeep core _ h) fun _ => ?_
  refine Prog.preserves_forEach _ fun i _ => ?_
  exact Prog.preserves_bind (Prog.preserves_lift _) fun _ =>
    Prog.preserves_modify fun core h => hkeep core _ h

end Fill

/-! ### The stages of `efi_main` -/

section Start

variable {α : Type} {A : AppSetup} {F : PageServices} {rsdp facs : ℕ} {held : ℕ → Bool}
  {s s' t : AppState}

/-- The globals that `fill_core_header` reads, and what it gets of the memory map. -/
def Pointers (rsdp facs : ℕ) (held : ℕ → Bool) (a : AcpiState) : Prop :=
  a.gRsdp = rsdp ∧ a.gFacs = facs ∧ a.isReserved = held

theorem preserves_pointers_modify {f : AcpiState → AcpiState}
    (hf : ∀ a, (f a).gRsdp = a.gRsdp ∧ (f a).gFacs = a.gFacs ∧ (f a).isReserved = a.isReserved) :
    Prog.Preserves (Pointers rsdp facs held) (Prog.modify f : AcpiM Unit) :=
  Prog.preserves_modify fun a ha => ⟨(hf a).1.trans ha.1, (hf a).2.1.trans ha.2.1, (hf a).2.2.trans ha.2.2⟩

theorem allocatePages_pointers (pages : ℕ) :
    Prog.Preserves (Pointers rsdp facs held) (allocatePages F pages) := by
  rw [allocatePages]
  refine Prog.preserves_bind Prog.preserves_get fun a => ?_
  exact Prog.preserves_bind (preserves_pointers_modify fun _ => ⟨rfl, rfl, rfl⟩) fun _ =>
    Prog.preserves_pure _

theorem freePatchedDsdt_pointers : Prog.Preserves (Pointers rsdp facs held) (freePatchedDsdt F) := by
  rw [freePatchedDsdt]
  refine Prog.preserves_bind Prog.preserves_get fun a => ?_
  refine Prog.preserves_bind (Prog.preserves_check _ _) fun _ => ?_
  refine Prog.preserves_bind ?_ fun _ => Prog.preserves_check _ _
  rw [freePages]
  refine Prog.preserves_bind Prog.preserves_get fun a => ?_
  exact Prog.preserves_bind (preserves_pointers_modify fun _ => ⟨rfl, rfl, rfl⟩) fun _ =>
    Prog.preserves_pure _

theorem appendMethod_pointers (parts : List (List UInt8)) :
    Prog.Preserves (Pointers rsdp facs held) (appendMethod F parts) := by
  rw [appendMethod]
  refine Prog.preserves_forEach _ fun part _ => ?_
  rw [appendDsdt]
  refine Prog.preserves_bind Prog.preserves_get fun a => ?_
  refine Prog.preserves_bind ?_ fun addr => ?_
  · rw [allocPatchedDsdt]
    refine Prog.preserves_bind (allocatePages_pointers _) fun answer => ?_
    split
    · exact Prog.preserves_throw _
    · exact Prog.preserves_bind (Prog.preserves_check _ _) fun _ => Prog.preserves_pure _
  refine Prog.preserves_bind (preserves_pointers_modify fun _ => ⟨rfl, rfl, rfl⟩) fun _ => ?_
  refine Prog.preserves_bind ?_ fun _ => ?_
  · rw [redirectDsdt]
    refine Prog.preserves_bind Prog.preserves_get fun a => ?_
    exact Prog.preserves_bind (Prog.preserves_check _ _) fun _ =>
      preserves_pointers_modify fun _ => ⟨rfl, rfl, rfl⟩
  refine Prog.preserves_bind Prog.preserves_get fun a => ?_
  split
  · exact Prog.preserves_bind freePatchedDsdt_pointers fun _ =>
      preserves_pointers_modify fun _ => ⟨rfl, rfl, rfl⟩
  · exact preserves_pointers_modify fun _ => ⟨rfl, rfl, rfl⟩

theorem hookMethod_pointers (name modifiedName : List UInt8) (parts : List (List UInt8)) :
    Prog.Preserves (Pointers rsdp facs held) (hookMethod F name modifiedName parts) := by
  refine Prog.preserves_bind (fun a r a' ha hrun => ?_) fun _ => appendMethod_pointers parts
  rw [renameMethod_apply] at hrun
  split at hrun
  · obtain rfl := (congrArg Prod.snd (Option.some.inj hrun)).symm
    exact ha
  · obtain rfl := (congrArg Prod.snd (Option.some.inj hrun)).symm
    exact ha

/-- The header is as `load_core` has left it, and the pointers are as found. -/
def Unfilled (rsdp facs : ℕ) (held : ℕ → Bool) (s : AppState) : Prop :=
  s.core = emptyCore ∧ Pointers rsdp facs held s.acpi

theorem preserves_unfilled_onAcpi {x : AcpiM α} (hx : Prog.Preserves (Pointers rsdp facs held) x) :
    Prog.Preserves (Unfilled rsdp facs held) (onAcpi x) :=
  Prog.preserves_zoom hx (fun _ hs => hs.2) fun _ _ hs ht => ⟨hs.1, ht⟩

theorem patchPts_unfilled : Prog.Preserves (Unfilled rsdp facs held) (patchPts A) := by
  rw [patchPts]
  refine Prog.preserves_bind (Prog.preserves_succeeds (preserves_unfilled_onAcpi ?_)) fun found => ?_
  · intro a r a' ha hrun
    obtain ⟨rf, hfind⟩ := findMethod_apply namePts a
    obtain ⟨rfl, rfl⟩ := Prod.mk.inj (Option.some.inj (hfind.symm.trans hrun))
    exact ha
  split
  · refine Prog.preserves_bind Prog.preserves_get fun s => ?_
    exact preserves_unfilled_onAcpi (hookMethod_pointers _ _ _)
  · refine Prog.preserves_bind (Prog.preserves_modify fun _ hs => hs) fun _ => ?_
    refine Prog.preserves_bind Prog.preserves_get fun s => ?_
    exact preserves_unfilled_onAcpi (appendMethod_pointers _)

theorem hookAndPatch_unfilled : Prog.Preserves (Unfilled rsdp facs held)
    (onServices (hookServices A.boot) >>= fun _ => createOrHookPts A) := by
  refine Prog.preserves_bind ?_ fun _ => ?_
  · exact Prog.preserves_zoom (J := fun _ => True) (fun _ _ _ _ _ => trivial) (fun _ _ => trivial)
      fun _ _ hs _ => hs
  refine Prog.preserves_bind ?_ fun _ => patchPts_unfilled
  rw [ptsRelocateFacsAddr]
  refine Prog.preserves_bind (Prog.preserves_check _ _) fun _ => ?_
  refine Prog.preserves_bind Prog.preserves_get fun s => ?_
  refine Prog.preserves_bind (Prog.preserves_check _ _) fun _ => ?_
  exact Prog.preserves_modify fun _ hs => hs

/-- The header of core lies in memory as core is built. -/
theorem findTables_core {u : Unit} (h : findTables A s = some (.ok u, t)) : t.core = emptyCore := by
  have hkeep : ∀ x : AcpiM Unit, Prog.Preserves (fun s : AppState => s.core = emptyCore) (onAcpi x) :=
    fun x => Prog.preserves_zoom (J := fun _ => True) (fun _ _ _ _ _ => trivial) (fun _ _ => trivial)
      fun _ _ hs _ => hs
  rw [findTables, loadCore] at h
  obtain ⟨_, t', hload, hfind⟩ := Prog.bind_eq_ok h
  refine hkeep _ t' _ t ?_ hfind
  obtain ⟨_, s₁, -, hload⟩ := Prog.bind_eq_ok hload
  obtain ⟨_, s₂, -, hload⟩ := Prog.bind_eq_ok hload
  obtain ⟨_, s₃, -, hload⟩ := Prog.bind_eq_ok hload
  obtain ⟨_, s₄, -, hload⟩ := Prog.bind_eq_ok hload
  obtain ⟨_, s₅, hempty, hload⟩ := Prog.bind_eq_ok hload
  have hcore : s₅.core = emptyCore := by
    obtain rfl := (congrArg Prod.snd (Option.some.inj hempty)).symm
    rfl
  have hrest : Prog.Preserves (fun s : AppState => s.core = emptyCore)
      (onAcpi (loadMemory A CORE_RM_PHYS_ADDR A.rmRaw) >>= fun _ =>
        onAcpi (loadMemory A CORE_PM_PHYS_ADDR A.pmRaw) >>= fun _ =>
          Prog.get >>= fun s => check (isCoreHeaderMagicValid s.core.magic)) :=
    Prog.preserves_bind (hkeep _) fun _ => Prog.preserves_bind (hkeep _) fun _ =>
      Prog.preserves_bind Prog.preserves_get fun _ => Prog.preserves_check _ _
  exact hrest s₅ _ t' hcore hload

theorem efiMain_success (h : efiMain A s = some (EFI_SUCCESS, s')) :
    efiStages A s = some (.ok (), s') := by
  rw [efiMain] at h
  split at h
  · cases h
  · rename_i t hrun
    have ht : t = s' := congrArg Prod.snd (Option.some.inj h)
    rw [hrun, ht]
  · have hstatus : EFI_LOAD_ERROR = EFI_SUCCESS := congrArg Prod.fst (Option.some.inj h)
    exact absurd hstatus (by decide)

/-- **`efi_main` leaves a header that core accepts**, with nothing to do. -/
theorem efiMain_headerInv (hrun : efiMain A s = some (EFI_SUCCESS, s'))
    (hfound : ∀ t, findTables A s = some (.ok (), t) →
      UInt64.ofNat t.acpi.gRsdp ≠ 0 ∧ UInt64.ofNat t.acpi.gFacs ≠ 0)
    (hdescs : ∀ desc ∈ usableDescs A.map.descs, desc.Sized) : HeaderInv s'.core := by
  have hstages := efiMain_success hrun
  have hsplit : efiStages A s = (findTables A >>= fun _ =>
      (onServices (hookServices A.boot) >>= fun _ => createOrHookPts A) >>= fun _ =>
        fillCoreHeader A) s := by
    rw [efiStages, findTables, Prog.bind_assoc_apply]
    refine Prog.bind_congr fun _ s₁ => Prog.bind_congr fun _ s₂ => ?_
    rw [Prog.bind_assoc_apply]
  rw [hsplit] at hstages
  obtain ⟨_, t, htables, hstages⟩ := Prog.bind_eq_ok hstages
  obtain ⟨_, u, hpatch, hfill⟩ := Prog.bind_eq_ok hstages
  obtain ⟨hrsdp, hfacs⟩ := hfound t htables
  obtain ⟨hcore, hursdp, hufacs, -⟩ : Unfilled t.acpi.gRsdp t.acpi.gFacs t.acpi.isReserved u :=
    hookAndPatch_unfilled t _ u ⟨findTables_core htables, rfl, rfl, rfl⟩ hpatch
  -- an empty table, with both pointers
  have hstart : HeaderInv (fillFacs u.acpi.gFacs (fillRsdp u.acpi.gRsdp u.core)) := by
    rw [hcore, hursdp, hufacs]
    have hnone : ∀ i, ¬ i < (fillFacs t.acpi.gFacs (fillRsdp t.acpi.gRsdp emptyCore)).areaCount :=
      fun i hi => absurd hi (Nat.not_lt_zero i)
    exact ⟨rfl, isCoreHeaderActionValid_toUInt32 _, hfacs, hrsdp, ⟨Nat.zero_le _,
      fun i hi => absurd hi (hnone i), fun i hi => absurd hi (hnone i)⟩⟩
  rw [fillCoreHeader, Prog.bind_get_apply, onCore] at hfill
  have hkeep : Prog.Preserves HeaderInv (fillDiskPci A.pci >>= fun _ => fillRamAreas A.map) :=
    Prog.preserves_bind (fillDiskPci_headerInv _) fun _ => fillRamAreas_headerInv hdescs
  cases hbody : (fillDiskPci A.pci >>= fun _ => fillRamAreas A.map)
      (fillFacs u.acpi.gFacs (fillRsdp u.acpi.gRsdp u.core)) with
  | none =>
    rw [Prog.zoom, Prog.bind_modify_apply, Prog.bind_modify_apply, hbody] at hfill
    cases hfill
  | some p =>
    rw [Prog.zoom, Prog.bind_modify_apply, Prog.bind_modify_apply, hbody] at hfill
    have hcore' : s'.core = p.2 :=
      (congrArg AppState.core (congrArg Prod.snd (Option.some.inj hfill))).symm
    rw [hcore']
    exact hkeep _ p.1 p.2 hstart hbody

end Start

/-! ## The calls of the hook -/

section Calls

variable {A : AppSetup} {s s' : AppState} {facs : UInt64} {F : Firmware facs} {m m' : Machine}
  {call : SetVariableCall}

/-- A call of `SetVariable`. -/
def CallStep (F : Firmware facs) (m : Machine) (call : SetVariableCall) (m' : Machine) : Prop :=
  m' = (setVariableHook F call m).2

/-- The call is a `SET_CORE_ACTION` with four bytes of data, which are this valid action. -/
structure SetsAction (call : SetVariableCall) (action : UInt32) : Prop where
  guid : isCommandsGuid call.vendorGuid = true
  name : wstrcmp call.variableName 0 (wideLiteral "SET_CORE_ACTION") = 0
  size : call.dataSize = 4
  value : get32 call.data 0 = action
  valid : isCoreHeaderActionValid action = true

/-- What a call does to the header. -/
theorem CallStep.core (h : CallStep F m call m') :
    m'.core = m.core ∨ ∃ action, SetsAction call action ∧ m'.core = m.core.setAction action := by
  obtain rfl : m' = _ := h
  simp only [setVariableHook]
  split_ifs with hguid hsize
  · exact Or.inl rfl
  · cases hcmd : handleCommand call.variableName call.data call.dataSize m.core with
    | error e => exact Or.inl rfl
    | ok core =>
      simp only [handleCommand, setCoreActionHandler] at hcmd
      split_ifs at hcmd with hname hfour hvalid
      · exact Or.inr ⟨_, ⟨hguid, hname, hfour, rfl, hvalid⟩, (Except.ok.inj hcmd).symm⟩
      · exact Or.inl (Except.ok.inj hcmd).symm
  all_goals exact Or.inl rfl

theorem CallStep.headerInv (hcall : CallStep F m call m') (h : HeaderInv m.core) :
    HeaderInv m'.core := by
  rcases hcall.core with hcore | ⟨action, hsets, hcore⟩
  · rw [hcore]
    exact h
  · rw [hcore]
    exact h.setAction hsets.valid

/-- The descriptors of the descending map go into an empty table. -/
theorem fillRamAreas_descending {core : CoreHeader} (hempty : core.ramAreasSize = 0) :
    fillRamAreas descendingMap core = some (.ok (),
      (core.inserted ⟨7, 0x2000, 1⟩).inserted ⟨7, 0x1000, 1⟩) := by
  have hzero : core.areaCount = 0 := by
    rw [CoreHeader.areaCount, hempty]
    rfl
  have hone : (core.inserted ⟨7, 0x2000, 1⟩).areaCount = 1 := by
    rcases inserted_cases core ⟨7, 0x2000, 1⟩ with ⟨i, hi, -⟩ | ⟨i, hi, -⟩ | ⟨-, -, heq⟩
    · omega
    · omega
    · rw [heq, areaCount_append (by rw [hzero]; decide), hzero]
  have hfill : ∀ (core : CoreHeader) (desc : EfiMemoryDescriptor), isMemoryDescUsable desc = true →
      core.areaCount < MAX_RAM_AREAS → fillDesc desc core = some (.ok (), core.inserted desc) := by
    intro core desc husable hroom
    rw [fillDesc, if_pos husable, insertDesc_room hroom]
  have hknown : descendingMap.sizeKnown = true := rfl
  have hpool : descendingMap.pool = true := rfl
  have hread : descendingMap.read = true := rfl
  rw [fillRamAreas, Prog.bind_ok (Prog.check_ok hknown), Prog.bind_ok (Prog.check_ok hpool),
    Prog.bind_ok (Prog.check_ok hread), descendingMap_descs, Prog.forEach_cons,
    Prog.bind_ok (hfill core _ (by decide) (by rw [hzero]; decide)), Prog.forEach_singleton]
  exact hfill _ _ (by decide) (by rw [hone]; decide)

/-- The header of core is filled in for the descending map. -/
theorem fillCoreHeader_descendingMap {w : AppState} (hcore : w.core = emptyCore) :
    ∃ w', fillCoreHeader (sampleSetup descendingMap) w = some (.ok (), w') := by
  obtain ⟨core, hdisk, hempty⟩ : ∃ core, fillDiskPci firmwareSpace
      (fillFacs w.acpi.gFacs (fillRsdp w.acpi.gRsdp w.core)) = some (.ok (), core) ∧
        core.ramAreasSize = 0 := by
    rw [hcore]
    exact ⟨_, rfl, rfl⟩
  rw [fillCoreHeader, Prog.bind_get_apply, onCore]
  refine ⟨_, Prog.zoom_eq (t := (core.inserted ⟨7, 0x2000, 1⟩).inserted ⟨7, 0x1000, 1⟩) ?_⟩
  rw [Prog.bind_modify_apply, Prog.bind_modify_apply]
  exact (Prog.bind_ok hdisk).trans (fillRamAreas_descending hempty)

/-- A start that has memory for its memory map succeeds. -/
theorem efiMain_descendingMap :
    ∃ s', efiMain (sampleSetup descendingMap) sampleStart = some (EFI_SUCCESS, s') := by
  obtain ⟨t, hbefore, hcore, hsame, hsize, hfadt, hlength, e, hfind⟩ :=
    beforePatch_sample descendingMap
  obtain ⟨⟨w, hpatch, hwcore⟩, -⟩ := patchPts_sample _ hbefore hsame hsize hfadt hlength hfind
  obtain ⟨w', hfill⟩ := fillCoreHeader_descendingMap (hwcore.trans hcore)
  have hstages : efiStages (sampleSetup descendingMap) sampleStart = some (.ok (), w') := by
    rw [efiStages_eq, Prog.bind_ok hbefore, Prog.bind_ok hpatch, hfill]
  refine ⟨w', ?_⟩
  rw [efiMain, hstages]

theorem descendingMap_sized : ∀ desc ∈ usableDescs descendingMap.descs, desc.Sized := by
  rw [descendingMap_descs]
  intro desc hdesc
  have hmem := (List.mem_filter.mp hdesc).1
  simp only [List.mem_cons, List.not_mem_nil, or_false] at hmem
  rcases hmem with rfl | rfl <;> exact ⟨by decide, by decide⟩

theorem findTables_descendingMap {t : AppState}
    (h : findTables (sampleSetup descendingMap) sampleStart = some (.ok (), t)) :
    UInt64.ofNat t.acpi.gRsdp ≠ 0 ∧ UInt64.ofNat t.acpi.gFacs ≠ 0 := by
  obtain ⟨a, hfind, -, hrsdp, -, hfacs, -⟩ := findTables_sample descendingMap
  obtain rfl := congrArg Prod.snd (Option.some.inj (h.symm.trans hfind))
  rw [hrsdp, hfacs]
  decide

/-- **The loader and core agree on the header**: after a start that succeeds, in every state that any
sequence of `SetVariable` calls reaches, both checks of core accept the header, and its action is
valid and changes only where a call sets it. -/
theorem header_agrees (hrun : efiMain A s = some (EFI_SUCCESS, s'))
    (hfound : ∀ t, findTables A s = some (.ok (), t) →
      UInt64.ofNat t.acpi.gRsdp ≠ 0 ∧ UInt64.ofNat t.acpi.gFacs ≠ 0)
    (hdescs : ∀ desc ∈ usableDescs A.map.descs, desc.Sized) (hm : m.core = s'.core)
    {calls : List SetVariableCall} (hcalls : Runs (CallStep F) m calls m') :
    isCoreHeaderValid m'.core = true ∧
      (∀ mem header, m'.core.savedVector mem ≠ 0 →
        ∃ header', fillDumpHeader m'.core mem header = .ok header') ∧
      m'.core.action < CORE_ACTION_MAX ∧
      ∀ call m'', CallStep F m' call m'' → m''.core.action ≠ m'.core.action →
        SetsAction call m''.core.action := by
  have hstart : HeaderInv m.core := hm ▸ efiMain_headerInv hrun hfound hdescs
  have hinv : HeaderInv m'.core :=
    hcalls.invariant (I := fun m => HeaderInv m.core) (fun _ _ _ h hcall => hcall.headerInv h) hstart
  refine ⟨hinv.valid, fun mem header hsaved => hinv.accepted header hsaved,
    of_decide_eq_true hinv.action, fun call m'' hcall hne => ?_⟩
  rcases hcall.core with hcore | ⟨action, hsets, hcore⟩
  · exact absurd (congrArg CoreHeader.action hcore) hne
  · rw [hcore]
    exact hsets

/-- The theorem on the sample, after the OS has asked for a store. -/
theorem header_agrees_sample : ∃ s' m',
    efiMain (sampleSetup descendingMap) sampleStart = some (EFI_SUCCESS, s') ∧
    isCoreHeaderValid m'.core = true ∧
      (∀ mem header, m'.core.savedVector mem ≠ 0 →
        ∃ header', fillDumpHeader m'.core mem header = .ok header') ∧
      m'.core.action < CORE_ACTION_MAX ∧
      ∀ call m'', CallStep (quietFirmware 0x84000) m' call m'' →
        m''.core.action ≠ m'.core.action → SetsAction call m''.core.action := by
  obtain ⟨s', hrun⟩ := efiMain_descendingMap
  have hcalls : Runs (CallStep (quietFirmware 0x84000)) { zeroMachine with core := s'.core }
      [storeCommand] _ := .cons rfl (.nil _)
  exact ⟨s', _, hrun, header_agrees hrun (fun t ht => findTables_descendingMap ht)
    descendingMap_sized rfl hcalls⟩

end Calls

end SwitchOs
