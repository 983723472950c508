import SwitchOs.Hooks.Commands
import SwitchOs.Uefi.Agreement

/-!
# The words of the FACS that the hooks and core use

The `_PTS` hook, the `SetVariable` hook and core each compute where the waking vectors are: the AML
from the base of an operation region, which `pts_relocate_facs_addr` patches; the hook from pointers
that `hook_set_variable` puts into its header; core from the address that `fill_facs` has left in its
own. The patched base has 32 bits, so they agree if and only if the FACS lies below 4 GiB
(`sameWords_iff`).
-/

namespace SwitchOs

open Acpi

/-- `FWAK` in the operation region of `pts_hook.asl`. -/
def ASL_FWAK : ℕ := 12

/-- `RSV1` in the operation region of `pts_hook.asl`. -/
def ASL_RSV1 : ℕ := 40

/-- Where the `_PTS` hook finds the waking vector, and where it saves it. -/
structure PtsFields where
  fwak : UInt64
  rsv1 : UInt64

/-- The fields in the operation region at the address in `SSDT___PTS_FACS`. -/
def ptsFields (A : AppSetup) (s : AppState) : PtsFields :=
  let facsAddr := get32 (fun i => s.ssdtPtsFacs.getD i 0) A.facsAddrRelocOffset.toNat
  ⟨facsAddr.toUInt64 + UInt64.ofNat ASL_FWAK, facsAddr.toUInt64 + UInt64.ofNat ASL_RSV1⟩

/-- `_PTS` of `pts_hook.asl`, up to the call of `SPTS`: `RSV1 = FWAK`, `FWAK = CORE_RM_PHYS_ADDR`. -/
def ptsMethod (fields : PtsFields) (mem : ℕ → UInt8) : ℕ → UInt8 :=
  put32 (put32 mem fields.rsv1.toNat (get32 mem fields.fwak.toNat)) fields.fwak.toNat
    CORE_WAKEUP_PHYS_ADDR

/-- The address that `find_original_waking_vector` reads. -/
def CoreHeader.originalWakingVectorAddr (core : CoreHeader) : UInt64 :=
  core.facs + UInt64.ofNat FACS_RSVD1

/-- The stages that pass the address of the FACS on, in the order of `efi_main`, with the header of
the `SetVariable` hook. -/
def passFacsOn (A : AppSetup) (fadt : ℕ) : AppM SetVariableHookHeader := do
  onAcpi (findFacs fadt)
  onServices (hookSetVariable A.boot)
  let s ← Prog.get
  let header := setVariableHeader (UInt64.ofNat s.acpi.gFacs)
  ptsRelocateFacsAddr A
  fillCoreHeader A
  pure header

/-- Both hooks use one waking vector, and all three parties one saved vector. -/
structure SameWords (fields : PtsFields) (header : SetVariableHookHeader) (core : CoreHeader) :
    Prop where
  waking : fields.fwak = header.wakingVectorAddr
  saved : fields.rsv1 = header.originalWakingVectorAddr
  core : header.originalWakingVectorAddr = core.originalWakingVectorAddr

/-! ## What the stages leave -/

section Stages

variable {A : AppSetup} {s s' : AppState} {core core' : CoreHeader} {facs : UInt64} {fadt : ℕ}
  {header : SetVariableHookHeader}

theorem inserted_facs (core : CoreHeader) (desc : EfiMemoryDescriptor) :
    (core.inserted desc).facs = core.facs := by
  rcases inserted_cases core desc with
    ⟨i, -, -, -, -, heq⟩ | ⟨i, -, -, -, -, -, heq⟩ | ⟨-, -, heq⟩ <;> rw [heq] <;> rfl

theorem fillRamAreas_facs (map : MemoryMap) :
    Prog.Preserves (fun core => core.facs = facs) (fillRamAreas map) := by
  rw [fillRamAreas]
  refine Prog.preserves_bind (Prog.preserves_check _ _) fun _ => ?_
  refine Prog.preserves_bind (Prog.preserves_check _ _) fun _ => ?_
  refine Prog.preserves_bind (Prog.preserves_check _ _) fun _ => ?_
  refine Prog.preserves_forEach _ fun desc _ => ?_
  rw [fillDesc]
  split
  · rw [insertDesc]
    refine Prog.preserves_bind Prog.preserves_get fun core => ?_
    refine Prog.preserves_bind (Prog.preserves_check _ _) fun _ => ?_
    exact Prog.preserves_modify fun core hcore => (inserted_facs core desc).trans hcore
  · exact Prog.preserves_pure ()

theorem fillDiskPci_facs (pci : PciSpace) :
    Prog.Preserves (fun core => core.facs = facs) (fillDiskPci pci) := by
  rw [fillDiskPci]
  refine Prog.preserves_bind (Prog.preserves_lift _) fun dev => ?_
  refine Prog.preserves_bind (Prog.preserves_modify fun _ hcore => hcore) fun _ => ?_
  refine Prog.preserves_forEach _ fun i _ => ?_
  exact Prog.preserves_bind (Prog.preserves_lift _) fun _ => Prog.preserves_modify fun _ hcore => hcore

theorem fillCoreHeader_facs (h : fillCoreHeader A s = some (.ok (), s')) :
    s'.core.facs = UInt64.ofNat s.acpi.gFacs ∧ s'.ssdtPtsFacs = s.ssdtPtsFacs := by
  rw [fillCoreHeader, Prog.bind_get_apply, onCore, Prog.zoom, Prog.bind_modify_apply,
    Prog.bind_modify_apply] at h
  have hkeep : Prog.Preserves (fun core => core.facs = UInt64.ofNat s.acpi.gFacs)
      (fillDiskPci A.pci >>= fun _ => fillRamAreas A.map) :=
    Prog.preserves_bind (fillDiskPci_facs _) fun _ => fillRamAreas_facs _
  cases hbody : (fillDiskPci A.pci >>= fun _ => fillRamAreas A.map)
      (fillFacs s.acpi.gFacs (fillRsdp s.acpi.gRsdp s.core)) with
  | none =>
    rw [hbody] at h
    cases h
  | some p =>
    rw [hbody] at h
    obtain rfl := congrArg Prod.snd (Option.some.inj h)
    exact ⟨hkeep _ p.1 p.2 rfl hbody, rfl⟩

theorem onServices_tables {x : Prog Err Services Unit} (h : onServices x s = some (.ok (), s')) :
    s'.acpi = s.acpi ∧ s'.ssdtPtsFacs = s.ssdtPtsFacs := by
  have hkeep : Prog.Preserves
      (fun t : AppState => t.acpi = s.acpi ∧ t.ssdtPtsFacs = s.ssdtPtsFacs) (onServices x) :=
    Prog.preserves_zoom (J := fun _ => True) (fun _ _ _ _ _ => trivial) (fun _ _ => trivial)
      fun _ _ ht _ => ht
  exact hkeep s _ s' ⟨rfl, rfl⟩ h

theorem ptsRelocateFacsAddr_eq_ok (h : ptsRelocateFacsAddr A s = some (.ok (), s')) :
    s' = s.relocateFacs A.facsAddrRelocOffset := by
  rw [ptsRelocateFacsAddr] at h
  obtain ⟨_, t, hfound, hsized⟩ := Prog.bind_eq_ok h
  obtain ⟨-, rfl⟩ := Prog.check_eq_ok hfound
  rw [Prog.bind_get_apply] at hsized
  obtain ⟨_, t', hfits, hrelocate⟩ := Prog.bind_eq_ok hsized
  obtain ⟨-, rfl⟩ := Prog.check_eq_ok hfits
  exact (congrArg Prod.snd (Option.some.inj hrelocate)).symm

/-- The operation region has the address that was written, cut to 32 bits. -/
theorem get32_relocateFacs {offset : UInt64} (hfits : offset.toNat + 4 ≤ s.ssdtPtsFacs.length) :
    get32 (fun i => (s.relocateFacs offset).ssdtPtsFacs.getD i 0) offset.toNat =
      UInt32.ofNat s.acpi.gFacs := by
  rw [← get32_put32 (fun i => s.ssdtPtsFacs.getD i 0) offset.toNat (UInt32.ofNat s.acpi.gFacs)]
  refine get32_congr fun i hi => ?_
  have hlt : offset.toNat + i < (s.relocateFacs offset).ssdtPtsFacs.length := by
    rw [AppState.relocateFacs, length_window]
    omega
  rw [List.getD_eq_getElem _ _ hlt]
  simp [AppState.relocateFacs, window]

/-- **The address that everything is computed from.** -/
theorem passFacsOn_eq_ok (h : passFacsOn A fadt s = some (.ok header, s'))
    (hfits : A.facsAddrRelocOffset.toNat + 4 ≤ s.ssdtPtsFacs.length) :
    header = setVariableHeader (UInt64.ofNat (fadtFacs s.acpi.mem fadt)) ∧
      s'.core.facs = UInt64.ofNat (fadtFacs s.acpi.mem fadt) ∧
      get32 (fun i => s'.ssdtPtsFacs.getD i 0) A.facsAddrRelocOffset.toNat =
        UInt32.ofNat (fadtFacs s.acpi.mem fadt) := by
  rw [passFacsOn] at h
  obtain ⟨_, s₁, hfind, h⟩ := Prog.bind_eq_ok h
  obtain rfl : { s with acpi := { s.acpi with gFacs := fadtFacs s.acpi.mem fadt } } = s₁ :=
    congrArg Prod.snd (Option.some.inj hfind)
  obtain ⟨_, s₂, hhook, h⟩ := Prog.bind_eq_ok h
  obtain ⟨hacpi, hcode⟩ := onServices_tables hhook
  rw [Prog.bind_get_apply] at h
  obtain ⟨_, s₃, hrelocate, h⟩ := Prog.bind_eq_ok h
  obtain ⟨_, s₄, hfill, h⟩ := Prog.bind_eq_ok h
  obtain ⟨hheader, rfl⟩ := Prod.mk.inj (Option.some.inj h)
  obtain rfl := ptsRelocateFacsAddr_eq_ok hrelocate
  obtain ⟨hcore, hcode'⟩ := fillCoreHeader_facs hfill
  have hfacs : s₂.acpi.gFacs = fadtFacs s.acpi.mem fadt := by rw [hacpi]
  refine ⟨?_, ?_, ?_⟩
  · rw [← Except.ok.inj hheader, hfacs]
  · rw [hcore]
    exact congrArg UInt64.ofNat hfacs
  · rw [hcode', get32_relocateFacs (by rw [hcode]; exact hfits), hfacs]

end Stages

/-! ## The words -/

section Words

variable {A : AppSetup} {s s' : AppState} {core : CoreHeader} {fields : PtsFields}
  {header : SetVariableHookHeader} {mem : ℕ → UInt8} {facs fadt : ℕ}

theorem fadtFacs_lt (mem : ℕ → UInt8) (fadt : ℕ) : fadtFacs mem fadt < 2 ^ 64 := by
  unfold fadtFacs
  simp only
  split
  · exact UInt64.toNat_lt _
  · exact (UInt32.toNat_lt _).trans (by decide)

/-- Only a 64-bit address in the FADT can be one above 4 GiB. -/
theorem fadtFacs_low_iff (mem : ℕ → UInt8) (fadt : ℕ) :
    fadtFacs mem fadt < 2 ^ 32 ↔ (get64 mem (fadt + FADT_X_FIRMWARE_CTRL)).toNat < 2 ^ 32 := by
  unfold fadtFacs
  simp only
  split
  case isTrue => exact Iff.rfl
  case isFalse hzero =>
    rw [not_not.mp hzero]
    exact iff_of_true (UInt32.toNat_lt _) (by decide)

/-- An address that is cut to 32 bits is the same one only below 4 GiB. -/
theorem toUInt64_ofNat_eq_iff (h : facs < 2 ^ 64) :
    (UInt32.ofNat facs).toUInt64 = UInt64.ofNat facs ↔ facs < 2 ^ 32 := by
  rw [← UInt64.toNat_inj, UInt32.toNat_toUInt64, UInt32.toNat_ofNat', UInt64.toNat_ofNat_of_lt' h]
  omega

/-- An offset in the FACS does not wrap, for a FACS inside the address space. -/
theorem toNat_facs_add {facs : UInt64} {offset : ℕ} (hend : facs.toNat + FACS_SIZE ≤ 2 ^ 64)
    (h : offset < FACS_SIZE) : (facs + UInt64.ofNat offset).toNat = facs.toNat + offset := by
  simp only [FACS_SIZE] at hend h
  have hoffset : offset < UInt64.size := h.trans (by decide)
  rw [UInt64.toNat_add, UInt64.toNat_ofNat_of_lt' hoffset, Nat.mod_eq_of_lt (by omega)]

/-- What core reads of the FACS is at this address. -/
theorem savedVector_eq (hend : core.facs.toNat + FACS_SIZE ≤ 2 ^ 64) :
    core.savedVector mem = get32 mem core.originalWakingVectorAddr.toNat := by
  rw [CoreHeader.savedVector, CoreHeader.originalWakingVectorAddr, toNat_facs_add hend (by decide)]

/-- **Where the words are the same**, the method that was appended overrides the waking vector of the
FACS that core knows. -/
theorem SameWords.ptsMethod_eq (h : SameWords fields header core)
    (hheader : header = setVariableHeader core.facs)
    (hend : core.facs.toNat + FACS_SIZE ≤ 2 ^ 64) :
    ptsMethod fields mem = core.overrideWakingVector mem := by
  rw [ptsMethod, h.waking, h.saved, hheader, setVariableHeader]
  simp only
  rw [toNat_facs_add hend (by decide), toNat_facs_add hend (by decide)]
  rfl

/-- Below 4 GiB the base of the operation region is the address of the FACS. -/
theorem sameWords_low (hrun : passFacsOn A fadt s = some (.ok header, s'))
    (hfits : A.facsAddrRelocOffset.toNat + 4 ≤ s.ssdtPtsFacs.length)
    (hlow : fadtFacs s.acpi.mem fadt < 2 ^ 32) :
    SameWords (ptsFields A s') header s'.core := by
  obtain ⟨rfl, hcore, hregion⟩ := passFacsOn_eq_ok hrun hfits
  have haddr := (toUInt64_ofNat_eq_iff (fadtFacs_lt s.acpi.mem fadt)).mpr hlow
  refine ⟨?_, ?_, ?_⟩
  · simp only [ptsFields, hregion, haddr]
    rfl
  · simp only [ptsFields, hregion, haddr]
    rfl
  · rw [CoreHeader.originalWakingVectorAddr, hcore]
    rfl

/-- If the `_PTS` hook uses the waking vector that the other hook uses, the base is that address. -/
theorem facs_low_of_fwak (hrun : passFacsOn A fadt s = some (.ok header, s'))
    (hfits : A.facsAddrRelocOffset.toNat + 4 ≤ s.ssdtPtsFacs.length)
    (hwaking : (ptsFields A s').fwak = header.wakingVectorAddr) :
    fadtFacs s.acpi.mem fadt < 2 ^ 32 := by
  obtain ⟨rfl, -, hregion⟩ := passFacsOn_eq_ok hrun hfits
  refine (toUInt64_ofNat_eq_iff (fadtFacs_lt s.acpi.mem fadt)).mp ?_
  simp only [ptsFields, hregion, setVariableHeader] at hwaking
  exact (UInt64.add_left_inj (UInt64.ofNat 12)).mp hwaking

/-- **The hooks and core use the same words of the FACS exactly if it lies below 4 GiB**: above that,
the base of the operation region is not its address. -/
theorem sameWords_iff (hrun : passFacsOn A fadt s = some (.ok header, s'))
    (hfits : A.facsAddrRelocOffset.toNat + 4 ≤ s.ssdtPtsFacs.length) :
    SameWords (ptsFields A s') header s'.core ↔
      (get64 s.acpi.mem (fadt + FADT_X_FIRMWARE_CTRL)).toNat < 2 ^ 32 := by
  rw [← fadtFacs_low_iff]
  exact ⟨fun h => facs_low_of_fwak hrun hfits h.waking, sameWords_low hrun hfits⟩

end Words

/-! ## Samples -/

/-- The application, when the FADT names a FACS by its 64-bit address. -/
def namesFacs (facs : UInt64) : AppState :=
  { sampleStart with
    acpi := startAcpi.setMem (put64 startAcpi.mem (0x80000 + FADT_X_FIRMWARE_CTRL) facs) }

theorem fadtFacs_namesFacs {facs : UInt64} (h : facs ≠ 0) :
    fadtFacs (namesFacs facs).acpi.mem 0x80000 = facs.toNat := by
  have hfield : get64 (namesFacs facs).acpi.mem (0x80000 + FADT_X_FIRMWARE_CTRL) = facs :=
    get64_put64 _ _ _
  rw [fadtFacs, hfield, if_pos h]

theorem passFacsOn_namesFacs (facs : UInt64) : ∃ header s',
    passFacsOn (sampleSetup descendingMap) 0x80000 (namesFacs facs) = some (.ok header, s') := by
  obtain ⟨services, hservices⟩ : ∃ services,
      hookSetVariable sampleBoot SwitchOs.sampleServices = some (.ok (), services) := ⟨_, rfl⟩
  have hfind : onAcpi (findFacs 0x80000) (namesFacs facs) = some (.ok (), { namesFacs facs with
      acpi := { (namesFacs facs).acpi with
        gFacs := fadtFacs (namesFacs facs).acpi.mem 0x80000 } }) := rfl
  obtain ⟨t, hhook, hcode, hcore⟩ : ∃ t, onServices (hookSetVariable (sampleSetup descendingMap).boot)
      { namesFacs facs with acpi := { (namesFacs facs).acpi with
        gFacs := fadtFacs (namesFacs facs).acpi.mem 0x80000 } } = some (.ok (), t) ∧
      t.ssdtPtsFacs.length = 12 ∧ t.core = emptyCore :=
    ⟨_, Prog.zoom_eq hservices, List.length_replicate, rfl⟩
  obtain ⟨w, hfill⟩ := fillCoreHeader_descendingMap (w := t.relocateFacs 1) hcore
  refine ⟨setVariableHeader (UInt64.ofNat t.acpi.gFacs), w, ?_⟩
  rw [passFacsOn, Prog.bind_ok hfind, Prog.bind_ok hhook, Prog.bind_get_apply,
    Prog.bind_ok (ptsRelocateFacsAddr_sample _ t hcode), Prog.bind_ok hfill]
  rfl

theorem relocation_fits (facs : UInt64) :
    (sampleSetup descendingMap).facsAddrRelocOffset.toNat + 4 ≤
      (namesFacs facs).ssdtPtsFacs.length := by
  have hlength : (namesFacs facs).ssdtPtsFacs.length = 12 := List.length_replicate
  rw [facsAddrRelocOffset_sample, hlength]
  decide

/-- The theorem on a FACS at `0x84000`. -/
theorem sameWords_iff_low : ∃ header s',
    passFacsOn (sampleSetup descendingMap) 0x80000 (namesFacs 0x84000) = some (.ok header, s') ∧
    (SameWords (ptsFields (sampleSetup descendingMap) s') header s'.core ↔
      (get64 (namesFacs 0x84000).acpi.mem (0x80000 + FADT_X_FIRMWARE_CTRL)).toNat < 2 ^ 32) := by
  obtain ⟨header, s', hrun⟩ := passFacsOn_namesFacs 0x84000
  exact ⟨header, s', hrun, sameWords_iff hrun (relocation_fits 0x84000)⟩

/-- **A FACS at 4 GiB**: the operation region of the `_PTS` hook is at address 0. -/
theorem words_differ_high : ∃ header s',
    passFacsOn (sampleSetup descendingMap) 0x80000 (namesFacs 0x100000000) =
      some (.ok header, s') ∧
    (sampleSetup descendingMap).facsAddrRelocOffset.toNat + 4 ≤
      (namesFacs 0x100000000).ssdtPtsFacs.length ∧
    ¬ SameWords (ptsFields (sampleSetup descendingMap) s') header s'.core := by
  obtain ⟨header, s', hrun⟩ := passFacsOn_namesFacs 0x100000000
  refine ⟨header, s', hrun, relocation_fits 0x100000000, fun hsame => ?_⟩
  have hlow := facs_low_of_fwak hrun (relocation_fits 0x100000000) hsame.waking
  rw [fadtFacs_namesFacs (by decide)] at hlow
  exact absurd hlow (by decide)

end SwitchOs
