import SwitchOs.Acpi.FindTables
import SwitchOs.Uefi.App

/-!
# A start that fails

`efi_main` unhooks the services when a stage fails, but it does not take the patch of the DSDT back.
`failed_start_untouched_iff` says when a failed start leaves the tables of the firmware as they were:
if it ends before the table is patched, or at the first allocation of the patch where renaming `_PTS`
has changed nothing.
-/

namespace SwitchOs

open Acpi

/-- The FADT names a DSDT in the same way as before, with the same bytes. -/
structure Untouched (fadt : ℕ) (mem mem' : ℕ → UInt8) : Prop where
  dsdt : get32 mem' (fadt + FADT_DSDT) = get32 mem (fadt + FADT_DSDT)
  xDsdt : get64 mem' (fadt + FADT_X_DSDT) = get64 mem (fadt + FADT_X_DSDT)
  bytes : tableBytes mem' (fadtDsdt mem' fadt) = tableBytes mem (fadtDsdt mem fadt)

theorem fadtDsdt_of_fields {mem mem' : ℕ → UInt8} {fadt : ℕ}
    (h32 : get32 mem' (fadt + FADT_DSDT) = get32 mem (fadt + FADT_DSDT))
    (h64 : get64 mem' (fadt + FADT_X_DSDT) = get64 mem (fadt + FADT_X_DSDT)) :
    fadtDsdt mem' fadt = fadtDsdt mem fadt := by
  rw [fadtDsdt, fadtDsdt, h32, h64]

/-! ## Before the patch -/

/-- `efi_main` up to `find_acpi_tables`. -/
def findTables (A : AppSetup) : AppM Unit := do
  loadCore A
  onAcpi (findAcpiTables A.compareGuid)

/-- `efi_main` up to the patch. -/
def beforePatch (A : AppSetup) : AppM Unit := do
  findTables A
  onServices (hookServices A.boot)
  ptsRelocateFacsAddr A

/-- Memory that the firmware does not hand out is as it was, and the DSDT is not patched. -/
structure Quiet (a₀ a : AcpiState) : Prop where
  mem : ∀ x, a₀.free x = false → a.mem x = a₀.mem x
  free : ∀ x, a₀.free x = false → a.free x = false
  patched : a.isDsdtPatched = false

section Quiet

variable {α : Type} {A : AppSetup} {I : AcpiState → Prop} {a₀ a a' : AcpiState} {s s' : AppState}
  {fadt : ℕ}

theorem Quiet.reserved (h : Quiet a₀ a) (start pages : ℕ) :
    Quiet a₀ (SwitchOs.reserved start pages a) := by
  refine ⟨h.mem, fun x hx => ?_, h.patched⟩
  show (a.free x && !inPages start pages x) = false
  rw [h.free x hx, Bool.false_and]

theorem reserveMemory_apply (A : AppSetup) (start size : ℕ) (a : AcpiState) :
    reserveMemory A start size a =
      if A.allocateAddress a start (alignUp size PAGE_SIZE / PAGE_SIZE) then
        some (.ok (), reserved start (alignUp size PAGE_SIZE / PAGE_SIZE) a)
      else some (.error .ERR_INVALID, a) := by
  rw [reserveMemory, Prog.bind_get_apply]
  cases hgiven : A.allocateAddress a start (alignUp size PAGE_SIZE / PAGE_SIZE) with
  | false => exact Prog.bind_error (Prog.check_error rfl)
  | true => exact Prog.bind_ok (Prog.check_ok rfl)

theorem written_outside {addr x : ℕ} {buf : List UInt8} (h : x < addr ∨ addr + buf.length ≤ x) :
    (written addr buf a).mem x = a.mem x := by
  have hout : blit a.mem addr (fun i => buf.getD i 0) 0 buf.length x = a.mem x := blit_outside h
  exact hout

/-- The state once `buf` has been loaded to `addr`. -/
def loaded (addr : ℕ) (buf : List UInt8) (a : AcpiState) : AcpiState :=
  written addr buf (reserved addr (alignUp buf.length PAGE_SIZE / PAGE_SIZE) a)

@[simp] theorem loaded_free {addr x : ℕ} {buf : List UInt8} : (loaded addr buf a).free x =
    (a.free x && !inPages addr (alignUp buf.length PAGE_SIZE / PAGE_SIZE) x) := rfl

theorem loadMemory_ok {addr : ℕ} {buf : List UInt8}
    (h : A.allocateAddress a addr (alignUp buf.length PAGE_SIZE / PAGE_SIZE) = true) :
    loadMemory A addr buf a = some (.ok (), loaded addr buf a) := by
  have hreserve := reserveMemory_apply A addr buf.length a
  rw [h, if_pos rfl] at hreserve
  rw [loadMemory, Prog.bind_ok hreserve, Prog.modify_apply, loaded]

theorem loadMemory_error {addr : ℕ} {buf : List UInt8}
    (h : A.allocateAddress a addr (alignUp buf.length PAGE_SIZE / PAGE_SIZE) = false) :
    loadMemory A addr buf a = some (.error .ERR_INVALID, a) := by
  have hreserve := reserveMemory_apply A addr buf.length a
  rw [h, if_neg Bool.false_ne_true] at hreserve
  rw [loadMemory, Prog.bind_error hreserve]

/-- Core is loaded to memory that is free. -/
theorem loadMemory_quiet (addr : ℕ) (buf : List UInt8) :
    Prog.Preserves (Quiet a₀) (loadMemory A addr buf) := by
  intro a r a' ha hrun
  cases hgiven : A.allocateAddress a addr (alignUp buf.length PAGE_SIZE / PAGE_SIZE) with
  | false =>
    rw [loadMemory_error hgiven] at hrun
    obtain rfl : a' = a := (congrArg Prod.snd (Option.some.inj hrun)).symm
    exact ha
  | true =>
    rw [loadMemory_ok hgiven] at hrun
    obtain rfl : a' = loaded addr buf a := (congrArg Prod.snd (Option.some.inj hrun)).symm
    have hquiet := ha.reserved addr (alignUp buf.length PAGE_SIZE / PAGE_SIZE)
    refine ⟨fun x hx => (written_outside ?_).trans (hquiet.mem x hx), hquiet.free, hquiet.patched⟩
    -- the pages were free, and so `x` is apart from them
    have hle := le_alignUp buf.length (show 0 < PAGE_SIZE by decide)
    have hsize : alignUp buf.length PAGE_SIZE / PAGE_SIZE * PAGE_SIZE =
        alignUp buf.length PAGE_SIZE := Nat.div_mul_cancel (Nat.dvd_mul_left _ _)
    by_contra hin
    have hfree := A.allocateAddress_free hgiven x (inPages_iff.mpr (by omega))
    rw [ha.free x hx] at hfree
    cases hfree

/-- Only the globals of `tables.c` differ. -/
structure SameMemory (a₀ a : AcpiState) : Prop where
  mem : a.mem = a₀.mem
  free : a.free = a₀.free
  isReserved : a.isReserved = a₀.isReserved
  patched : a.isDsdtPatched = a₀.isDsdtPatched
  calls : a.calls = a₀.calls

theorem preserves_sameMemory_modify {f : AcpiState → AcpiState} (hf : ∀ a, SameMemory a (f a)) :
    Prog.Preserves (SameMemory a₀) (Prog.modify f : AcpiM Unit) :=
  Prog.preserves_modify fun a ha => ⟨(hf a).mem.trans ha.mem, (hf a).free.trans ha.free,
    (hf a).isReserved.trans ha.isReserved, (hf a).patched.trans ha.patched, (hf a).calls.trans ha.calls⟩

theorem findRsdp_sameMemory (compareGuid : Guid → Guid → Bool) :
    Prog.Preserves (SameMemory a₀) (findRsdp compareGuid) := by
  rw [findRsdp]
  refine Prog.preserves_bind Prog.preserves_get fun a => ?_
  split
  · exact Prog.preserves_throw _
  · refine Prog.preserves_bind (Prog.preserves_forEach _ fun entry _ => ?_) fun _ => ?_
    · obtain ⟨vendorGuid, vendorTable⟩ := entry
      simp only
      split
      · refine Prog.preserves_bind Prog.preserves_get fun a => ?_
        refine Prog.preserves_bind (Prog.preserves_check _ _) fun _ => ?_
        exact preserves_sameMemory_modify fun _ => ⟨rfl, rfl, rfl, rfl, rfl⟩
      · exact Prog.preserves_pure ()
    · exact Prog.preserves_bind Prog.preserves_get fun a => Prog.preserves_check _ _

theorem findRxsdt_sameMemory (rsdp : ℕ) : Prog.Preserves (SameMemory a₀) (findRxsdt rsdp) := by
  rw [findRxsdt]
  refine Prog.preserves_bind Prog.preserves_get fun a => ?_
  simp only
  split
  · refine Prog.preserves_bind ?_ fun _ => ?_
    · exact preserves_sameMemory_modify fun _ => ⟨rfl, rfl, rfl, rfl, rfl⟩
    · exact Prog.preserves_bind Prog.preserves_get fun a => Prog.preserves_check _ _
  · refine Prog.preserves_bind ?_ fun _ => ?_
    · exact preserves_sameMemory_modify fun _ => ⟨rfl, rfl, rfl, rfl, rfl⟩
    · exact Prog.preserves_bind Prog.preserves_get fun a => Prog.preserves_check _ _

theorem scanEntry_sameMemory (entry : ℕ) : Prog.Preserves (SameMemory a₀) (scanEntry entry) := by
  rw [scanEntry]
  refine Prog.preserves_bind (Prog.preserves_check _ _) fun _ => ?_
  refine Prog.preserves_bind Prog.preserves_get fun a => ?_
  split
  · refine Prog.preserves_bind (Prog.preserves_check _ _) fun _ => ?_
    exact preserves_sameMemory_modify fun _ => ⟨rfl, rfl, rfl, rfl, rfl⟩
  · exact Prog.preserves_pure ()

/-- Finding the tables only looks. -/
theorem findAcpiTables_sameMemory (compareGuid : Guid → Guid → Bool) :
    Prog.Preserves (SameMemory a₀) (findAcpiTables compareGuid) := by
  rw [findAcpiTables]
  refine Prog.preserves_bind (findRsdp_sameMemory compareGuid) fun _ => ?_
  refine Prog.preserves_bind Prog.preserves_get fun a => ?_
  refine Prog.preserves_bind (findRxsdt_sameMemory _) fun _ => ?_
  refine Prog.preserves_bind Prog.preserves_get fun a => ?_
  refine Prog.preserves_bind ?_ fun _ => ?_
  · rw [scanRxsdt]
    refine Prog.preserves_bind Prog.preserves_get fun a => ?_
    exact Prog.preserves_forEach _ fun entry _ => scanEntry_sameMemory entry
  · refine Prog.preserves_bind Prog.preserves_get fun a => ?_
    refine Prog.preserves_bind (Prog.preserves_check _ _) fun _ => ?_
    refine Prog.preserves_bind ?_ fun _ => ?_
    · exact preserves_sameMemory_modify fun _ => ⟨rfl, rfl, rfl, rfl, rfl⟩
    · exact preserves_sameMemory_modify fun _ => ⟨rfl, rfl, rfl, rfl, rfl⟩

theorem findAcpiTables_quiet (compareGuid : Guid → Guid → Bool) :
    Prog.Preserves (Quiet a₀) (findAcpiTables compareGuid) := by
  intro a r a' ha hrun
  have hsame := findAcpiTables_sameMemory compareGuid a r a' ⟨rfl, rfl, rfl, rfl, rfl⟩ hrun
  exact ⟨fun x hx => hsame.mem ▸ ha.mem x hx, fun x hx => hsame.free ▸ ha.free x hx,
    hsame.patched.trans ha.patched⟩

/-- What `find_acpi_tables` leaves in `g_dsdt`. -/
theorem findAcpiTables_eq_ok {compareGuid : Guid → Guid → Bool} {u : Unit}
    (h : findAcpiTables compareGuid a = some (.ok u, a')) :
    a'.gDsdt = fadtDsdt a'.mem a'.gFadt := by
  obtain ⟨-, -, c, -, -, -, -, hnamed⟩ := findAcpiTables_stages h
  rw [hnamed.gDsdt, hnamed.frame.mem, hnamed.gFadt]

/-! ### In the application -/

/-- The tables of the application meet `I`. -/
def OnTables (I : AcpiState → Prop) (s : AppState) : Prop := I s.acpi

theorem onAcpi_eq {x : AcpiM α} {r : Except Err α} (h : onAcpi x s = some (r, s')) :
    x s.acpi = some (r, s'.acpi) := by
  cases hrun : x s.acpi with
  | none =>
    rw [onAcpi, Prog.zoom, hrun] at h
    cases h
  | some p =>
    rw [onAcpi, Prog.zoom_eq (r := p.1) (t := p.2) hrun] at h
    obtain ⟨rfl, rfl⟩ := Prod.mk.inj (Option.some.inj h)
    rfl

theorem onAcpi_of_eq {x : AcpiM α} {r : Except Err α} (h : x s.acpi = some (r, a)) :
    onAcpi x s = some (r, { s with acpi := a }) := Prog.zoom_eq h

theorem preserves_onAcpi {x : AcpiM α} (hx : Prog.Preserves I x) :
    Prog.Preserves (OnTables I) (onAcpi x) :=
  Prog.preserves_zoom hx (fun _ hs => hs) fun _ _ _ ht => ht

/-- What works on the services leaves the tables alone. -/
theorem preserves_onServices {x : Prog Err Services α} :
    Prog.Preserves (OnTables I) (onServices x) :=
  Prog.preserves_zoom (J := fun _ => True) (fun _ _ _ _ _ => trivial) (fun _ _ => trivial)
    fun _ _ hs _ => hs

theorem preserves_onCore {x : Prog Err CoreHeader α} : Prog.Preserves (OnTables I) (onCore x) :=
  Prog.preserves_zoom (J := fun _ => True) (fun _ _ _ _ _ => trivial) (fun _ _ => trivial)
    fun _ _ hs _ => hs

theorem loadCore_quiet : Prog.Preserves (OnTables (Quiet a₀)) (loadCore A) := by
  rw [loadCore]
  refine Prog.preserves_bind (Prog.preserves_check _ _) fun _ => ?_
  refine Prog.preserves_bind (Prog.preserves_check _ _) fun _ => ?_
  refine Prog.preserves_bind (Prog.preserves_check _ _) fun _ => ?_
  refine Prog.preserves_bind (preserves_onAcpi (loadMemory_quiet _ _)) fun _ => ?_
  refine Prog.preserves_bind preserves_onCore fun _ => ?_
  refine Prog.preserves_bind (preserves_onAcpi (loadMemory_quiet _ _)) fun _ => ?_
  refine Prog.preserves_bind (preserves_onAcpi (loadMemory_quiet _ _)) fun _ => ?_
  exact Prog.preserves_bind Prog.preserves_get fun s => Prog.preserves_check _ _

/-- What `load_core` leaves if it succeeds. -/
theorem loadCore_ok (hcore : A.coreRaw.length ≤ CORE_MAX_PHYS_MEM_SIZE)
    (hrm : A.rmRaw.length ≤ CORE_MAX_RM_PHYS_MEM_SIZE)
    (hpm : A.pmRaw.length ≤ CORE_MAX_PM_PHYS_MEM_SIZE) {a₁ a₂ a₃ : AcpiState}
    (h₁ : loadMemory A CORE_PHYS_ADDR A.coreRaw s.acpi = some (.ok (), a₁))
    (h₂ : loadMemory A CORE_RM_PHYS_ADDR A.rmRaw a₁ = some (.ok (), a₂))
    (h₃ : loadMemory A CORE_PM_PHYS_ADDR A.pmRaw a₂ = some (.ok (), a₃)) :
    loadCore A s = some (.ok (), { s with core := emptyCore, acpi := a₃ }) := by
  have hempty : onCore (Prog.modify fun _ => emptyCore) { s with acpi := a₁ } =
      some (.ok (), { s with core := emptyCore, acpi := a₁ }) := rfl
  rw [loadCore, Prog.bind_ok (Prog.check_ok (decide_eq_true hcore)),
    Prog.bind_ok (Prog.check_ok (decide_eq_true hrm)),
    Prog.bind_ok (Prog.check_ok (decide_eq_true hpm)), Prog.bind_ok (onAcpi_of_eq h₁),
    Prog.bind_ok hempty,
    Prog.bind_ok (onAcpi_of_eq (s := { s with core := emptyCore, acpi := a₁ }) h₂),
    Prog.bind_ok (onAcpi_of_eq (s := { s with core := emptyCore, acpi := a₂ }) h₃)]
  rfl

theorem ptsRelocateFacsAddr_tables : Prog.Preserves (OnTables I) (ptsRelocateFacsAddr A) := by
  rw [ptsRelocateFacsAddr]
  refine Prog.preserves_bind (Prog.preserves_check _ _) fun _ => ?_
  refine Prog.preserves_bind Prog.preserves_get fun s => ?_
  refine Prog.preserves_bind (Prog.preserves_check _ _) fun _ => ?_
  exact Prog.preserves_modify fun _ hs => hs

theorem beforePatch_quiet : Prog.Preserves (OnTables (Quiet a₀)) (beforePatch A) := by
  rw [beforePatch, findTables]
  refine Prog.preserves_bind ?_ fun _ => ?_
  · exact Prog.preserves_bind loadCore_quiet fun _ => preserves_onAcpi (findAcpiTables_quiet _)
  exact Prog.preserves_bind preserves_onServices fun _ => ptsRelocateFacsAddr_tables

/-- The patch starts with the FADT and the DSDT that were found. -/
theorem beforePatch_eq_ok {u : Unit} (h : beforePatch A s = some (.ok u, s')) :
    s'.acpi.gDsdt = fadtDsdt s'.acpi.mem s'.acpi.gFadt := by
  rw [beforePatch] at h
  obtain ⟨_, s₂, htables, h⟩ := Prog.bind_eq_ok h
  rw [findTables] at htables
  obtain ⟨_, s₁, -, hfind⟩ := Prog.bind_eq_ok htables
  have hs₂ : OnTables Acpi.Reached s₂ := (findAcpiTables_eq_ok (onAcpi_eq hfind)).symm
  have hrest : Prog.Preserves (OnTables Acpi.Reached)
      (onServices (hookServices A.boot) >>= fun _ => ptsRelocateFacsAddr A) :=
    Prog.preserves_bind preserves_onServices fun _ => ptsRelocateFacsAddr_tables
  exact (hrest s₂ _ s' hs₂ h).symm

/-! ### The tables at the patch -/

/-- The state with the FADT known. -/
def naming (fadt : ℕ) (a : AcpiState) : AcpiState :=
  { a with gFadt := fadt, gDsdt := fadtDsdt a.mem fadt, isDsdtPatched := false }

@[simp] theorem naming_mem : (naming fadt a).mem = a.mem := rfl

@[simp] theorem naming_free : (naming fadt a).free = a.free := rfl

@[simp] theorem naming_gFadt : (naming fadt a).gFadt = fadt := rfl

@[simp] theorem naming_gDsdt : (naming fadt a).gDsdt = fadtDsdt a.mem fadt := by
  rw [naming]

section Named

variable (hinv : DsdtInv (naming fadt a₀)) (h : Quiet a₀ a)

include hinv h

theorem Quiet.fadt_mem {x : ℕ} (hx : fadt ≤ x) (hx' : x < fadt + fadtSize a₀.mem fadt) :
    a.mem x = a₀.mem x := by
  have hreserved := hinv.fadt.reserved x
  rw [naming_gFadt, naming_mem, naming_free] at hreserved
  exact h.mem x (hreserved hx hx')

theorem Quiet.dsdt_mem {x : ℕ} (hx : fadtDsdt a₀.mem fadt ≤ x)
    (hx' : x < fadtDsdt a₀.mem fadt + (tableLength a₀.mem (fadtDsdt a₀.mem fadt)).toNat) :
    a.mem x = a₀.mem x := by
  have hreserved := hinv.dsdt x
  rw [naming_gDsdt, naming_mem, naming_free] at hreserved
  exact h.mem x (hreserved hx hx')

theorem Quiet.fields : get32 a.mem (fadt + FADT_DSDT) = get32 a₀.mem (fadt + FADT_DSDT) ∧
    get64 a.mem (fadt + FADT_X_DSDT) = get64 a₀.mem (fadt + FADT_X_DSDT) := by
  have hused := used_le_fadtSize a₀.mem fadt
  simp only [FADT_USED_SIZE] at hused
  refine ⟨get32_congr fun i hi => ?_, get64_congr fun i hi => ?_⟩
  · exact h.fadt_mem hinv (by omega) (by simp only [FADT_DSDT]; omega)
  · exact h.fadt_mem hinv (by omega) (by simp only [FADT_X_DSDT]; omega)

theorem Quiet.dsdt_length : tableLength a.mem (fadtDsdt a₀.mem fadt) =
    tableLength a₀.mem (fadtDsdt a₀.mem fadt) := by
  have hheader := hinv.dsdtHeader
  rw [naming_gDsdt, naming_mem] at hheader
  simp only [TABLE_HEADER_SIZE] at hheader
  exact tableLength_congr fun i hi => h.dsdt_mem hinv (by omega) (by simp only [TABLE_LENGTH]; omega)

/-- Nothing has been touched as long as nothing is patched. -/
theorem Quiet.untouched : Untouched fadt a₀.mem a.mem := by
  obtain ⟨h32, h64⟩ := h.fields hinv
  refine ⟨h32, h64, ?_⟩
  rw [fadtDsdt_of_fields h32 h64, tableBytes, tableBytes, h.dsdt_length hinv]
  exact window_eq_window.mpr fun i hi => h.dsdt_mem hinv (by omega) (by omega)

/-- The tables that were found are those of the firmware. -/
theorem Quiet.dsdtInv (hfadt : a.gFadt = fadt) (hdsdt : a.gDsdt = fadtDsdt a.mem a.gFadt) :
    DsdtInv a := by
  obtain ⟨h32, h64⟩ := h.fields hinv
  have hpatched : ¬ a.isDsdtPatched = true := by rw [h.patched]; exact Bool.false_ne_true
  have hdsdt₀ : a.gDsdt = fadtDsdt a₀.mem fadt := by
    rw [hdsdt, hfadt, fadtDsdt_of_fields h32 h64]
  have hlength := h.dsdt_length hinv
  have hused := used_le_fadtSize a₀.mem fadt
  simp only [FADT_USED_SIZE] at hused
  have hfadtLength : tableLength a.mem fadt = tableLength a₀.mem fadt :=
    tableLength_congr fun i hi =>
      h.fadt_mem hinv (by omega) (by simp only [TABLE_LENGTH]; omega)
  have hsize : fadtSize a.mem fadt = fadtSize a₀.mem fadt := by
    rw [fadtSize, hfadtLength, fadtSize]
  have hkept : ∀ b n, Kept (naming fadt a₀) b n → Kept a b n := fun b n hk =>
    ⟨fun x hx hx' => h.free x (hk.reserved x hx hx'), fun hp => absurd hp hpatched⟩
  obtain ⟨hnull, hne, hfadtHeader, hdsdtHeader, hfadtKept, hdsdtKept, -, happart⟩ := hinv
  rw [naming_gFadt] at hne
  rw [naming_gFadt, naming_mem] at hfadtHeader hfadtKept
  rw [naming_gDsdt, naming_mem] at hdsdtHeader
  simp only [naming_gDsdt, naming_gFadt, naming_mem, naming_free] at hdsdtKept happart
  refine ⟨hkept _ _ hnull, ?_, ?_, ?_, ?_, fun x hx hx' => ?_, fun hp => absurd hp hpatched,
    fun x hx hx' => ?_⟩
  · rw [hfadt]
    exact hne
  · rw [hfadt, hfadtLength]
    exact hfadtHeader
  · rw [hdsdt₀, hlength]
    exact hdsdtHeader
  · rw [hfadt, hsize]
    exact hkept _ _ hfadtKept
  · rw [hdsdt₀] at hx
    rw [hdsdt₀, hlength] at hx'
    exact h.free x (hdsdtKept x hx hx')
  · rw [hdsdt₀] at hx
    rw [hdsdt₀, hlength] at hx'
    rw [hfadt, hsize]
    exact happart x hx hx'

end Named

end Quiet

/-! ## The patch -/

/-- The tables that the parts of `_PTS` are appended to: `_PTS` is renamed, if there is one. -/
def hookBase (a : AcpiState) : Option AcpiState :=
  match findMethod namePts a with
  | some (.ok _, _) =>
    (renameOffset namePts nameSpts a).map fun offset => renamed offset nameSpts a
  | _ => some a

/-- Patching leaves the tables of the firmware alone: renaming `_PTS` fails or changes nothing, and
there are no pages for the first part. -/
def NothingPatched (A : AppSetup) (a : AcpiState) : Prop :=
  ∀ u, hookBase a = some u → tableBytes u.mem u.gDsdt = tableBytes a.mem a.gDsdt ∧
    A.pages.allocatePages u (patchedPages A.ssdtPts u) = none

section Patch

variable {A : AppSetup} {F : PageServices} {part : List UInt8} {u v : AcpiState} {s s' : AppState}
  {r : Except Err Unit} {d : ℕ}

/-- Without a `_PTS` a new one is appended, which does not call `SPTS`. -/
theorem patchPts_create {e : Err} (hfind : findMethod namePts s.acpi = some (.error e, s.acpi)) :
    patchPts A s = onAcpi (appendMethod A.pages [A.ssdtPts, s.dropCall.ssdtPtsFacs]) s.dropCall := by
  have hfound : onAcpi (findMethod namePts) s = some (.error e, s) := Prog.zoom_eq hfind
  have hsucc : Prog.succeeds (onAcpi (findMethod namePts)) s = some (.ok false, s) := by
    rw [Prog.succeeds, hfound]
  rw [patchPts, Prog.bind_ok hsucc, if_neg Bool.false_ne_true, Prog.bind_modify_apply,
    Prog.bind_get_apply]

/-- What `create_or_hook_pts` does once the address of the FACS is relocated. -/
theorem patchPts_cases (h : patchPts A s = some (r, s')) :
    (hookBase s.acpi = none ∧ r = .error .ERR_INVALID ∧ s'.acpi = s.acpi) ∨
      ∃ u last, hookBase s.acpi = some u ∧
        ((∃ found, findMethod namePts s.acpi = some (.ok found, s.acpi)) → last = s.ssdtPtsFacs) ∧
        Prog.forEach (appendDsdt A.pages) [A.ssdtPts, last] u = some (r, s'.acpi) := by
  obtain ⟨rf, hfind⟩ := findMethod_apply namePts s.acpi
  cases rf with
  | ok found =>
    have hfound : onAcpi (findMethod namePts) s = some (.ok found, s) := Prog.zoom_eq hfind
    have hsucc : Prog.succeeds (onAcpi (findMethod namePts)) s = some (.ok true, s) := by
      rw [Prog.succeeds, hfound]
    rw [patchPts, Prog.bind_ok hsucc, if_pos rfl, Prog.bind_get_apply] at h
    have hhook := onAcpi_eq h
    have hrename := renameMethod_apply namePts nameSpts s.acpi
    rw [hookBase, hfind]
    simp only
    cases hoffset : renameOffset namePts nameSpts s.acpi with
    | none =>
      rw [hoffset] at hrename
      rw [hookMethod, Prog.bind_error hrename] at hhook
      obtain ⟨rfl, hacpi⟩ := Prod.mk.inj (Option.some.inj hhook)
      exact Or.inl ⟨rfl, rfl, hacpi.symm⟩
    | some offset =>
      rw [hoffset] at hrename
      rw [hookMethod, Prog.bind_ok hrename] at hhook
      exact Or.inr ⟨_, _, rfl, fun _ => rfl, hhook⟩
  | error e =>
    rw [patchPts_create hfind] at h
    rw [hookBase, hfind]
    refine Or.inr ⟨s.acpi, _, rfl, ?_, onAcpi_eq (s := s.dropCall) h⟩
    rintro ⟨found, hfound⟩
    cases hfound

/-- One append: without pages nothing happens, and else the FADT names another table. -/
theorem append_moves (hinv : DsdtInv u) (hkept : Kept u d 1)
    (hout : AppendOutcome F part u r v) :
    (F.allocatePages u (patchedPages part u) = none ∧ r = .error .ERR_INVALID ∧
        v = u.allocated (patchedPages part u) none) ∨
      F.allocatePages u (patchedPages part u) ≠ none ∧ fadtDsdt v.mem v.gFadt ≠ d ∧
        v.gFadt = u.gFadt ∧ (r = .ok () → DsdtInv v ∧ Kept v d 1) := by
  have hd := hkept.reserved d (le_refl d) (Nat.lt_succ_self d)
  have hnext : r = .ok () → DsdtInv v ∧ Kept v d 1 := by
    rintro rfl
    obtain ⟨addr, happ⟩ := hinv.appended hout
    exact ⟨hinv.append happ, hkept.append hinv happ⟩
  cases hout with
  | refused halloc => exact Or.inl ⟨halloc, rfl, rfl⟩
  | first addr halloc =>
    exact Or.inr ⟨by simp [halloc], fadtDsdt_redirected_ne hinv halloc hd, rfl, hnext⟩
  | next addr halloc =>
    exact Or.inr ⟨by simp [halloc], fadtDsdt_redirected_ne hinv halloc hd, rfl, hnext⟩
  | stuck addr halloc =>
    exact Or.inr ⟨by simp [halloc], fadtDsdt_redirected_ne hinv halloc hd, rfl, hnext⟩

/-- Once the FADT names another table it never names the old one again. -/
theorem appends_move (parts : List (List UInt8)) :
    ∀ {u : AcpiState}, DsdtInv u → Kept u d 1 → fadtDsdt u.mem u.gFadt ≠ d →
      Prog.forEach (appendDsdt F) parts u = some (r, v) →
      fadtDsdt v.mem v.gFadt ≠ d ∧ v.gFadt = u.gFadt := by
  induction parts with
  | nil =>
    intro u _ _ hne hrun
    obtain rfl : v = u := (congrArg Prod.snd (Option.some.inj hrun)).symm
    exact ⟨hne, rfl⟩
  | cons part parts ih =>
    intro u hinv hkept hne hrun
    obtain ⟨r', t, hbody, hout⟩ := hinv.appendDsdt_cases F part
    have ht : fadtDsdt t.mem t.gFadt ≠ d ∧ t.gFadt = u.gFadt ∧
        (r' = .ok () → DsdtInv t ∧ Kept t d 1) := by
      rcases append_moves hinv hkept hout with ⟨-, rfl, rfl⟩ | ⟨-, hmoved⟩
      · exact ⟨hne, rfl, nofun⟩
      · exact hmoved
    obtain ⟨hne', hfadt, hnext⟩ := ht
    rw [Prog.forEach_cons] at hrun
    cases r' with
    | error e =>
      rw [Prog.bind_error hbody] at hrun
      obtain rfl : v = t := (congrArg Prod.snd (Option.some.inj hrun)).symm
      exact ⟨hne', hfadt⟩
    | ok _ =>
      rw [Prog.bind_ok hbody] at hrun
      obtain ⟨hinv', hkept'⟩ := hnext rfl
      obtain ⟨hv, hvf⟩ := ih hinv' hkept' hne' hrun
      exact ⟨hv, hvf.trans hfadt⟩

/-- **A run of appends** either finds no pages for its first part, or moves the DSDT for good. -/
theorem appends_cases (hinv : DsdtInv u) (hpatched : u.isDsdtPatched = false)
    {parts : List (List UInt8)}
    (hrun : Prog.forEach (appendDsdt F) (part :: parts) u = some (r, v)) :
    (F.allocatePages u (patchedPages part u) = none ∧ r = .error .ERR_INVALID ∧ v.mem = u.mem) ∨
      F.allocatePages u (patchedPages part u) ≠ none ∧ fadtDsdt v.mem u.gFadt ≠ u.gDsdt := by
  have hkept : Kept u u.gDsdt 1 := by
    refine ⟨fun x hx hx' => ?_, fun hp => ?_⟩
    · obtain rfl : x = u.gDsdt := by omega
      exact hinv.dsdt_taken
    · rw [hpatched] at hp
      cases hp
  obtain ⟨r', t, hbody, hout⟩ := hinv.appendDsdt_cases F part
  rw [Prog.forEach_cons] at hrun
  rcases append_moves hinv hkept hout with ⟨halloc, rfl, rfl⟩ | ⟨halloc, hne, hfadt, hnext⟩
  · rw [Prog.bind_error hbody] at hrun
    obtain ⟨rfl, rfl⟩ := Prod.mk.inj (Option.some.inj hrun)
    exact Or.inl ⟨halloc, rfl, rfl⟩
  · refine Or.inr ⟨halloc, ?_⟩
    cases r' with
    | error e =>
      rw [Prog.bind_error hbody] at hrun
      obtain rfl : v = t := (congrArg Prod.snd (Option.some.inj hrun)).symm
      rw [← hfadt]
      exact hne
    | ok _ =>
      rw [Prog.bind_ok hbody] at hrun
      obtain ⟨hinv', hkept'⟩ := hnext rfl
      obtain ⟨hv, hvf⟩ := appends_move parts hinv' hkept' hne hrun
      rw [← hfadt, ← hvf]
      exact hv

end Patch

/-! ## A failed start -/

section FailedStart

variable {A : AppSetup} {s s' : AppState} {fadt : ℕ} {u v : AcpiState}

theorem Untouched.symm {mem mem' : ℕ → UInt8} (h : Untouched fadt mem mem') :
    Untouched fadt mem' mem := ⟨h.dsdt.symm, h.xDsdt.symm, h.bytes.symm⟩

theorem Untouched.trans {mem mem' mem'' : ℕ → UInt8} (h : Untouched fadt mem mem')
    (h' : Untouched fadt mem' mem'') : Untouched fadt mem mem'' :=
  ⟨h'.dsdt.trans h.dsdt, h'.xDsdt.trans h.xDsdt, h'.bytes.trans h.bytes⟩

theorem efiStages_eq (A : AppSetup) (s : AppState) :
    efiStages A s = (beforePatch A >>= fun _ => patchPts A >>= fun _ => fillCoreHeader A) s := by
  rw [efiStages, beforePatch, Prog.bind_assoc_apply, findTables, Prog.bind_assoc_apply]
  refine Prog.bind_congr fun _ s₁ => Prog.bind_congr fun _ s₂ => ?_
  rw [Prog.bind_assoc_apply]
  refine Prog.bind_congr fun _ s₃ => ?_
  rw [createOrHookPts, Prog.bind_assoc_apply]

/-- Core is told about the tables, not the tables about core. -/
theorem fillCoreHeader_tables {I : AcpiState → Prop} :
    Prog.Preserves (OnTables I) (fillCoreHeader A) := by
  rw [fillCoreHeader]
  exact Prog.preserves_bind Prog.preserves_get fun _ => preserves_onCore

theorem efiMain_error (h : efiMain A s = some (EFI_LOAD_ERROR, s')) :
    ∃ e t, efiStages A s = some (.error e, t) ∧ s'.acpi = t.acpi := by
  rw [efiMain] at h
  split at h
  · cases h
  · have hstatus : EFI_SUCCESS = EFI_LOAD_ERROR := congrArg Prod.fst (Option.some.inj h)
    exact absurd hstatus (by decide)
  · rename_i e t hrun
    exact ⟨e, t, hrun, (congrArg AppState.acpi (congrArg Prod.snd (Option.some.inj h))).symm⟩

/-- The table that the parts are appended to. -/
theorem hookBase_eq_some (hinv : DsdtInv v) (h : hookBase v = some u) :
    DsdtInv u ∧ u.gFadt = v.gFadt ∧ u.gDsdt = v.gDsdt ∧ u.isDsdtPatched = v.isDsdtPatched ∧
      get32 u.mem (v.gFadt + FADT_DSDT) = get32 v.mem (v.gFadt + FADT_DSDT) ∧
      get64 u.mem (v.gFadt + FADT_X_DSDT) = get64 v.mem (v.gFadt + FADT_X_DSDT) := by
  rw [hookBase] at h
  split at h
  · obtain ⟨offset, hoffset, rfl⟩ := Option.map_eq_some_iff.mp h
    have hfits := renameOffset_fits hoffset
    have hused := used_le_fadtSize v.mem v.gFadt
    simp only [FADT_USED_SIZE] at hused
    refine ⟨hinv.renamed hfits, rfl, rfl, rfl, get32_congr fun i hi => ?_,
      get64_congr fun i hi => ?_⟩
    · exact hinv.renamed_fadt hfits (by omega) (by simp only [FADT_DSDT]; omega)
    · exact hinv.renamed_fadt hfits (by omega) (by simp only [FADT_X_DSDT]; omega)
  · obtain rfl := Option.some.inj h
    exact ⟨hinv, rfl, rfl, rfl, rfl, rfl⟩

/-- **What the patch leaves** of the tables that it finds. -/
theorem patch_untouched_iff {r : Except Err Unit} (hinv : DsdtInv s.acpi)
    (hnames : s.acpi.gDsdt = fadtDsdt s.acpi.mem s.acpi.gFadt)
    (hpatched : s.acpi.isDsdtPatched = false) (hpatch : patchPts A s = some (r, s')) :
    Untouched s.acpi.gFadt s.acpi.mem s'.acpi.mem ↔ NothingPatched A s.acpi := by
  rcases patchPts_cases hpatch with ⟨hnone, -, hsame⟩ | ⟨u, last, hbase, -, happends⟩
  · rw [hsame]
    refine iff_of_true ⟨rfl, rfl, rfl⟩ fun u hu => ?_
    rw [hnone] at hu
    cases hu
  · obtain ⟨huinv, hufadt, hudsdt, hupatched, h32, h64⟩ := hookBase_eq_some hinv hbase
    have hfields := fadtDsdt_of_fields h32 h64
    rcases appends_cases huinv (hupatched.trans hpatched) happends with
      ⟨halloc, -, hsame⟩ | ⟨halloc, hmoved⟩
    · rw [hsame]
      constructor
      · intro h u' hu'
        obtain rfl : u = u' := Option.some.inj (hbase.symm.trans hu')
        have hbytes := h.bytes
        rw [hfields, ← hnames, ← hudsdt] at hbytes
        exact ⟨hudsdt ▸ hbytes, halloc⟩
      · intro h
        refine ⟨h32, h64, ?_⟩
        rw [hfields, ← hnames, ← hudsdt]
        exact hudsdt ▸ (h u hbase).1
    · -- the FADT names another table for good
      refine iff_of_false (fun h => hmoved ?_) fun h => halloc (h u hbase).2
      rw [hufadt, fadtDsdt_of_fields h.dsdt h.xDsdt, hudsdt, hnames]

/-- Nothing after the patch touches the tables. -/
theorem efiStages_error {e : Err} {t w : AppState} {r : Except Err Unit}
    (hstages : efiStages A s = some (.error e, s')) (hbefore : beforePatch A s = some (.ok (), t))
    (hpatch : patchPts A t = some (r, w)) : s'.acpi = w.acpi := by
  rw [efiStages_eq, Prog.bind_ok hbefore] at hstages
  cases r with
  | error e' =>
    rw [Prog.bind_error hpatch] at hstages
    exact congrArg AppState.acpi (congrArg Prod.snd (Option.some.inj hstages)).symm
  | ok _ =>
    rw [Prog.bind_ok hpatch] at hstages
    exact fillCoreHeader_tables (I := fun a => a = w.acpi) w _ s' rfl hstages

/-! ## A start without memory for the memory map -/

/-- The pages from `addr` on, if they are free and lie below 4 GiB. -/
def giveAt (addr : ℕ) (s : AcpiState) (pages : ℕ) : Option ℕ :=
  if addr + pages * PAGE_SIZE ≤ 2 ^ 32 ∧ ∀ k < pages * PAGE_SIZE, s.free (addr + k) = true then
    some addr
  else none

theorem giveAt_eq_some {addr pages a : ℕ} {s : AcpiState} (h : giveAt addr s pages = some a) :
    a + pages * PAGE_SIZE ≤ 2 ^ 32 ∧ ∀ x, a ≤ x → x < a + pages * PAGE_SIZE → s.free x = true := by
  rw [giveAt] at h
  split at h
  case isTrue hfree =>
    obtain rfl := Option.some.inj h
    refine ⟨hfree.1, fun x hx hx' => ?_⟩
    have hk := hfree.2 (x - addr) (by omega)
    rwa [Nat.add_sub_cancel' hx] at hk
  case isFalse => cases h

/-- A firmware that gives the pages from 16 MiB on, and from 32 MiB on once the DSDT is patched. -/
def steppingServices : PageServices where
  allocatePages s pages := giveAt (if s.isDsdtPatched then 0x2000000 else 0x1000000) s pages
  freePages _ _ _ := true
  below h := (giveAt_eq_some h).1
  fresh h := (giveAt_eq_some h).2

/-- The tables of a firmware, from 512 KiB on: a DSDT of four bytes at `0x81000`, the FADT that names
it, the XSDT and the RSDP, which the system table lists. -/
def startAcpi : AcpiState where
  mem := put32 (put32 (put32 (put32 (put32 (put32 (put32 (put32 (put32 (put32 (fun _ => 0)
    0x80000 0x50434146) 0x80004 244) 0x80024 0x84000) 0x80028 0x81000) 0x81004 40)
    0x83000 0x54445358) 0x83004 44) 0x83024 0x80000) 0x8200c 0x2000000) 0x82018 0x83000
  free x := decide (0x1000 ≤ x ∧ (x < 0x80000 ∨ 0x90000 ≤ x))
  isReserved _ := false
  configurationTable := some [(ACPI_20_TABLE_GUID, 0x82000)]
  gRsdp := 0
  gRxsdt := 0
  gFadt := 0
  gFacs := 0
  gDsdt := 0
  isDsdtPatched := false
  calls := []

def sampleStart : AppState := ⟨emptyCore, startAcpi, SwitchOs.sampleServices, List.replicate 12 0⟩

/-- A core of nine MiB, which has room for `switch_buf`. -/
def sampleCore : List UInt8 := [0x78, 0x56, 0x34, 0x12] ++ List.replicate 0x8ffffc 0

theorem sampleCore_length : sampleCore.length = 0x900000 := by
  rw [sampleCore, List.length_append, List.length_replicate]
  rfl

/-- An application on a firmware with one disk. -/
def sampleSetup (map : MemoryMap) : AppSetup where
  coreRaw := sampleCore
  rmRaw := [0xf4]
  pmRaw := [0xf4]
  ssdtHeader := List.replicate 36 0
  ssdtPts := [0x14, 0x12, 0x5f, 0x50, 0x54, 0x53, 0x01]
  ssdtOffsetTable := [⟨pathFacs, 44⟩]
  compareGuid guid guid' := guid == guid'
  allocateAddress s start pages := decide (∀ k < pages * PAGE_SIZE, s.free (start + k) = true)
  allocateAddress_free := by
    intro s start pages h x hx
    have hk := of_decide_eq_true h
    have hx' := inPages_iff.mp hx
    have hfree := hk (x - start) (by omega)
    rwa [Nat.add_sub_cancel' hx'.1] at hfree
  pages := steppingServices
  boot := sampleBoot
  pci := firmwareSpace
  map := map

/-- The memory once core is loaded. -/
def loadedAcpi : AcpiState :=
  loaded CORE_PM_PHYS_ADDR [0xf4] (loaded CORE_RM_PHYS_ADDR [0xf4]
    (loaded CORE_PHYS_ADDR sampleCore startAcpi))

section Sample

variable (map : MemoryMap)

theorem inPages_eq_false {addr pages x : ℕ} (h : x < addr ∨ addr + pages * PAGE_SIZE ≤ x) :
    inPages addr pages x = false := decide_eq_false (by omega)

theorem loadCore_sample : loadCore (sampleSetup map) sampleStart =
    some (.ok (), { sampleStart with core := emptyCore, acpi := loadedAcpi }) := by
  have hpages : alignUp 0x900000 PAGE_SIZE / PAGE_SIZE = 0x900 := by decide
  have hone : alignUp 1 PAGE_SIZE / PAGE_SIZE = 1 := by decide
  have hcoreLength : (sampleSetup map).coreRaw.length = 0x900000 := sampleCore_length
  have hrmLength : (sampleSetup map).rmRaw.length = 1 := rfl
  have hpmLength : (sampleSetup map).pmRaw.length = 1 := rfl
  have hstart : ∀ x, 0x1000 ≤ x → x < 0x80000 ∨ 0x90000 ≤ x → startAcpi.free x = true :=
    fun x h₁ h₂ => decide_eq_true ⟨h₁, h₂⟩
  have hcore : ∀ x, x < CORE_PHYS_ADDR →
      (loaded CORE_PHYS_ADDR sampleCore startAcpi).free x = startAcpi.free x := by
    intro x hx
    rw [loaded_free, inPages_eq_false (Or.inl hx), Bool.not_false, Bool.and_true]
  have hrm : ∀ x, CORE_PM_PHYS_ADDR ≤ x → x < CORE_PHYS_ADDR →
      (loaded CORE_RM_PHYS_ADDR [0xf4]
        (loaded CORE_PHYS_ADDR sampleCore startAcpi)).free x = startAcpi.free x := by
    intro x hx hx'
    have hlength : ([0xf4] : List UInt8).length = 1 := rfl
    rw [loaded_free, hcore x hx', hlength, hone, inPages_eq_false, Bool.not_false, Bool.and_true]
    simp only [CORE_RM_PHYS_ADDR, CORE_PM_PHYS_ADDR, PAGE_SIZE] at hx ⊢
    omega
  simp only [CORE_PHYS_ADDR, CORE_PM_PHYS_ADDR] at hcore hrm
  refine loadCore_ok (hcoreLength.le.trans (by decide)) (Nat.le_of_ble_eq_true rfl)
    (Nat.le_of_ble_eq_true rfl) (loadMemory_ok (decide_eq_true fun k hk => ?_))
    (loadMemory_ok (decide_eq_true fun k hk => ?_)) (loadMemory_ok (decide_eq_true fun k hk => ?_))
  · rw [hcoreLength, hpages] at hk
    simp only [PAGE_SIZE, CORE_PHYS_ADDR] at hk ⊢
    exact hstart _ (by omega) (by omega)
  · rw [hrmLength, hone] at hk
    simp only [PAGE_SIZE, CORE_RM_PHYS_ADDR] at hk ⊢
    exact (hcore _ (by omega)).trans (hstart _ (by omega) (by omega))
  · rw [hpmLength, hone] at hk
    simp only [PAGE_SIZE, CORE_PM_PHYS_ADDR] at hk ⊢
    exact (hrm _ (by omega) (by omega)).trans (hstart _ (by omega) (by omega))

/-- What finding the tables leaves of the sample. -/
def findsSample : Option (Except Err Unit × AcpiState) → Bool
  | some (.ok _, a) => a.gRsdp == 0x82000 && a.gFadt == 0x80000 && a.gFacs == 0x84000 &&
      a.gDsdt == 0x81000 && (tableLength a.mem a.gDsdt).toNat == 40 &&
      match findMethod namePts a with
      | some (.error _, _) => true
      | _ => false
  | _ => false

theorem findAcpiTables_sample :
    findsSample (findAcpiTables (fun guid guid' => guid == guid') loadedAcpi) = true := by
  decide

theorem facsAddrRelocOffset_sample : (sampleSetup map).facsAddrRelocOffset = 1 := by
  simp only [AppSetup.facsAddrRelocOffset, sampleSetup, List.foldl_cons, List.foldl_nil]
  decide

theorem ptsRelocateFacsAddr_sample (s : AppState) (hlength : s.ssdtPtsFacs.length = 12) :
    ptsRelocateFacsAddr (sampleSetup map) s = some (.ok (), s.relocateFacs 1) := by
  rw [ptsRelocateFacsAddr, facsAddrRelocOffset_sample, Prog.bind_ok (Prog.check_ok (by decide)),
    Prog.bind_get_apply, hlength, Prog.bind_ok (Prog.check_ok (by decide)), Prog.modify_apply]

/-- The sample, once its tables are found. -/
theorem findTables_sample : ∃ a,
    findTables (sampleSetup map) sampleStart =
      some (.ok (), { sampleStart with core := emptyCore, acpi := a }) ∧
    SameMemory loadedAcpi a ∧ a.gRsdp = 0x82000 ∧ a.gFadt = 0x80000 ∧ a.gFacs = 0x84000 ∧
    (tableLength a.mem a.gDsdt).toNat = 40 ∧ ∃ e, findMethod namePts a = some (.error e, a) := by
  have hfinds := findAcpiTables_sample
  cases hrun : findAcpiTables (fun guid guid' => guid == guid') loadedAcpi with
  | none =>
    rw [hrun] at hfinds
    cases hfinds
  | some p =>
    obtain ⟨r, a⟩ := p
    rw [hrun] at hfinds
    cases r with
    | error e => cases hfinds
    | ok _ =>
      simp only [findsSample, Bool.and_eq_true, beq_iff_eq] at hfinds
      obtain ⟨⟨⟨⟨⟨hrsdp, hfadt⟩, hfacs⟩, -⟩, hlength⟩, hmethod⟩ := hfinds
      have hnone : ∃ e, findMethod namePts a = some (.error e, a) := by
        obtain ⟨r, hmethod'⟩ := findMethod_apply namePts a
        rw [hmethod'] at hmethod ⊢
        cases r with
        | ok _ => cases hmethod
        | error e => exact ⟨e, rfl⟩
      have hfind : onAcpi (findAcpiTables (sampleSetup map).compareGuid)
          { sampleStart with core := emptyCore, acpi := loadedAcpi } =
          some (.ok (), { sampleStart with core := emptyCore, acpi := a }) := Prog.zoom_eq hrun
      refine ⟨a, ?_, findAcpiTables_sameMemory _ _ _ _ ⟨rfl, rfl, rfl, rfl, rfl⟩ hrun, hrsdp, hfadt,
        hfacs, hlength, hnone⟩
      rw [findTables, Prog.bind_ok (loadCore_sample map), hfind]

/-- The sample, when it comes to the patch. -/
theorem beforePatch_sample : ∃ t, beforePatch (sampleSetup map) sampleStart = some (.ok (), t) ∧
    t.core = emptyCore ∧ SameMemory loadedAcpi t.acpi ∧ t.ssdtPtsFacs.length = 12 ∧
    t.acpi.gFadt = 0x80000 ∧ (tableLength t.acpi.mem t.acpi.gDsdt).toNat = 40 ∧
    ∃ e, findMethod namePts t.acpi = some (.error e, t.acpi) := by
  obtain ⟨a, hfind, hsame, -, hfadt, -, hlength, hnone⟩ := findTables_sample map
  obtain ⟨services, hservices⟩ : ∃ services,
      hookServices sampleBoot SwitchOs.sampleServices = some (.ok (), services) := ⟨_, rfl⟩
  have hhook : onServices (hookServices (sampleSetup map).boot)
      { sampleStart with core := emptyCore, acpi := a } =
      some (.ok (), { sampleStart with core := emptyCore, acpi := a, services := services }) :=
    Prog.zoom_eq hservices
  obtain ⟨t, hrelocate, hcore, hacpi, hsize⟩ : ∃ t, ptsRelocateFacsAddr (sampleSetup map)
      { sampleStart with core := emptyCore, acpi := a, services := services } =
      some (.ok (), t) ∧ t.core = emptyCore ∧ t.acpi = a ∧ t.ssdtPtsFacs.length = 12 :=
    ⟨_, ptsRelocateFacsAddr_sample map _ List.length_replicate, rfl, rfl, length_window _ _ _⟩
  refine ⟨t, ?_, hcore, ?_⟩
  · rw [beforePatch, Prog.bind_ok hfind, Prog.bind_ok hhook]
    exact hrelocate
  · rw [hacpi]
    exact ⟨hsame, hsize, hfadt, hlength, hnone⟩

theorem loadedAcpi_free {x : ℕ} (h : 0x90000 ≤ x) (h' : x < 0x40000000) :
    loadedAcpi.free x = true := by
  have hone : alignUp ([0xf4] : List UInt8).length PAGE_SIZE / PAGE_SIZE = 1 := by decide
  have hstart : startAcpi.free x = true := decide_eq_true ⟨by omega, Or.inr h⟩
  have hcore : inPages CORE_PHYS_ADDR (alignUp sampleCore.length PAGE_SIZE / PAGE_SIZE) x = false :=
    inPages_eq_false (Or.inl (by simp only [CORE_PHYS_ADDR]; omega))
  have hrm : inPages CORE_RM_PHYS_ADDR 1 x = false :=
    inPages_eq_false (Or.inr (by simp only [CORE_RM_PHYS_ADDR, PAGE_SIZE]; omega))
  have hpm : inPages CORE_PM_PHYS_ADDR 1 x = false := inPages_eq_false (Or.inl h')
  rw [loadedAcpi, loaded_free, loaded_free, loaded_free, hone, hstart, hcore, hrm, hpm]
  rfl

theorem giveAt_free {addr pages : ℕ} {a : AcpiState} (hbelow : addr + pages * PAGE_SIZE ≤ 2 ^ 32)
    (hfree : ∀ x, addr ≤ x → x < addr + pages * PAGE_SIZE → a.free x = true) :
    giveAt addr a pages = some addr :=
  if_pos ⟨hbelow, fun k hk => hfree _ (by omega) (by omega)⟩

theorem startAcpi_inv : DsdtInv (naming 0x80000 startAcpi) := by
  have hfadt : (tableLength startAcpi.mem 0x80000).toNat = 244 := by decide
  have hdsdt : (naming 0x80000 startAcpi).gDsdt = 0x81000 := by decide
  have hlength : (tableLength startAcpi.mem 0x81000).toNat = 40 := by decide
  refine .of_unpatched rfl (by decide) (by decide) hfadt (n := 40) ?_ (by decide) ?_ fun x hx hx' => ?_
  · rw [hdsdt]
    exact hlength
  · rw [hdsdt]
    decide
  · rw [hdsdt] at hx'
    rw [naming_gFadt] at hx
    exact decide_eq_false (by omega)

theorem patchedPages_small {aml : List UInt8} {a : AcpiState}
    (hheader : TABLE_HEADER_SIZE ≤ (tableLength a.mem a.gDsdt).toNat)
    (hsmall : (tableLength a.mem a.gDsdt).toNat + aml.length ≤ PAGE_SIZE) :
    patchedPages aml a = PAGE_SIZE := by
  simp only [TABLE_HEADER_SIZE, PAGE_SIZE] at hheader hsmall
  simp only [patchedPages, alignUp, PAGE_SIZE]
  omega

/-- The stepping firmware has the pages for two parts that take less than a page. -/
theorem steppingServices_appends {a : AcpiState} (first last : List UInt8) (hinv : DsdtInv a)
    (hpatched : a.isDsdtPatched = false)
    (hfree : ∀ x, 0x1000000 ≤ x → x < 0x4000000 → a.free x = true)
    (hsmall : (tableLength a.mem a.gDsdt).toNat + first.length + last.length ≤ PAGE_SIZE) :
    steppingServices.allocatePages a (patchedPages first a) = some 0x1000000 ∧
      ∃ v, Prog.forEach (appendDsdt steppingServices) [first, last] a = some (.ok (), v) := by
  have hfirst : patchedPages first a = PAGE_SIZE := patchedPages_small hinv.dsdtHeader (by omega)
  have halloc : steppingServices.allocatePages a (patchedPages first a) = some 0x1000000 := by
    rw [hfirst]
    simp only [steppingServices, hpatched]
    exact giveAt_free (by decide) fun x hx hx' =>
      hfree x (by simp at hx; omega) (by simp [PAGE_SIZE] at hx'; omega)
  refine ⟨halloc, ?_⟩
  obtain ⟨u, hu, happ⟩ := hinv.appendDsdt_ok halloc fun _ _ _ => rfl
  have hsecond : patchedPages last u = PAGE_SIZE :=
    patchedPages_small (hinv.append happ).dsdtHeader (by rw [happ.length hinv]; omega)
  have halloc' : steppingServices.allocatePages u (patchedPages last u) = some 0x2000000 := by
    rw [hsecond]
    simp only [steppingServices, happ.patched]
    refine giveAt_free (by decide) fun x hx hx' => ?_
    simp only [if_true, PAGE_SIZE] at hx hx'
    rw [happ.free, hfree x (by omega) (by omega), hfirst,
      inPages_eq_false (Or.inr (by simp only [PAGE_SIZE]; omega))]
    rfl
  obtain ⟨v, hv, -⟩ := (hinv.append happ).appendDsdt_ok halloc' fun _ _ _ => rfl
  exact ⟨v, by rw [Prog.forEach_cons, Prog.bind_ok hu, Prog.forEach_singleton, hv]⟩

theorem length_dropCall {t : AppState} (hsize : t.ssdtPtsFacs.length = 12) :
    t.dropCall.ssdtPtsFacs.length = 12 := by
  simp only [AppState.dropCall, List.length_append, List.length_take, List.length_replicate, hsize,
    AML_METHOD_NAME_LEN]
  rfl

/-- The new `_PTS` is appended to the sample. -/
theorem patchPts_sample {t : AppState}
    (hrun : beforePatch (sampleSetup map) sampleStart = some (.ok (), t))
    (hsame : SameMemory loadedAcpi t.acpi) (hsize : t.ssdtPtsFacs.length = 12)
    (hfadt : t.acpi.gFadt = 0x80000) (hlength : (tableLength t.acpi.mem t.acpi.gDsdt).toNat = 40)
    {e : Err} (hfind : findMethod namePts t.acpi = some (.error e, t.acpi)) :
    (∃ w, patchPts (sampleSetup map) t = some (.ok (), w) ∧ w.core = t.core) ∧
      ¬ NothingPatched (sampleSetup map) t.acpi := by
  have hquiet : Quiet startAcpi t.acpi :=
    beforePatch_quiet sampleStart _ t ⟨fun _ _ => rfl, fun _ hx => hx, rfl⟩ hrun
  have hinv := hquiet.dsdtInv startAcpi_inv hfadt (beforePatch_eq_ok hrun)
  have hpts : (sampleSetup map).ssdtPts.length = 7 := rfl
  obtain ⟨halloc, v, hparts⟩ := steppingServices_appends (sampleSetup map).ssdtPts
    t.dropCall.ssdtPtsFacs hinv hquiet.patched
    (fun x hx hx' => by
      rw [hsame.free]
      exact loadedAcpi_free (by omega) (by omega))
    (by rw [hlength, hpts, length_dropCall hsize]; decide)
  have hbase : hookBase t.acpi = some t.acpi := by rw [hookBase, hfind]
  rw [patchPts_create hfind]
  refine ⟨⟨_, onAcpi_of_eq (s := t.dropCall) hparts, rfl⟩, fun hnothing => ?_⟩
  have hnone : steppingServices.allocatePages t.acpi
      (patchedPages (sampleSetup map).ssdtPts t.acpi) = none := (hnothing _ hbase).2
  rw [halloc] at hnone
  cases hnone

/-- A firmware that has no memory for the memory map. -/
def noPoolMap : MemoryMap := { descendingMap with pool := false }

theorem fillCoreHeader_noPool (t : AppState) :
    ∃ t', fillCoreHeader (sampleSetup noPoolMap) t = some (.error .ERR_INVALID, t') := by
  obtain ⟨core, hdisk⟩ : ∃ core, fillDiskPci firmwareSpace
      (fillFacs t.acpi.gFacs (fillRsdp t.acpi.gRsdp t.core)) = some (.ok (), core) := ⟨_, rfl⟩
  have hareas : fillRamAreas noPoolMap core = some (.error .ERR_INVALID, core) := rfl
  rw [fillCoreHeader, Prog.bind_get_apply, onCore]
  refine ⟨_, Prog.zoom_eq (t := core) ?_⟩
  rw [Prog.bind_modify_apply, Prog.bind_modify_apply]
  exact (Prog.bind_ok hdisk).trans hareas

/-- The start fails after the patch, and the FADT names the patched table. -/
theorem efiMain_sample : ∃ s', efiMain (sampleSetup noPoolMap) sampleStart =
    some (EFI_LOAD_ERROR, s') ∧ ¬ Untouched 0x80000 startAcpi.mem s'.acpi.mem := by
  obtain ⟨t, hbefore, -, hsame, hsize, hfadt, hlength, e, hfind⟩ := beforePatch_sample noPoolMap
  obtain ⟨⟨w, hpatch, -⟩, hpatched⟩ := patchPts_sample _ hbefore hsame hsize hfadt hlength hfind
  obtain ⟨t', hfill⟩ := fillCoreHeader_noPool w
  have hstages : efiStages (sampleSetup noPoolMap) sampleStart = some (.error .ERR_INVALID, t') := by
    rw [efiStages_eq, Prog.bind_ok hbefore, Prog.bind_ok hpatch, hfill]
  have hacpi := efiStages_error hstages hbefore hpatch
  have hquiet : Quiet startAcpi t.acpi :=
    beforePatch_quiet sampleStart _ t ⟨fun _ _ => rfl, fun _ hx => hx, rfl⟩ hbefore
  have hnames := beforePatch_eq_ok hbefore
  have hiff := patch_untouched_iff (hquiet.dsdtInv startAcpi_inv hfadt hnames) hnames hquiet.patched
    hpatch
  rw [hfadt] at hiff
  refine ⟨{ t' with services := unhookServices (sampleSetup noPoolMap).boot t'.services }, ?_,
    fun h => hpatched (hiff.mp ?_)⟩
  · rw [efiMain, hstages]
  · rw [← hacpi]
    exact (hquiet.untouched startAcpi_inv).symm.trans h

end Sample

/-- The FADT that the sample finds. -/
theorem beforePatch_sample_fadt {map : MemoryMap} :
    ∀ t, beforePatch (sampleSetup map) sampleStart = some (.ok (), t) → t.acpi.gFadt = 0x80000 := by
  intro t ht
  obtain ⟨t', hbefore, -, -, -, hfadt, -⟩ := beforePatch_sample map
  obtain rfl : t = t' := congrArg Prod.snd (Option.some.inj (ht.symm.trans hbefore))
  exact hfadt

/-! ## Failed starts -/

/-- **When a failed start leaves the tables of the firmware alone**: if and only if it does not come
to the patch, or the patch finds no pages for its first part and has renamed nothing before. -/
theorem failed_start_untouched_iff (hinv : DsdtInv (naming fadt s.acpi))
    (hpatched : s.acpi.isDsdtPatched = false)
    (hfadt : ∀ t, beforePatch A s = some (.ok (), t) → t.acpi.gFadt = fadt)
    (hrun : efiMain A s = some (EFI_LOAD_ERROR, s')) :
    Untouched fadt s.acpi.mem s'.acpi.mem ↔
      ∀ t, beforePatch A s = some (.ok (), t) → NothingPatched A t.acpi := by
  obtain ⟨e, t', hstages, hacpi⟩ := efiMain_error hrun
  rw [hacpi]
  have hquiet₀ : Quiet s.acpi s.acpi := ⟨fun _ _ => rfl, fun _ hx => hx, hpatched⟩
  cases hbefore : beforePatch A s with
  | none =>
    rw [efiStages_eq, Prog.bind_none hbefore] at hstages
    cases hstages
  | some p =>
    obtain ⟨r, t⟩ := p
    have hquiet : Quiet s.acpi t.acpi := beforePatch_quiet s r t hquiet₀ hbefore
    have huntouched := hquiet.untouched hinv
    cases r with
    | error e' =>
      rw [efiStages_eq, Prog.bind_error hbefore] at hstages
      obtain rfl : t' = t := (congrArg Prod.snd (Option.some.inj hstages)).symm
      exact iff_of_true huntouched nofun
    | ok _ =>
      have hnames := beforePatch_eq_ok hbefore
      have htfadt := hfadt t hbefore
      have htinv := hquiet.dsdtInv hinv htfadt hnames
      cases hpatch : patchPts A t with
      | none =>
        rw [efiStages_eq, Prog.bind_ok hbefore, Prog.bind_none hpatch] at hstages
        cases hstages
      | some p =>
        obtain ⟨r, w⟩ := p
        rw [efiStages_error hstages hbefore hpatch]
        have hiff := patch_untouched_iff htinv hnames hquiet.patched hpatch
        rw [htfadt] at hiff
        constructor
        · intro h t₁ ht₁
          obtain rfl : t = t₁ := congrArg Prod.snd (Option.some.inj ht₁)
          exact hiff.mp (huntouched.symm.trans h)
        · exact fun h => huntouched.trans (hiff.mpr (h t rfl))

/-- The theorem on a start that fails for want of memory, after the patch. -/
theorem failed_start_untouched_iff_sample : ∃ s',
    efiMain (sampleSetup noPoolMap) sampleStart = some (EFI_LOAD_ERROR, s') ∧
    (Untouched 0x80000 sampleStart.acpi.mem s'.acpi.mem ↔
      ∀ t, beforePatch (sampleSetup noPoolMap) sampleStart = some (.ok (), t) →
        NothingPatched (sampleSetup noPoolMap) t.acpi) := by
  obtain ⟨s', hrun, -⟩ := efiMain_sample
  exact ⟨s', hrun, failed_start_untouched_iff startAcpi_inv rfl beforePatch_sample_fadt hrun⟩

/-- **A failed start that stays patched.** There is no memory for the memory map, `efi_main` returns
`EFI_LOAD_ERROR`, and the FADT names the table with the new `_PTS`. -/
theorem failed_start_patched : ∃ s', DsdtInv (naming 0x80000 sampleStart.acpi) ∧
    (∀ t, beforePatch (sampleSetup noPoolMap) sampleStart = some (.ok (), t) →
      t.acpi.gFadt = 0x80000) ∧
    efiMain (sampleSetup noPoolMap) sampleStart = some (EFI_LOAD_ERROR, s') ∧
    ¬ Untouched 0x80000 sampleStart.acpi.mem s'.acpi.mem := by
  obtain ⟨s', hrun, hpatched⟩ := efiMain_sample
  exact ⟨s', startAcpi_inv, beforePatch_sample_fadt, hrun, hpatched⟩

end FailedStart

end SwitchOs
