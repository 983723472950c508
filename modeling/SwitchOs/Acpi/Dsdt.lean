import SwitchOs.Acpi.Tables

/-!
# Appending to the DSDT

`append_dsdt` of `uefi/acpi/patch/dsdt.c`: it copies the DSDT to newly allocated pages, appends AML to
the copy, points the FADT there, and frees the previous copy if it was one of its own. The firmware
that allocates and frees is a parameter (`PageServices`).
-/

namespace SwitchOs.Acpi

/-- The page services of the firmware. `AllocatePages` may fail; the pages that it gives lie below
4 GiB, as `AllocateMaxAddress` asks for, in memory that is free. -/
structure PageServices where
  allocatePages : AcpiState → ℕ → Option ℕ
  freePages : AcpiState → ℕ → ℕ → Bool
  below : ∀ {s pages addr}, allocatePages s pages = some addr → addr + pages * PAGE_SIZE ≤ 2 ^ 32
  fresh : ∀ {s pages addr}, allocatePages s pages = some addr →
    ∀ x, addr ≤ x → x < addr + pages * PAGE_SIZE → s.free x = true

/-- The addresses of some pages. -/
def inPages (addr pages x : ℕ) : Bool := decide (addr ≤ x ∧ x < addr + pages * PAGE_SIZE)

/-- After a call of `AllocatePages`: the pages that it gave are no longer free. -/
def AcpiState.allocated (pages : ℕ) (answer : Option ℕ) (s : AcpiState) : AcpiState :=
  { s with
    free := match answer with
      | some addr => fun x => s.free x && !inPages addr pages x
      | none => s.free
    calls := s.calls ++ [.allocatePages pages answer] }

/-- After a call of `FreePages`: the pages are free again, unless it failed. -/
def AcpiState.freed (addr pages : ℕ) (answer : Bool) (s : AcpiState) : AcpiState :=
  { s with
    free := fun x => s.free x || (answer && inPages addr pages x)
    calls := s.calls ++ [.freePages addr pages answer] }

/-- After writes to memory. -/
def AcpiState.setMem (s : AcpiState) (mem : ℕ → UInt8) : AcpiState := { s with mem := mem }

/-- `g_dsdt = patched_dsdt`, and it is known to be patched. -/
def AcpiState.adopt (patchedDsdt : ℕ) (s : AcpiState) : AcpiState :=
  { s with gDsdt := patchedDsdt, isDsdtPatched := true }

def allocatePages (F : PageServices) (pages : ℕ) : AcpiM (Option ℕ) := do
  let s ← Prog.get
  Prog.modify (AcpiState.allocated pages (F.allocatePages s pages))
  pure (F.allocatePages s pages)

def freePages (F : PageServices) (addr pages : ℕ) : AcpiM Bool := do
  let s ← Prog.get
  Prog.modify (AcpiState.freed addr pages (F.freePages s addr pages))
  pure (F.freePages s addr pages)

/-- `alloc_patched_dsdt`. The number of pages is the size in bytes, rounded up. -/
def allocPatchedDsdt (F : PageServices) (size : ℕ) : AcpiM ℕ := do
  match ← allocatePages F (alignUp size PAGE_SIZE) with
  | none => Prog.throw .ERR_INVALID
  | some patchedDsdt =>
    check (patchedDsdt != 0)
    pure patchedDsdt

/-- `free_patched_dsdt`. -/
def freePatchedDsdt (F : PageServices) : AcpiM Unit := do
  let s ← Prog.get
  check s.isDsdtPatched
  let patchedDsdtSize := (tableLength s.mem s.gDsdt).toNat
  let freed ← freePages F s.gDsdt (alignUp patchedDsdtSize PAGE_SIZE)
  check freed

/-- The writes of `redirect_dsdt`. -/
def redirect (fadt newDsdt : ℕ) (mem : ℕ → UInt8) : ℕ → UInt8 :=
  let mem := put64 mem (fadt + FADT_X_DSDT) (UInt64.ofNat newDsdt)
  let mem := put32 mem (fadt + FADT_DSDT) (UInt32.ofNat newDsdt)
  fixTableChecksum fadt mem

/-- `redirect_dsdt`. -/
def redirectDsdt (newDsdt : ℕ) : AcpiM Unit := do
  let s ← Prog.get
  check (s.gFadt != 0)
  Prog.modify fun s => s.setMem (redirect s.gFadt newDsdt s.mem)

/-- The copy of the table `dsdt` with `aml` behind it. -/
def extendDsdt (dsdt patchedDsdt : ℕ) (aml : List UInt8) (mem : ℕ → UInt8) : ℕ → UInt8 :=
  let patchedDsdtSize := (tableLength mem dsdt).toNat + aml.length
  let mem := blit mem patchedDsdt mem dsdt (tableLength mem dsdt).toNat
  let mem := put32 mem (patchedDsdt + TABLE_LENGTH) (UInt32.ofNat patchedDsdtSize)
  let mem := blit mem (patchedDsdt + TABLE_HEADER_SIZE + dsdtAmlSize mem dsdt) (fun i => aml.getD i 0)
    0 aml.length
  fixTableChecksum patchedDsdt mem

/-- `append_dsdt`. -/
def appendDsdt (F : PageServices) (aml : List UInt8) : AcpiM Unit := do
  let s ← Prog.get
  let patchedDsdt ← allocPatchedDsdt F ((tableLength s.mem s.gDsdt).toNat + aml.length)
  Prog.modify fun s => s.setMem (extendDsdt s.gDsdt patchedDsdt aml s.mem)
  redirectDsdt patchedDsdt
  let s ← Prog.get
  if s.isDsdtPatched then
    freePatchedDsdt F
  Prog.modify (AcpiState.adopt patchedDsdt)

/-! ## What is written -/

section Writes

variable {mem : ℕ → UInt8} {fadt dsdt patchedDsdt x : ℕ} {aml : List UInt8}

theorem redirect_outside (h : x < fadt ∨ fadt + FADT_USED_SIZE ≤ x) :
    redirect fadt patchedDsdt mem x = mem x := by
  simp only [FADT_USED_SIZE] at h
  rw [redirect, fixTableChecksum_ne (by simp only [TABLE_CHECKSUM]; omega),
    put32_outside (by simp only [FADT_DSDT]; omega),
    put64_outside (by simp only [FADT_X_DSDT]; omega)]

@[simp] theorem tableLength_redirect :
    tableLength (redirect fadt patchedDsdt mem) fadt = tableLength mem fadt := by
  rw [redirect, tableLength_fixTableChecksum]
  refine tableLength_congr fun i hi => ?_
  rw [put32_outside (by simp only [TABLE_LENGTH, FADT_DSDT]; omega),
    put64_outside (by simp only [TABLE_LENGTH, FADT_X_DSDT]; omega)]

theorem tableSum_redirect (h : TABLE_HEADER_SIZE ≤ (tableLength mem fadt).toNat) :
    tableSum (redirect fadt patchedDsdt mem) fadt = 0 := by
  have hlen : tableLength (redirect fadt patchedDsdt mem) fadt = tableLength mem fadt :=
    tableLength_redirect
  rw [redirect, tableLength_fixTableChecksum] at hlen
  refine tableSum_fixTableChecksum ?_
  rw [hlen]
  simp only [TABLE_HEADER_SIZE, TABLE_CHECKSUM] at h ⊢
  omega

theorem get64_redirect :
    get64 (redirect fadt patchedDsdt mem) (fadt + FADT_X_DSDT) = UInt64.ofNat patchedDsdt := by
  have hkeep : get64 (redirect fadt patchedDsdt mem) (fadt + FADT_X_DSDT) =
      get64 (put64 mem (fadt + FADT_X_DSDT) (UInt64.ofNat patchedDsdt)) (fadt + FADT_X_DSDT) := by
    refine get64_congr fun i hi => ?_
    rw [redirect, fixTableChecksum_ne (by simp only [TABLE_CHECKSUM, FADT_X_DSDT]; omega),
      put32_outside (by simp only [FADT_DSDT, FADT_X_DSDT]; omega)]
  rw [hkeep, get64_put64]

theorem get32_redirect :
    get32 (redirect fadt patchedDsdt mem) (fadt + FADT_DSDT) = UInt32.ofNat patchedDsdt := by
  have hkeep : get32 (redirect fadt patchedDsdt mem) (fadt + FADT_DSDT) =
      get32 (put32 (put64 mem (fadt + FADT_X_DSDT) (UInt64.ofNat patchedDsdt)) (fadt + FADT_DSDT)
        (UInt32.ofNat patchedDsdt)) (fadt + FADT_DSDT) := by
    refine get32_congr fun i hi => ?_
    rw [redirect, fixTableChecksum_ne (by simp only [TABLE_CHECKSUM, FADT_DSDT]; omega)]
  rw [hkeep, get32_put32]

/-- The FADT names the table that it was pointed to. -/
theorem fadtDsdt_redirect (hne : patchedDsdt ≠ 0) (hlt : patchedDsdt < 2 ^ 32) :
    fadtDsdt (redirect fadt patchedDsdt mem) fadt = patchedDsdt := by
  have hval : (UInt64.ofNat patchedDsdt).toNat = patchedDsdt :=
    UInt64.toNat_ofNat_of_lt' (by simp only [UInt64.size]; omega)
  have hne' : UInt64.ofNat patchedDsdt ≠ 0 := fun h => hne (by rw [← hval, h]; rfl)
  simp only [fadtDsdt, get64_redirect]
  rw [if_pos hne', hval]

theorem dsdtAmlSize_eq (h : TABLE_HEADER_SIZE ≤ (tableLength mem dsdt).toNat) :
    dsdtAmlSize mem dsdt + TABLE_HEADER_SIZE = (tableLength mem dsdt).toNat := by
  have hlt := (tableLength mem dsdt).toNat_lt
  have hheader : (UInt64.ofNat TABLE_HEADER_SIZE).toNat = TABLE_HEADER_SIZE := rfl
  rw [dsdtAmlSize, UInt64.toNat_sub_of_le, UInt32.toNat_toUInt64, hheader]
  · omega
  · rw [UInt64.le_iff_toNat_le, UInt32.toNat_toUInt64, hheader]
    exact h

/-- What the copy and its extension rely on: the table has a header, and the new pages are apart from
it. -/
structure Extendable (mem : ℕ → UInt8) (dsdt patchedDsdt : ℕ) (aml : List UInt8) : Prop where
  header : TABLE_HEADER_SIZE ≤ (tableLength mem dsdt).toNat
  size : (tableLength mem dsdt).toNat + aml.length < 2 ^ 32
  apart : ∀ x, dsdt ≤ x → x < dsdt + (tableLength mem dsdt).toNat →
    x < patchedDsdt ∨ patchedDsdt + ((tableLength mem dsdt).toNat + aml.length) ≤ x

namespace Extendable

/-- Byte by byte: the table, but for its length and checksum, and then the AML. -/
theorem extendDsdt_eq (h : Extendable mem dsdt patchedDsdt aml)
    (hx : x ≠ patchedDsdt + TABLE_CHECKSUM) :
    extendDsdt dsdt patchedDsdt aml mem x =
      blit (put32 (blit mem patchedDsdt mem dsdt (tableLength mem dsdt).toNat)
        (patchedDsdt + TABLE_LENGTH)
        (UInt32.ofNat ((tableLength mem dsdt).toNat + aml.length)))
        (patchedDsdt + (tableLength mem dsdt).toNat) (fun i => aml.getD i 0) 0 aml.length x := by
  have hheader := h.header
  have hapart := h.apart
  simp only [TABLE_HEADER_SIZE] at hheader
  -- the length of the old table is still there
  have hlen : tableLength (put32 (blit mem patchedDsdt mem dsdt (tableLength mem dsdt).toNat)
      (patchedDsdt + TABLE_LENGTH) (UInt32.ofNat ((tableLength mem dsdt).toNat + aml.length))) dsdt =
      tableLength mem dsdt := by
    refine tableLength_congr fun i hi => ?_
    simp only [TABLE_LENGTH]
    have hlow := hapart (dsdt + 4 + i) (by omega) (by omega)
    rw [put32_outside (by omega), blit_outside (by omega)]
  have hsize : patchedDsdt + TABLE_HEADER_SIZE + dsdtAmlSize (put32 (blit mem patchedDsdt mem dsdt
      (tableLength mem dsdt).toNat) (patchedDsdt + TABLE_LENGTH)
      (UInt32.ofNat ((tableLength mem dsdt).toNat + aml.length))) dsdt =
      patchedDsdt + (tableLength mem dsdt).toNat := by
    have haml := dsdtAmlSize_eq (hlen ▸ h.header)
    rw [hlen] at haml
    omega
  rw [extendDsdt, fixTableChecksum_ne hx, hsize]

theorem outside (h : Extendable mem dsdt patchedDsdt aml)
    (hx : x < patchedDsdt ∨ patchedDsdt + ((tableLength mem dsdt).toNat + aml.length) ≤ x) :
    extendDsdt dsdt patchedDsdt aml mem x = mem x := by
  have hheader := h.header
  simp only [TABLE_HEADER_SIZE] at hheader
  rw [h.extendDsdt_eq (by simp only [TABLE_CHECKSUM]; omega), blit_outside (by omega),
    put32_outside (by simp only [TABLE_LENGTH]; omega), blit_outside (by omega)]

theorem table (h : Extendable mem dsdt patchedDsdt aml) {i : ℕ}
    (hi : i < (tableLength mem dsdt).toNat) (hlength : i < TABLE_LENGTH ∨ TABLE_LENGTH + 4 ≤ i)
    (hchecksum : i ≠ TABLE_CHECKSUM) :
    extendDsdt dsdt patchedDsdt aml mem (patchedDsdt + i) = mem (dsdt + i) := by
  rw [h.extendDsdt_eq (by omega), blit_outside (by omega), put32_outside (by omega), blit_add hi]

theorem appended (h : Extendable mem dsdt patchedDsdt aml) {i : ℕ} (hi : i < aml.length) :
    extendDsdt dsdt patchedDsdt aml mem (patchedDsdt + (tableLength mem dsdt).toNat + i) =
      aml.getD i 0 := by
  have hheader := h.header
  simp only [TABLE_HEADER_SIZE] at hheader
  rw [h.extendDsdt_eq (by simp only [TABLE_CHECKSUM]; omega), blit_add hi, Nat.zero_add]

theorem length (h : Extendable mem dsdt patchedDsdt aml) :
    (tableLength (extendDsdt dsdt patchedDsdt aml mem) patchedDsdt).toNat =
      (tableLength mem dsdt).toNat + aml.length := by
  have hheader := h.header
  simp only [TABLE_HEADER_SIZE] at hheader
  have hkeep : tableLength (extendDsdt dsdt patchedDsdt aml mem) patchedDsdt =
      get32 (put32 (blit mem patchedDsdt mem dsdt (tableLength mem dsdt).toNat)
        (patchedDsdt + TABLE_LENGTH) (UInt32.ofNat ((tableLength mem dsdt).toNat + aml.length)))
        (patchedDsdt + TABLE_LENGTH) := by
    refine get32_congr fun i hi => ?_
    rw [h.extendDsdt_eq (by simp only [TABLE_LENGTH, TABLE_CHECKSUM]; omega),
      blit_outside (by simp only [TABLE_LENGTH]; omega)]
  rw [hkeep, get32_put32]
  exact UInt32.toNat_ofNat_of_lt' h.size

theorem sum (h : Extendable mem dsdt patchedDsdt aml) :
    tableSum (extendDsdt dsdt patchedDsdt aml mem) patchedDsdt = 0 := by
  have hlen := h.length
  have hheader := h.header
  simp only [TABLE_HEADER_SIZE] at hheader
  rw [extendDsdt] at hlen ⊢
  rw [tableLength_fixTableChecksum] at hlen
  refine tableSum_fixTableChecksum ?_
  rw [hlen, TABLE_CHECKSUM]
  omega

end Extendable

end Writes

/-! ## What a call of `append_dsdt` does -/

section Outcome

variable {F : PageServices} {aml : List UInt8} {s s' : AcpiState} {addr : ℕ} {r : Except Err Unit}

/-- The pages that `append_dsdt` takes the current table to lie in. -/
def dsdtPages (s : AcpiState) : ℕ := alignUp (tableLength s.mem s.gDsdt).toNat PAGE_SIZE

/-- The pages that `append_dsdt` asks for. -/
def patchedPages (aml : List UInt8) (s : AcpiState) : ℕ :=
  alignUp ((tableLength s.mem s.gDsdt).toNat + aml.length) PAGE_SIZE

/-- The state once the FADT points to the extended copy at `addr`. -/
def redirected (aml : List UInt8) (addr : ℕ) (s : AcpiState) : AcpiState :=
  (s.allocated (patchedPages aml s) (some addr)).setMem
    (redirect s.gFadt addr (extendDsdt s.gDsdt addr aml s.mem))

/-- What a call of `append_dsdt` can do. -/
inductive AppendOutcome (F : PageServices) (aml : List UInt8) (s : AcpiState) :
    Except Err Unit → AcpiState → Prop
  | refused : F.allocatePages s (patchedPages aml s) = none →
      AppendOutcome F aml s (.error .ERR_INVALID) (s.allocated (patchedPages aml s) none)
  | first (addr : ℕ) : F.allocatePages s (patchedPages aml s) = some addr →
      s.isDsdtPatched = false →
      AppendOutcome F aml s (.ok ()) ((redirected aml addr s).adopt addr)
  | next (addr : ℕ) : F.allocatePages s (patchedPages aml s) = some addr →
      s.isDsdtPatched = true →
      AppendOutcome F aml s (.ok ()) (((redirected aml addr s).freed s.gDsdt
        (dsdtPages (redirected aml addr s)) true).adopt addr)
  | stuck (addr : ℕ) : F.allocatePages s (patchedPages aml s) = some addr →
      s.isDsdtPatched = true →
      F.freePages (redirected aml addr s) s.gDsdt (dsdtPages (redirected aml addr s)) = false →
      AppendOutcome F aml s (.error .ERR_INVALID) ((redirected aml addr s).freed s.gDsdt
        (dsdtPages (redirected aml addr s)) false)

@[simp] theorem AcpiState.freed_mem (answer : Bool) (pages : ℕ) :
    (s.freed addr pages answer).mem = s.mem := rfl

@[simp] theorem AcpiState.freed_gFadt (answer : Bool) (pages : ℕ) :
    (s.freed addr pages answer).gFadt = s.gFadt := rfl

@[simp] theorem redirected_gFadt : (redirected aml addr s).gFadt = s.gFadt := rfl

theorem allocatePages_apply (F : PageServices) (pages : ℕ) (s : AcpiState) :
    allocatePages F pages s =
      some (.ok (F.allocatePages s pages), s.allocated pages (F.allocatePages s pages)) := rfl

theorem freePages_apply (F : PageServices) (addr pages : ℕ) (s : AcpiState) :
    freePages F addr pages s = some (.ok (F.freePages s addr pages),
      s.freed addr pages (F.freePages s addr pages)) := rfl

theorem allocatePages_ne_zero (hnull : s.free 0 = false)
    (halloc : F.allocatePages s (patchedPages aml s) = some addr) (hpages : 0 < patchedPages aml s) :
    addr ≠ 0 := by
  rintro rfl
  have hfree := F.fresh halloc 0 (le_refl 0) (by rw [PAGE_SIZE]; omega)
  rw [hnull] at hfree
  cases hfree

theorem patchedPages_pos (hheader : TABLE_HEADER_SIZE ≤ (tableLength s.mem s.gDsdt).toNat) :
    0 < patchedPages aml s := by
  have hpage : 0 < PAGE_SIZE := by decide
  have hle := le_alignUp ((tableLength s.mem s.gDsdt).toNat + aml.length) hpage
  simp only [TABLE_HEADER_SIZE] at hheader
  rw [patchedPages]
  omega

theorem allocPatchedDsdt_none (halloc : F.allocatePages s (patchedPages aml s) = none) :
    allocPatchedDsdt F ((tableLength s.mem s.gDsdt).toNat + aml.length) s =
      some (.error .ERR_INVALID, s.allocated (patchedPages aml s) none) := by
  rw [allocPatchedDsdt, Prog.bind_ok (allocatePages_apply _ _ _), ← patchedPages, halloc]
  rfl

theorem allocPatchedDsdt_some (halloc : F.allocatePages s (patchedPages aml s) = some addr)
    (hne : addr ≠ 0) :
    allocPatchedDsdt F ((tableLength s.mem s.gDsdt).toNat + aml.length) s =
      some (.ok addr, s.allocated (patchedPages aml s) (some addr)) := by
  rw [allocPatchedDsdt, Prog.bind_ok (allocatePages_apply _ _ _), ← patchedPages, halloc]
  simp only
  rw [check, Prog.bind_check_true (bne_iff_ne.mpr hne)]
  rfl

theorem redirectDsdt_apply (s : AcpiState) (newDsdt : ℕ) (hfadt : s.gFadt ≠ 0) :
    redirectDsdt newDsdt s = some (.ok (), s.setMem (redirect s.gFadt newDsdt s.mem)) := by
  rw [redirectDsdt, Prog.bind_get_apply, check, Prog.bind_check_true (bne_iff_ne.mpr hfadt)]
  rfl

theorem freePatchedDsdt_apply (hpatched : s.isDsdtPatched = true) :
    freePatchedDsdt F s = (check (F.freePages s s.gDsdt (dsdtPages s)) : AcpiM Unit)
      (s.freed s.gDsdt (dsdtPages s) (F.freePages s s.gDsdt (dsdtPages s))) := by
  rw [freePatchedDsdt, Prog.bind_get_apply, check, Prog.bind_check_true hpatched, ← dsdtPages,
    Prog.bind_ok (freePages_apply _ _ _ _)]

theorem appendDsdt_none (halloc : F.allocatePages s (patchedPages aml s) = none) :
    appendDsdt F aml s =
      some (.error .ERR_INVALID, s.allocated (patchedPages aml s) none) := by
  rw [appendDsdt, Prog.bind_get_apply, Prog.bind_error (allocPatchedDsdt_none halloc)]

/-- With pages for the copy, `append_dsdt` comes to the old table. -/
theorem appendDsdt_some (hfadt : s.gFadt ≠ 0) (hne : addr ≠ 0)
    (halloc : F.allocatePages s (patchedPages aml s) = some addr) :
    appendDsdt F aml s = (if s.isDsdtPatched then
      freePatchedDsdt F >>= fun _ => Prog.modify (AcpiState.adopt addr)
      else Prog.modify (AcpiState.adopt addr)) (redirected aml addr s) := by
  have hredirect : redirectDsdt addr ((s.allocated (patchedPages aml s) (some addr)).setMem
      (extendDsdt s.gDsdt addr aml s.mem)) = some (.ok (), redirected aml addr s) :=
    redirectDsdt_apply _ addr hfadt
  rw [appendDsdt, Prog.bind_get_apply, Prog.bind_ok (allocPatchedDsdt_some halloc hne),
    Prog.bind_modify_apply]
  exact Prog.bind_ok hredirect

/-- On a patched table, `append_dsdt` succeeds if the old copy can be freed. -/
theorem appendDsdt_patched (hfadt : s.gFadt ≠ 0) (hne : addr ≠ 0)
    (halloc : F.allocatePages s (patchedPages aml s) = some addr) (hpatched : s.isDsdtPatched = true) :
    appendDsdt F aml s =
      if F.freePages (redirected aml addr s) s.gDsdt (dsdtPages (redirected aml addr s)) then
        some (.ok (), ((redirected aml addr s).freed s.gDsdt
          (dsdtPages (redirected aml addr s)) true).adopt addr)
      else some (.error .ERR_INVALID, (redirected aml addr s).freed s.gDsdt
        (dsdtPages (redirected aml addr s)) false) := by
  have hfreed := freePatchedDsdt_apply (F := F) (s := redirected aml addr s) hpatched
  have hdsdt : (redirected aml addr s).gDsdt = s.gDsdt := rfl
  rw [hdsdt] at hfreed
  rw [appendDsdt_some hfadt hne halloc, if_pos hpatched]
  cases hfree : F.freePages (redirected aml addr s) s.gDsdt (dsdtPages (redirected aml addr s)) with
  | false =>
    rw [hfree] at hfreed
    exact Prog.bind_error hfreed
  | true =>
    rw [hfree] at hfreed
    exact Prog.bind_ok hfreed

/-- `append_dsdt` on a FADT, on a machine on which address 0 is not free memory. -/
theorem appendDsdt_cases (aml : List UInt8) (hfadt : s.gFadt ≠ 0) (hnull : s.free 0 = false)
    (hheader : TABLE_HEADER_SIZE ≤ (tableLength s.mem s.gDsdt).toNat) :
    ∃ r s', appendDsdt F aml s = some (r, s') ∧ AppendOutcome F aml s r s' := by
  cases halloc : F.allocatePages s (patchedPages aml s) with
  | none =>
    exact ⟨_, _, appendDsdt_none halloc, .refused halloc⟩
  | some addr =>
    have hne := allocatePages_ne_zero hnull halloc (patchedPages_pos hheader)
    cases hpatched : s.isDsdtPatched with
    | false =>
      refine ⟨_, _, ?_, .first addr halloc hpatched⟩
      rw [appendDsdt_some hfadt hne halloc, hpatched]
      rfl
    | true =>
      have hrun := appendDsdt_patched hfadt hne halloc hpatched
      cases hfree : F.freePages (redirected aml addr s) s.gDsdt
          (dsdtPages (redirected aml addr s)) with
      | false =>
        rw [hfree] at hrun
        exact ⟨_, _, hrun, .stuck addr halloc hpatched hfree⟩
      | true =>
        rw [hfree] at hrun
        exact ⟨_, _, hrun, .next addr halloc hpatched⟩

end Outcome

/-! ## What `append_dsdt` keeps -/

/-- Memory that the firmware will not hand out, and that `append_dsdt` will not give back. -/
structure Kept (s : AcpiState) (a n : ℕ) : Prop where
  reserved : ∀ x, a ≤ x → x < a + n → s.free x = false
  apart : s.isDsdtPatched = true → ∀ x, a ≤ x → x < a + n → inPages s.gDsdt (dsdtPages s) x = false

/-- What belongs to the FADT: its bytes, and the fields that are used. -/
def fadtSize (mem : ℕ → UInt8) (fadt : ℕ) : ℕ := max (tableLength mem fadt).toNat FADT_USED_SIZE

/-- The state between two calls of `append_dsdt`: there is a FADT and a DSDT, with room for their
headers, in memory of their own. -/
structure DsdtInv (s : AcpiState) : Prop where
  null : Kept s 0 1
  fadt_ne : s.gFadt ≠ 0
  fadtHeader : TABLE_HEADER_SIZE ≤ (tableLength s.mem s.gFadt).toNat
  dsdtHeader : TABLE_HEADER_SIZE ≤ (tableLength s.mem s.gDsdt).toNat
  fadt : Kept s s.gFadt (fadtSize s.mem s.gFadt)
  dsdt : ∀ x, s.gDsdt ≤ x → x < s.gDsdt + (tableLength s.mem s.gDsdt).toNat → s.free x = false
  pages : s.isDsdtPatched = true → ∀ x, inPages s.gDsdt (dsdtPages s) x = true → s.free x = false
  apart : ∀ x, s.gDsdt ≤ x → x < s.gDsdt + (tableLength s.mem s.gDsdt).toNat →
    x < s.gFadt ∨ s.gFadt + fadtSize s.mem s.gFadt ≤ x

section Invariant

variable {F : PageServices} {aml : List UInt8} {s s' : AcpiState} {addr a n x : ℕ}

/-- A FADT of 244 bytes before its DSDT, in memory that is not free, as the firmware leaves them. -/
theorem DsdtInv.of_unpatched (hpatched : s.isDsdtPatched = false) (hnull : s.free 0 = false)
    (hne : s.gFadt ≠ 0) (hfadt : (tableLength s.mem s.gFadt).toNat = 244)
    (hdsdt : (tableLength s.mem s.gDsdt).toNat = n) (hn : TABLE_HEADER_SIZE ≤ n)
    (hbefore : s.gFadt + 244 ≤ s.gDsdt)
    (hfree : ∀ x, s.gFadt ≤ x → x < s.gDsdt + n → s.free x = false) : DsdtInv s := by
  have hsize : fadtSize s.mem s.gFadt = 244 := by
    rw [fadtSize, hfadt]
    rfl
  have hkept : ∀ b k, (∀ x, b ≤ x → x < b + k → s.free x = false) → Kept s b k := fun b k h =>
    ⟨h, fun htrue => absurd (hpatched.symm.trans htrue) Bool.false_ne_true⟩
  refine ⟨hkept 0 1 fun x _ hx => ?_, hne, ?_, ?_, ?_, ?_, ?_, fun x hx _ => ?_⟩
  · rwa [show x = 0 by omega]
  · rw [hfadt]
    decide
  · rwa [hdsdt]
  · rw [hsize]
    exact hkept _ _ fun x hx hx' => hfree x hx (by omega)
  · rw [hdsdt]
    exact fun x hx hx' => hfree x (by omega) hx'
  · exact fun htrue => absurd (hpatched.symm.trans htrue) Bool.false_ne_true
  · rw [hsize]
    omega

theorem DsdtInv.free_null (h : DsdtInv s) : s.free 0 = false :=
  h.null.reserved 0 (le_refl 0) (by omega)

theorem DsdtInv.alloc_ne_zero (h : DsdtInv s)
    (halloc : F.allocatePages s (patchedPages aml s) = some addr) : addr ≠ 0 :=
  allocatePages_ne_zero h.free_null halloc (patchedPages_pos h.dsdtHeader)

/-- What a call can do in a state that keeps the invariant. -/
theorem DsdtInv.appendDsdt_cases (h : DsdtInv s) (F : PageServices) (aml : List UInt8) :
    ∃ r s', appendDsdt F aml s = some (r, s') ∧ AppendOutcome F aml s r s' :=
  Acpi.appendDsdt_cases aml h.fadt_ne h.free_null h.dsdtHeader

theorem inPages_iff {pages : ℕ} :
    inPages addr pages x = true ↔ addr ≤ x ∧ x < addr + pages * PAGE_SIZE := decide_eq_true_iff

/-- The pages that are asked for have room for the table and what is appended. -/
theorem size_le_patchedPages (aml : List UInt8) (s : AcpiState) :
    (tableLength s.mem s.gDsdt).toNat + aml.length ≤ patchedPages aml s :=
  le_alignUp _ (by decide)

/-- The new pages are apart from all memory that is not free. -/
theorem fresh_of_alloc (halloc : F.allocatePages s (patchedPages aml s) = some addr)
    (hx : s.free x = false) : x < addr ∨ addr + patchedPages aml s * PAGE_SIZE ≤ x := by
  by_contra hin
  have hfree := F.fresh halloc x (by omega) (by omega)
  rw [hx] at hfree
  cases hfree

theorem DsdtInv.extendable (h : DsdtInv s)
    (halloc : F.allocatePages s (patchedPages aml s) = some addr) :
    Extendable s.mem s.gDsdt addr aml := by
  have hsize := size_le_patchedPages aml s
  have hbelow := F.below halloc
  simp only [PAGE_SIZE] at hbelow
  refine ⟨h.dsdtHeader, by omega, fun x hx hx' => ?_⟩
  have hfresh := fresh_of_alloc halloc (h.dsdt x hx hx')
  simp only [PAGE_SIZE] at hfresh
  omega

/-- Memory outside the new table and the FADT stays as it is. -/
theorem DsdtInv.mem_outside (h : DsdtInv s)
    (halloc : F.allocatePages s (patchedPages aml s) = some addr) (hx : s.free x = false)
    (hfadt : x < s.gFadt ∨ s.gFadt + FADT_USED_SIZE ≤ x) : (redirected aml addr s).mem x = s.mem x := by
  have hfresh := fresh_of_alloc halloc hx
  have hsize := size_le_patchedPages aml s
  simp only [PAGE_SIZE] at hfresh
  exact (redirect_outside hfadt).trans ((h.extendable halloc).outside (by omega))

/-- The new table is apart from the FADT. -/
theorem DsdtInv.new_apart (h : DsdtInv s)
    (halloc : F.allocatePages s (patchedPages aml s) = some addr)
    (hx : addr ≤ x) (hx' : x < addr + patchedPages aml s * PAGE_SIZE) :
    x < s.gFadt ∨ s.gFadt + fadtSize s.mem s.gFadt ≤ x := by
  by_contra hin
  have hfresh := fresh_of_alloc halloc (h.fadt.reserved x (by omega) (by omega))
  omega

theorem used_le_fadtSize (mem : ℕ → UInt8) (fadt : ℕ) : FADT_USED_SIZE ≤ fadtSize mem fadt :=
  le_max_right _ _

/-- The new table is what `extendDsdt` has written: the FADT is elsewhere. -/
theorem DsdtInv.mem_new (h : DsdtInv s)
    (halloc : F.allocatePages s (patchedPages aml s) = some addr)
    (hx : addr ≤ x) (hx' : x < addr + ((tableLength s.mem s.gDsdt).toNat + aml.length)) :
    (redirected aml addr s).mem x = extendDsdt s.gDsdt addr aml s.mem x := by
  have hsize := size_le_patchedPages aml s
  have hused := used_le_fadtSize s.mem s.gFadt
  have hapart := h.new_apart halloc hx (by simp only [PAGE_SIZE]; omega)
  exact redirect_outside (by omega)

/-- The length of the FADT is what it was. -/
theorem DsdtInv.fadt_length (h : DsdtInv s)
    (halloc : F.allocatePages s (patchedPages aml s) = some addr) :
    tableLength (redirected aml addr s).mem s.gFadt = tableLength s.mem s.gFadt := by
  refine Eq.trans tableLength_redirect (tableLength_congr fun i hi => ?_)
  have hused := used_le_fadtSize s.mem s.gFadt
  have hsize := size_le_patchedPages aml s
  simp only [FADT_USED_SIZE] at hused
  have hfresh := fresh_of_alloc halloc
    (h.fadt.reserved (s.gFadt + TABLE_LENGTH + i) (by omega) (by simp only [TABLE_LENGTH]; omega))
  simp only [PAGE_SIZE] at hfresh
  exact (h.extendable halloc).outside (by omega)

/-- The old table is what it was. -/
theorem DsdtInv.old_table (h : DsdtInv s)
    (halloc : F.allocatePages s (patchedPages aml s) = some addr) (hx : s.gDsdt ≤ x)
    (hx' : x < s.gDsdt + (tableLength s.mem s.gDsdt).toNat) :
    (redirected aml addr s).mem x = s.mem x := by
  have hused := used_le_fadtSize s.mem s.gFadt
  have hapart := h.apart x hx hx'
  exact h.mem_outside halloc (h.dsdt x hx hx') (by omega)

theorem DsdtInv.dsdtPages_redirected (h : DsdtInv s)
    (halloc : F.allocatePages s (patchedPages aml s) = some addr) :
    dsdtPages (redirected aml addr s) = dsdtPages s := by
  have hheader := h.dsdtHeader
  simp only [TABLE_HEADER_SIZE] at hheader
  have hlen : tableLength (redirected aml addr s).mem s.gDsdt = tableLength s.mem s.gDsdt := by
    refine tableLength_congr fun i hi => h.old_table halloc ?_ ?_
    · omega
    · simp only [TABLE_LENGTH]
      omega
  rw [dsdtPages, dsdtPages, ← hlen]
  rfl

/-- The length of the new table. -/
theorem DsdtInv.new_length (h : DsdtInv s)
    (halloc : F.allocatePages s (patchedPages aml s) = some addr) :
    (tableLength (redirected aml addr s).mem addr).toNat =
      (tableLength s.mem s.gDsdt).toNat + aml.length := by
  have hheader := h.dsdtHeader
  simp only [TABLE_HEADER_SIZE] at hheader
  have hnew : tableLength (redirected aml addr s).mem addr =
      tableLength (extendDsdt s.gDsdt addr aml s.mem) addr := by
    refine tableLength_congr fun i hi => h.mem_new halloc (by omega) ?_
    simp only [TABLE_LENGTH]
    omega
  rw [hnew, (h.extendable halloc).length]

/-- **What a successful call of `append_dsdt` leaves.** -/
structure Appended (F : PageServices) (aml : List UInt8) (addr : ℕ) (s s' : AcpiState) : Prop where
  alloc : F.allocatePages s (patchedPages aml s) = some addr
  mem : s'.mem = (redirected aml addr s).mem
  gFadt : s'.gFadt = s.gFadt
  gDsdt : s'.gDsdt = addr
  patched : s'.isDsdtPatched = true
  free : ∀ x, s'.free x = ((s.free x && !inPages addr (patchedPages aml s) x) ||
    (s.isDsdtPatched && inPages s.gDsdt (dsdtPages s) x))
  calls : s'.calls = s.calls ++ .allocatePages (patchedPages aml s) (some addr) ::
    if s.isDsdtPatched then [.freePages s.gDsdt (dsdtPages s) true] else []

theorem DsdtInv.appended (h : DsdtInv s) (hok : AppendOutcome F aml s (.ok ()) s') :
    ∃ addr, Appended F aml addr s s' := by
  cases hok with
  | first addr halloc hpatched =>
    refine ⟨addr, halloc, rfl, rfl, rfl, rfl, fun x => ?_, ?_⟩
    · rw [hpatched, Bool.false_and, Bool.or_false]
      rfl
    · rw [hpatched]
      rfl
  | next addr halloc hpatched =>
    have hpages := h.dsdtPages_redirected halloc
    refine ⟨addr, halloc, rfl, rfl, rfl, rfl, fun x => ?_, ?_⟩
    · rw [hpatched, ← hpages]
      rfl
    · rw [hpatched, ← hpages]
      exact List.append_assoc s.calls [_] [_]

/-- Where the firmware does not fail, `append_dsdt` does not. -/
theorem DsdtInv.appendDsdt_ok (h : DsdtInv s)
    (halloc : F.allocatePages s (patchedPages aml s) = some addr)
    (hfree : ∀ t addr pages, F.freePages t addr pages = true) :
    ∃ s', appendDsdt F aml s = some (.ok (), s') ∧ Appended F aml addr s s' := by
  obtain ⟨r, s', hrun, hout⟩ := h.appendDsdt_cases F aml
  have hok : r = .ok () := by
    cases hout with
    | refused hnone =>
      rw [halloc] at hnone
      cases hnone
    | first => rfl
    | next => rfl
    | stuck _ _ _ hstuck =>
      rw [hfree] at hstuck
      cases hstuck
  subst hok
  obtain ⟨addr', happ⟩ := h.appended hout
  obtain rfl : addr = addr' := Option.some.inj (halloc.symm.trans happ.alloc)
  exact ⟨s', hrun, happ⟩

theorem Appended.dsdtPages (h : DsdtInv s) (happ : Appended F aml addr s s') :
    dsdtPages s' = patchedPages aml s := by
  rw [Acpi.dsdtPages, happ.gDsdt, happ.mem, h.new_length happ.alloc]
  rfl

theorem Kept.append (hkept : Kept s a n) (h : DsdtInv s) (happ : Appended F aml addr s s') :
    Kept s' a n := by
  refine ⟨fun x hx hx' => ?_, fun _ x hx hx' => ?_⟩
  · rw [happ.free, hkept.reserved x hx hx', Bool.false_and, Bool.false_or]
    cases hpatched : s.isDsdtPatched with
    | false => rfl
    | true => exact hkept.apart hpatched x hx hx'
  · rw [happ.gDsdt, happ.dsdtPages h]
    have hfresh := fresh_of_alloc happ.alloc (hkept.reserved x hx hx')
    rw [← Bool.not_eq_true, inPages_iff]
    omega

/-- The pages of the new table are taken. -/
theorem Appended.taken (h : DsdtInv s) (happ : Appended F aml addr s s')
    (hx : inPages addr (patchedPages aml s) x = true) : s'.free x = false := by
  rw [happ.free, hx, Bool.not_true, Bool.and_false, Bool.false_or]
  cases hpatched : s.isDsdtPatched with
  | false => rfl
  | true =>
    -- they were free, and the pages of the old table were not
    rw [Bool.true_and, ← Bool.not_eq_true]
    intro hold
    have hreserved := h.pages hpatched x hold
    rw [inPages_iff] at hx
    have hfresh := fresh_of_alloc happ.alloc hreserved
    omega

/-- **The invariant is kept.** -/
theorem DsdtInv.append (h : DsdtInv s) (happ : Appended F aml addr s s') : DsdtInv s' := by
  have hsize := size_le_patchedPages aml s
  have hlength := h.new_length happ.alloc
  have hfadt := h.fadt_length happ.alloc
  have hfadtSize : fadtSize s'.mem s'.gFadt = fadtSize s.mem s.gFadt := by
    rw [happ.mem, happ.gFadt, fadtSize, hfadt, fadtSize]
  have hin : ∀ x, addr ≤ x → x < addr + ((tableLength s.mem s.gDsdt).toNat + aml.length) →
      x < addr + patchedPages aml s * PAGE_SIZE := by
    intro x hx hx'
    simp only [PAGE_SIZE]
    omega
  refine ⟨h.null.append h happ, ?_, ?_, ?_, ?_, fun x hx hx' => ?_, fun _ x hx => ?_,
    fun x hx hx' => ?_⟩
  · rw [happ.gFadt]
    exact h.fadt_ne
  · rw [happ.mem, happ.gFadt, hfadt]
    exact h.fadtHeader
  · rw [happ.mem, happ.gDsdt, hlength]
    exact Nat.le_add_right_of_le h.dsdtHeader
  · rw [hfadtSize, happ.gFadt]
    exact h.fadt.append h happ
  · rw [happ.gDsdt] at hx
    rw [happ.mem, happ.gDsdt, hlength] at hx'
    exact happ.taken h (inPages_iff.mpr ⟨hx, hin x hx hx'⟩)
  · rw [happ.gDsdt, happ.dsdtPages h] at hx
    exact happ.taken h hx
  · rw [happ.gDsdt] at hx
    rw [happ.mem, happ.gDsdt, hlength] at hx'
    rw [hfadtSize, happ.gFadt]
    exact h.new_apart happ.alloc hx (hin x hx hx')

/-! ## What the tables are then -/

theorem Appended.length (h : DsdtInv s) (happ : Appended F aml addr s s') :
    (tableLength s'.mem s'.gDsdt).toNat = (tableLength s.mem s.gDsdt).toNat + aml.length := by
  rw [happ.mem, happ.gDsdt]
  exact h.new_length happ.alloc

/-- The bytes of the table, but for its length and checksum. -/
theorem Appended.table (h : DsdtInv s) (happ : Appended F aml addr s s') {i : ℕ}
    (hi : i < (tableLength s.mem s.gDsdt).toNat) (hlength : i < TABLE_LENGTH ∨ TABLE_LENGTH + 4 ≤ i)
    (hchecksum : i ≠ TABLE_CHECKSUM) : s'.mem (s'.gDsdt + i) = s.mem (s.gDsdt + i) := by
  rw [happ.mem, happ.gDsdt, h.mem_new happ.alloc (by omega) (by omega)]
  exact (h.extendable happ.alloc).table hi hlength hchecksum

/-- What is appended comes after them. -/
theorem Appended.piece (h : DsdtInv s) (happ : Appended F aml addr s s') {i : ℕ}
    (hi : i < aml.length) :
    s'.mem (s'.gDsdt + (tableLength s.mem s.gDsdt).toNat + i) = aml.getD i 0 := by
  rw [happ.mem, happ.gDsdt, h.mem_new happ.alloc (by omega) (by omega)]
  exact (h.extendable happ.alloc).appended hi

theorem Appended.dsdtSum (h : DsdtInv s) (happ : Appended F aml addr s s') :
    tableSum s'.mem s'.gDsdt = 0 := by
  have hext := h.extendable happ.alloc
  rw [← hext.sum, tableSum, tableSum, happ.length h, hext.length]
  refine byteSum_congr fun i hi => ?_
  rw [happ.mem, happ.gDsdt]
  exact h.mem_new happ.alloc (by omega) (by omega)

theorem Appended.fadtSum (h : DsdtInv s) (happ : Appended F aml addr s s') :
    tableSum s'.mem s'.gFadt = 0 := by
  have hlen := h.fadt_length happ.alloc
  rw [happ.mem, happ.gFadt]
  refine tableSum_redirect ?_
  have hheader := h.fadtHeader
  rwa [← hlen, redirected, AcpiState.setMem, tableLength_redirect] at hheader

/-- The new table lies below 4 GiB. -/
theorem Appended.below (h : DsdtInv s) (happ : Appended F aml addr s s') :
    addr ≠ 0 ∧ addr < 2 ^ 32 := by
  have hpos : 0 < patchedPages aml s := patchedPages_pos h.dsdtHeader
  have hbelow := F.below happ.alloc
  refine ⟨h.alloc_ne_zero happ.alloc, ?_⟩
  simp only [PAGE_SIZE] at hbelow
  omega

/-- The FADT names the new table, in both of its fields. -/
theorem Appended.fields (h : DsdtInv s) (happ : Appended F aml addr s s') :
    (get32 s'.mem (s'.gFadt + FADT_DSDT)).toNat = s'.gDsdt ∧
      (get64 s'.mem (s'.gFadt + FADT_X_DSDT)).toNat = s'.gDsdt := by
  obtain ⟨-, hlt⟩ := happ.below h
  rw [happ.mem, happ.gFadt, happ.gDsdt, redirected, AcpiState.setMem, get32_redirect, get64_redirect]
  refine ⟨UInt32.toNat_ofNat_of_lt' hlt, UInt64.toNat_ofNat_of_lt' ?_⟩
  simp only [UInt64.size]
  omega

/-- Memory that is not free stays as it is, outside the FADT. -/
theorem Appended.outside (h : DsdtInv s) (happ : Appended F aml addr s s') (hx : s.free x = false)
    (hfadt : x < s.gFadt ∨ s.gFadt + FADT_USED_SIZE ≤ x) : s'.mem x = s.mem x := by
  rw [happ.mem]
  exact h.mem_outside happ.alloc hx hfadt

end Invariant

end SwitchOs.Acpi
