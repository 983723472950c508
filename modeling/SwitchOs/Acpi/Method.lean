import SwitchOs.Acpi.Append
import SwitchOs.Acpi.PkgLength

/-!
# Hooking a method

`uefi/acpi/patch/method.c`: `find_method` scans the AML of the DSDT for the declaration of a method,
`rename_method` overwrites its name in place, and `hook_method` appends a method of the old name then.
-/

namespace SwitchOs.Acpi

def AML_METHOD_OP : UInt8 := 0x14
def AML_METHOD_NAME_LEN : ℕ := 4

/-- A C string, as the bytes from its pointer on. -/
def cString (s : List UInt8) (i : ℕ) : UInt8 := s.getD i 0

def strlen (s : List UInt8) : ℕ := (s.takeWhile fun c => c != 0).length

/-- The local variables of `find_method`; `method_start` is `none` for -1. -/
structure MethodSearch where
  methodStart : Option ℕ
  pkgLength : AcpiPkgLength

/-- The body of the loop of `find_method`, on the AML from address `aml` on. -/
def findMethodAt (mem : ℕ → UInt8) (aml amlSize : ℕ) (name : List UInt8) (i : ℕ) :
    Prog Err MethodSearch Unit := do
  if mem (aml + i) == AML_METHOD_OP then
    if ← Prog.succeeds (Prog.zoom MethodSearch.pkgLength
        (fun pkgLength search => { search with pkgLength := pkgLength })
        (parsePkgLength (fun j => mem (aml + i + 1 + j)) (amlSize - i - 1))) then
      let search ← Prog.get
      let nameOffset := i + 1 + search.pkgLength.encodedSize
      check (decide (nameOffset + AML_METHOD_NAME_LEN ≤ amlSize))
      if window mem (aml + nameOffset) AML_METHOD_NAME_LEN ==
          window (cString name) 0 AML_METHOD_NAME_LEN then
        check search.methodStart.isNone
        Prog.modify fun search => { search with methodStart := some i }

/-- `find_method` on the table `dsdt`: the offset of the declaration, and the last PkgLength that was
parsed. -/
def searchMethod (mem : ℕ → UInt8) (dsdt : ℕ) (name : List UInt8) :
    Prog Err MethodSearch (ℕ × AcpiPkgLength) := do
  let amlSize := dsdtAmlSize mem dsdt
  Prog.forEach (findMethodAt mem (dsdt + TABLE_HEADER_SIZE) amlSize name) (List.range amlSize)
  let search ← Prog.get
  match search.methodStart with
  | some methodStart => pure (methodStart, search.pkgLength)
  | none => Prog.throw .ERR_INVALID

/-- `find_method`. Its `pkg_length` is not initialised; it is read only where it has been written. -/
def findMethod (name : List UInt8) : AcpiM (ℕ × AcpiPkgLength) := do
  let s ← Prog.get
  Prog.withLocals ⟨none, ⟨0, 0, fun _ => 0⟩⟩ (searchMethod s.mem s.gDsdt name)

/-- What `rename_method` writes. -/
def renameAt (dsdt methodNameOffset : ℕ) (modifiedName : List UInt8) (mem : ℕ → UInt8) :
    ℕ → UInt8 :=
  fixTableChecksum dsdt (blit mem (dsdt + TABLE_HEADER_SIZE + methodNameOffset)
    (cString modifiedName) 0 AML_METHOD_NAME_LEN)

/-- `rename_method`. -/
def renameMethod (originalName modifiedName : List UInt8) : AcpiM Unit := do
  check (strlen originalName == AML_METHOD_NAME_LEN)
  check (strlen modifiedName == AML_METHOD_NAME_LEN)
  let (methodStart, methodPkgLength) ← findMethod originalName
  let methodNameOffset := methodStart + 1 + methodPkgLength.encodedSize
  let s ← Prog.get
  check (decide (methodNameOffset + AML_METHOD_NAME_LEN ≤ dsdtAmlSize s.mem s.gDsdt))
  Prog.modify fun s => s.setMem (renameAt s.gDsdt methodNameOffset modifiedName s.mem)

/-- `hook_method`. -/
def hookMethod (F : PageServices) (name modifiedName : List UInt8) (hookParts : List (List UInt8)) :
    AcpiM Unit := do
  renameMethod name modifiedName
  appendMethod F hookParts

/-! ## Renaming -/

section Rename

variable {name originalName modifiedName : List UInt8} {mem : ℕ → UInt8} {s s' : AcpiState}

theorem parsePkgLength_returns (aml : ℕ → UInt8) (amlSize : ℕ) :
    Prog.Returns (parsePkgLength aml amlSize) := by
  unfold parsePkgLength
  refine Prog.returns_bind (Prog.returns_check _ _) fun _ => ?_
  simp only
  split
  · exact Prog.returns_bind (Prog.returns_modify _) fun _ => Prog.returns_modify _
  · refine Prog.returns_bind (Prog.returns_check _ _) fun _ => ?_
    refine Prog.returns_bind (Prog.returns_check _ _) fun _ => ?_
    refine Prog.returns_bind (Prog.returns_check _ _) fun _ => ?_
    exact Prog.returns_bind (Prog.returns_modify _) fun _ => Prog.returns_modify _

theorem findMethodAt_returns (mem : ℕ → UInt8) (aml amlSize : ℕ) (name : List UInt8) (i : ℕ) :
    Prog.Returns (findMethodAt mem aml amlSize name i) := by
  unfold findMethodAt
  split
  · refine Prog.returns_bind (Prog.returns_succeeds (Prog.returns_zoom
      (parsePkgLength_returns _ _))) fun parsed => ?_
    split
    · refine Prog.returns_bind Prog.returns_get fun search => ?_
      refine Prog.returns_bind (Prog.returns_check _ _) fun _ => ?_
      split
      · exact Prog.returns_bind (Prog.returns_check _ _) fun _ => Prog.returns_modify _
      · exact Prog.returns_pure ()
    · exact Prog.returns_pure ()
  · exact Prog.returns_pure ()

/-- `find_method` returns, and only looks. -/
theorem findMethod_apply (name : List UInt8) (s : AcpiState) :
    ∃ r, findMethod name s = some (r, s) := by
  have hreturns : Prog.Returns (searchMethod s.mem s.gDsdt name) := by
    unfold searchMethod
    refine Prog.returns_bind (Prog.returns_forEach _ fun i _ => findMethodAt_returns _ _ _ _ i)
      fun _ => Prog.returns_bind Prog.returns_get fun search => ?_
    split
    · exact Prog.returns_pure _
    · exact Prog.returns_throw _
  obtain ⟨r, t, hrun⟩ := hreturns ⟨none, ⟨0, 0, fun _ => 0⟩⟩
  rw [findMethod, Prog.bind_get_apply]
  exact ⟨r, Prog.withLocals_eq hrun⟩

/-- Where `rename_method` writes the new name, if it does. -/
def renameOffset (originalName modifiedName : List UInt8) (s : AcpiState) : Option ℕ :=
  if strlen originalName = AML_METHOD_NAME_LEN ∧ strlen modifiedName = AML_METHOD_NAME_LEN then
    match findMethod originalName s with
    | some (.ok (methodStart, methodPkgLength), _) =>
      if methodStart + 1 + methodPkgLength.encodedSize + AML_METHOD_NAME_LEN ≤
          dsdtAmlSize s.mem s.gDsdt then
        some (methodStart + 1 + methodPkgLength.encodedSize)
      else none
    | _ => none
  else none

/-- The state after a rename. -/
def renamed (methodNameOffset : ℕ) (modifiedName : List UInt8) (s : AcpiState) : AcpiState :=
  s.setMem (renameAt s.gDsdt methodNameOffset modifiedName s.mem)

/-- **What `rename_method` does.** -/
theorem renameMethod_apply (originalName modifiedName : List UInt8) (s : AcpiState) :
    renameMethod originalName modifiedName s =
      match renameOffset originalName modifiedName s with
      | some offset => some (.ok (), renamed offset modifiedName s)
      | none => some (.error .ERR_INVALID, s) := by
  rw [renameMethod, renameOffset]
  by_cases horiginal : strlen originalName = AML_METHOD_NAME_LEN
  case neg =>
    rw [if_neg fun h => horiginal h.1,
      Prog.bind_error (Prog.check_error (beq_eq_false_iff_ne.mpr horiginal))]
  case pos =>
    rw [Prog.bind_ok (Prog.check_ok (beq_iff_eq.mpr horiginal))]
    by_cases hmodified : strlen modifiedName = AML_METHOD_NAME_LEN
    case neg =>
      rw [if_neg fun h => hmodified h.2,
        Prog.bind_error (Prog.check_error (beq_eq_false_iff_ne.mpr hmodified))]
    case pos =>
      rw [if_pos ⟨horiginal, hmodified⟩, Prog.bind_ok (Prog.check_ok (beq_iff_eq.mpr hmodified))]
      obtain ⟨r, hfind⟩ := findMethod_apply originalName s
      cases r with
      | error e =>
        rw [Prog.bind_error hfind, hfind]
      | ok found =>
        obtain ⟨methodStart, methodPkgLength⟩ := found
        rw [Prog.bind_ok hfind, hfind]
        simp only
        rw [Prog.bind_get_apply]
        by_cases hfits : methodStart + 1 + methodPkgLength.encodedSize + AML_METHOD_NAME_LEN ≤
            dsdtAmlSize s.mem s.gDsdt
        · rw [if_pos hfits, Prog.bind_ok (Prog.check_ok (decide_eq_true hfits))]
          rfl
        · rw [if_neg hfits, Prog.bind_error (Prog.check_error (decide_eq_false hfits))]

theorem renameOffset_fits {offset : ℕ} (h : renameOffset originalName modifiedName s = some offset) :
    offset + AML_METHOD_NAME_LEN ≤ dsdtAmlSize s.mem s.gDsdt := by
  rw [renameOffset] at h
  split at h
  case isFalse => cases h
  case isTrue =>
    split at h
    case h_2 => cases h
    case h_1 =>
      split at h
      case isFalse => cases h
      case isTrue hfits => exact Option.some.inj h ▸ hfits

variable {offset x : ℕ}

/-- The new name is there afterwards. -/
theorem renamed_name {i : ℕ} (hi : i < AML_METHOD_NAME_LEN) :
    (renamed offset modifiedName s).mem (s.gDsdt + TABLE_HEADER_SIZE + offset + i) =
      cString modifiedName (0 + i) := by
  refine (fixTableChecksum_ne ?_).trans (blit_add hi)
  simp only [TABLE_CHECKSUM, TABLE_HEADER_SIZE]
  omega

/-- Apart from the name and the checksum a rename changes nothing. -/
theorem renamed_mem_ne (hsum : x ≠ s.gDsdt + TABLE_CHECKSUM)
    (hx : x < s.gDsdt + TABLE_HEADER_SIZE + offset ∨
      s.gDsdt + TABLE_HEADER_SIZE + offset + AML_METHOD_NAME_LEN ≤ x) :
    (renamed offset modifiedName s).mem x = s.mem x :=
  (fixTableChecksum_ne hsum).trans (blit_outside hx)

/-- A rename writes to the table only, behind its length. -/
theorem renamed_mem (hfits : offset + AML_METHOD_NAME_LEN ≤ dsdtAmlSize s.mem s.gDsdt)
    (hheader : TABLE_HEADER_SIZE ≤ (tableLength s.mem s.gDsdt).toNat)
    (hx : x < s.gDsdt + TABLE_LENGTH + 4 ∨ s.gDsdt + (tableLength s.mem s.gDsdt).toNat ≤ x) :
    (renamed offset modifiedName s).mem x = s.mem x := by
  have hsize := dsdtAmlSize_eq hheader
  simp only [AML_METHOD_NAME_LEN, TABLE_HEADER_SIZE, TABLE_LENGTH] at hfits hsize hx hheader
  refine renamed_mem_ne ?_ ?_
  · simp only [TABLE_CHECKSUM]
    omega
  · simp only [TABLE_HEADER_SIZE, AML_METHOD_NAME_LEN]
    omega

theorem tableLength_renamed (hfits : offset + AML_METHOD_NAME_LEN ≤ dsdtAmlSize s.mem s.gDsdt)
    (hheader : TABLE_HEADER_SIZE ≤ (tableLength s.mem s.gDsdt).toNat) :
    tableLength (renamed offset modifiedName s).mem s.gDsdt = tableLength s.mem s.gDsdt :=
  tableLength_congr fun i hi => renamed_mem hfits hheader (by omega)

theorem tableSum_renamed (hfits : offset + AML_METHOD_NAME_LEN ≤ dsdtAmlSize s.mem s.gDsdt)
    (hheader : TABLE_HEADER_SIZE ≤ (tableLength s.mem s.gDsdt).toNat) :
    tableSum (renamed offset modifiedName s).mem s.gDsdt = 0 := by
  have hlen : tableLength (renamed offset modifiedName s).mem s.gDsdt = tableLength s.mem s.gDsdt :=
    tableLength_renamed hfits hheader
  rw [renamed, AcpiState.setMem, renameAt, tableLength_fixTableChecksum] at hlen
  refine tableSum_fixTableChecksum ?_
  rw [hlen]
  simp only [TABLE_HEADER_SIZE, TABLE_CHECKSUM] at hheader ⊢
  omega

/-- A rename leaves the FADT alone. -/
theorem DsdtInv.renamed_fadt (h : DsdtInv s)
    (hfits : offset + AML_METHOD_NAME_LEN ≤ dsdtAmlSize s.mem s.gDsdt) (hx : s.gFadt ≤ x)
    (hx' : x < s.gFadt + fadtSize s.mem s.gFadt) :
    (renamed offset modifiedName s).mem x = s.mem x := by
  refine renamed_mem hfits h.dsdtHeader ?_
  have hheader := h.dsdtHeader
  simp only [TABLE_HEADER_SIZE] at hheader
  by_cases hlow : s.gDsdt ≤ x
  · have hapart := h.apart x hlow
    omega
  · omega

theorem DsdtInv.tableLength_renamed_fadt (h : DsdtInv s)
    (hfits : offset + AML_METHOD_NAME_LEN ≤ dsdtAmlSize s.mem s.gDsdt) :
    tableLength (renamed offset modifiedName s).mem s.gFadt = tableLength s.mem s.gFadt := by
  refine tableLength_congr fun i hi => h.renamed_fadt hfits (by omega) ?_
  have hused := used_le_fadtSize s.mem s.gFadt
  simp only [FADT_USED_SIZE, TABLE_LENGTH] at hused ⊢
  omega

/-- The FADT names the same table. -/
theorem DsdtInv.fadtDsdt_renamed (h : DsdtInv s)
    (hfits : offset + AML_METHOD_NAME_LEN ≤ dsdtAmlSize s.mem s.gDsdt) :
    fadtDsdt (renamed offset modifiedName s).mem s.gFadt = fadtDsdt s.mem s.gFadt := by
  have hused := used_le_fadtSize s.mem s.gFadt
  simp only [FADT_USED_SIZE] at hused
  have h64 : get64 (renamed offset modifiedName s).mem (s.gFadt + FADT_X_DSDT) =
      get64 s.mem (s.gFadt + FADT_X_DSDT) :=
    get64_congr fun i hi => h.renamed_fadt hfits (by omega) (by simp only [FADT_X_DSDT]; omega)
  have h32 : get32 (renamed offset modifiedName s).mem (s.gFadt + FADT_DSDT) =
      get32 s.mem (s.gFadt + FADT_DSDT) :=
    get32_congr fun i hi => h.renamed_fadt hfits (by omega) (by simp only [FADT_DSDT]; omega)
  rw [fadtDsdt, fadtDsdt, h64, h32]

theorem Kept.renamed {a n : ℕ} (hkept : Kept s a n)
    (hlen : tableLength (Acpi.renamed offset modifiedName s).mem s.gDsdt = tableLength s.mem s.gDsdt) :
    Kept (Acpi.renamed offset modifiedName s) a n := by
  refine ⟨hkept.reserved, fun hpatched x hx hx' => ?_⟩
  have happart := hkept.apart hpatched x hx hx'
  rw [dsdtPages] at happart ⊢
  rw [← hlen] at happart
  exact happart

theorem DsdtInv.renamed (h : DsdtInv s)
    (hfits : offset + AML_METHOD_NAME_LEN ≤ dsdtAmlSize s.mem s.gDsdt) :
    DsdtInv (renamed offset modifiedName s) := by
  have hlen : tableLength (Acpi.renamed offset modifiedName s).mem s.gDsdt =
      tableLength s.mem s.gDsdt := tableLength_renamed hfits h.dsdtHeader
  have hfadt : tableLength (Acpi.renamed offset modifiedName s).mem s.gFadt =
      tableLength s.mem s.gFadt := h.tableLength_renamed_fadt hfits
  have hsize : fadtSize (Acpi.renamed offset modifiedName s).mem s.gFadt =
      fadtSize s.mem s.gFadt := by rw [fadtSize, hfadt, fadtSize]
  refine ⟨h.null.renamed hlen, h.fadt_ne, ?_, ?_, ?_, fun x hx hx' => h.dsdt x hx ?_,
    fun hpatched x hx => h.pages hpatched x ?_, fun x hx hx' => ?_⟩
  · exact hfadt ▸ h.fadtHeader
  · exact hlen ▸ h.dsdtHeader
  · have hkept := h.fadt.renamed hlen
    rw [← hsize] at hkept
    exact hkept
  · exact hlen ▸ hx'
  · rw [dsdtPages] at hx ⊢
    rw [← hlen]
    exact hx
  · have happart := h.apart x hx (hlen ▸ hx')
    rw [← hsize] at happart
    exact happart

end Rename

/-! ## Hooking -/

section Hook

variable {F : PageServices} {name modifiedName : List UInt8} {hookParts parts : List (List UInt8)}
  {s₀ s s' u : AcpiState} {calls : List PageCall} {part : List UInt8} {e : Err} {addr : ℕ}

/-- The FADT names the table that `g_dsdt` points to. -/
def Reached (s : AcpiState) : Prop := fadtDsdt s.mem s.gFadt = s.gDsdt

instance (s : AcpiState) : Decidable (Reached s) := inferInstanceAs (Decidable (_ = _))

/-- The table that the FADT names has the same bytes as before, and `g_dsdt` points to it. -/
structure AllOrNothing (s s' : AcpiState) : Prop where
  bytes : tableBytes s'.mem (fadtDsdt s'.mem s'.gFadt) = tableBytes s.mem (fadtDsdt s.mem s.gFadt)
  reached : Reached s'

theorem Appended.reached (h : DsdtInv s) (happ : Appended F part addr s s') : Reached s' := by
  obtain ⟨hne, hlt⟩ := happ.below h
  rw [Reached, happ.mem, happ.gFadt, happ.gDsdt]
  exact fadtDsdt_redirect hne hlt

/-- The sum and the other bytes decide the checksum. -/
theorem checksum_unique {mem mem' : ℕ → UInt8} {a b n : ℕ} (hn : TABLE_CHECKSUM < n)
    (h : ∀ i < n, i ≠ TABLE_CHECKSUM → mem (a + i) = mem' (b + i))
    (hsum : byteSum mem a n = byteSum mem' b n) :
    mem (a + TABLE_CHECKSUM) = mem' (b + TABLE_CHECKSUM) := by
  have hself : ∀ (σ : ℕ → UInt8) (x : ℕ), setCell σ x (σ x) = σ := fun σ x => by
    funext y
    by_cases hy : y = x
    · rw [hy, setCell_self]
    · rw [setCell_ne _ _ hy]
  have hsplit := byteSum_setCell mem (mem (a + TABLE_CHECKSUM)) (a := a) hn
  have hsplit' := byteSum_setCell mem' (mem' (b + TABLE_CHECKSUM)) (a := b) hn
  rw [hself] at hsplit hsplit'
  rw [hsplit, hsplit'] at hsum
  have hrest : byteSum (setCell mem (a + TABLE_CHECKSUM) 0) a n =
      byteSum (setCell mem' (b + TABLE_CHECKSUM) 0) b n := by
    refine byteSum_congr fun i hi => ?_
    by_cases hi' : i = TABLE_CHECKSUM
    · rw [hi', setCell_self, setCell_self]
    · rw [setCell_ne _ _ (by omega), setCell_ne _ _ (by omega), h i hi hi']
  rw [hrest] at hsum
  exact (UInt8.add_right_inj _).mp hsum

/-- Two tables of one length and with right checksums that agree on everything else have the same
bytes. -/
theorem tableBytes_eq_of_agree {mem mem' : ℕ → UInt8} {a b : ℕ}
    (hlen : tableLength mem' b = tableLength mem a)
    (hheader : TABLE_HEADER_SIZE ≤ (tableLength mem a).toNat)
    (hagree : ∀ i < (tableLength mem a).toNat, i < TABLE_LENGTH ∨ TABLE_LENGTH + 4 ≤ i →
      i ≠ TABLE_CHECKSUM → mem (a + i) = mem' (b + i))
    (hsum : tableSum mem a = 0) (hsum' : tableSum mem' b = 0) :
    tableBytes mem a = tableBytes mem' b := by
  have hbytes : ∀ i < (tableLength mem a).toNat, i ≠ TABLE_CHECKSUM →
      mem (a + i) = mem' (b + i) := by
    intro i hi hchecksum
    by_cases hi' : i < TABLE_LENGTH ∨ TABLE_LENGTH + 4 ≤ i
    · exact hagree i hi hi' hchecksum
    · -- the bytes of the length are those of the same number
      have hfield := get32_inj hlen.symm (i - TABLE_LENGTH) (by omega)
      rwa [Nat.add_assoc, Nat.add_assoc, Nat.add_sub_cancel' (by omega)] at hfield
  rw [tableSum, hlen] at hsum'
  simp only [TABLE_HEADER_SIZE] at hheader
  have hchecksum := checksum_unique (by simp only [TABLE_CHECKSUM]; omega) hbytes
    (hsum.trans hsum'.symm)
  rw [tableBytes, tableBytes, hlen]
  refine window_eq_window.mpr fun i hi => ?_
  by_cases hi' : i = TABLE_CHECKSUM
  · rw [hi', hchecksum]
  · exact hbytes i hi hi'

/-- **What a rename leaves as it is**: a table that had the new name there, and a right checksum. -/
theorem tableBytes_renamed_iff {offset : ℕ}
    (hfits : offset + AML_METHOD_NAME_LEN ≤ dsdtAmlSize s.mem s.gDsdt)
    (hheader : TABLE_HEADER_SIZE ≤ (tableLength s.mem s.gDsdt).toNat) :
    tableBytes (renamed offset modifiedName s).mem s.gDsdt = tableBytes s.mem s.gDsdt ↔
      window s.mem (s.gDsdt + TABLE_HEADER_SIZE + offset) AML_METHOD_NAME_LEN =
          window (cString modifiedName) 0 AML_METHOD_NAME_LEN ∧
        tableSum s.mem s.gDsdt = 0 := by
  have hlen : tableLength (renamed offset modifiedName s).mem s.gDsdt =
      tableLength s.mem s.gDsdt := tableLength_renamed hfits hheader
  have hsum : tableSum (renamed offset modifiedName s).mem s.gDsdt = 0 :=
    tableSum_renamed hfits hheader
  constructor
  · intro heq
    rw [tableBytes, tableBytes, hlen, window_eq_window] at heq
    refine ⟨window_eq_window.mpr fun i hi => ?_, ?_⟩
    · have hsize := dsdtAmlSize_eq hheader
      have hwritten : (renamed offset modifiedName s).mem
          (s.gDsdt + TABLE_HEADER_SIZE + offset + i) = cString modifiedName (0 + i) := renamed_name hi
      rw [← hwritten, Nat.add_assoc, Nat.add_assoc]
      exact (heq _ (by omega)).symm
    · rw [← hsum, tableSum, tableSum, hlen]
      exact byteSum_congr fun i hi => (heq i hi).symm
  · rintro ⟨hname, hsum₀⟩
    rw [window_eq_window] at hname
    refine tableBytes_eq_of_agree hlen.symm (hlen ▸ hheader) (fun i _ _ hne => ?_) hsum hsum₀
    by_cases hi : TABLE_HEADER_SIZE + offset ≤ i ∧
        i < TABLE_HEADER_SIZE + offset + AML_METHOD_NAME_LEN
    · obtain ⟨k, rfl⟩ := Nat.exists_eq_add_of_le hi.1
      have hk : k < AML_METHOD_NAME_LEN := by omega
      rw [← Nat.add_assoc, ← Nat.add_assoc, renamed_name hk, hname k hk]
    · exact renamed_mem_ne (by omega) (by omega)

/-- The run of `append_method` up to some part. -/
structure AppendedSoFar (s₀ : AcpiState) (parts : List (List UInt8)) (s : AcpiState) : Prop where
  extended : Extends s₀ parts.flatten s
  reached : Reached s
  sum : tableSum s.mem s.gDsdt = 0
  calls : ∃ calls, s.calls = s₀.calls ++ calls ∧ (granted calls).length = parts.length

theorem AppendedSoFar.append (hs₀ : DsdtInv s₀) (h : AppendedSoFar s₀ parts s)
    (happ : Appended F part addr s s') : AppendedSoFar s₀ (parts ++ [part]) s' := by
  obtain ⟨calls, hcalls, hgranted⟩ := h.calls
  refine ⟨?_, happ.reached h.extended.inv, happ.dsdtSum h.extended.inv, ?_⟩
  · rw [List.flatten_append, List.flatten_singleton]
    exact h.extended.append hs₀ happ
  · refine ⟨_, happ.calls.trans (by rw [hcalls, List.append_assoc]), ?_⟩
    rw [granted] at hgranted
    rw [granted, List.filterMap_append, List.length_append, hgranted, List.length_append]
    congr 1
    cases s.isDsdtPatched <;> rfl

/-- A run that fails does so at some part. -/
theorem AppendedSoFar.forEach_error (hs₀ : DsdtInv s₀) (parts : List (List UInt8)) :
    ∀ (pre : List (List UInt8)) {s : AcpiState}, AppendedSoFar s₀ pre s →
      Prog.forEach (appendDsdt F) parts s = some (.error e, s') →
      ∃ done part post u, parts = done ++ part :: post ∧ AppendedSoFar s₀ (pre ++ done) u ∧
        AppendOutcome F part u (.error e) s' := by
  induction parts with
  | nil =>
    intro pre s _ hrun
    cases hrun
  | cons part parts ih =>
    intro pre s h hrun
    have hinv := h.extended.inv
    obtain ⟨r, t, hbody, hout⟩ := hinv.appendDsdt_cases F part
    rw [Prog.forEach_cons] at hrun
    cases r with
    | error e' =>
      rw [Prog.bind_error hbody] at hrun
      obtain ⟨he, rfl⟩ := Prod.mk.inj (Option.some.inj hrun)
      obtain rfl := Except.error.inj he
      exact ⟨[], part, parts, s, rfl, by rwa [List.append_nil], hout⟩
    | ok v =>
      rw [Prog.bind_ok hbody] at hrun
      obtain ⟨addr, happ⟩ := hinv.appended hout
      obtain ⟨done, part', post, u, rfl, hu, hout'⟩ := ih _ (h.append hs₀ happ) hrun
      rw [List.append_assoc, List.singleton_append] at hu
      exact ⟨part :: done, part', post, u, rfl, hu, hout'⟩

/-- Tables with the same bytes have the same length. -/
theorem tableLength_eq_of_bytes (h : tableBytes m d = tableBytes m' d') :
    tableLength m d = tableLength m' d' := by
  have hlength := congrArg List.length h
  rw [tableBytes, tableBytes, length_window, length_window] at hlength
  exact UInt32.toNat_inj.mp hlength

/-- A table that has kept its length has had only empty parts appended. -/
theorem AppendedSoFar.nil_of_length (h : AppendedSoFar s₀ parts s)
    (hlength : tableLength s.mem s.gDsdt = tableLength s₀.mem s₀.gDsdt) :
    ∀ part ∈ parts, part = [] := by
  have hlen := h.extended.length
  rw [hlength] at hlen
  rw [← List.flatten_eq_nil_iff]
  exact List.length_eq_zero_iff.mp (by omega)

/-- The table is the same if and only if only empty parts have been appended. -/
theorem AppendedSoFar.tableBytes_eq_iff (hs₀ : DsdtInv s₀) (hsum₀ : tableSum s₀.mem s₀.gDsdt = 0)
    (h : AppendedSoFar s₀ parts s) :
    tableBytes s.mem s.gDsdt = tableBytes s₀.mem s₀.gDsdt ↔ ∀ part ∈ parts, part = [] := by
  constructor
  · intro heq
    exact h.nil_of_length (tableLength_eq_of_bytes heq)
  · intro hnil
    have hlen := h.extended.length
    rw [List.flatten_eq_nil_iff.mpr hnil, List.length_nil, Nat.add_zero] at hlen
    have hlength : tableLength s₀.mem s₀.gDsdt = tableLength s.mem s.gDsdt :=
      (UInt32.toNat_inj.mp hlen).symm
    refine tableBytes_eq_of_agree hlength (hlength ▸ hs₀.dsdtHeader) (fun i hi => ?_) h.sum hsum₀
    exact h.extended.table i (hlength ▸ hi)

/-- The rename, if it is made, finds its name there already, and a checksum that is right. -/
def RenameKeeps (name modifiedName : List UInt8) (s : AcpiState) : Prop :=
  ∀ offset, renameOffset name modifiedName s = some offset →
    window s.mem (s.gDsdt + TABLE_HEADER_SIZE + offset) AML_METHOD_NAME_LEN =
        window (cString modifiedName) 0 AML_METHOD_NAME_LEN ∧
      tableSum s.mem s.gDsdt = 0

/-- The last of the calls is an `AllocatePages` that failed. -/
def AllocFailed (calls : List PageCall) : Prop :=
  ∃ pages, calls.getLast? = some (.allocatePages pages none)

/-- The FADT then names a table that is not where anything else was. -/
theorem fadtDsdt_redirected_ne (h : DsdtInv u)
    (halloc : F.allocatePages u (patchedPages part u) = some addr) {d : ℕ} (hd : u.free d = false) :
    fadtDsdt (redirected part addr u).mem u.gFadt ≠ d := by
  have hpos : 0 < patchedPages part u := patchedPages_pos h.dsdtHeader
  have hbelow := F.below halloc
  have hfresh := fresh_of_alloc halloc hd
  simp only [PAGE_SIZE] at hbelow hfresh
  have hne := h.alloc_ne_zero halloc
  have hdsdt : fadtDsdt (redirected part addr u).mem u.gFadt = addr :=
    fadtDsdt_redirect hne (by omega)
  omega

/-- The first byte of the table is not free. -/
theorem DsdtInv.dsdt_taken (h : DsdtInv u) : u.free u.gDsdt = false := by
  have hheader := h.dsdtHeader
  simp only [TABLE_HEADER_SIZE] at hheader
  exact h.dsdt u.gDsdt (le_refl _) (by omega)

theorem hookMethod_error (hrun : hookMethod F name modifiedName hookParts s = some (.error e, s')) :
    (renameOffset name modifiedName s = none ∧ s' = s) ∨
      ∃ offset, renameOffset name modifiedName s = some offset ∧
        Prog.forEach (appendDsdt F) hookParts (renamed offset modifiedName s) =
          some (.error e, s') := by
  have hrename := renameMethod_apply name modifiedName s
  rw [hookMethod] at hrun
  cases hoffset : renameOffset name modifiedName s with
  | none =>
    rw [hoffset] at hrename
    rw [Prog.bind_error hrename] at hrun
    exact Or.inl ⟨rfl, (congrArg Prod.snd (Option.some.inj hrun)).symm⟩
  | some offset =>
    rw [hoffset] at hrename
    rw [Prog.bind_ok hrename] at hrun
    exact Or.inr ⟨offset, rfl, hrun⟩

/-- The log of a run whose last allocation has failed. -/
theorem AppendedSoFar.allocFailed (hu : AppendedSoFar s₀ parts u)
    (hcalls : (u.allocated pages none).calls = s₀.calls ++ calls) :
    AllocFailed calls ∧ (granted calls).length = parts.length := by
  obtain ⟨calls', hcalls', hgranted⟩ := hu.calls
  have hlog : calls = calls' ++ [.allocatePages pages none] := by
    refine List.append_cancel_left (hcalls.symm.trans ?_)
    rw [AcpiState.allocated, hcalls', List.append_assoc]
  refine ⟨⟨pages, by rw [hlog, List.getLast?_concat]⟩, ?_⟩
  rw [hlog, ← hgranted, granted, List.filterMap_append]
  exact congrArg List.length (List.append_nil _)

/-- The log of a run whose last call is a release that has failed. -/
theorem AppendedSoFar.not_allocFailed (hu : AppendedSoFar s₀ parts u)
    (hcalls : ((redirected part addr u).freed dsdt pages false).calls = s₀.calls ++ calls) :
    ¬ AllocFailed calls := by
  rintro ⟨pages', hlast⟩
  obtain ⟨calls', hcalls', -⟩ := hu.calls
  have hlog : calls = calls' ++ [.allocatePages (patchedPages part u) (some addr)] ++
      [.freePages dsdt pages false] := by
    refine List.append_cancel_left (hcalls.symm.trans ?_)
    rw [AcpiState.freed, redirected, AcpiState.setMem, AcpiState.allocated, hcalls']
    simp only [List.append_assoc]
  rw [hlog, List.getLast?_concat] at hlast
  cases hlast

/-- A failed allocation touches no table: what is left to compare is what the appends before it did. -/
theorem allOrNothing_allocated_iff (hreached : Reached s) (hu : Reached u) :
    AllOrNothing s (u.allocated pages none) ↔
      tableBytes u.mem u.gDsdt = tableBytes s.mem s.gDsdt := by
  have htable : fadtDsdt u.mem u.gFadt = u.gDsdt := hu
  have htable₀ : fadtDsdt s.mem s.gFadt = s.gDsdt := hreached
  constructor
  · intro h
    have hbytes : tableBytes u.mem (fadtDsdt u.mem u.gFadt) =
        tableBytes s.mem (fadtDsdt s.mem s.gFadt) := h.bytes
    rwa [htable, htable₀] at hbytes
  · intro h
    refine ⟨?_, hu⟩
    show tableBytes u.mem (fadtDsdt u.mem u.gFadt) = _
    rw [htable, htable₀, h]

/-- A firmware that has no pages left. -/
def noPages : PageServices where
  allocatePages _ _ := none
  freePages _ _ _ := true
  below h := nomatch h
  fresh h := nomatch h

/-- `"_PTS"` and `"SPTS"`. -/
def namePts : List UInt8 := [0x5f, 0x50, 0x54, 0x53]
def nameSpts : List UInt8 := [0x53, 0x50, 0x54, 0x53]

/-- The declaration of a method `_PTS` with one argument and nothing to do. -/
def sampleDeclaration : List UInt8 := [0x14, 0x06, 0x5f, 0x50, 0x54, 0x53, 0x01, 0xa3]

/-- The tables of `sampleAcpi`, with the method in the DSDT. -/
def sampleMethod : AcpiState :=
  sampleAcpi.setMem (blit (put32 sampleAcpi.mem 0x2004 44) 0x2024 (cString sampleDeclaration) 0 8)

theorem sampleMethod_inv : DsdtInv sampleMethod ∧ Reached sampleMethod := by
  have hfadt : (tableLength sampleMethod.mem sampleMethod.gFadt).toNat = 244 := by decide
  have hdsdt : (tableLength sampleMethod.mem sampleMethod.gDsdt).toNat = 44 := by decide
  refine ⟨.of_unpatched rfl (by decide) (by decide) hfadt hdsdt (by decide) (by decide)
    fun x _ hx => ?_, by decide⟩
  exact decide_eq_false (not_le.mpr (lt_trans hx (by decide)))

/-- The method is renamed, and then there are no pages for the new one. -/
theorem exists_half_hooked : ∃ s' calls, hookMethod noPages namePts nameSpts [[0xa3]] sampleMethod =
    some (.error .ERR_INVALID, s') ∧ s'.calls = sampleMethod.calls ++ calls ∧
    s'.mem = (renamed 2 nameSpts sampleMethod).mem ∧ s'.gFadt = sampleMethod.gFadt := by
  have hoffset : renameOffset namePts nameSpts sampleMethod = some 2 := by decide
  have hrename := renameMethod_apply namePts nameSpts sampleMethod
  rw [hoffset] at hrename
  have hinv : DsdtInv (renamed 2 nameSpts sampleMethod) :=
    sampleMethod_inv.1.renamed (renameOffset_fits hoffset)
  obtain ⟨r, s', hrun, hout⟩ := hinv.appendDsdt_cases noPages [0xa3]
  have hhook : hookMethod noPages namePts nameSpts [[0xa3]] sampleMethod = some (r, s') := by
    rw [hookMethod, Prog.bind_ok hrename, appendMethod, Prog.forEach_singleton, hrun]
  cases hout with
  | refused => exact ⟨_, [_], hhook, rfl, rfl, rfl⟩
  | first _ halloc => cases halloc
  | next _ halloc => cases halloc
  | stuck _ halloc => cases halloc

/-- **When a failed hook leaves everything as it was**: if and only if the method could not be
renamed, or renaming it changed nothing, a failed allocation ended the hook, and only empty parts had
been appended. -/
theorem hook_all_or_nothing_iff (hinv : DsdtInv s) (hreached : Reached s)
    (hrun : hookMethod F name modifiedName hookParts s = some (.error e, s'))
    (hcalls : s'.calls = s.calls ++ calls) :
    AllOrNothing s s' ↔ renameOffset name modifiedName s = none ∨
      (RenameKeeps name modifiedName s ∧ AllocFailed calls ∧
        ∀ part ∈ hookParts.take (granted calls).length, part = []) := by
  rcases hookMethod_error hrun with ⟨hoffset, rfl⟩ | ⟨offset, hoffset, hrun⟩
  · exact iff_of_true ⟨rfl, hreached⟩ (Or.inl hoffset)
  have hfits := renameOffset_fits hoffset
  have hinv₁ : DsdtInv (renamed offset modifiedName s) := hinv.renamed hfits
  have hreached₁ : Reached (renamed offset modifiedName s) :=
    (hinv.fadtDsdt_renamed hfits).trans hreached
  have hsum₁ : tableSum (renamed offset modifiedName s).mem (renamed offset modifiedName s).gDsdt = 0 :=
    tableSum_renamed hfits hinv.dsdtHeader
  have hlen₁ : tableLength (renamed offset modifiedName s).mem (renamed offset modifiedName s).gDsdt =
      tableLength s.mem s.gDsdt := tableLength_renamed hfits hinv.dsdtHeader
  obtain ⟨done, part, post, u, rfl, hu, hout⟩ := AppendedSoFar.forEach_error hinv₁ hookParts
    [] ⟨.refl hinv₁, hreached₁, hsum₁, [], (List.append_nil _).symm, rfl⟩ hrun
  rw [List.nil_append] at hu
  have hkeeps : RenameKeeps name modifiedName s ↔
      tableBytes (renamed offset modifiedName s).mem s.gDsdt = tableBytes s.mem s.gDsdt := by
    rw [tableBytes_renamed_iff hfits hinv.dsdtHeader]
    refine ⟨fun h => h offset hoffset, fun h offset' hoffset' => ?_⟩
    obtain rfl := Option.some.inj (hoffset.symm.trans hoffset')
    exact h
  rw [hoffset, hkeeps]
  simp only [reduceCtorEq, false_or]
  cases hout with
  | refused halloc =>
    -- nothing has happened since the last part: the FADT names the table of `u`
    obtain ⟨hfailed, hcount⟩ := hu.allocFailed hcalls
    have hsame := hu.tableBytes_eq_iff hinv₁ hsum₁
    rw [allOrNothing_allocated_iff hreached hu.reached, hcount, List.take_left]
    constructor
    · intro heq
      have hempty : ∀ part ∈ done, part = [] :=
        hu.nil_of_length ((tableLength_eq_of_bytes heq).trans hlen₁.symm)
      exact ⟨(hsame.mpr hempty).symm.trans heq, hfailed, hempty⟩
    · rintro ⟨hkeep, -, hempty⟩
      exact (hsame.mpr hempty).trans hkeep
  | stuck addr halloc hpatched =>
    refine iff_of_false (fun h => ?_) fun h => hu.not_allocFailed hcalls h.2.1
    exact fadtDsdt_redirected_ne hu.extended.inv halloc hu.extended.inv.dsdt_taken h.reached

theorem hook_all_or_nothing_iff_sample : ∃ s' calls,
    hookMethod noPages namePts nameSpts [[0xa3]] sampleMethod = some (.error .ERR_INVALID, s') ∧
    s'.calls = sampleMethod.calls ++ calls ∧
    (AllOrNothing sampleMethod s' ↔ renameOffset namePts nameSpts sampleMethod = none ∨
      (RenameKeeps namePts nameSpts sampleMethod ∧ AllocFailed calls ∧
        ∀ part ∈ ([[0xa3]] : List (List UInt8)).take (granted calls).length, part = [])) := by
  obtain ⟨s', calls, hrun, hcalls, -, -⟩ := exists_half_hooked
  exact ⟨s', calls, hrun, hcalls,
    hook_all_or_nothing_iff sampleMethod_inv.1 sampleMethod_inv.2 hrun hcalls⟩

/-- **A method that is renamed and not replaced.** `_PTS` becomes `SPTS`; the allocation for the new
`_PTS` fails, and the name stays. -/
theorem half_hooked : ∃ s', DsdtInv sampleMethod ∧ Reached sampleMethod ∧
    hookMethod noPages namePts nameSpts [[0xa3]] sampleMethod = some (.error .ERR_INVALID, s') ∧
    ¬ AllOrNothing sampleMethod s' := by
  obtain ⟨s', calls, hrun, -, hmem, hfadt⟩ := exists_half_hooked
  refine ⟨s', sampleMethod_inv.1, sampleMethod_inv.2, hrun, fun h => ?_⟩
  have hbytes := h.bytes
  rw [hmem, hfadt] at hbytes
  exact absurd hbytes (by decide)

end Hook

end SwitchOs.Acpi
