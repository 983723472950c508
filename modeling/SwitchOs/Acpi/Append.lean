import SwitchOs.Acpi.Dsdt
import Mathlib.Data.List.GetD

/-!
# Runs of appends

`append_method` of `uefi/acpi/patch/method.c`, and what any sequence of `append_dsdt` and
`append_method` calls leaves in which all firmware calls succeed: one table, with everything appended
in order (`appends_concatenate`).
-/

namespace SwitchOs.Acpi

/-- `append_method`. -/
def appendMethod (F : PageServices) (methodParts : List (List UInt8)) : AcpiM Unit :=
  Prog.forEach (appendDsdt F) methodParts

/-- A call that appends to the DSDT. -/
inductive AppendCall where
  | append_dsdt (aml : List UInt8)
  | append_method (methodParts : List (List UInt8))

/-- The pieces that a call appends, in order. -/
def AppendCall.pieces : AppendCall → List (List UInt8)
  | append_dsdt aml => [aml]
  | append_method methodParts => methodParts

def AppendCall.run (F : PageServices) : AppendCall → AcpiM Unit
  | append_dsdt aml => appendDsdt F aml
  | append_method methodParts => appendMethod F methodParts

/-! ## Page calls -/

def PageCall.Succeeds : PageCall → Prop
  | allocatePages _ answer => answer.isSome
  | freePages _ _ answer => answer

/-- The pages that were allocated: where, and how many. -/
def granted (calls : List PageCall) : List (ℕ × ℕ) :=
  calls.filterMap fun
    | .allocatePages pages (some addr) => some (addr, pages)
    | _ => none

/-- The pages that were freed. -/
def returned (calls : List PageCall) : List (ℕ × ℕ) :=
  calls.filterMap fun
    | .freePages addr pages true => some (addr, pages)
    | _ => none

/-- Both tables sum up to zero, and the FADT names the DSDT in both of its fields. -/
structure Redirected (s : AcpiState) : Prop where
  dsdtSum : tableSum s.mem s.gDsdt = 0
  fadtSum : tableSum s.mem s.gFadt = 0
  dsdt : (get32 s.mem (s.gFadt + FADT_DSDT)).toNat = s.gDsdt
  xDsdt : (get64 s.mem (s.gFadt + FADT_X_DSDT)).toNat = s.gDsdt

/-- **The concatenation.** `s` is `s₀` with the pieces appended. -/
structure Concatenated (s₀ s : AcpiState) (pieces : List (List UInt8)) : Prop where
  header : ∀ i < TABLE_HEADER_SIZE, i < TABLE_LENGTH ∨ TABLE_LENGTH + 4 ≤ i → i ≠ TABLE_CHECKSUM →
    s.mem (s.gDsdt + i) = s₀.mem (s₀.gDsdt + i)
  aml : window s.mem (s.gDsdt + TABLE_HEADER_SIZE) (dsdtAmlSize s.mem s.gDsdt) =
    window s₀.mem (s₀.gDsdt + TABLE_HEADER_SIZE) (dsdtAmlSize s₀.mem s₀.gDsdt) ++ pieces.flatten
  length : (tableLength s.mem s.gDsdt).toNat =
    (tableLength s₀.mem s₀.gDsdt).toNat + (pieces.map List.length).sum
  redirected : Redirected s
  original : tableBytes s.mem s₀.gDsdt = tableBytes s₀.mem s₀.gDsdt
  freed : granted s.calls = returned s.calls ++ [(s.gDsdt, dsdtPages s)]

section Runs

variable {F : PageServices} {aml piece : List UInt8} {s₀ s s' : AcpiState} {addr : ℕ}

/-- The state once `aml` has been appended to the table of `s₀`, in any number of pieces. -/
structure Extends (s₀ : AcpiState) (aml : List UInt8) (s : AcpiState) : Prop where
  inv : DsdtInv s
  gFadt : s.gFadt = s₀.gFadt
  length : (tableLength s.mem s.gDsdt).toNat = (tableLength s₀.mem s₀.gDsdt).toNat + aml.length
  table : ∀ i < (tableLength s₀.mem s₀.gDsdt).toNat, i < TABLE_LENGTH ∨ TABLE_LENGTH + 4 ≤ i →
    i ≠ TABLE_CHECKSUM → s.mem (s.gDsdt + i) = s₀.mem (s₀.gDsdt + i)
  appended : ∀ i < aml.length,
    s.mem (s.gDsdt + (tableLength s₀.mem s₀.gDsdt).toNat + i) = aml.getD i 0

theorem Extends.refl (hinv : DsdtInv s) : Extends s [] s :=
  ⟨hinv, rfl, rfl, fun _ _ _ _ => rfl, nofun⟩

/-- A successful append extends the table by the piece. -/
theorem Extends.append (hs₀ : DsdtInv s₀) (h : Extends s₀ aml s)
    (happ : Appended F piece addr s s') : Extends s₀ (aml ++ piece) s' := by
  have hlength := happ.length h.inv
  have hlen := h.length
  have hheader := hs₀.dsdtHeader
  simp only [TABLE_HEADER_SIZE] at hheader
  refine ⟨h.inv.append happ, happ.gFadt.trans h.gFadt, ?_, fun i hi hi' hchecksum => ?_,
    fun i hi => ?_⟩
  · rw [hlength, hlen, List.length_append, Nat.add_assoc]
  · rw [happ.table h.inv (by omega) hi' hchecksum, h.table i hi hi' hchecksum]
  · rw [List.length_append] at hi
    by_cases hlt : i < aml.length
    · -- the bytes appended before are part of the old table
      rw [Nat.add_assoc, happ.table h.inv (by omega) (by simp only [TABLE_LENGTH]; omega)
        (by simp only [TABLE_CHECKSUM]; omega), ← Nat.add_assoc, h.appended i hlt,
        List.getD_append _ _ _ _ hlt]
    · have hpiece := happ.piece h.inv (i := i - aml.length) (by omega)
      rw [hlen] at hpiece
      rw [List.getD_append_right _ _ _ _ (by omega), ← hpiece]
      exact congrArg s'.mem (by omega)

/-- The same, on the tables of the firmware: they are not touched, and the copies are freed. -/
structure AppendInv (s₀ : AcpiState) (aml : List UInt8) (s : AcpiState) : Prop
    extends Extends s₀ aml s where
  kept : Kept s s₀.gDsdt (tableLength s₀.mem s₀.gDsdt).toNat
  original : ∀ x, s₀.gDsdt ≤ x → x < s₀.gDsdt + (tableLength s₀.mem s₀.gDsdt).toNat →
    s.mem x = s₀.mem x
  calls : granted s.calls =
    returned s.calls ++ if s.isDsdtPatched then [(s.gDsdt, dsdtPages s)] else []
  redirected : s.isDsdtPatched = true → Redirected s

theorem AppendInv.initial (hinv : DsdtInv s) (hpatched : s.isDsdtPatched = false)
    (hcalls : s.calls = []) : AppendInv s [] s := by
  refine ⟨.refl hinv, ⟨hinv.dsdt, ?_⟩, fun _ _ _ => rfl, ?_, ?_⟩
  · rw [hpatched]
    nofun
  · rw [hcalls, hpatched]
    rfl
  · rw [hpatched]
    nofun

/-- Freed so far is what has been allocated so far, but for the current table. -/
theorem calls_append (h : DsdtInv s) (happ : Appended F piece addr s s')
    (hcalls : granted s.calls =
      returned s.calls ++ if s.isDsdtPatched then [(s.gDsdt, dsdtPages s)] else []) :
    granted s'.calls = returned s'.calls ++ [(s'.gDsdt, dsdtPages s')] := by
  rw [happ.calls, granted, returned, List.filterMap_append, List.filterMap_append, happ.gDsdt,
    happ.dsdtPages h]
  rw [granted, returned] at hcalls
  rw [hcalls]
  cases s.isDsdtPatched with
  | false => simp
  | true => simp

theorem Appended.redirected (h : DsdtInv s) (happ : Appended F piece addr s s') : Redirected s' := by
  obtain ⟨hdsdt, hxDsdt⟩ := happ.fields h
  exact ⟨happ.dsdtSum h, happ.fadtSum h, hdsdt, hxDsdt⟩

/-- **What a successful append keeps.** -/
theorem AppendInv.append (hs₀ : DsdtInv s₀) (h : AppendInv s₀ aml s)
    (happ : Appended F piece addr s s') : AppendInv s₀ (aml ++ piece) s' := by
  refine ⟨h.toExtends.append hs₀ happ, h.kept.append h.inv happ, fun x hx hx' => ?_, ?_,
    fun _ => happ.redirected h.inv⟩
  · have hapart := hs₀.apart x hx hx'
    have hused := used_le_fadtSize s₀.mem s₀.gFadt
    rw [happ.outside h.inv (h.kept.reserved x hx hx') (by rw [h.gFadt]; omega), h.original x hx hx']
  · rw [calls_append h.inv happ h.calls, if_pos happ.patched]

/-- A call of `append_dsdt` that does not succeed has made a call that did not. -/
theorem AppendOutcome.ok_of_succeeds {r : Except Err Unit} (h : AppendOutcome F piece s r s')
    (hsucc : ∀ call ∈ s'.calls, call.Succeeds) : r = .ok () := by
  cases h with
  | refused =>
    have hlast := hsucc _ (List.mem_append_right _ (List.mem_singleton_self _))
    cases hlast
  | first => rfl
  | next => rfl
  | stuck =>
    have hlast := hsucc _ (List.mem_append_right _ (List.mem_singleton_self _))
    cases hlast

/-- **What a run of appends leaves** in which the firmware does not fail. -/
theorem AppendInv.forEach (hs₀ : DsdtInv s₀) (pieces : List (List UInt8)) :
    ∀ {aml : List UInt8} {s : AcpiState}, AppendInv s₀ aml s →
      ∃ r s', Prog.forEach (appendDsdt F) pieces s = some (r, s') ∧
        ((∀ call ∈ s'.calls, call.Succeeds) → r = .ok () ∧
          AppendInv s₀ (aml ++ pieces.flatten) s' ∧
          (s.isDsdtPatched = true ∨ pieces ≠ [] → s'.isDsdtPatched = true)) := by
  induction pieces with
  | nil =>
    intro aml s h
    refine ⟨_, _, rfl, fun _ => ⟨rfl, ?_, ?_⟩⟩
    · rwa [List.flatten_nil, List.append_nil]
    · rintro (h | h)
      · exact h
      · exact absurd rfl h
  | cons piece pieces ih =>
    intro aml s h
    obtain ⟨r, s', hrun, hout⟩ := h.inv.appendDsdt_cases F piece
    rw [Prog.forEach_cons]
    cases r with
    | error e =>
      refine ⟨_, _, Prog.bind_error hrun, fun hsucc => ?_⟩
      cases hout.ok_of_succeeds hsucc
    | ok u =>
      obtain ⟨addr, happ⟩ := h.inv.appended hout
      obtain ⟨r, t, hruns, hrest⟩ := ih (h.append hs₀ happ)
      refine ⟨r, t, (Prog.bind_ok hrun).trans hruns, fun hsucc => ?_⟩
      obtain ⟨hr, hinv, hpatched⟩ := hrest hsucc
      rw [List.append_assoc] at hinv
      exact ⟨hr, hinv, fun _ => hpatched (Or.inl happ.patched)⟩

/-- A table with pieces appended, as a whole. -/
theorem AppendInv.concatenated (hs₀ : DsdtInv s₀) {pieces : List (List UInt8)}
    (h : AppendInv s₀ pieces.flatten s) (hpatched : s.isDsdtPatched = true) :
    Concatenated s₀ s pieces := by
  have hheader := hs₀.dsdtHeader
  have hsize := dsdtAmlSize_eq h.inv.dsdtHeader
  have hsize₀ := dsdtAmlSize_eq hs₀.dsdtHeader
  have hlen := h.length
  have hcalls := h.calls
  rw [if_pos hpatched] at hcalls
  have hnew : dsdtAmlSize s.mem s.gDsdt = dsdtAmlSize s₀.mem s₀.gDsdt + pieces.flatten.length := by
    omega
  have hend : s.gDsdt + TABLE_HEADER_SIZE + dsdtAmlSize s₀.mem s₀.gDsdt =
      s.gDsdt + (tableLength s₀.mem s₀.gDsdt).toNat := by omega
  refine ⟨fun i hi hi' hchecksum => h.table i (by omega) hi' hchecksum, ?_, ?_, h.redirected hpatched,
    ?_, hcalls⟩
  · rw [hnew, window_add, hend, window_eq_list 0 h.appended]
    refine congrArg (· ++ pieces.flatten) (window_eq_window.mpr fun i hi => ?_)
    rw [Nat.add_assoc, Nat.add_assoc]
    exact h.table _ (by omega) (by simp only [TABLE_LENGTH, TABLE_HEADER_SIZE]; omega)
      (by simp only [TABLE_CHECKSUM, TABLE_HEADER_SIZE]; omega)
  · rw [hlen, List.length_flatten]
  · have hkeep : ∀ i < (tableLength s₀.mem s₀.gDsdt).toNat,
        s.mem (s₀.gDsdt + i) = s₀.mem (s₀.gDsdt + i) :=
      fun i hi => h.original _ (by omega) (by omega)
    have hlength : tableLength s.mem s₀.gDsdt = tableLength s₀.mem s₀.gDsdt := by
      refine tableLength_congr fun i hi => ?_
      simp only [TABLE_HEADER_SIZE] at hheader
      rw [Nat.add_assoc]
      exact hkeep _ (by simp only [TABLE_LENGTH]; omega)
    rw [tableBytes, tableBytes, hlength]
    exact window_eq_window.mpr hkeep

/-- A sequence of calls appends a sequence of pieces. -/
theorem forEach_run_eq (calls : List AppendCall) (s : AcpiState) :
    Prog.forEach (AppendCall.run F) calls s =
      Prog.forEach (appendDsdt F) (calls.flatMap AppendCall.pieces) s := by
  rw [Prog.forEach_flatMap]
  refine Prog.forEach_congr calls (fun call _ t => ?_) s
  cases call with
  | append_dsdt aml =>
    show appendDsdt F aml t = Prog.forEach (appendDsdt F) [aml] t
    rw [Prog.forEach_singleton]
  | append_method methodParts => rfl

/-! ## A sample -/

/-- The pages from an address on are free, and below 4 GiB. -/
def PagesFree (s : AcpiState) (pages addr : ℕ) : Prop :=
  addr + pages * PAGE_SIZE ≤ 2 ^ 32 ∧ ∀ k < pages * PAGE_SIZE, s.free (addr + k) = true

instance (s : AcpiState) (pages addr : ℕ) : Decidable (PagesFree s pages addr) :=
  inferInstanceAs (Decidable (_ ∧ _))

theorem pagesFree_of_find {l : List ℕ} {pages : ℕ}
    (h : (l.find? fun addr => PagesFree s pages addr) = some addr) : PagesFree s pages addr := by
  simpa using List.find?_some h

/-- A firmware that gives the pages from 16 MiB on, or those from 1 GiB on if the former are taken. -/
def sampleServices : PageServices where
  allocatePages s pages := [0x1000000, 0x40000000].find? fun addr => PagesFree s pages addr
  freePages _ _ _ := true
  below h := (pagesFree_of_find h).1
  fresh := by
    intro s pages addr h x hx hx'
    have hk := (pagesFree_of_find h).2 (x - addr) (by omega)
    rwa [Nat.add_sub_cancel' hx] at hk

theorem sampleServices_allocatePages (s : AcpiState) (pages : ℕ) :
    sampleServices.allocatePages s pages =
      [0x1000000, 0x40000000].find? fun addr => PagesFree s pages addr := rfl

/-- A FADT of 244 bytes that names its DSDT with 32 bits only, the DSDT of 40 bytes, and free memory
from 1 MiB on. -/
def sampleAcpi : AcpiState where
  mem := put32 (put32 (put32 (fun _ => 0) 0x1004 244) 0x1028 0x2000) 0x2004 40
  free x := decide (0x100000 ≤ x)
  isReserved _ := false
  configurationTable := none
  gRsdp := 0
  gRxsdt := 0
  gFadt := 0x1000
  gFacs := 0
  gDsdt := 0x2000
  isDsdtPatched := false
  calls := []

theorem sampleAcpi_inv : DsdtInv sampleAcpi := by
  have hfadt : (tableLength sampleAcpi.mem sampleAcpi.gFadt).toNat = 244 := by decide
  have hdsdt : (tableLength sampleAcpi.mem sampleAcpi.gDsdt).toNat = 40 := by decide
  refine .of_unpatched rfl (by decide) (by decide) hfadt hdsdt (by decide) (by decide) fun x _ hx => ?_
  exact decide_eq_false (not_le.mpr (lt_trans hx (by decide)))

theorem find?_pair_first {p : ℕ → Bool} {a b : ℕ} (h : p a = true) : [a, b].find? p = some a :=
  List.find?_cons_of_pos h

theorem find?_pair_second {p : ℕ → Bool} {a b : ℕ} (h : p a = false) (h' : p b = true) :
    [a, b].find? p = some b := by
  rw [List.find?_cons_of_neg (by rw [h]; decide), List.find?_cons_of_pos h']

theorem sampleAcpi_alloc :
    sampleServices.allocatePages sampleAcpi (patchedPages [0xa3] sampleAcpi) = some 0x1000000 := by
  have hpages : patchedPages [0xa3] sampleAcpi = 4096 := by decide
  have hfree : PagesFree sampleAcpi 4096 0x1000000 := by
    refine ⟨by decide, fun k _ => ?_⟩
    simp only [sampleAcpi, decide_eq_true_eq]
    omega
  rw [hpages, sampleServices_allocatePages]
  exact find?_pair_first (p := fun addr => PagesFree sampleAcpi 4096 addr) (decide_eq_true hfree)

/-- The second copy of the table goes elsewhere, since the first one is still there. -/
theorem sampleAcpi_alloc_next (happ : Appended sampleServices [0xa3] 0x1000000 sampleAcpi s) :
    sampleServices.allocatePages s (patchedPages [0xa4] s) = some 0x40000000 := by
  have hpages : patchedPages [0xa3] sampleAcpi = 4096 := by decide
  have hpages' : patchedPages [0xa4] s = 4096 := by
    rw [patchedPages, happ.length sampleAcpi_inv]
    decide
  have hfree : ∀ x, s.free x = (decide (0x100000 ≤ x) && !inPages 0x1000000 4096 x) := by
    intro x
    rw [happ.free, hpages]
    exact Bool.or_false _
  have htaken : ¬ PagesFree s 4096 0x1000000 := fun h => by
    have hfirst := h.2 0 (by decide)
    rw [hfree] at hfirst
    exact absurd hfirst (by decide)
  have hnext : PagesFree s 4096 0x40000000 := by
    refine ⟨by decide, fun k _ => ?_⟩
    rw [hfree, Bool.and_eq_true, decide_eq_true_iff, Bool.not_eq_true', ← Bool.not_eq_true,
      inPages_iff]
    simp only [PAGE_SIZE]
    omega
  rw [hpages', sampleServices_allocatePages]
  exact find?_pair_second (p := fun addr => PagesFree s 4096 addr) (decide_eq_false htaken)
    (decide_eq_true hnext)

/-! ## Concatenation -/

/-- **Appending builds the concatenation**: any sequence of calls that appends something returns, and
where the firmware does not fail it succeeds and leaves the original table, with everything appended
to it in order, as the table that the FADT names. -/
theorem appends_concatenate (hinv : DsdtInv s₀) (hpatched : s₀.isDsdtPatched = false)
    (hcalls : s₀.calls = []) {calls : List AppendCall}
    (hne : calls.flatMap AppendCall.pieces ≠ []) :
    ∃ r s, Prog.forEach (AppendCall.run F) calls s₀ = some (r, s) ∧
      ((∀ call ∈ s.calls, call.Succeeds) →
        r = .ok () ∧ Concatenated s₀ s (calls.flatMap AppendCall.pieces)) := by
  obtain ⟨r, s, hrun, hrest⟩ := AppendInv.forEach (F := F) hinv (calls.flatMap AppendCall.pieces)
    (AppendInv.initial hinv hpatched hcalls)
  rw [← forEach_run_eq] at hrun
  refine ⟨r, s, hrun, fun hsucc => ?_⟩
  obtain ⟨hr, h, hadopted⟩ := hrest hsucc
  rw [List.nil_append] at h
  exact ⟨hr, h.concatenated hinv (hadopted (Or.inr hne))⟩

/-- Two bytes appended to the sample, one after the other: the first copy is freed. -/
theorem appends_concatenate_sample : ∃ s,
    Prog.forEach (AppendCall.run sampleServices) [.append_dsdt [0xa3], .append_method [[0xa4]]]
        sampleAcpi = some (.ok (), s) ∧
      Concatenated sampleAcpi s [[0xa3], [0xa4]] ∧ returned s.calls = [(0x1000000, 4096)] := by
  obtain ⟨r, s, hrun, hconcat⟩ := appends_concatenate (F := sampleServices) sampleAcpi_inv rfl rfl
    (show [AppendCall.append_dsdt [0xa3], .append_method [[0xa4]]].flatMap AppendCall.pieces ≠ []
      from nofun)
  obtain ⟨s₁, hrun₁, happ₁⟩ := sampleAcpi_inv.appendDsdt_ok sampleAcpi_alloc fun _ _ _ => rfl
  obtain ⟨s₂, hrun₂, happ₂⟩ := (sampleAcpi_inv.append happ₁).appendDsdt_ok
    (sampleAcpi_alloc_next happ₁) fun _ _ _ => rfl
  -- the run is that of the two appends
  have hboth : Prog.forEach (AppendCall.run sampleServices)
      [.append_dsdt [0xa3], .append_method [[0xa4]]] sampleAcpi = some (.ok (), s₂) := by
    rw [forEach_run_eq]
    show Prog.forEach (appendDsdt sampleServices) [[0xa3], [0xa4]] sampleAcpi = _
    rw [Prog.forEach_cons, Prog.bind_ok hrun₁, Prog.forEach_singleton, hrun₂]
  obtain ⟨rfl, rfl⟩ := Prod.mk.inj (Option.some.inj (hrun.symm.trans hboth))
  have hcalls : s.calls = [.allocatePages 4096 (some 0x1000000),
      .allocatePages (patchedPages [0xa4] s₁) (some 0x40000000),
      .freePages 0x1000000 4096 true] := by
    have hpages : patchedPages [0xa3] sampleAcpi = 4096 := by decide
    rw [happ₂.calls, happ₁.calls, happ₁.patched, happ₁.gDsdt, happ₁.dsdtPages sampleAcpi_inv, hpages]
    rfl
  have hsucc : ∀ call ∈ s.calls, call.Succeeds := by
    intro call hcall
    rw [hcalls] at hcall
    simp only [List.mem_cons, List.not_mem_nil, or_false] at hcall
    obtain rfl | rfl | rfl := hcall <;> rfl
  refine ⟨s, hboth, (hconcat hsucc).2, ?_⟩
  rw [hcalls]
  rfl

/-- **Appending nothing** leaves the tables as the firmware has them: here the FADT has no 64-bit
address of the DSDT. -/
theorem append_nothing : ∃ s, DsdtInv sampleAcpi ∧
    Prog.forEach (AppendCall.run sampleServices) [.append_method []] sampleAcpi = some (.ok (), s) ∧
    (∀ call ∈ s.calls, call.Succeeds) ∧ ¬ Concatenated sampleAcpi s [] := by
  refine ⟨sampleAcpi, sampleAcpi_inv, rfl, nofun, fun h => ?_⟩
  exact absurd h.redirected.xDsdt (by decide)

end Runs

end SwitchOs.Acpi
