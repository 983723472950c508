import SwitchOs.Acpi.FindMethod
import SwitchOs.Uefi.FailedStart

/-!
# `_PTS` is hooked or created

`create_or_hook_pts` takes every failure of `find_method` for a DSDT without a `_PTS`, and appends its
hook in two parts. `createOrHookPts_contract_iff` says when a `_PTS` that is there is nevertheless
renamed and hooked, or left alone.
-/

namespace SwitchOs

open Acpi

/-! ## Two appends -/

section Appends

variable {F : PageServices} {first last hook hook' : List UInt8} {a u u' v : AcpiState} {addr : ℕ}
  {r : Except Err Unit}

/-- The state once the first part is appended to the table of `u`, in pages at `addr`. -/
def firstAppended (first : List UInt8) (addr : ℕ) (u : AcpiState) : AcpiState :=
  (redirected first addr u).adopt addr

/-- The firmware has pages for the second part too, and takes back the copy with the first. -/
def SecondGranted (F : PageServices) (first last : List UInt8) (addr : ℕ) (u : AcpiState) : Prop :=
  ∃ addr', F.allocatePages (firstAppended first addr u)
      (patchedPages last (firstAppended first addr u)) = some addr' ∧
    F.freePages (redirected last addr' (firstAppended first addr u)) addr
      (dsdtPages (redirected last addr' (firstAppended first addr u))) = true

theorem firstAppended_appended (hinv : DsdtInv u) (hpatched : u.isDsdtPatched = false)
    (halloc : F.allocatePages u (patchedPages first u) = some addr) :
    appendDsdt F first u = some (.ok (), firstAppended first addr u) ∧
      Appended F first addr u (firstAppended first addr u) := by
  have hne := hinv.alloc_ne_zero halloc
  refine ⟨?_, ?_⟩
  · rw [appendDsdt_some hinv.fadt_ne hne halloc, hpatched]
    rfl
  · obtain ⟨addr', happ⟩ := hinv.appended (.first addr halloc hpatched)
    have haddr : addr = addr' := happ.gDsdt
    rw [haddr]
    exact haddr ▸ happ

/-- The old DSDT stays in memory of its own. -/
theorem firstAppended_kept (hinv : DsdtInv u) (hpatched : u.isDsdtPatched = false)
    (happ : Appended F first addr u (firstAppended first addr u)) :
    Kept (firstAppended first addr u) u.gDsdt 1 := by
  refine Kept.append ⟨fun x hx hx' => ?_, fun hp => ?_⟩ hinv happ
  · obtain rfl : x = u.gDsdt := by omega
    exact hinv.dsdt_taken
  · rw [hpatched] at hp
    cases hp

/-- The second of two appends: both parts are appended, or the first is. -/
theorem append_second (hinv : DsdtInv u) (hpatched : u.isDsdtPatched = false)
    (halloc : F.allocatePages u (patchedPages first u) = some addr)
    (hrun : appendDsdt F last (firstAppended first addr u) = some (r, v)) :
    (SecondGranted F first last addr u ∧ r = .ok () ∧ Extends u (first ++ last) v ∧
      Acpi.Reached v) ∨
    (¬ SecondGranted F first last addr u ∧ r ≠ .ok () ∧
      fadtDsdt v.mem v.gFadt ≠ u.gDsdt) := by
  obtain ⟨-, happ⟩ := firstAppended_appended hinv hpatched halloc
  have hinv' := hinv.append happ
  cases halloc' : F.allocatePages (firstAppended first addr u)
      (patchedPages last (firstAppended first addr u)) with
  | none =>
    obtain ⟨rfl, rfl⟩ :=
      Prod.mk.inj (Option.some.inj ((appendDsdt_none halloc').symm.trans hrun))
    have hmoved : fadtDsdt (firstAppended first addr u).mem u.gFadt ≠ u.gDsdt :=
      fadtDsdt_redirected_ne hinv halloc hinv.dsdt_taken
    refine Or.inr ⟨?_, nofun, hmoved⟩
    rintro ⟨addr', hsome, -⟩
    rw [halloc'] at hsome
    cases hsome
  | some addr' =>
    have hne' := hinv'.alloc_ne_zero halloc'
    rw [appendDsdt_patched hinv'.fadt_ne hne' halloc' happ.patched] at hrun
    have hdsdt : (firstAppended first addr u).gDsdt = addr := rfl
    rw [hdsdt] at hrun
    split_ifs at hrun with hfree
    · obtain ⟨rfl, rfl⟩ := Prod.mk.inj (Option.some.inj hrun)
      obtain ⟨addr'', happ'⟩ := hinv'.appended (.next addr' halloc' happ.patched)
      have hextends := ((Extends.refl hinv).append hinv happ).append hinv happ'
      exact Or.inl ⟨⟨addr', halloc', hfree⟩, rfl, hextends, happ'.reached hinv'⟩
    · obtain ⟨rfl, rfl⟩ := Prod.mk.inj (Option.some.inj hrun)
      have htaken := (firstAppended_kept hinv hpatched happ).reserved u.gDsdt (le_refl u.gDsdt)
        (by omega)
      have hmoved' : fadtDsdt (redirected last addr' (firstAppended first addr u)).mem
          (firstAppended first addr u).gFadt ≠ u.gDsdt :=
        fadtDsdt_redirected_ne hinv' halloc' htaken
      refine Or.inr ⟨?_, nofun, ?_⟩
      · rintro ⟨addr'', hsome, hfree'⟩
        obtain rfl := Option.some.inj (halloc'.symm.trans hsome)
        exact hfree hfree'
      · rw [AcpiState.freed_mem, AcpiState.freed_gFadt, redirected_gFadt]
        exact hmoved'

/-- A run of two appends: nothing happens, or both parts are appended, or the first is. -/
theorem appends_two (hinv : DsdtInv u) (hpatched : u.isDsdtPatched = false)
    (hrun : Prog.forEach (appendDsdt F) [first, last] u = some (r, v)) :
    (F.allocatePages u (patchedPages first u) = none ∧ r ≠ .ok () ∧ v.mem = u.mem ∧
      v.gFadt = u.gFadt) ∨
    ∃ addr, F.allocatePages u (patchedPages first u) = some addr ∧
      ((SecondGranted F first last addr u ∧ r = .ok () ∧ Extends u (first ++ last) v ∧
        Acpi.Reached v) ∨
      (¬ SecondGranted F first last addr u ∧ r ≠ .ok () ∧
        fadtDsdt v.mem v.gFadt ≠ u.gDsdt)) := by
  rw [Prog.forEach_cons] at hrun
  cases halloc : F.allocatePages u (patchedPages first u) with
  | none =>
    rw [Prog.bind_error (appendDsdt_none halloc)] at hrun
    obtain ⟨rfl, rfl⟩ := Prod.mk.inj (Option.some.inj hrun)
    exact Or.inl ⟨rfl, nofun, rfl, rfl⟩
  | some addr =>
    obtain ⟨hbody, -⟩ := firstAppended_appended hinv hpatched halloc
    rw [Prog.bind_ok hbody, Prog.forEach_singleton] at hrun
    exact Or.inr ⟨addr, rfl, append_second hinv hpatched halloc hrun⟩

/-- Two tables of the same length that extend to one agree, but for the length and the checksum. -/
theorem Acpi.Extends.agree (h : Extends u hook v) (h' : Extends u' hook' v)
    (hlen : tableLength u'.mem u'.gDsdt = tableLength u.mem u.gDsdt) :
    ∀ i < (tableLength u.mem u.gDsdt).toNat, i < TABLE_LENGTH ∨ TABLE_LENGTH + 4 ≤ i →
      i ≠ TABLE_CHECKSUM → u.mem (u.gDsdt + i) = u'.mem (u'.gDsdt + i) := by
  intro i hi hi' hchecksum
  rw [← h.table i hi hi' hchecksum, h'.table i (hlen ▸ hi) hi' hchecksum]

/-- What extends a table extends every table with the same bytes. -/
theorem Acpi.Extends.congr (h : Extends u hook v) (hfadt : u'.gFadt = u.gFadt)
    (hbytes : tableBytes u'.mem u'.gDsdt = tableBytes u.mem u.gDsdt) : Extends u' hook v := by
  have hlength := congrArg List.length hbytes
  rw [tableBytes, tableBytes, length_window, length_window] at hlength
  rw [tableBytes, tableBytes, hlength, window_eq_window] at hbytes
  refine ⟨h.inv, h.gFadt.trans hfadt.symm, by rw [hlength]; exact h.length,
    fun i hi hi' hchecksum => ?_, fun i hi => by rw [hlength]; exact h.appended i hi⟩
  rw [hlength] at hi
  rw [h.table i hi hi' hchecksum, hbytes i hi]

/-- Two tables with right checksums that extend to one have the same bytes. -/
theorem Acpi.Extends.tableBytes_eq (h : Extends u hook v) (h' : Extends u' hook' v)
    (hheader : TABLE_HEADER_SIZE ≤ (tableLength u.mem u.gDsdt).toNat)
    (hlen : tableLength u'.mem u'.gDsdt = tableLength u.mem u.gDsdt)
    (hsum : tableSum u.mem u.gDsdt = 0) (hsum' : tableSum u'.mem u'.gDsdt = 0) :
    tableBytes u.mem u.gDsdt = tableBytes u'.mem u'.gDsdt :=
  tableBytes_eq_of_agree hlen hheader (h.agree h' hlen) hsum hsum'

end Appends

/-! ## The table that the hook is appended to -/

section Base

variable {a u v : AcpiState} {hook : List UInt8} {i : ℕ} {pkg : AcpiPkgLength}

/-- The search for `_PTS` succeeds. -/
def FoundOnce (a : AcpiState) : Prop := a.CandidatesFit ∧ ∃! i, a.Declares namePts i

/-- What is behind the PkgLength `pkg` of a method at the offset `i` becomes the name `SPTS`. -/
def nameChanged (i : ℕ) (pkg : AcpiPkgLength) (a : AcpiState) : AcpiState :=
  renamed (i + 1 + pkg.encodedSize) nameSpts a

theorem nameChanged_gDsdt (i : ℕ) (pkg : AcpiPkgLength) (a : AcpiState) :
    (nameChanged i pkg a).gDsdt = a.gDsdt := rfl

theorem nameChanged_gFadt (i : ℕ) (pkg : AcpiPkgLength) (a : AcpiState) :
    (nameChanged i pkg a).gFadt = a.gFadt := rfl

/-- The tables that the hook is appended to: those of `a` if `_PTS` is not found, and else those with
the name changed behind the PkgLength of the last candidate, if a name fits there. -/
inductive PtsBase (a : AcpiState) : AcpiState → Prop
  | created : ¬ FoundOnce a → PtsBase a a
  | found (i : ℕ) (pkg : AcpiPkgLength) : FoundOnce a → a.Declares namePts i →
      a.LastCandidate pkg → NameFits (dsdtAmlSize a.mem a.gDsdt) i pkg →
      PtsBase a (nameChanged i pkg a)

theorem hookBase_iff : hookBase a = some u ↔ PtsBase a u := by
  rcases findMethod_cases namePts a with ⟨i, pkg, hfind, hfit, hdecl, hunique, hlast⟩ |
    ⟨e, hfind, hnot⟩
  · have honce : FoundOnce a := ⟨hfit, i, hdecl, hunique⟩
    have hoffset : renameOffset namePts nameSpts a =
        if NameFits (dsdtAmlSize a.mem a.gDsdt) i pkg then some (i + 1 + pkg.encodedSize)
        else none := by
      rw [renameOffset, if_pos (by decide), hfind]
      rfl
    rw [hookBase, hfind, hoffset]
    by_cases hfits : NameFits (dsdtAmlSize a.mem a.gDsdt) i pkg
    · rw [if_pos hfits]
      constructor
      · intro h
        obtain rfl := Option.some.inj h
        exact .found i pkg honce hdecl hlast hfits
      · intro h
        cases h with
        | created hno => exact absurd honce hno
        | found i' pkg' _ hdecl' hlast' _ =>
          obtain rfl := hunique i' hdecl'
          obtain rfl := Acpi.LastCandidate.unique hlast' hlast
          rfl
    · rw [if_neg hfits]
      refine iff_of_false (Option.some_ne_none u).symm fun h => ?_
      cases h with
      | created hno => exact hno honce
      | found i' pkg' _ hdecl' hlast' hfits' =>
        obtain rfl := hunique i' hdecl'
        obtain rfl := Acpi.LastCandidate.unique hlast' hlast
        exact hfits hfits'
  · rw [hookBase, hfind]
    constructor
    · intro h
      obtain rfl := Option.some.inj h
      exact .created hnot
    · intro h
      cases h with
      | created => rfl
      | found i pkg honce => exact absurd honce hnot

/-- The declaration of `_PTS` at `i` has the PkgLength `pkg`. -/
def DeclaresWith (a : AcpiState) (i : ℕ) (pkg : AcpiPkgLength) : Prop :=
  a.Declares namePts i ∧
    candidateAt a.mem (definitionBlock a) (dsdtAmlSize a.mem a.gDsdt) i = some pkg

theorem DeclaresWith.fits (h : DeclaresWith a i pkg) :
    NameFits (dsdtAmlSize a.mem a.gDsdt) i pkg ∧
      NameAt a.mem (definitionBlock a) namePts i pkg := by
  obtain ⟨⟨-, pkg', hpkg', hfits, hname⟩, hpkg⟩ := h
  obtain rfl := Option.some.inj (hpkg.symm.trans hpkg')
  exact ⟨hfits, hname⟩

/-- The tables `u` are those of `a` with the declaration of `_PTS` renamed. -/
def DeclarationRenamed (a u : AcpiState) : Prop :=
  ∃ i pkg, DeclaresWith a i pkg ∧
    tableBytes u.mem u.gDsdt = tableBytes (nameChanged i pkg a).mem (nameChanged i pkg a).gDsdt

/-- The declaration of `_PTS` is renamed, and the hook is appended to the table. -/
def Hooked (a : AcpiState) (hook : List UInt8) (v : AcpiState) : Prop :=
  ∃ i pkg, DeclaresWith a i pkg ∧ Extends (nameChanged i pkg a) hook v ∧ Acpi.Reached v

/-- The FADT names the table that it named, with the same length. -/
def NotExtended (a v : AcpiState) : Prop :=
  fadtDsdt v.mem v.gFadt = fadtDsdt a.mem a.gFadt ∧
    tableLength v.mem (fadtDsdt v.mem v.gFadt) = tableLength a.mem (fadtDsdt a.mem a.gFadt)

/-- The first byte of the name tells the two tables apart. -/
theorem DeclaresWith.byte (h : DeclaresWith a i pkg) (hheader : TABLE_HEADER_SIZE ≤
    (tableLength a.mem a.gDsdt).toNat) :
    ∃ k, TABLE_HEADER_SIZE ≤ k ∧ k < (tableLength a.mem a.gDsdt).toNat ∧
      a.mem (a.gDsdt + k) ≠ (nameChanged i pkg a).mem ((nameChanged i pkg a).gDsdt + k) := by
  obtain ⟨hfits, hname⟩ := h.fits
  have hsize := dsdtAmlSize_eq hheader
  rw [NameFits] at hfits
  rw [NameAt, window_eq_window] at hname
  have hold : a.mem (a.gDsdt + (TABLE_HEADER_SIZE + (i + 1 + pkg.encodedSize))) = 0x5f := by
    rw [← Nat.add_assoc]
    exact hname 0 (by decide)
  have hnew : (nameChanged i pkg a).mem
      (a.gDsdt + (TABLE_HEADER_SIZE + (i + 1 + pkg.encodedSize))) = 0x53 := by
    rw [← Nat.add_assoc]
    exact window_eq_window.mp (window_renamed a nameSpts _) 0 (by decide)
  refine ⟨TABLE_HEADER_SIZE + (i + 1 + pkg.encodedSize), by omega, ?_, ?_⟩
  · simp only [AML_METHOD_NAME_LEN, TABLE_HEADER_SIZE] at hfits hheader hsize ⊢
    omega
  · rw [nameChanged_gDsdt, hold, hnew]
    decide

end Base

/-! ## The contract -/

section Contract

variable {A : AppSetup} {s s' : AppState} {r : Except Err Unit} {a u v : AcpiState}
  {hook : List UInt8} {i : ℕ} {pkg : AcpiPkgLength}

/-- The address of the FACS can be relocated in the hook. -/
def Relocates (A : AppSetup) (s : AppState) : Prop :=
  A.facsAddrRelocOffset ≠ -1 ∧
    A.facsAddrRelocOffset + 4 ≤ UInt64.ofNat s.ssdtPtsFacs.length

/-- The hook, with the address of the FACS in it. -/
def fullHook (A : AppSetup) (s : AppState) : List UInt8 :=
  A.ssdtPts ++ (s.relocateFacs A.facsAddrRelocOffset).ssdtPtsFacs

/-- The hook with the call of `SPTS` blanked out. -/
def blankedHook (A : AppSetup) (s : AppState) : List UInt8 :=
  A.ssdtPts ++ (s.relocateFacs A.facsAddrRelocOffset).dropCall.ssdtPtsFacs

/-- A `_PTS` of its own is appended only if there is none. If there is one, it is renamed and hooked,
or an error is returned and the DSDT is not extended. -/
structure PtsContract (A : AppSetup) (s : AppState) (r : Except Err Unit) (s' : AppState) :
    Prop where
  created : r = .ok () → Extends s.acpi (blankedHook A s) s'.acpi →
    ∀ i, ¬ s.acpi.Declares namePts i
  existing : (∃ i, s.acpi.Declares namePts i) →
    (r = .ok () ∧ Hooked s.acpi (fullHook A s) s'.acpi) ∨
      (r ≠ .ok () ∧ NotExtended s.acpi s'.acpi)

/-- A `_PTS` that is there is handled: the firmware refuses the pages for the first part of the hook,
or the declaration is the one that is renamed, and the firmware does not fail. -/
def PtsHandled (A : AppSetup) (s : AppState) : Prop :=
  ∀ u, PtsBase s.acpi u → A.pages.allocatePages u (patchedPages A.ssdtPts u) = none ∨
    (DeclarationRenamed s.acpi u ∧
      ∃ addr, A.pages.allocatePages u (patchedPages A.ssdtPts u) = some addr ∧
        SecondGranted A.pages A.ssdtPts (s.relocateFacs A.facsAddrRelocOffset).ssdtPtsFacs addr u)

/-- A rename does not extend the table. -/
theorem notExtended_of_base (hinv : DsdtInv a) (hreached : Acpi.Reached a) (hbase : PtsBase a u)
    (hmem : v.mem = u.mem) (hfadt : v.gFadt = u.gFadt) : NotExtended a v := by
  rw [NotExtended, hmem, hfadt]
  cases hbase with
  | created => exact ⟨rfl, rfl⟩
  | found i pkg _ _ _ hfits =>
    have hdsdt : fadtDsdt (nameChanged i pkg a).mem a.gFadt = fadtDsdt a.mem a.gFadt :=
      hinv.fadtDsdt_renamed hfits
    have hlen : tableLength (nameChanged i pkg a).mem a.gDsdt = tableLength a.mem a.gDsdt :=
      tableLength_renamed hfits hinv.dsdtHeader
    refine ⟨hdsdt, ?_⟩
    show tableLength _ (fadtDsdt (nameChanged i pkg a).mem a.gFadt) = _
    rw [Acpi.Reached] at hreached
    rw [hdsdt, hreached, hlen]

/-- A table that is hooked does not extend the table as it was. -/
theorem Hooked.not_extends {hook' : List UInt8} (hinv : DsdtInv a) (h : Hooked a hook v) :
    ¬ Extends a hook' v := by
  intro hextends
  obtain ⟨i, pkg, hdecl, hhook, -⟩ := h
  obtain ⟨k, hk, hlt, hne⟩ := hdecl.byte hinv.dsdtHeader
  have hlen : tableLength (nameChanged i pkg a).mem (nameChanged i pkg a).gDsdt =
      tableLength a.mem a.gDsdt := tableLength_renamed hdecl.fits.1 hinv.dsdtHeader
  simp only [TABLE_HEADER_SIZE] at hk
  refine hne (hextends.agree hhook hlen k hlt ?_ ?_)
  · simp only [TABLE_LENGTH]
    omega
  · simp only [TABLE_CHECKSUM]
    omega

/-- A rename changes the table. -/
theorem not_declarationRenamed_self (hinv : DsdtInv a) : ¬ DeclarationRenamed a a := by
  rintro ⟨i, pkg, hdecl, hbytes⟩
  obtain ⟨k, -, hlt, hne⟩ := hdecl.byte hinv.dsdtHeader
  have hlen : tableLength (nameChanged i pkg a).mem (nameChanged i pkg a).gDsdt =
      tableLength a.mem a.gDsdt := tableLength_renamed hdecl.fits.1 hinv.dsdtHeader
  rw [tableBytes, tableBytes, hlen, window_eq_window] at hbytes
  exact hne (hbytes k hlt)

/-- The hook is appended to the tables with the declaration renamed, or to other tables. -/
theorem hooked_iff_of_base (hinv : DsdtInv a) (hbase : PtsBase a u) (hextends : Extends u hook v)
    (hreached : Acpi.Reached v) : Hooked a hook v ↔ DeclarationRenamed a u := by
  cases hbase with
  | created =>
    exact iff_of_false (fun h => h.not_extends hinv hextends) (not_declarationRenamed_self hinv)
  | found i pkg _ _ _ hfits =>
    have hsum : ∀ {i : ℕ} {pkg : AcpiPkgLength}, NameFits (dsdtAmlSize a.mem a.gDsdt) i pkg →
        tableLength (nameChanged i pkg a).mem (nameChanged i pkg a).gDsdt =
          tableLength a.mem a.gDsdt ∧
        tableSum (nameChanged i pkg a).mem (nameChanged i pkg a).gDsdt = 0 := fun hfits =>
      ⟨tableLength_renamed hfits hinv.dsdtHeader, tableSum_renamed hfits hinv.dsdtHeader⟩
    obtain ⟨hlen, hsum₀⟩ := hsum hfits
    constructor
    · rintro ⟨i', pkg', hdecl, hhook, -⟩
      obtain ⟨hlen', hsum'⟩ := hsum hdecl.fits.1
      refine ⟨i', pkg', hdecl, hextends.tableBytes_eq hhook ?_ (hlen'.trans hlen.symm) hsum₀ hsum'⟩
      rw [hlen]
      exact hinv.dsdtHeader
    · rintro ⟨i', pkg', hdecl, hbytes⟩
      have hfadt : (nameChanged i' pkg' a).gFadt = (nameChanged i pkg a).gFadt :=
        (nameChanged_gFadt i' pkg' a).trans (nameChanged_gFadt i pkg a).symm
      exact ⟨i', pkg', hdecl, hextends.congr hfadt hbytes.symm, hreached⟩

theorem PtsBase.unique {u' : AcpiState} (h : PtsBase a u) (h' : PtsBase a u') : u = u' :=
  Option.some.inj ((hookBase_iff.mpr h).symm.trans (hookBase_iff.mpr h'))

instance (A : AppSetup) (s : AppState) : Decidable (Relocates A s) :=
  inferInstanceAs (Decidable (_ ∧ _))

theorem ptsRelocateFacsAddr_apply (A : AppSetup) (s : AppState) :
    ptsRelocateFacsAddr A s = if Relocates A s then
      some (.ok (), s.relocateFacs A.facsAddrRelocOffset) else some (.error .ERR_INVALID, s) := by
  rw [ptsRelocateFacsAddr]
  by_cases hfound : A.facsAddrRelocOffset ≠ -1
  case neg =>
    rw [if_neg fun h => hfound h.1,
      Prog.bind_error (Prog.check_error (bne_eq_false_iff_eq.mpr (not_not.mp hfound)))]
  rw [Prog.bind_ok (Prog.check_ok (bne_iff_ne.mpr hfound)), Prog.bind_get_apply]
  by_cases hfits : A.facsAddrRelocOffset + 4 ≤ UInt64.ofNat s.ssdtPtsFacs.length
  · rw [if_pos ⟨hfound, hfits⟩, Prog.bind_ok (Prog.check_ok (decide_eq_true hfits))]
    rfl
  · rw [if_neg fun h => hfits h.2, Prog.bind_error (Prog.check_error (decide_eq_false hfits))]

/-- Two parts are appended to the tables that are their base; without a `_PTS` that is found, the
second is another one. -/
theorem appended_contract_iff {F : PageServices} {first last last' : List UInt8}
    (hinv : DsdtInv a) (hreached : Acpi.Reached a) (hpatched : a.isDsdtPatched = false)
    (hbase : PtsBase a u) (hlast : FoundOnce a → last' = last)
    (hrun : Prog.forEach (appendDsdt F) [first, last'] u = some (r, v)) :
    (r = .ok () ∧ Hooked a (first ++ last) v ∨ r ≠ .ok () ∧ NotExtended a v) ↔
      F.allocatePages u (patchedPages first u) = none ∨ (DeclarationRenamed a u ∧
        ∃ addr, F.allocatePages u (patchedPages first u) = some addr ∧
          SecondGranted F first last addr u) := by
  obtain ⟨hinv', -, hdsdt, hpatched', -, -⟩ := hookBase_eq_some hinv (hookBase_iff.mpr hbase)
  have hrefused : ∀ {addr : ℕ}, F.allocatePages u (patchedPages first u) = some addr →
      ¬ F.allocatePages u (patchedPages first u) = none := fun h h' => by
    rw [h] at h'
    cases h'
  rcases appends_two hinv' (hpatched'.trans hpatched) hrun with
    ⟨halloc, hr, hmem, hfadt⟩ | ⟨addr, halloc, ⟨hsecond, hr, hextends, hv⟩ | ⟨hsecond, hr, hmoved⟩⟩
  · have hkept : NotExtended a v := notExtended_of_base hinv hreached hbase hmem hfadt
    exact iff_of_true (Or.inr ⟨hr, hkept⟩) (Or.inl halloc)
  · have hleft : (r = .ok () ∧ Hooked a (first ++ last) v ∨ r ≠ .ok () ∧ NotExtended a v) ↔
        Hooked a (first ++ last) v := by
      simp [hr]
    rw [hleft]
    by_cases honce : FoundOnce a
    · obtain rfl := hlast honce
      rw [hooked_iff_of_base hinv hbase hextends hv]
      constructor
      · exact fun h => Or.inr ⟨h, addr, halloc, hsecond⟩
      · rintro (h | ⟨h, -⟩)
        · exact absurd h (hrefused halloc)
        · exact h
    · obtain rfl : u = a := hbase.unique (.created honce)
      refine iff_of_false (fun h => h.not_extends hinv hextends) ?_
      rintro (h | ⟨h, -⟩)
      · exact hrefused halloc h
      · exact not_declarationRenamed_self hinv h
  · refine iff_of_false ?_ ?_
    · rintro (⟨h, -⟩ | ⟨-, h, -⟩)
      · exact hr h
      · rw [Acpi.Reached] at hreached
        exact hmoved (h.trans (hreached.trans hdsdt.symm))
    · rintro (h | ⟨h, addr', halloc', hsecond'⟩)
      · exact hrefused halloc h
      · by_cases honce : FoundOnce a
        · obtain rfl := hlast honce
          obtain rfl := Option.some.inj (halloc.symm.trans halloc')
          exact hsecond hsecond'
        · obtain rfl : u = a := hbase.unique (.created honce)
          exact not_declarationRenamed_self hinv h

/-- **When a `_PTS` that is there is hooked or left alone**: if the address of the FACS cannot be
relocated, or else if it is handled. -/
theorem createOrHookPts_contract_iff (hinv : DsdtInv s.acpi) (hreached : Acpi.Reached s.acpi)
    (hpatched : s.acpi.isDsdtPatched = false) (hrun : createOrHookPts A s = some (r, s')) :
    PtsContract A s r s' ↔
      (Relocates A s → (∃ i, s.acpi.Declares namePts i) → PtsHandled A s) := by
  have herror : ∀ e : Err, (Except.error e : Except Err Unit) ≠ .ok () := by
    intro e h
    cases h
  have hrelocate := ptsRelocateFacsAddr_apply A s
  rw [createOrHookPts] at hrun
  by_cases hrelocates : Relocates A s
  case neg =>
    rw [if_neg hrelocates] at hrelocate
    rw [Prog.bind_error hrelocate] at hrun
    obtain ⟨rfl, rfl⟩ := Prod.mk.inj (Option.some.inj hrun)
    exact iff_of_true ⟨fun h => absurd h (herror _), fun _ => Or.inr ⟨herror _, rfl, rfl⟩⟩
      fun h => absurd h hrelocates
  rw [if_pos hrelocates] at hrelocate
  rw [Prog.bind_ok hrelocate] at hrun
  have hcontract : PtsContract A s r s' ↔ ((∃ i, s.acpi.Declares namePts i) →
      (r = .ok () ∧ Hooked s.acpi (fullHook A s) s'.acpi) ∨
        (r ≠ .ok () ∧ NotExtended s.acpi s'.acpi)) := by
    refine ⟨PtsContract.existing, fun h => ⟨fun hr hextends i hi => ?_, h⟩⟩
    rcases h ⟨i, hi⟩ with ⟨-, hhooked⟩ | ⟨hne, -⟩
    · exact hhooked.not_extends hinv hextends
    · exact hne hr
  rw [hcontract]
  simp only [hrelocates, forall_const]
  refine forall_congr' fun hdecl => ?_
  rcases patchPts_cases hrun with ⟨hnone, rfl, hsame⟩ | ⟨u, last, hbase, hlast, happends⟩
  · have hkept : NotExtended s.acpi s'.acpi := by
      rw [hsame]
      exact ⟨rfl, rfl⟩
    refine iff_of_true (Or.inr ⟨herror _, hkept⟩) fun u hu => ?_
    have hsome : hookBase s.acpi = some u := hookBase_iff.mpr hu
    have hnone' : hookBase s.acpi = none := hnone
    rw [hnone'] at hsome
    cases hsome
  · have hbase' : PtsBase s.acpi u := hookBase_iff.mp hbase
    have hlast' : FoundOnce s.acpi →
        last = (s.relocateFacs A.facsAddrRelocOffset).ssdtPtsFacs := by
      intro honce
      exact hlast ((findMethod_ok_iff namePts s.acpi).mpr honce)
    have hone := appended_contract_iff hinv hreached hpatched hbase' hlast' happends
    refine hone.trans ⟨fun h u' hu' => ?_, fun h => h u hbase'⟩
    obtain rfl := hbase'.unique hu'
    exact h

/-- A start whose DSDT holds the AML. -/
def ptsStart (aml : List UInt8) : AppState :=
  ⟨emptyCore, sampleDsdt aml, SwitchOs.sampleServices, List.replicate 12 0⟩

/-- The hook is appended as if there were no `_PTS`. -/
theorem createOrHookPts_cutShort : ∃ s', createOrHookPts (sampleSetup descendingMap)
    (ptsStart cutShort) = some (.ok (), s') ∧
    Prog.forEach (appendDsdt steppingServices) [(sampleSetup descendingMap).ssdtPts,
      ((ptsStart cutShort).relocateFacs 1).dropCall.ssdtPtsFacs] (sampleDsdt cutShort) =
        some (.ok (), s'.acpi) := by
  have hfound : findMethod namePts (sampleDsdt cutShort) =
      some (.error .ERR_INVALID, sampleDsdt cutShort) := rfl
  have hacpi : ((ptsStart cutShort).relocateFacs 1).acpi = sampleDsdt cutShort := rfl
  have hfind : findMethod namePts ((ptsStart cutShort).relocateFacs 1).acpi =
      some (.error .ERR_INVALID, ((ptsStart cutShort).relocateFacs 1).acpi) := by
    rw [hacpi, hfound]
  have hrelocate := ptsRelocateFacsAddr_sample descendingMap (ptsStart cutShort)
    List.length_replicate
  have hsize : ((ptsStart cutShort).relocateFacs 1).ssdtPtsFacs.length = 12 := length_window _ _ _
  have hpts : (sampleSetup descendingMap).ssdtPts.length = 7 := rfl
  have hcut : cutShort.length = 10 := rfl
  have hinv : DsdtInv (sampleDsdt cutShort) := sampleDsdt_inv (by decide)
  obtain ⟨-, v, hparts⟩ := steppingServices_appends (sampleSetup descendingMap).ssdtPts
    ((ptsStart cutShort).relocateFacs 1).dropCall.ssdtPtsFacs hinv rfl
    (fun x hx _ => decide_eq_true (le_trans (by decide) hx))
    (by rw [sampleDsdt_length (by decide), hpts, length_dropCall hsize, hcut]; decide)
  obtain ⟨s', happends, hdsdt⟩ : ∃ s', onAcpi (appendMethod steppingServices
      [(sampleSetup descendingMap).ssdtPts, ((ptsStart cutShort).relocateFacs 1).dropCall.ssdtPtsFacs])
      ((ptsStart cutShort).relocateFacs 1).dropCall = some (.ok (), s') ∧ s'.acpi = v :=
    ⟨_, onAcpi_of_eq (s := ((ptsStart cutShort).relocateFacs 1).dropCall) hparts, rfl⟩
  refine ⟨s', ?_, hdsdt ▸ hparts⟩
  rw [createOrHookPts, Prog.bind_ok hrelocate, patchPts_create hfind]
  exact happends

theorem createOrHookPts_contract_iff_cutShort : ∃ s',
    createOrHookPts (sampleSetup descendingMap) (ptsStart cutShort) = some (.ok (), s') ∧
    (PtsContract (sampleSetup descendingMap) (ptsStart cutShort) (.ok ()) s' ↔
      (Relocates (sampleSetup descendingMap) (ptsStart cutShort) →
        (∃ i, (ptsStart cutShort).acpi.Declares namePts i) →
          PtsHandled (sampleSetup descendingMap) (ptsStart cutShort))) := by
  obtain ⟨s', hrun, -⟩ := createOrHookPts_cutShort
  exact ⟨s', hrun, createOrHookPts_contract_iff (sampleDsdt_inv (by decide))
    (sampleDsdt_reached cutShort) rfl hrun⟩

/-- **A second `_PTS`**: there is one, the search for it fails at the end of the table, and another one
is created. -/
theorem pts_created_twice : ∃ s', DsdtInv (ptsStart cutShort).acpi ∧
    Acpi.Reached (ptsStart cutShort).acpi ∧
    createOrHookPts (sampleSetup descendingMap) (ptsStart cutShort) = some (.ok (), s') ∧
    ¬ PtsContract (sampleSetup descendingMap) (ptsStart cutShort) (.ok ()) s' := by
  obtain ⟨s', hrun, hparts⟩ := createOrHookPts_cutShort
  have hinv : DsdtInv (sampleDsdt cutShort) := sampleDsdt_inv (by decide)
  have hreached := sampleDsdt_reached cutShort
  refine ⟨s', hinv, hreached, hrun, fun hcontract => ?_⟩
  have hdecl : (sampleDsdt cutShort).Declares namePts 0 := by
    unfold AcpiState.Declares
    decide
  rcases appends_two hinv rfl hparts with ⟨-, hr, -⟩ | ⟨_, -, ⟨-, -, hextends, -⟩ | ⟨-, hr, -⟩⟩
  · exact hr rfl
  · rcases hcontract.existing ⟨0, hdecl⟩ with ⟨-, hhooked⟩ | ⟨hr, -⟩
    · exact hhooked.not_extends hinv hextends
    · exact hr rfl
  · exact hr rfl

end Contract

end SwitchOs
