import SwitchOs.Acpi.Tables

/-!
# What `find_acpi_tables` finds

The two scans of `find_acpi_tables` each record an entry and fail at a second one, but they take a
null global for "nothing recorded". The FACS and the DSDT are taken from the FADT as they stand there.
`discovered_iff` says for which tables a success means what `tables.h` promises.
-/

namespace SwitchOs.Acpi

/-- The list has `a` at one place, and nothing else that meets `p`. -/
def SoleEntry {α : Type} (p : α → Prop) (l : List α) (a : α) : Prop :=
  ∃ l₁ l₂, l = l₁ ++ a :: l₂ ∧ p a ∧ ∀ b ∈ l₁ ++ l₂, ¬ p b

/-- The table that an RSDP names. -/
def rsdpRxsdt (mem : ℕ → UInt8) (rsdp : ℕ) : ℕ :=
  let xsdtAddr := get64 mem (rsdp + RSDP_XSDT_ADDR)
  if mem (rsdp + RSDP_REVISION) > 1 && xsdtAddr != 0 then xsdtAddr.toNat
  else (get32 mem (rsdp + RSDP_RSDT_ADDR)).toNat

/-- The addresses behind the header of the root table, of 8 bytes in an XSDT and of 4 in an RSDT. -/
def rootEntries (mem : ℕ → UInt8) (rxsdt : ℕ) : List ℕ :=
  let entrySize := if isXsdt mem rxsdt then 8 else 4
  let entriesBytes := (tableLength mem rxsdt).toNat - TABLE_HEADER_SIZE
  (List.range (entriesBytes / entrySize)).map fun k =>
    getLE mem (rxsdt + TABLE_HEADER_SIZE + k * entrySize) entrySize

/-- An entry of the configuration table with the GUID of ACPI 2.0. -/
def IsAcpi20 (entry : Guid × ℕ) : Prop := entry.1 = ACPI_20_TABLE_GUID

/-- There is a FADT at the address. -/
def IsFadt (mem : ℕ → UInt8) (table : ℕ) : Prop := tableSignature mem table = FADT_SIGNATURE

/-- What a success of `find_acpi_tables` promises. -/
structure Discovered (tables : List (Guid × ℕ)) (mem : ℕ → UInt8) (s : AcpiState) : Prop where
  rsdp_ne : s.gRsdp ≠ 0
  rxsdt_ne : s.gRxsdt ≠ 0
  fadt_ne : s.gFadt ≠ 0
  facs_ne : s.gFacs ≠ 0
  dsdt_ne : s.gDsdt ≠ 0
  rsdp : SoleEntry IsAcpi20 tables (ACPI_20_TABLE_GUID, s.gRsdp)
  fadt : SoleEntry (IsFadt mem) (rootEntries mem s.gRxsdt) s.gFadt

/-- The FADT has an address for the FACS and one for the DSDT, of 64 or of 32 bits. -/
structure FadtComplete (mem : ℕ → UInt8) (fadt : ℕ) : Prop where
  facs : get64 mem (fadt + FADT_X_FIRMWARE_CTRL) ≠ 0 ∨ get32 mem (fadt + FADT_FIRMWARE_CTRL) ≠ 0
  dsdt : get64 mem (fadt + FADT_X_DSDT) ≠ 0 ∨ get32 mem (fadt + FADT_DSDT) ≠ 0

/-- No entry for ACPI 2.0 is null, and a FADT behind one has both addresses. -/
structure NamesTables (tables : List (Guid × ℕ)) (mem : ℕ → UInt8) : Prop where
  rsdp : ∀ entry ∈ tables, IsAcpi20 entry → entry.2 ≠ 0
  fadt : ∀ entry ∈ tables, IsAcpi20 entry → ∀ fadt ∈ rootEntries mem (rsdpRxsdt mem entry.2),
    IsFadt mem fadt → FadtComplete mem fadt

/-! ## Lists with one entry -/

section Lists

variable {α : Type} {p : α → Prop} {l : List α} {a b : α}

theorem SoleEntry.mem (h : SoleEntry p l a) : a ∈ l := by
  obtain ⟨l₁, l₂, rfl, -, -⟩ := h
  exact List.mem_append_right l₁ List.mem_cons_self

theorem SoleEntry.eq (h : SoleEntry p l a) (hb : b ∈ l) (hp : p b) : b = a := by
  obtain ⟨l₁, l₂, rfl, -, hnone⟩ := h
  rcases List.mem_append.mp hb with hmem | hmem
  · exact absurd hp (hnone b (List.mem_append_left l₂ hmem))
  · rcases List.mem_cons.mp hmem with rfl | hmem
    · rfl
    · exact absurd hp (hnone b (List.mem_append_right l₁ hmem))

theorem soleEntry_of_filter {q : α → Bool} (hq : ∀ b, q b = true ↔ p b) (h : l.filter q = [a]) :
    SoleEntry p l a := by
  obtain ⟨l₁, l₂, rfl, hleft, ha, hright⟩ := List.filter_eq_cons_iff.mp h
  refine ⟨l₁, l₂, rfl, (hq a).mp ha, fun b hb hp => ?_⟩
  rcases List.mem_append.mp hb with hmem | hmem
  · exact hleft b hmem ((hq b).mpr hp)
  · exact List.filter_eq_nil_iff.mp hright b hmem ((hq b).mpr hp)

/-- What is recorded last is the only one, if nothing that is looked for looks unset. -/
theorem filter_eq_singleton_of_records {q : α → Bool} {v : α → ℕ} {init : List ℕ} {last : ℕ}
    (hrecords : 0 :: (l.filter q).map v = init ++ [last]) (hunset : ∀ n ∈ init, n = 0)
    (hlast : last ≠ 0) (hne : ∀ b ∈ l, q b = true → v b ≠ 0) :
    ∃ b, l.filter q = [b] ∧ v b = last := by
  have hmem : ∀ b ∈ l.filter q, v b ≠ 0 := fun b hb =>
    hne b (List.mem_filter.mp hb).1 (List.mem_filter.mp hb).2
  cases init with
  | nil =>
    obtain ⟨rfl, -⟩ := List.cons.inj hrecords
    exact absurd rfl hlast
  | cons n init =>
    obtain ⟨-, hmap⟩ := List.cons.inj hrecords
    cases hfilter : l.filter q with
    | nil =>
      rw [hfilter] at hmap
      cases init <;> cases hmap
    | cons b rest =>
      rw [hfilter, List.map_cons] at hmap
      cases init with
      | nil =>
        obtain ⟨hb, hrest⟩ := List.cons.inj hmap
        exact ⟨b, by rw [List.map_eq_nil_iff.mp hrest], hb⟩
      | cons m init =>
        obtain ⟨hb, -⟩ := List.cons.inj hmap
        refine absurd ?_ (hmem b (by rw [hfilter]; exact List.mem_cons_self))
        rw [hb]
        exact hunset m (List.mem_cons_of_mem n List.mem_cons_self)

end Lists

/-! ## The addresses in the FADT -/

section Fadt

variable {mem : ℕ → UInt8} {fadt : ℕ}

/-- An address of 64 bits, or else one of 32, is null if both are. -/
theorem select_ne_zero_iff {wide : UInt64} {narrow : UInt32} :
    (if wide ≠ 0 then wide.toNat else narrow.toNat) ≠ 0 ↔ wide ≠ 0 ∨ narrow ≠ 0 := by
  by_cases hwide : wide = 0
  · rw [if_neg (not_not.mpr hwide)]
    simp [hwide, ← UInt32.toNat_inj]
  · rw [if_pos hwide]
    exact iff_of_true (fun hzero => hwide (UInt64.toNat_inj.mp hzero)) (Or.inl hwide)

theorem fadtComplete_iff :
    FadtComplete mem fadt ↔ fadtFacs mem fadt ≠ 0 ∧ fadtDsdt mem fadt ≠ 0 := by
  rw [fadtFacs, fadtDsdt, select_ne_zero_iff, select_ne_zero_iff]
  exact ⟨fun h => ⟨h.facs, h.dsdt⟩, fun h => ⟨h.1, h.2⟩⟩

end Fadt

/-! ## The stages -/

section Stages

variable {compareGuid : Guid → Guid → Bool} {s s' : AcpiState} {tables : List (Guid × ℕ)}
  {mem : ℕ → UInt8} {rsdp rxsdt : ℕ}

theorem rxsdtEntries_eq (h : TABLE_HEADER_SIZE ≤ (tableLength mem rxsdt).toNat) :
    rxsdtEntries mem rxsdt = rootEntries mem rxsdt := by
  have hbytes : ((tableLength mem rxsdt).toUInt64 - UInt64.ofNat TABLE_HEADER_SIZE).toNat =
      (tableLength mem rxsdt).toNat - TABLE_HEADER_SIZE := by
    rw [UInt64.toNat_sub_of_le]
    · rfl
    · exact UInt64.le_iff_toNat_le.mpr h
  simp only [rxsdtEntries, rootEntries, hbytes]

/-- What `find_rsdp` leaves: the entries for ACPI 2.0 are null but for the last. -/
theorem findRsdp_eq_ok (htables : s.configurationTable = some tables) (hunset : s.gRsdp = 0)
    (h : findRsdp compareGuid s = some (.ok (), s')) :
    s'.mem = s.mem ∧ s'.gFadt = s.gFadt ∧ s'.gRsdp ≠ 0 ∧ ∃ init,
      0 :: (tables.filter fun entry => compareGuid entry.1 ACPI_20_TABLE_GUID).map Prod.snd =
        init ++ [s'.gRsdp] ∧ ∀ a ∈ init, a = 0 := by
  rw [findRsdp, Prog.bind_get_apply, htables] at h
  obtain ⟨_, t, hscan, hfound⟩ := Prog.bind_eq_ok h
  rw [Prog.bind_get_apply] at hfound
  obtain ⟨hne, rfl⟩ := Prog.check_eq_ok hfound
  have hbody : Prog.Records (fun t : AcpiState => t.mem = s.mem ∧ t.gFadt = s.gFadt)
      (fun entry =>
        if compareGuid entry.1 ACPI_20_TABLE_GUID then do
          let s ← Prog.get
          check (s.gRsdp == 0)
          Prog.modify fun s => { s with gRsdp := entry.2 }
        else pure ())
      (fun entry => compareGuid entry.1 ACPI_20_TABLE_GUID) Prod.snd AcpiState.gRsdp 0 := by
    constructor
    · rintro ⟨vendorGuid, vendorTable⟩ t t' ht hother hrun
      simp only at hother
      simp only [hother, Bool.false_eq_true, if_false] at hrun
      obtain rfl : t = t' := congrArg Prod.snd (Option.some.inj hrun)
      exact ⟨ht, rfl⟩
    · rintro ⟨vendorGuid, vendorTable⟩ t t' ht hguid hrun
      simp only at hguid
      simp only [hguid, if_true] at hrun
      rw [Prog.bind_get_apply] at hrun
      obtain ⟨_, u, hcheck, hmodify⟩ := Prog.bind_eq_ok hrun
      obtain ⟨hzero, rfl⟩ := Prog.check_eq_ok hcheck
      obtain rfl := congrArg Prod.snd (Option.some.inj hmodify)
      exact ⟨ht, beq_iff_eq.mp hzero, rfl⟩
  obtain ⟨⟨hmem, hfadt⟩, init, hinit, hall⟩ := hbody.forEach_ok ⟨rfl, rfl⟩ hscan
  rw [hunset] at hinit
  exact ⟨hmem, hfadt, bne_iff_ne.mp hne, init, hinit, hall⟩

theorem findRxsdt_eq_ok (h : findRxsdt rsdp s = some (.ok (), s')) :
    s' = { s with gRxsdt := rsdpRxsdt s.mem rsdp } ∧ rsdpRxsdt s.mem rsdp ≠ 0 := by
  rw [findRxsdt, Prog.bind_get_apply] at h
  simp only at h
  split at h
  case isTrue hxsdt =>
    rw [Prog.bind_modify_apply, Prog.bind_get_apply] at h
    obtain ⟨hne, rfl⟩ := Prog.check_eq_ok h
    rw [rsdpRxsdt, if_pos hxsdt]
    exact ⟨rfl, bne_iff_ne.mp hne⟩
  case isFalse hrsdt =>
    rw [Prog.bind_modify_apply, Prog.bind_get_apply] at h
    obtain ⟨hne, rfl⟩ := Prog.check_eq_ok h
    rw [rsdpRxsdt, if_neg hrsdt]
    exact ⟨rfl, bne_iff_ne.mp hne⟩

theorem scanEntry_ne_zero {entry : ℕ} (h : scanEntry entry s = some (.ok (), s')) : entry ≠ 0 := by
  rw [scanEntry] at h
  obtain ⟨_, t, hcheck, -⟩ := Prog.bind_eq_ok h
  exact bne_iff_ne.mp (Prog.check_eq_ok hcheck).1

/-- The tables that are found before the FADT stay. -/
structure ScanFrame (s t : AcpiState) : Prop where
  mem : t.mem = s.mem
  gRsdp : t.gRsdp = s.gRsdp
  gRxsdt : t.gRxsdt = s.gRxsdt

/-- What one round of `scan_rxsdt` does to `g_fadt`. -/
theorem scanEntry_records (s₀ : AcpiState) :
    Prog.Records (ScanFrame s₀) scanEntry
      (fun entry => tableSignature s₀.mem entry == FADT_SIGNATURE) id AcpiState.gFadt 0 := by
  have hround : ∀ {entry : ℕ} {t t' : AcpiState}, ScanFrame s₀ t →
      scanEntry entry t = some (.ok (), t') →
      (if tableSignature s₀.mem entry == FADT_SIGNATURE then do
        check (t.gFadt == 0)
        Prog.modify fun s => { s with gFadt := entry }
      else pure () : AcpiM Unit) t = some (.ok (), t') := by
    intro entry t t' ht hrun
    rw [scanEntry] at hrun
    obtain ⟨_, u, hcheck, hrest⟩ := Prog.bind_eq_ok hrun
    rw [(Prog.check_eq_ok hcheck).2, Prog.bind_get_apply] at hrest
    rwa [ht.mem] at hrest
  constructor
  · intro entry t t' ht hother hrun
    have hrest := hround ht hrun
    simp only [hother, Bool.false_eq_true, if_false] at hrest
    obtain rfl : t = t' := congrArg Prod.snd (Option.some.inj hrest)
    exact ⟨ht, rfl⟩
  · intro entry t t' ht hfound hrun
    have hrest := hround ht hrun
    simp only [hfound, if_true] at hrest
    obtain ⟨_, u, hcheck, hmodify⟩ := Prog.bind_eq_ok hrest
    obtain ⟨hzero, rfl⟩ := Prog.check_eq_ok hcheck
    obtain rfl := congrArg Prod.snd (Option.some.inj hmodify)
    exact ⟨⟨ht.mem, ht.gRsdp, ht.gRxsdt⟩, beq_iff_eq.mp hzero, rfl⟩

/-- What `scan_rxsdt` leaves, if it has found a FADT. -/
theorem scanRxsdt_eq_ok (hunset : s.gFadt = 0) (h : scanRxsdt rxsdt s = some (.ok (), s'))
    (hfadt : s'.gFadt ≠ 0) :
    ScanFrame s s' ∧
      (rxsdtEntries s.mem rxsdt).filter (fun entry => tableSignature s.mem entry == FADT_SIGNATURE) =
        [s'.gFadt] := by
  rw [scanRxsdt, Prog.bind_get_apply] at h
  obtain ⟨hframe, init, hinit, hall⟩ := (scanEntry_records s).forEach_ok ⟨rfl, rfl, rfl⟩ h
  rw [hunset] at hinit
  have hne : ∀ entry ∈ rxsdtEntries s.mem rxsdt, entry ≠ 0 :=
    Prog.forall_of_forEach_ok (Q := fun entry => entry ≠ 0)
      (fun _ _ _ hentry => scanEntry_ne_zero hentry) h
  obtain ⟨fadt, hfilter, rfl⟩ := filter_eq_singleton_of_records hinit hall hfadt
    fun entry hentry _ => hne entry hentry
  exact ⟨hframe, hfilter⟩

/-- The globals that are taken from the FADT. -/
structure NamedBy (c s' : AcpiState) : Prop where
  frame : ScanFrame c s'
  gFadt : s'.gFadt = c.gFadt
  gFacs : s'.gFacs = fadtFacs c.mem c.gFadt
  gDsdt : s'.gDsdt = fadtDsdt c.mem c.gFadt

theorem findFacs_findDsdt_eq_ok
    (h : (findFacs s.gFadt >>= fun _ => findDsdt s.gFadt) s = some (.ok (), s')) :
    NamedBy s s' := by
  obtain ⟨_, t, hfacs, hdsdt⟩ := Prog.bind_eq_ok h
  rw [findFacs, Prog.modify_apply] at hfacs
  rw [findDsdt, Prog.modify_apply] at hdsdt
  obtain rfl := (congrArg Prod.snd (Option.some.inj hfacs)).symm
  obtain rfl := (congrArg Prod.snd (Option.some.inj hdsdt)).symm
  exact ⟨⟨rfl, rfl, rfl⟩, rfl, by simp only, by simp only⟩

/-- A run that succeeds, stage by stage. -/
theorem findAcpiTables_stages (h : findAcpiTables compareGuid s = some (.ok (), s')) :
    ∃ a b c, findRsdp compareGuid s = some (.ok (), a) ∧
      findRxsdt a.gRsdp a = some (.ok (), b) ∧ scanRxsdt b.gRxsdt b = some (.ok (), c) ∧
      c.gFadt ≠ 0 ∧ NamedBy c s' := by
  rw [findAcpiTables] at h
  obtain ⟨_, a, hrsdp, h₁⟩ := Prog.bind_eq_ok h
  rw [Prog.bind_get_apply] at h₁
  obtain ⟨_, b, hrxsdt, h₂⟩ := Prog.bind_eq_ok h₁
  rw [Prog.bind_get_apply] at h₂
  obtain ⟨_, c, hscan, h₃⟩ := Prog.bind_eq_ok h₂
  rw [Prog.bind_get_apply] at h₃
  obtain ⟨_, d, hcheck, h₄⟩ := Prog.bind_eq_ok h₃
  obtain ⟨hne, hd⟩ := Prog.check_eq_ok hcheck
  rw [hd] at h₄
  exact ⟨a, b, c, hrsdp, hrxsdt, hscan, bne_iff_ne.mp hne, findFacs_findDsdt_eq_ok h₄⟩

end Stages

/-! ## All of it -/

section Discovery

variable {compareGuid : Guid → Guid → Bool} {s s' : AcpiState} {tables : List (Guid × ℕ)}

/-- What a run that succeeds has found: only the FACS, the DSDT and entries for ACPI 2.0 that come
before the RSDP may be null. -/
structure Found (compareGuid : Guid → Guid → Bool) (tables : List (Guid × ℕ)) (mem : ℕ → UInt8)
    (s : AcpiState) : Prop where
  rsdp_ne : s.gRsdp ≠ 0
  rxsdt_ne : s.gRxsdt ≠ 0
  fadt_ne : s.gFadt ≠ 0
  rxsdt : s.gRxsdt = rsdpRxsdt mem s.gRsdp
  fadt : SoleEntry (IsFadt mem) (rootEntries mem s.gRxsdt) s.gFadt
  facs : s.gFacs = fadtFacs mem s.gFadt
  dsdt : s.gDsdt = fadtDsdt mem s.gFadt
  recorded : ∃ init,
    0 :: (tables.filter fun entry => compareGuid entry.1 ACPI_20_TABLE_GUID).map Prod.snd =
      init ++ [s.gRsdp] ∧ ∀ a ∈ init, a = 0

theorem findAcpiTables_found (hrsdp : s.gRsdp = 0) (hfadt : s.gFadt = 0)
    (htables : s.configurationTable = some tables)
    (h : findAcpiTables compareGuid s = some (.ok (), s'))
    (hlength : TABLE_HEADER_SIZE ≤ (tableLength s.mem s'.gRxsdt).toNat) :
    Found compareGuid tables s.mem s' := by
  obtain ⟨a, b, c, hfind, hrxsdt, hscan, hne, hnamed⟩ := findAcpiTables_stages h
  obtain ⟨hmem, hunset, hrsdp_ne, hrecords⟩ := findRsdp_eq_ok htables hrsdp hfind
  obtain ⟨hb, hrxsdt_ne⟩ := findRxsdt_eq_ok hrxsdt
  have hbfadt : b.gFadt = 0 := by
    rw [hb]
    exact hunset.trans hfadt
  have hbmem : b.mem = s.mem := by
    rw [hb]
    exact hmem
  have hbrsdp : b.gRsdp = a.gRsdp := by rw [hb]
  have hbrxsdt : b.gRxsdt = rsdpRxsdt s.mem a.gRsdp := by rw [hb, hmem]
  obtain ⟨hframe, hfilter⟩ := scanRxsdt_eq_ok hbfadt hscan hne
  have hs'rsdp : s'.gRsdp = a.gRsdp :=
    hnamed.frame.gRsdp.trans (hframe.gRsdp.trans hbrsdp)
  have hs'rxsdt : s'.gRxsdt = b.gRxsdt := hnamed.frame.gRxsdt.trans hframe.gRxsdt
  have hcmem : c.mem = s.mem := hframe.mem.trans hbmem
  rw [hs'rxsdt] at hlength
  rw [hbmem, rxsdtEntries_eq hlength] at hfilter
  rw [hmem, ← hbrxsdt] at hrxsdt_ne
  constructor
  · rwa [hs'rsdp]
  · rwa [hs'rxsdt]
  · rwa [hnamed.gFadt]
  · rw [hs'rxsdt, hs'rsdp, hbrxsdt]
  · rw [hs'rxsdt, hnamed.gFadt]
    exact soleEntry_of_filter (fun _ => beq_iff_eq) hfilter
  · rw [hnamed.gFacs, hcmem, hnamed.gFadt]
  · rw [hnamed.gDsdt, hcmem, hnamed.gFadt]
  · rwa [hs'rsdp]

/-- Where no entry for ACPI 2.0 is null, the RSDP is the only one. -/
theorem Found.rsdp (h : Found compareGuid tables s.mem s')
    (hcompare : ∀ guid guid', compareGuid guid guid' = true ↔ guid = guid')
    (hne : ∀ entry ∈ tables, IsAcpi20 entry → entry.2 ≠ 0) :
    SoleEntry IsAcpi20 tables (ACPI_20_TABLE_GUID, s'.gRsdp) := by
  obtain ⟨init, hinit, hall⟩ := h.recorded
  obtain ⟨⟨guid, rsdp⟩, hfilter, hlast⟩ := filter_eq_singleton_of_records hinit hall h.rsdp_ne
    fun entry hentry hguid => hne entry hentry ((hcompare _ _).mp hguid)
  have honly : SoleEntry IsAcpi20 tables (guid, rsdp) :=
    soleEntry_of_filter (fun _ => hcompare _ _) hfilter
  obtain ⟨-, -, -, hguid, -⟩ := honly
  obtain rfl : guid = ACPI_20_TABLE_GUID := hguid
  rw [← hlast]
  exact soleEntry_of_filter (fun _ => hcompare _ _) hfilter

/-- **A success of `find_acpi_tables` is what `tables.h` promises exactly if the tables that it is
told about are not null**: no pointer for ACPI 2.0 in the system table, and neither the FACS nor the
DSDT of the FADT. -/
theorem discovered_iff (hcompare : ∀ guid guid', compareGuid guid guid' = true ↔ guid = guid')
    (hrsdp : s.gRsdp = 0) (hfadt : s.gFadt = 0) (htables : s.configurationTable = some tables)
    (hrun : findAcpiTables compareGuid s = some (.ok (), s'))
    (hlength : TABLE_HEADER_SIZE ≤ (tableLength s.mem s'.gRxsdt).toNat) :
    Discovered tables s.mem s' ↔ NamesTables tables s.mem := by
  have hfound : Found compareGuid tables s.mem s' :=
    findAcpiTables_found hrsdp hfadt htables hrun hlength
  constructor
  · intro h
    have hrsdp : ∀ entry ∈ tables, IsAcpi20 entry → entry.2 = s'.gRsdp := fun entry hentry hacpi =>
      congrArg Prod.snd (h.rsdp.eq hentry hacpi)
    refine ⟨fun entry hentry hacpi => ?_, fun entry hentry hacpi fadt hmem hsig => ?_⟩
    · rw [hrsdp entry hentry hacpi]
      exact h.rsdp_ne
    · rw [hrsdp entry hentry hacpi, ← hfound.rxsdt] at hmem
      obtain rfl := h.fadt.eq hmem hsig
      rw [fadtComplete_iff, ← hfound.facs, ← hfound.dsdt]
      exact ⟨h.facs_ne, h.dsdt_ne⟩
  · intro h
    have hrsdp := hfound.rsdp hcompare h.rsdp
    have hnames : FadtComplete s.mem s'.gFadt := by
      refine h.fadt _ hrsdp.mem rfl s'.gFadt ?_ ?_
      · rw [← hfound.rxsdt]
        exact hfound.fadt.mem
      · obtain ⟨-, -, -, hsig, -⟩ := hfound.fadt
        exact hsig
    obtain ⟨hfacs, hdsdt⟩ := fadtComplete_iff.mp hnames
    rw [← hfound.facs] at hfacs
    rw [← hfound.dsdt] at hdsdt
    exact ⟨hfound.rsdp_ne, hfound.rxsdt_ne, hfound.fadt_ne, hfacs, hdsdt, hrsdp, hfound.fadt⟩

end Discovery

/-! ## Samples -/

/-- A FADT at `0x100` with the 32-bit address of a FACS and a DSDT at `0x500`, the XSDT with it at
`0x300`, and the RSDP at `0x400`. -/
def sampleTables (firmwareCtrl : UInt32) : AcpiState where
  mem := put32 (put32 (put32 (put32 (put32 (put32 (put32 (put32 (fun _ => 0)
    0x100 0x50434146) 0x124 firmwareCtrl) 0x128 0x500) 0x300 0x54445358) 0x304 44) 0x324 0x100)
    0x40c 0x2000000) 0x418 0x300
  free _ := false
  isReserved _ := false
  configurationTable := some [(ACPI_20_TABLE_GUID, 0x400)]
  gRsdp := 0
  gRxsdt := 0
  gFadt := 0
  gFacs := 0
  gDsdt := 0
  isDsdtPatched := false
  calls := []

/-- The run succeeds, with this FACS and the XSDT. -/
def findsFacs (facs : ℕ) : Option (Except Err Unit × AcpiState) → Bool
  | some (.ok _, s) => s.gFacs == facs && s.gRxsdt == 0x300
  | _ => false

theorem exists_of_findsFacs (facs : ℕ) {x : Option (Except Err Unit × AcpiState)}
    (h : findsFacs facs x = true) :
    ∃ s, x = some (.ok (), s) ∧ s.gFacs = facs ∧ s.gRxsdt = 0x300 := by
  cases x with
  | none => cases h
  | some p =>
    obtain ⟨r, s⟩ := p
    cases r with
    | error e => cases h
    | ok _ =>
      rw [findsFacs, Bool.and_eq_true, beq_iff_eq, beq_iff_eq] at h
      exact ⟨s, rfl, h.1, h.2⟩

/-- The theorem on tables with a FACS. -/
theorem discovered_iff_sample : ∃ s',
    findAcpiTables (fun guid guid' => guid == guid') (sampleTables 0x600) = some (.ok (), s') ∧
      (Discovered [(ACPI_20_TABLE_GUID, 0x400)] (sampleTables 0x600).mem s' ↔
        NamesTables [(ACPI_20_TABLE_GUID, 0x400)] (sampleTables 0x600).mem) := by
  obtain ⟨s', hrun, -, hrxsdt⟩ := exists_of_findsFacs 0x600
    (x := findAcpiTables (fun guid guid' => guid == guid') (sampleTables 0x600)) (by decide)
  refine ⟨s', hrun, discovered_iff (fun _ _ => beq_iff_eq) rfl rfl rfl hrun ?_⟩
  rw [hrxsdt]
  decide

/-- **A FADT without a FACS**: the search succeeds, and `g_facs` is null. -/
theorem facs_null_found : ∃ s',
    findAcpiTables (fun guid guid' => guid == guid') (sampleTables 0) = some (.ok (), s') ∧
      TABLE_HEADER_SIZE ≤ (tableLength (sampleTables 0).mem s'.gRxsdt).toNat ∧
      ¬ Discovered [(ACPI_20_TABLE_GUID, 0x400)] (sampleTables 0).mem s' := by
  obtain ⟨s', hrun, hfacs, hrxsdt⟩ := exists_of_findsFacs 0
    (x := findAcpiTables (fun guid guid' => guid == guid') (sampleTables 0)) (by decide)
  refine ⟨s', hrun, ?_, fun h => h.facs_ne hfacs⟩
  rw [hrxsdt]
  decide

end SwitchOs.Acpi
