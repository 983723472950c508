import SwitchOs.Acpi.Method

/-!
# What a search finds

`find_method` walks over the definition block byte by byte. A byte `MethodOp` with an acceptable
PkgLength behind it is a candidate, whether it declares a method or not; a candidate with the name
behind its PkgLength declares the method. The search keeps the offset of the declaration and the
PkgLength of the last candidate, and it leaves with an error at a candidate that has no room for a
name.
-/

namespace SwitchOs.Acpi

/-- The PkgLength behind the offset `i` of the AML from address `aml` on, if there is a `MethodOp` at
`i` and the PkgLength is acceptable. -/
def candidateAt (mem : ℕ → UInt8) (aml amlSize i : ℕ) : Option AcpiPkgLength :=
  if mem (aml + i) = AML_METHOD_OP then
    parsedPkgLength (fun j => mem (aml + i + 1 + j)) (amlSize - i - 1)
  else none

/-- There is room for a name behind the PkgLength. -/
def NameFits (amlSize i : ℕ) (pkg : AcpiPkgLength) : Prop :=
  i + 1 + pkg.encodedSize + AML_METHOD_NAME_LEN ≤ amlSize

instance (amlSize i : ℕ) (pkg : AcpiPkgLength) : Decidable (NameFits amlSize i pkg) :=
  inferInstanceAs (Decidable (_ ≤ _))

/-- The name is behind the PkgLength. -/
def NameAt (mem : ℕ → UInt8) (aml : ℕ) (name : List UInt8) (i : ℕ) (pkg : AcpiPkgLength) : Prop :=
  window mem (aml + (i + 1 + pkg.encodedSize)) AML_METHOD_NAME_LEN =
    window (cString name) 0 AML_METHOD_NAME_LEN

instance (mem : ℕ → UInt8) (aml : ℕ) (name : List UInt8) (i : ℕ) (pkg : AcpiPkgLength) :
    Decidable (NameAt mem aml name i pkg) :=
  inferInstanceAs (Decidable (_ = _))

/-- The method is declared at the offset `i`, within the table. -/
def Declares (mem : ℕ → UInt8) (aml amlSize : ℕ) (name : List UInt8) (i : ℕ) : Prop :=
  i < amlSize ∧ ∃ pkg ∈ candidateAt mem aml amlSize i, NameFits amlSize i pkg ∧
    NameAt mem aml name i pkg

instance (mem : ℕ → UInt8) (aml amlSize : ℕ) (name : List UInt8) (i : ℕ) :
    Decidable (Declares mem aml amlSize name i) :=
  inferInstanceAs (Decidable (_ ∧ _))

/-- Every candidate has room for a name. -/
def CandidatesFit (mem : ℕ → UInt8) (aml amlSize : ℕ) : Prop :=
  ∀ i < amlSize, ∀ pkg ∈ candidateAt mem aml amlSize i, NameFits amlSize i pkg

instance (mem : ℕ → UInt8) (aml amlSize : ℕ) : Decidable (CandidatesFit mem aml amlSize) :=
  inferInstanceAs (Decidable (∀ i < amlSize, ∀ pkg ∈ _, _))

/-- `pkg` is the PkgLength of the last of the candidates before `k`. -/
def LastCandidate (mem : ℕ → UInt8) (aml amlSize k : ℕ) (pkg : AcpiPkgLength) : Prop :=
  ∃ l < k, candidateAt mem aml amlSize l = some pkg ∧
    ∀ i, l < i → i < k → candidateAt mem aml amlSize i = none

theorem LastCandidate.unique {mem : ℕ → UInt8} {aml amlSize k : ℕ} {pkg pkg' : AcpiPkgLength}
    (h : LastCandidate mem aml amlSize k pkg) (h' : LastCandidate mem aml amlSize k pkg') :
    pkg = pkg' := by
  obtain ⟨l, hl, hcand, hafter⟩ := h
  obtain ⟨l', hl', hcand', hafter'⟩ := h'
  have hle : l' ≤ l := by
    by_contra hlt
    rw [hafter l' (by omega) hl'] at hcand'
    cases hcand'
  have hge : l ≤ l' := by
    by_contra hlt
    rw [hafter' l (by omega) hl] at hcand
    cases hcand
  obtain rfl := le_antisymm hge hle
  exact Option.some.inj (hcand.symm.trans hcand')

/-! ## The loop -/

section Loop

variable {mem : ℕ → UInt8} {aml amlSize i k : ℕ} {name : List UInt8} {pkg : AcpiPkgLength}
  {search search' : MethodSearch}

theorem findMethodAt_none (h : candidateAt mem aml amlSize i = none) :
    findMethodAt mem aml amlSize name i search = some (.ok (), search) := by
  rw [findMethodAt]
  rw [candidateAt] at h
  split at h
  case isFalse hop =>
    rw [if_neg fun hbeq => hop (beq_iff_eq.mp hbeq)]
    rfl
  case isTrue hop =>
    have hparse := parsePkgLength_apply (fun j => mem (aml + i + 1 + j)) (amlSize - i - 1)
      search.pkgLength
    rw [h] at hparse
    have hsucc : Prog.succeeds (Prog.zoom MethodSearch.pkgLength
        (fun pkgLength search => { search with pkgLength := pkgLength })
        (parsePkgLength (fun j => mem (aml + i + 1 + j)) (amlSize - i - 1))) search =
        some (.ok false, search) := by
      rw [Prog.succeeds, Prog.zoom_eq hparse]
    rw [if_pos (beq_iff_eq.mpr hop), Prog.bind_ok hsucc]
    rfl

theorem findMethodAt_some (h : candidateAt mem aml amlSize i = some pkg) :
    findMethodAt mem aml amlSize name i search =
      if NameFits amlSize i pkg then
        if NameAt mem aml name i pkg then
          if search.methodStart.isNone then some (.ok (), ⟨some i, pkg⟩)
          else some (.error .ERR_INVALID, { search with pkgLength := pkg })
        else some (.ok (), { search with pkgLength := pkg })
      else some (.error .ERR_INVALID, { search with pkgLength := pkg }) := by
  rw [findMethodAt]
  rw [candidateAt] at h
  split at h
  case isFalse => cases h
  case isTrue hop =>
    have hparse := parsePkgLength_apply (fun j => mem (aml + i + 1 + j)) (amlSize - i - 1)
      search.pkgLength
    rw [h] at hparse
    have hsucc : Prog.succeeds (Prog.zoom MethodSearch.pkgLength
        (fun pkgLength search => { search with pkgLength := pkgLength })
        (parsePkgLength (fun j => mem (aml + i + 1 + j)) (amlSize - i - 1))) search =
        some (.ok true, { search with pkgLength := pkg }) := by
      rw [Prog.succeeds, Prog.zoom_eq hparse]
    rw [if_pos (beq_iff_eq.mpr hop), Prog.bind_ok hsucc, if_pos rfl, Prog.bind_get_apply]
    by_cases hfits : NameFits amlSize i pkg
    case neg =>
      rw [if_neg hfits]
      exact Prog.bind_error (Prog.check_error (decide_eq_false hfits))
    rw [if_pos hfits]
    refine (Prog.bind_ok (Prog.check_ok (decide_eq_true hfits))).trans ?_
    by_cases hname : NameAt mem aml name i pkg
    case neg =>
      rw [if_neg hname, if_neg fun hbeq => hname (beq_iff_eq.mp hbeq)]
      rfl
    rw [if_pos hname, if_pos (beq_iff_eq.mpr hname)]
    cases hstart : search.methodStart with
    | none => rfl
    | some start => rfl

/-- What the search knows after the offsets before `k`. -/
structure Searched (mem : ℕ → UInt8) (aml amlSize : ℕ) (name : List UInt8) (k : ℕ)
    (search : MethodSearch) : Prop where
  fit : ∀ i < k, ∀ pkg ∈ candidateAt mem aml amlSize i, NameFits amlSize i pkg
  start : ∀ i, search.methodStart = some i ↔ i < k ∧ Declares mem aml amlSize name i
  last : (∃ i < k, candidateAt mem aml amlSize i ≠ none) →
    LastCandidate mem aml amlSize k search.pkgLength

/-- Two different offsets declare the method. -/
def DeclaredTwice (mem : ℕ → UInt8) (aml amlSize : ℕ) (name : List UInt8) : Prop :=
  ∃ i j, i ≠ j ∧ Declares mem aml amlSize name i ∧ Declares mem aml amlSize name j

theorem Searched.zero (pkg : AcpiPkgLength) : Searched mem aml amlSize name 0 ⟨none, pkg⟩ :=
  ⟨nofun, fun i => ⟨nofun, fun h => absurd h.1 (Nat.not_lt_zero i)⟩,
    fun ⟨i, hi, _⟩ => absurd hi (Nat.not_lt_zero i)⟩

/-- An offset that is no candidate does not matter. -/
theorem Searched.skip (h : Searched mem aml amlSize name k search)
    (hnone : candidateAt mem aml amlSize k = none) :
    Searched mem aml amlSize name (k + 1) search := by
  have hnot : ¬ Declares mem aml amlSize name k := by
    rintro ⟨-, pkg, hpkg, -⟩
    rw [Option.mem_def, hnone] at hpkg
    cases hpkg
  refine ⟨fun i hi pkg hpkg => ?_, fun i => ?_, ?_⟩
  · rcases Nat.lt_succ_iff_lt_or_eq.mp hi with hlt | rfl
    · exact h.fit i hlt pkg hpkg
    · rw [Option.mem_def, hnone] at hpkg
      cases hpkg
  · rw [h.start]
    refine and_congr_left fun hdecl => ⟨fun hi => by omega, fun hi => ?_⟩
    rcases Nat.lt_succ_iff_lt_or_eq.mp hi with hlt | rfl
    · exact hlt
    · exact absurd hdecl hnot
  · rintro ⟨i, hi, hsome⟩
    have hlt : i < k := by
      rcases Nat.lt_succ_iff_lt_or_eq.mp hi with hlt | rfl
      · exact hlt
      · exact absurd hnone hsome
    obtain ⟨l, hl, hcand, hafter⟩ := h.last ⟨i, hlt, hsome⟩
    refine ⟨l, by omega, hcand, fun j hlj hj => ?_⟩
    rcases Nat.lt_succ_iff_lt_or_eq.mp hj with hjlt | rfl
    · exact hafter j hlj hjlt
    · exact hnone

/-- A candidate with room for a name is the last one now. -/
theorem Searched.candidate (h : Searched mem aml amlSize name k search)
    (hsome : candidateAt mem aml amlSize k = some pkg) (hfits : NameFits amlSize k pkg)
    (hpkg : search'.pkgLength = pkg)
    (hstart : ∀ i, search'.methodStart = some i ↔
      i < k + 1 ∧ Declares mem aml amlSize name i) :
    Searched mem aml amlSize name (k + 1) search' := by
  refine ⟨fun i hi pkg' hpkg' => ?_, hstart, fun _ => ⟨k, by omega, hpkg ▸ hsome, by omega⟩⟩
  rcases Nat.lt_succ_iff_lt_or_eq.mp hi with hlt | rfl
  · exact h.fit i hlt pkg' hpkg'
  · obtain rfl := Option.some.inj (hsome.symm.trans hpkg')
    exact hfits

/-- One iteration: the search goes on, or there is a reason for it to fail. -/
theorem Searched.step (hk : k < amlSize) (h : Searched mem aml amlSize name k search) :
    (∃ search', findMethodAt mem aml amlSize name k search = some (.ok (), search') ∧
      Searched mem aml amlSize name (k + 1) search') ∨
    (∃ e t, findMethodAt mem aml amlSize name k search = some (.error e, t)) ∧
      (¬ CandidatesFit mem aml amlSize ∨ DeclaredTwice mem aml amlSize name) := by
  cases hcand : candidateAt mem aml amlSize k with
  | none => exact Or.inl ⟨search, findMethodAt_none hcand, h.skip hcand⟩
  | some pkg =>
    have hrun : findMethodAt mem aml amlSize name k search = _ := findMethodAt_some hcand
    by_cases hfits : NameFits amlSize k pkg
    case neg =>
      rw [if_neg hfits] at hrun
      exact Or.inr ⟨⟨_, _, hrun⟩, Or.inl fun hall => hfits (hall k hk pkg hcand)⟩
    rw [if_pos hfits] at hrun
    by_cases hname : NameAt mem aml name k pkg
    case neg =>
      rw [if_neg hname] at hrun
      have hnot : ¬ Declares mem aml amlSize name k := by
        rintro ⟨-, pkg', hpkg', -, hname'⟩
        obtain rfl := Option.some.inj (hcand.symm.trans hpkg')
        exact hname hname'
      refine Or.inl ⟨_, hrun, h.candidate hcand hfits rfl fun i => ?_⟩
      simp only
      rw [h.start]
      refine and_congr_left fun hdecl => ⟨fun hi => by omega, fun hi => ?_⟩
      rcases Nat.lt_succ_iff_lt_or_eq.mp hi with hlt | rfl
      · exact hlt
      · exact absurd hdecl hnot
    rw [if_pos hname] at hrun
    have hdecl : Declares mem aml amlSize name k := ⟨hk, pkg, hcand, hfits, hname⟩
    cases hstart : search.methodStart with
    | some i =>
      rw [hstart] at hrun
      obtain ⟨hi, hdecl'⟩ := (h.start i).mp hstart
      exact Or.inr ⟨⟨_, _, hrun⟩, Or.inr ⟨i, k, by omega, hdecl', hdecl⟩⟩
    | none =>
      rw [hstart] at hrun
      refine Or.inl ⟨_, hrun, h.candidate hcand hfits rfl fun i => ?_⟩
      simp only [Option.some.injEq]
      constructor
      · rintro rfl
        exact ⟨by omega, hdecl⟩
      · rintro ⟨hi, hdecl'⟩
        rcases Nat.lt_succ_iff_lt_or_eq.mp hi with hlt | rfl
        · have hsome := (h.start i).mpr ⟨hlt, hdecl'⟩
          rw [hstart] at hsome
          cases hsome
        · rfl

/-- The first `k` iterations. -/
theorem searched_run (mem : ℕ → UInt8) (aml amlSize : ℕ) (name : List UInt8) (pkg : AcpiPkgLength)
    (k : ℕ) (hk : k ≤ amlSize) :
    (∃ search, Prog.forEach (findMethodAt mem aml amlSize name) (List.range k) ⟨none, pkg⟩ =
      some (.ok (), search) ∧ Searched mem aml amlSize name k search) ∨
    (∃ e t, Prog.forEach (findMethodAt mem aml amlSize name) (List.range k) ⟨none, pkg⟩ =
      some (.error e, t)) ∧
      (¬ CandidatesFit mem aml amlSize ∨ DeclaredTwice mem aml amlSize name) := by
  induction k with
  | zero => exact Or.inl ⟨_, rfl, .zero pkg⟩
  | succ k ih =>
    rw [List.range_succ, Prog.forEach_append]
    rcases ih (by omega) with ⟨search, hrun, h⟩ | ⟨⟨e, t, hrun⟩, hreason⟩
    · rw [Prog.bind_ok hrun, Prog.forEach_singleton]
      exact h.step (by omega)
    · rw [Prog.bind_error hrun]
      exact Or.inr ⟨⟨e, t, rfl⟩, hreason⟩

end Loop

/-! ## The result -/

section Result

variable {s : AcpiState} {name modifiedName : List UInt8} {start : ℕ} {pkg : AcpiPkgLength}

/-- The address of the definition block. -/
def definitionBlock (s : AcpiState) : ℕ := s.gDsdt + TABLE_HEADER_SIZE

/-- The method is declared at the offset `i` of the DSDT. -/
def AcpiState.Declares (s : AcpiState) (name : List UInt8) (i : ℕ) : Prop :=
  Acpi.Declares s.mem (definitionBlock s) (dsdtAmlSize s.mem s.gDsdt) name i

/-- Every candidate of the DSDT has room for a name. -/
def AcpiState.CandidatesFit (s : AcpiState) : Prop :=
  Acpi.CandidatesFit s.mem (definitionBlock s) (dsdtAmlSize s.mem s.gDsdt)

/-- `pkg` is the PkgLength of the last candidate of the DSDT. -/
def AcpiState.LastCandidate (s : AcpiState) (pkg : AcpiPkgLength) : Prop :=
  Acpi.LastCandidate s.mem (definitionBlock s) (dsdtAmlSize s.mem s.gDsdt)
    (dsdtAmlSize s.mem s.gDsdt) pkg

/-- **What `find_method` returns**: the one declaration, with the PkgLength of the last candidate. -/
theorem findMethod_cases (name : List UInt8) (s : AcpiState) :
    (∃ start pkg, findMethod name s = some (.ok (start, pkg), s) ∧ s.CandidatesFit ∧
      s.Declares name start ∧ (∀ i, s.Declares name i → i = start) ∧ s.LastCandidate pkg) ∨
    ∃ e, findMethod name s = some (.error e, s) ∧
      ¬ (s.CandidatesFit ∧ ∃! i, s.Declares name i) := by
  rw [findMethod, Prog.bind_get_apply]
  rcases searched_run s.mem (definitionBlock s) (dsdtAmlSize s.mem s.gDsdt) name ⟨0, 0, fun _ => 0⟩
    _ (le_refl _) with ⟨search, hrun, h⟩ | ⟨⟨e, t, hrun⟩, hreason⟩
  · cases hstart : search.methodStart with
    | some start =>
      left
      have hsearch : searchMethod s.mem s.gDsdt name ⟨none, ⟨0, 0, fun _ => 0⟩⟩ =
          some (.ok (start, search.pkgLength), search) := by
        rw [searchMethod]
        refine (Prog.bind_ok hrun).trans ?_
        rw [Prog.bind_get_apply, hstart]
        rfl
      have hdecl := ((h.start start).mp hstart).2
      obtain ⟨hlt, pkg, hpkg, -⟩ := ((h.start start).mp hstart).2
      refine ⟨start, search.pkgLength, Prog.withLocals_eq hsearch, h.fit, hdecl, fun i hi => ?_,
        h.last ⟨start, hlt, fun hnone => ?_⟩⟩
      · exact Option.some.inj (((h.start i).mpr ⟨hi.1, hi⟩).symm.trans hstart)
      · rw [Option.mem_def, hnone] at hpkg
        cases hpkg
    | none =>
      right
      have hsearch : searchMethod s.mem s.gDsdt name ⟨none, ⟨0, 0, fun _ => 0⟩⟩ =
          some (.error .ERR_INVALID, search) := by
        rw [searchMethod]
        refine (Prog.bind_ok hrun).trans ?_
        rw [Prog.bind_get_apply, hstart]
        rfl
      refine ⟨_, Prog.withLocals_eq hsearch, ?_⟩
      rintro ⟨-, i, hi, -⟩
      have hsome := (h.start i).mpr ⟨hi.1, hi⟩
      rw [hstart] at hsome
      cases hsome
  · right
    have hsearch : searchMethod s.mem s.gDsdt name ⟨none, ⟨0, 0, fun _ => 0⟩⟩ =
        some (.error e, t) := by
      rw [searchMethod]
      exact Prog.bind_error hrun
    refine ⟨e, Prog.withLocals_eq hsearch, ?_⟩
    rintro ⟨hfit, i, -, hunique⟩
    rcases hreason with hnot | ⟨j, k, hjk, hj, hk⟩
    · exact hnot hfit
    · exact hjk ((hunique j hj).trans (hunique k hk).symm)

/-- **When `find_method` succeeds**: the method is declared once, and every candidate has room for a
name. -/
theorem findMethod_ok_iff (name : List UInt8) (s : AcpiState) :
    (∃ found, findMethod name s = some (.ok found, s)) ↔
      s.CandidatesFit ∧ ∃! i, s.Declares name i := by
  rcases findMethod_cases name s with ⟨start, pkg, hrun, hfit, hdecl, hunique, -⟩ | ⟨e, hrun, hnot⟩
  · exact iff_of_true ⟨_, hrun⟩ ⟨hfit, start, hdecl, hunique⟩
  · refine iff_of_false (fun ⟨found, hfound⟩ => ?_) hnot
    rw [hrun] at hfound
    cases hfound

/-- **When success means one declaration**: unless there is one declaration and some candidate has no
room for a name. -/
theorem findMethod_declared_once_iff (name : List UInt8) (s : AcpiState) :
    ((∃ found, findMethod name s = some (.ok found, s)) ↔ ∃! i, s.Declares name i) ↔
      ((∃! i, s.Declares name i) → s.CandidatesFit) := by
  rw [findMethod_ok_iff]
  exact ⟨fun h hone => (h.mpr hone).1, fun h => ⟨And.right, fun hone => ⟨h hone, hone⟩⟩⟩

/-- The outputs of `find_method` belong to one declaration, and renaming the method overwrites its
name, and the checksum, and nothing else. -/
structure Describes (s : AcpiState) (name : List UInt8) (start : ℕ) (pkg : AcpiPkgLength) :
    Prop where
  op : s.mem (definitionBlock s + start) = AML_METHOD_OP
  parse : ∀ pkg₀, parsePkgLength (fun j => s.mem (definitionBlock s + start + 1 + j))
    (dsdtAmlSize s.mem s.gDsdt - start - 1) pkg₀ = some (.ok (), pkg)
  nameBytes : window s.mem (definitionBlock s + (start + 1 + pkg.encodedSize))
    AML_METHOD_NAME_LEN = window (cString name) 0 AML_METHOD_NAME_LEN
  rename : ∀ modifiedName s', renameMethod name modifiedName s = some (.ok (), s') →
    window s'.mem (definitionBlock s + (start + 1 + pkg.encodedSize)) AML_METHOD_NAME_LEN =
      window (cString modifiedName) 0 AML_METHOD_NAME_LEN ∧
    ∀ x, x ≠ s.gDsdt + TABLE_CHECKSUM → (x < definitionBlock s + (start + 1 + pkg.encodedSize) ∨
      definitionBlock s + (start + 1 + pkg.encodedSize) + AML_METHOD_NAME_LEN ≤ x) →
      s'.mem x = s.mem x

/-- The last candidate has the PkgLength of the declaration. -/
def LastLengthAgrees (s : AcpiState) (name : List UInt8) : Prop :=
  ∀ i pkg, s.Declares name i → s.LastCandidate pkg →
    candidateAt s.mem (definitionBlock s) (dsdtAmlSize s.mem s.gDsdt) i = some pkg

theorem candidateAt_eq_some {mem : ℕ → UInt8} {aml amlSize i : ℕ} :
    candidateAt mem aml amlSize i = some pkg ↔ mem (aml + i) = AML_METHOD_OP ∧
      parsedPkgLength (fun j => mem (aml + i + 1 + j)) (amlSize - i - 1) = some pkg := by
  rw [candidateAt]
  split
  case isTrue hop => exact ⟨fun h => ⟨hop, h⟩, And.right⟩
  case isFalse hop => exact ⟨nofun, fun h => absurd h.1 hop⟩

/-- A rename writes behind the MethodOp and the PkgLength that the search found. -/
theorem renameMethod_ok {s' : AcpiState} (hfind : findMethod name s = some (.ok (start, pkg), s))
    (h : renameMethod name modifiedName s = some (.ok (), s')) :
    s' = renamed (start + 1 + pkg.encodedSize) modifiedName s := by
  rw [renameMethod_apply, renameOffset, hfind] at h
  by_cases hlens : strlen name = AML_METHOD_NAME_LEN ∧ strlen modifiedName = AML_METHOD_NAME_LEN
  case neg =>
    rw [if_neg hlens] at h
    cases h
  rw [if_pos hlens] at h
  simp only at h
  split_ifs at h
  case pos => exact (congrArg Prod.snd (Option.some.inj h)).symm
  case neg => cases h

theorem renamed_outside {offset x : ℕ} (hx : x ≠ s.gDsdt + TABLE_CHECKSUM)
    (hx' : x < definitionBlock s + offset ∨ definitionBlock s + offset + AML_METHOD_NAME_LEN ≤ x) :
    (renamed offset modifiedName s).mem x = s.mem x :=
  (fixTableChecksum_ne hx).trans (blit_outside hx')

theorem window_renamed (s : AcpiState) (modifiedName : List UInt8) (offset : ℕ) :
    window (renamed offset modifiedName s).mem (definitionBlock s + offset) AML_METHOD_NAME_LEN =
      window (cString modifiedName) 0 AML_METHOD_NAME_LEN := by
  refine window_eq_window.mpr fun i hi => (fixTableChecksum_ne ?_).trans (blit_add hi)
  simp only [definitionBlock, TABLE_HEADER_SIZE, TABLE_CHECKSUM]
  omega

/-- **When the outputs belong together**: if and only if the last candidate has the PkgLength of the
declaration. -/
theorem findMethod_describes_iff (h : findMethod name s = some (.ok (start, pkg), s)) :
    Describes s name start pkg ↔ LastLengthAgrees s name := by
  rcases findMethod_cases name s with ⟨start', pkg', hrun, -, hdecl, hunique, hlast⟩ | ⟨e, hrun, -⟩
  case inr =>
    rw [h] at hrun
    cases hrun
  obtain ⟨hres, -⟩ := Prod.mk.inj (Option.some.inj (hrun.symm.trans h))
  obtain ⟨rfl, rfl⟩ := Prod.mk.inj (Except.ok.inj hres)
  constructor
  · intro hdesc i pkg hi hpkg
    obtain rfl := hunique i hi
    obtain rfl := hpkg.unique hlast
    exact candidateAt_eq_some.mpr ⟨hdesc.op, parsePkgLength_eq_ok.mp (hdesc.parse ⟨0, 0, fun _ => 0⟩)⟩
  · intro hagree
    have hcand := hagree start' pkg' hdecl hlast
    obtain ⟨hop, hparse⟩ := candidateAt_eq_some.mp hcand
    obtain ⟨-, pkg, hpkg, -, hname⟩ := hdecl
    obtain rfl := Option.some.inj (hcand.symm.trans hpkg)
    refine ⟨hop, fun pkg₀ => parsePkgLength_eq_ok.mpr hparse, hname, fun modifiedName s' hrename => ?_⟩
    obtain rfl := renameMethod_ok h hrename
    exact ⟨window_renamed _ _ _, fun x hx hx' => renamed_outside hx hx'⟩

/-- The method `_PTS` of one argument, and a method `ABCD` whose PkgLength takes two bytes. -/
def twoLengths : List UInt8 :=
  [0x14, 0x06, 0x5f, 0x50, 0x54, 0x53, 0x01, 0xa3, 0x14, 0x47, 0x00, 0x41, 0x42, 0x43, 0x44, 0x00]

/-- The method `_PTS`, and two bytes that look like the start of another. -/
def cutShort : List UInt8 := [0x14, 0x06, 0x5f, 0x50, 0x54, 0x53, 0x01, 0xa3, 0x14, 0x00]

/-- A DSDT with the given AML. -/
def sampleDsdt (aml : List UInt8) : AcpiState :=
  sampleAcpi.setMem (blit (put32 sampleAcpi.mem 0x2004 (UInt32.ofNat (36 + aml.length))) 0x2024
    (cString aml) 0 aml.length)

theorem sampleDsdt_gFadt (aml : List UInt8) : (sampleDsdt aml).gFadt = 0x1000 := rfl

theorem sampleDsdt_gDsdt (aml : List UInt8) : (sampleDsdt aml).gDsdt = 0x2000 := rfl

theorem sampleDsdt_below (aml : List UInt8) {x : ℕ} (hx : x < 0x2000) :
    (sampleDsdt aml).mem x = sampleAcpi.mem x :=
  (blit_outside (Or.inl (by omega))).trans (put32_outside (Or.inl (by omega)))

theorem sampleDsdt_length {aml : List UInt8} (hsmall : aml.length ≤ 64) :
    (tableLength (sampleDsdt aml).mem (sampleDsdt aml).gDsdt).toNat = 36 + aml.length := by
  have hlen : tableLength (sampleDsdt aml).mem (sampleDsdt aml).gDsdt =
      UInt32.ofNat (36 + aml.length) := by
    refine Eq.trans ?_ (get32_put32 sampleAcpi.mem 0x2004 _)
    rw [tableLength, sampleDsdt_gDsdt, TABLE_LENGTH]
    exact get32_congr fun i hi => blit_outside (Or.inl (by omega))
  rw [hlen, UInt32.toNat_ofNat']
  omega

theorem sampleDsdt_inv {aml : List UInt8} (hsmall : aml.length ≤ 64) :
    DsdtInv (sampleDsdt aml) := by
  have hfadt : (tableLength (sampleDsdt aml).mem 0x1000).toNat = 244 := by
    have hlen : tableLength (sampleDsdt aml).mem 0x1000 = tableLength sampleAcpi.mem 0x1000 :=
      tableLength_congr fun i hi => sampleDsdt_below aml (by simp only [TABLE_LENGTH]; omega)
    rw [hlen]
    decide
  have hdsdt := sampleDsdt_length hsmall
  refine .of_unpatched rfl (by rfl) ?_ hfadt hdsdt ?_ ?_ fun x _ hx => ?_
  · rw [sampleDsdt_gFadt]
    decide
  · rw [TABLE_HEADER_SIZE]
    omega
  · rw [sampleDsdt_gFadt, sampleDsdt_gDsdt]
    decide
  · rw [sampleDsdt_gDsdt] at hx
    exact decide_eq_false (by omega)

theorem sampleDsdt_reached (aml : List UInt8) : Reached (sampleDsdt aml) := by
  have h64 : get64 (sampleDsdt aml).mem (0x1000 + FADT_X_DSDT) =
      get64 sampleAcpi.mem (0x1000 + FADT_X_DSDT) :=
    get64_congr fun i hi => sampleDsdt_below aml (by simp only [FADT_X_DSDT]; omega)
  have h32 : get32 (sampleDsdt aml).mem (0x1000 + FADT_DSDT) =
      get32 sampleAcpi.mem (0x1000 + FADT_DSDT) :=
    get32_congr fun i hi => sampleDsdt_below aml (by simp only [FADT_DSDT]; omega)
  have hreached : fadtDsdt sampleAcpi.mem 0x1000 = 0x2000 := by decide
  rw [Reached, sampleDsdt_gFadt, sampleDsdt_gDsdt, ← hreached, fadtDsdt, fadtDsdt, h64, h32]

theorem findMethod_twoLengths : ∃ pkg, findMethod namePts (sampleDsdt twoLengths) =
    some (.ok (0, pkg), sampleDsdt twoLengths) ∧ pkg.encodedSize = 2 :=
  ⟨_, rfl, rfl⟩

theorem findMethod_describes_iff_twoLengths : ∃ pkg, findMethod namePts (sampleDsdt twoLengths) =
    some (.ok (0, pkg), sampleDsdt twoLengths) ∧
      (Describes (sampleDsdt twoLengths) namePts 0 pkg ↔
        LastLengthAgrees (sampleDsdt twoLengths) namePts) := by
  obtain ⟨pkg, hrun, -⟩ := findMethod_twoLengths
  exact ⟨pkg, hrun, findMethod_describes_iff hrun⟩

/-- **The length of another method**: `_PTS` is found, with the two bytes of the length of `ABCD`. -/
theorem describes_twoLengths : ∃ pkg, findMethod namePts (sampleDsdt twoLengths) =
    some (.ok (0, pkg), sampleDsdt twoLengths) ∧
      ¬ Describes (sampleDsdt twoLengths) namePts 0 pkg := by
  obtain ⟨pkg, hrun, hsize⟩ := findMethod_twoLengths
  refine ⟨pkg, hrun, fun hdesc => ?_⟩
  have hname := hdesc.nameBytes
  rw [hsize] at hname
  exact absurd hname (by decide)

/-- **One declaration is not enough**: the two bytes at the end of the table end the search. -/
theorem declared_once_cutShort :
    ¬ ((∃ found, findMethod namePts (sampleDsdt cutShort) = some (.ok found, sampleDsdt cutShort)) ↔
      ∃! i, (sampleDsdt cutShort).Declares namePts i) := by
  have hrun : findMethod namePts (sampleDsdt cutShort) =
      some (.error .ERR_INVALID, sampleDsdt cutShort) := rfl
  have hone : ∃! i, (sampleDsdt cutShort).Declares namePts i := by
    have hsize : dsdtAmlSize (sampleDsdt cutShort).mem (sampleDsdt cutShort).gDsdt = 10 := by decide
    have hzero : (sampleDsdt cutShort).Declares namePts 0 := by
      unfold AcpiState.Declares
      decide
    have hunique : ∀ i < 10, (sampleDsdt cutShort).Declares namePts i → i = 0 := by
      unfold AcpiState.Declares
      decide
    exact ⟨0, hzero, fun i hi => hunique i (hsize ▸ hi.1) hi⟩
  intro h
  obtain ⟨found, hfound⟩ := h.mpr hone
  rw [hrun] at hfound
  cases hfound

end Result

end SwitchOs.Acpi
