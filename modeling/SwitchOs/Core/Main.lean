import SwitchOs.Core.SwitchSpec

/-!
# `core_main`

One execution of core, from the wakeup out of S3 to `acpi_return_kernel`. Every error leads to the
`cleanup` label, where the kernel is resumed with whatever `kernel_waking_vector` then holds: zero,
the saved vector, or the vector of the dump. The model leaves out what touches core's own memory
only (the allocators, the uACPI state) and the traces.

`coreMain_early` is the way through `core_main` that never comes to the action, `coreMain_eq` the
one that does; `coreAction_store`, `coreAction_switch` and `coreAction_other` are the three actions.
-/

namespace SwitchOs

open CoreAction

/-- The `switch` statement of `core_main`. -/
def coreAction (P : Platform) (dev : BlkDev) (fuel : ℕ) : Core Unit := do
  let m ← Prog.get
  if m.core.action = CORE_ACTION_STORE.toUInt32 then
    diskStoreDump P dev
  else if m.core.action = CORE_ACTION_SWITCH.toUInt32 then do
    let containsDump ← doesDiskContainDump P dev
    check containsDump
    diskSwitchDump P dev fuel
  else
    Prog.throw .ERR_INVALID

/-- `core_main` up to its `cleanup` label. -/
def coreMainBody (P : Platform) (dev : BlkDev) (fuel : ℕ) : Core Unit := do
  let m ← Prog.get
  check (isCoreHeaderValid m.core)
  let wakingVector ← Prog.lift (findOriginalWakingVector m.core m.mem)
  Prog.modify fun m => { m with kernelWakingVector := wakingVector }
  check dev.initOk
  coreAction P dev fuel

/-- `core_main`: the machine when it calls `acpi_return_kernel`, with the vector it passes there as
the machine's `kernelWakingVector`, or `none` if the call is never reached. -/
def coreMain (P : Platform) (dev : BlkDev) (fuel : ℕ) (m : Machine) : Option Machine :=
  (coreMainBody P dev fuel { m with issued := 0, kernelWakingVector := 0 }).map Prod.snd

variable {P : Platform} {dev : BlkDev} {fuel : ℕ} {m m' : Machine} {core : CoreHeader}

/-- The machine when core looks at its action: the saved vector has been found. -/
def Machine.found (m : Machine) : Machine :=
  { m with issued := 0, kernelWakingVector := m.core.savedVector m.mem }

/-- With a valid header, a saved vector and a disk, `core_main` comes to its action. -/
theorem coreMain_eq (hvalid : isCoreHeaderValid m.core = true)
    (hsaved : m.core.savedVector m.mem ≠ 0) (hinit : dev.initOk = true) :
    coreMain P dev fuel m = (coreAction P dev fuel m.found).map Prod.snd := by
  rw [coreMain, coreMainBody, Prog.bind_get_apply, check, Prog.bind_check_true hvalid,
    findOriginalWakingVector_ok hsaved, Prog.lift_ok_apply, Prog.bind_modify_apply,
    check, Prog.bind_check_true hinit]
  rfl

/-- Without a disk, core resumes the kernel with the saved vector. -/
theorem coreMain_noDisk (hvalid : isCoreHeaderValid m.core = true)
    (hsaved : m.core.savedVector m.mem ≠ 0) (hinit : dev.initOk = false) :
    coreMain P dev fuel m = some m.found := by
  rw [coreMain, coreMainBody, Prog.bind_get_apply, check, Prog.bind_check_true hvalid,
    findOriginalWakingVector_ok hsaved, Prog.lift_ok_apply, Prog.bind_modify_apply, check,
    Prog.bind_check_false hinit]
  rfl

/-- With a header that it does not accept, core resumes no kernel. -/
theorem coreMain_rejected (hvalid : isCoreHeaderValid m.core = false) :
    coreMain P dev fuel m = some { m with issued := 0, kernelWakingVector := 0 } := by
  rw [coreMain, coreMainBody, Prog.bind_get_apply, check, Prog.bind_check_false hvalid]
  rfl

/-- Where core does not come to its action, it resumes the kernel with the saved vector, or none. -/
theorem coreMain_early (h : isCoreHeaderValid m.core = false ∨ m.core.savedVector m.mem = 0 ∨
      dev.initOk = false) :
    ∃ v, (v = 0 ∨ v = m.core.savedVector m.mem) ∧
      coreMain P dev fuel m = some { m with issued := 0, kernelWakingVector := v } := by
  cases hvalid : isCoreHeaderValid m.core with
  | false => exact ⟨0, Or.inl rfl, coreMain_rejected hvalid⟩
  | true =>
    by_cases hsaved : m.core.savedVector m.mem = 0
    · refine ⟨0, Or.inl rfl, ?_⟩
      have herr : findOriginalWakingVector m.core m.mem = .error .ERR_INVALID := if_pos hsaved
      rw [coreMain, coreMainBody, Prog.bind_get_apply, check, Prog.bind_check_true hvalid, herr,
        Prog.lift_error_apply]
      rfl
    · refine ⟨_, Or.inr rfl, ?_⟩
      have hinit : dev.initOk = false := by
        simpa [hvalid, hsaved] using h
      exact coreMain_noDisk hvalid hsaved hinit

theorem coreAction_store (haction : m.core.action = CORE_ACTION_STORE.toUInt32) :
    coreAction P dev fuel m = diskStoreDump P dev m := by
  rw [coreAction, Prog.bind_get_apply, if_pos haction]

theorem coreAction_other (hstore : m.core.action ≠ CORE_ACTION_STORE.toUInt32)
    (hswitch : m.core.action ≠ CORE_ACTION_SWITCH.toUInt32) :
    coreAction P dev fuel m = some (.error .ERR_INVALID, m) := by
  rw [coreAction, Prog.bind_get_apply, if_neg hstore, if_neg hswitch]
  rfl

theorem doesDiskContainDump_ok (hmax : m.core.areaCount ≤ MAX_RAM_AREAS)
    (hok : dev.fails m.issued = false) :
    doesDiskContainDump P dev m = some (.ok (isDumpHeaderValid m.core m.disk), m.tick) := by
  rw [doesDiskContainDump, Prog.bind_ok (readDumpHeader_ok P hok), Prog.bind_get_apply,
    Prog.pure_apply]
  rw [show m.tick.core = m.core from rfl,
    isDumpHeaderValid_congr hmax (readDumpHeader_bytes P.stack m.disk)]

theorem coreAction_switch_fail (haction : m.core.action = CORE_ACTION_SWITCH.toUInt32)
    (hfail : dev.fails m.issued = true) :
    coreAction P dev fuel m = some (.error .ERR_INVALID, m.tick) := by
  rw [coreAction, Prog.bind_get_apply, haction, if_neg (by decide), if_pos rfl, doesDiskContainDump,
    Prog.bind_error (Prog.bind_error (readDumpHeader_fail P hfail))]

theorem coreAction_switch (haction : m.core.action = CORE_ACTION_SWITCH.toUInt32)
    (hmax : m.core.areaCount ≤ MAX_RAM_AREAS) (hok : dev.fails m.issued = false) :
    coreAction P dev fuel m =
      if isDumpHeaderValid m.core m.disk then diskSwitchDump P dev fuel m.tick
      else some (.error .ERR_INVALID, m.tick) := by
  rw [coreAction, Prog.bind_get_apply, haction, if_neg (by decide), if_pos rfl,
    Prog.bind_ok (doesDiskContainDump_ok hmax hok)]
  split
  case isTrue h => rw [check, Prog.bind_check_true h]
  case isFalse h => rw [check, Prog.bind_check_false (by simpa using h)]

/-- **A wakeup with a store**, on a disk that takes all its requests. -/
theorem coreMain_store (hvalid : isCoreHeaderValid m.core = true) (hg : Geometry P.sizes m.core)
    (hsaved : m.core.savedVector m.mem ≠ 0) (haction : m.core.action = CORE_ACTION_STORE.toUInt32)
    (hinit : dev.initOk = true) (hok : ∀ i ≤ m.core.areaCount, dev.fails i = false) :
    ∃ m', coreMain P dev fuel m = some m' ∧ m'.mem = m.mem ∧ m'.core = m.core ∧
      m'.kernelWakingVector = m.core.savedVector m.mem ∧
      Holds m.core (ramImage m.core m.mem) (m.core.savedVector m.mem) m'.disk := by
  obtain ⟨m', hrun, hmem, hcore, hv, hholds⟩ := diskStoreDump_ok (m := m.found) P rfl hg.count_le
    hg.aligned hg.fits hsaved fun i hi => by
      rw [show m.found.issued + i = i from Nat.zero_add i]
      exact hok i hi
  refine ⟨m', ?_, hmem, hcore, hv, hholds⟩
  rw [coreMain_eq hvalid hsaved hinit, coreAction_store (m := m.found) haction, hrun]
  rfl

/-- `switch_buf` behind a megabyte of core, zeros on the stack. -/
def samplePlatform : Platform := ⟨sampleSizes, 0x41100000, fun _ => 0, by decide, by decide⟩

/-- A machine whose memory is all ones, with an empty disk. -/
def sampleMachine (core : CoreHeader) : Machine := ⟨fun _ => 1, fun _ => 0, core, 0, 0⟩

/-- A page of RAM. -/
abbrev samplePage : CoreHeader := onePage 0x100000

theorem samplePage_geometry : Geometry sampleSizes samplePage := onePage_geometry (by decide)

/-- The page, with a store asked for. -/
abbrev storePage : CoreHeader := samplePage.setAction CORE_ACTION_STORE.toUInt32

theorem storePage_valid : isCoreHeaderValid storePage = true :=
  isCoreHeaderValid_setAction (onePage_valid _) (isCoreHeaderActionValid_toUInt32 _)

theorem storePage_geometry : Geometry sampleSizes storePage := samplePage_geometry.setAction _

theorem savedVector_ones (core : CoreHeader) : core.savedVector (fun _ => 1) ≠ 0 := by
  simp only [CoreHeader.savedVector, get32, getLE]
  decide

theorem savedVector_twos (core : CoreHeader) : core.savedVector (fun _ => 2) ≠ 0 := by
  simp only [CoreHeader.savedVector, get32, getLE]
  decide

end SwitchOs
