import SwitchOs.Hooks.Session

/-!
# Back to the kernel

What `core_main` does from its `cleanup` label on: `acpi_setup`, whose result it does not look at, and
`acpi_return_kernel`, which has `_PTS` evaluated, puts the kernel's vector into the FACS and goes to
sleep. `_PTS` is still hooked, so it first puts core's own entry there, and where there is no vector to
put in its place core's entry stays.

uACPI is a parameter (`Uacpi`): it may do anything to memory but the RAM areas and the two vectors.
`coreExit_spec` says what core leaves behind.
-/

namespace SwitchOs

/-- `UACPI_SLEEP_STATE_S3`. -/
def UACPI_SLEEP_STATE_S3 : UInt64 := 3

namespace CoreHeader

/-- The byte `x` lies in the FACS' waking vector. -/
def InWakingVector (core : CoreHeader) (x : ℕ) : Prop :=
  core.facs.toNat + FACS_FIRMWARE_WAKING_VECTOR ≤ x ∧
    x < core.facs.toNat + FACS_FIRMWARE_WAKING_VECTOR + 4

/-- The byte `x` lies in a RAM area or in one of the two vectors. -/
def Guarded (core : CoreHeader) (x : ℕ) : Prop :=
  core.InRam x ∨ core.InWakingVector x ∨ core.InSavedVector x

end CoreHeader

/-- The calls that `acpi_setup` makes. -/
inductive SetupCall where
  | uacpi_initialize
  | uacpi_namespace_load
  | uacpi_namespace_initialize
  | uacpi_finalize_gpe_initialization
  deriving DecidableEq, Repr

/-- uACPI, as far as `core/acpi.c` uses it: whether a call of `acpi_setup` succeeds and what it does
to memory, whether `uacpi_prepare_for_sleep_state` comes to evaluate `_PTS`, and what
`uacpi_set_waking_vector` writes. -/
structure Uacpi (core : CoreHeader) where
  setup : SetupCall → (ℕ → UInt8) → Bool × (ℕ → UInt8)
  evaluatesPts : (ℕ → UInt8) → Bool
  setWakingVector : UInt32 → (ℕ → UInt8) → (ℕ → UInt8)
  setup_guarded : ∀ call mem x, core.Guarded x → (setup call mem).2 x = mem x
  setWakingVector_vector : ∀ v mem, core.wakingVector (setWakingVector v mem) = v
  setWakingVector_guarded : ∀ v mem x, core.InRam x ∨ core.InSavedVector x →
    setWakingVector v mem x = mem x

variable {S : CoreSizes} {core : CoreHeader}

/-- One call of `acpi_setup`, with the check behind it. -/
def setupCall (U : Uacpi core) (call : SetupCall) : Core Unit := do
  let m ← Prog.get
  Prog.modify fun m => { m with mem := (U.setup call m.mem).2 }
  check (U.setup call m.mem).1

/-- `acpi_setup`. -/
def acpiSetup (U : Uacpi core) : Core Unit := do
  setupCall U SetupCall.uacpi_initialize
  setupCall U SetupCall.uacpi_namespace_load
  setupCall U SetupCall.uacpi_namespace_initialize
  setupCall U SetupCall.uacpi_finalize_gpe_initialization

/-- `uacpi_prepare_for_sleep_state(UACPI_SLEEP_STATE_S3)`, with the hooked `_PTS`. -/
def prepareForSleepState (U : Uacpi core) (F : Firmware core.facs) (m : Machine) : Machine :=
  if U.evaluatesPts m.mem then ptsHook F UACPI_SLEEP_STATE_S3 m else m

/-- `acpi_return_kernel`, up to the sleep. -/
def acpiReturnKernel (U : Uacpi core) (F : Firmware core.facs) (wakingVector : UInt32) :
    Core Unit := do
  Prog.modify (prepareForSleepState U F)
  if wakingVector ≠ 0 then
    Prog.modify fun m => { m with mem := U.setWakingVector wakingVector m.mem }

/-- The `cleanup` label of `core_main`. -/
def coreExit (U : Uacpi core) (F : Firmware core.facs) : Core Unit := do
  let _ ← Prog.succeeds (acpiSetup U)
  let m ← Prog.get
  acpiReturnKernel U F m.kernelWakingVector

/-- A whole execution of core, from the wakeup to the sleep that it ends in. -/
def coreExecution (P : Platform) (dev : BlkDev) (fuel : ℕ) (U : Uacpi core) (F : Firmware core.facs)
    (m : Machine) : Option Machine :=
  (coreMain P dev fuel m).bind fun m => (coreExit U F m).map Prod.snd

/-- The firmware's own `_PTS` leaves the RAM areas alone. -/
def SparesRam (core : CoreHeader) (F : Firmware core.facs) : Prop :=
  ∀ arg0 mem x, core.InRam x → F.spts arg0 mem x = mem x

/-! ## What uACPI keeps -/

/-- The machine is `m`, but for bytes of memory that are not guarded. -/
structure KeepsGuarded (core : CoreHeader) (m m' : Machine) : Prop where
  guarded : ∀ x, core.Guarded x → m'.mem x = m.mem x
  disk : m'.disk = m.disk
  header : m'.core = m.core
  vector : m'.kernelWakingVector = m.kernelWakingVector

variable {U : Uacpi core} {F : Firmware core.facs} {m m' : Machine}

theorem KeepsGuarded.refl (m : Machine) : KeepsGuarded core m m := ⟨fun _ _ => rfl, rfl, rfl, rfl⟩

theorem setupCall_keeps (U : Uacpi core) (call : SetupCall) (m : Machine) :
    Prog.Preserves (KeepsGuarded core m) (setupCall U call) := by
  refine Prog.preserves_bind Prog.preserves_get fun t => ?_
  refine Prog.preserves_bind (Prog.preserves_modify fun s hs => ?_) fun _ => Prog.preserves_check _ _
  exact ⟨fun x hx => (U.setup_guarded call s.mem x hx).trans (hs.guarded x hx), hs.disk, hs.header,
    hs.vector⟩

theorem acpiSetup_keeps (U : Uacpi core) (m : Machine) :
    Prog.Preserves (KeepsGuarded core m) (acpiSetup U) :=
  Prog.preserves_bind (setupCall_keeps U _ m) fun _ =>
    Prog.preserves_bind (setupCall_keeps U _ m) fun _ =>
      Prog.preserves_bind (setupCall_keeps U _ m) fun _ => setupCall_keeps U _ m

theorem returns_setupCall (U : Uacpi core) (call : SetupCall) : Prog.Returns (setupCall U call) :=
  Prog.returns_bind Prog.returns_get fun _ =>
    Prog.returns_bind (Prog.returns_modify _) fun _ => Prog.returns_check _ _

theorem returns_acpiSetup (U : Uacpi core) : Prog.Returns (acpiSetup U) :=
  Prog.returns_bind (returns_setupCall U _) fun _ =>
    Prog.returns_bind (returns_setupCall U _) fun _ =>
      Prog.returns_bind (returns_setupCall U _) fun _ => returns_setupCall U _

/-- Whatever `acpi_setup` reports, core goes on with what is guarded as it was. -/
theorem succeeds_acpiSetup (U : Uacpi core) (m : Machine) :
    ∃ ok t, Prog.succeeds (acpiSetup U) m = some (.ok ok, t) ∧ KeepsGuarded core m t := by
  obtain ⟨r, t, hrun⟩ := returns_acpiSetup U m
  have hkeeps : KeepsGuarded core m t := acpiSetup_keeps U m m r t (.refl m) hrun
  cases r with
  | ok _ => exact ⟨true, t, by rw [Prog.succeeds, hrun], hkeeps⟩
  | error _ => exact ⟨false, t, by rw [Prog.succeeds, hrun], hkeeps⟩

theorem KeepsGuarded.vectors (h : KeepsGuarded core m m') :
    core.wakingVector m'.mem = core.wakingVector m.mem ∧
      core.savedVector m'.mem = core.savedVector m.mem :=
  ⟨get32_congr fun i hi => h.guarded _ (Or.inr (Or.inl ⟨by omega, by omega⟩)),
    savedVector_congr fun x hx => h.guarded x (Or.inr (Or.inr hx))⟩

/-! ## What core leaves behind -/

/-- The vectors as `_PTS` leaves them: as they were, if it is not evaluated, or core's entry with the
waking vector saved behind it. -/
def Prepared (core : CoreHeader) (mem mem' : ℕ → UInt8) : Prop :=
  (core.wakingVector mem' = core.wakingVector mem ∧ core.savedVector mem' = core.savedVector mem) ∨
    (core.wakingVector mem' = CORE_WAKEUP_PHYS_ADDR ∧ core.savedVector mem' = core.wakingVector mem)

/-- A write to the FACS misses the RAM areas. -/
theorem overrideWakingVector_ram (hg : Geometry S core) {mem : ℕ → UInt8} {x : ℕ}
    (hx : core.InRam x) : core.overrideWakingVector mem x = mem x := by
  have hfacs := hg.apart_facs x hx
  simp only [CoreHeader.InFacs, FACS_SIZE] at hfacs
  rw [CoreHeader.overrideWakingVector, CoreHeader.setWakingVector]
  rw [put32_outside (by simp only [FACS_FIRMWARE_WAKING_VECTOR]; omega),
    put32_outside (by simp only [FACS_RSVD1]; omega)]

theorem ptsHook_ram (hg : Geometry S core) (hspts : SparesRam core F) (hcore : m.core.facs = core.facs)
    {arg0 : UInt64} {x : ℕ} (hx : core.InRam x) : (ptsHook F arg0 m).mem x = m.mem x := by
  have hoverride : m.core.overrideWakingVector m.mem = core.overrideWakingVector m.mem := by
    simp only [CoreHeader.overrideWakingVector, CoreHeader.setWakingVector, CoreHeader.wakingVector,
      hcore]
  show F.spts arg0 (m.core.overrideWakingVector m.mem) x = m.mem x
  rw [hspts _ _ _ hx, hoverride, overrideWakingVector_ram hg hx]

/-- The machine, but for the FACS and for bytes outside the RAM areas. -/
structure SameOs (core : CoreHeader) (m m' : Machine) : Prop where
  ram : ∀ x, core.InRam x → m'.mem x = m.mem x
  disk : m'.disk = m.disk
  header : m'.core = m.core
  vector : m'.kernelWakingVector = m.kernelWakingVector

theorem prepareForSleepState_spec (hg : Geometry S core) (hspts : SparesRam core F)
    (hcore : m.core.facs = core.facs) :
    SameOs core m (prepareForSleepState U F m) ∧
      Prepared core m.mem (prepareForSleepState U F m).mem := by
  unfold prepareForSleepState
  split_ifs with hpts
  · obtain ⟨hwaking, hsaved⟩ := ptsHook_spec F UACPI_SLEEP_STATE_S3 m hcore
    simp only [CoreHeader.wakingVector, CoreHeader.savedVector, hcore] at hwaking hsaved
    exact ⟨⟨fun x hx => ptsHook_ram hg hspts hcore hx, rfl, rfl, rfl⟩, Or.inr ⟨hwaking, hsaved⟩⟩
  · exact ⟨⟨fun _ _ => rfl, rfl, rfl, rfl⟩, Or.inl ⟨rfl, rfl⟩⟩

/-- Core has left for the kernel: the RAM areas, the disk and the header are as they were, the waking
vector is the kernel's, if there is one, and the vectors are otherwise as `_PTS` leaves them. -/
structure Leaves (core : CoreHeader) (m m' : Machine) : Prop extends SameOs core m m' where
  waking : m.kernelWakingVector ≠ 0 → core.wakingVector m'.mem = m.kernelWakingVector
  saved : core.savedVector m'.mem = core.savedVector m.mem ∨
    core.savedVector m'.mem = core.wakingVector m.mem
  prepared : m.kernelWakingVector = 0 → Prepared core m.mem m'.mem

/-- **Core always goes back to sleep**, whether uACPI comes up or not. -/
theorem coreExit_spec (hg : Geometry S core) (hspts : SparesRam core F)
    (hcore : m.core.facs = core.facs) :
    ∃ m', coreExit U F m = some (.ok (), m') ∧ Leaves core m m' := by
  obtain ⟨ok, t, hsetup, hkeeps⟩ := succeeds_acpiSetup U m
  have hcore' : t.core.facs = core.facs := by rw [hkeeps.header, hcore]
  obtain ⟨hwaking, hsaved⟩ := hkeeps.vectors
  obtain ⟨hsame, hprepared⟩ := prepareForSleepState_spec (U := U) hg hspts hcore'
  have hos : SameOs core m (prepareForSleepState U F t) :=
    ⟨fun x hx => (hsame.ram x hx).trans (hkeeps.guarded x (Or.inl hx)), hsame.disk.trans hkeeps.disk,
      hsame.header.trans hkeeps.header, hsame.vector.trans hkeeps.vector⟩
  have hprep : Prepared core m.mem (prepareForSleepState U F t).mem := by
    rwa [Prepared, hwaking, hsaved] at hprepared
  by_cases hv : m.kernelWakingVector = 0
  · refine ⟨prepareForSleepState U F t, ?_, hos, fun h => absurd hv h, ?_, fun _ => hprep⟩
    · rw [coreExit, Prog.bind_ok hsetup, Prog.bind_get_apply, acpiReturnKernel,
        Prog.bind_modify_apply, hkeeps.vector, if_neg (not_not_intro hv)]
      rfl
    · exact hprep.imp And.right And.right
  · have hne : t.kernelWakingVector ≠ 0 := by rwa [hkeeps.vector]
    refine ⟨{ prepareForSleepState U F t with
        mem := U.setWakingVector m.kernelWakingVector (prepareForSleepState U F t).mem }, ?_,
      ⟨fun x hx => ?_, hos.disk, hos.header, hos.vector⟩, fun _ => U.setWakingVector_vector _ _, ?_,
      fun h => absurd h hv⟩
    · rw [coreExit, Prog.bind_ok hsetup, Prog.bind_get_apply, acpiReturnKernel,
        Prog.bind_modify_apply, if_pos hne, hkeeps.vector]
      rfl
    · exact (U.setWakingVector_guarded _ _ x (Or.inl hx)).trans (hos.ram x hx)
    · have hfield : core.savedVector
          (U.setWakingVector m.kernelWakingVector (prepareForSleepState U F t).mem) =
            core.savedVector (prepareForSleepState U F t).mem :=
        savedVector_congr fun x hx => U.setWakingVector_guarded _ _ x (Or.inr hx)
      rw [hfield]
      exact hprep.imp And.right And.right

/-- An execution of core that comes out of its action ends in the kernel's sleep. -/
theorem coreExecution_spec {P : Platform} {dev : BlkDev} {fuel : ℕ} (hg : Geometry S core)
    (hspts : SparesRam core F) (hcore : m.core.facs = core.facs) {t : Machine}
    (hrun : coreMain P dev fuel m = some t) :
    ∃ m', coreExecution P dev fuel U F m = some m' ∧ Leaves core t m' := by
  obtain ⟨m', hexit, hleaves⟩ := coreExit_spec (U := U) hg hspts
    (show t.core.facs = core.facs by rw [coreMain_core hrun, hcore])
  refine ⟨m', ?_, hleaves⟩
  rw [coreExecution, hrun, Option.bind_some, hexit]
  rfl

end SwitchOs
