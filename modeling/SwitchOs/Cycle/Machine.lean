import SwitchOs.Core.Return

/-!
# From S3 to S3

The whole machine: an OS runs, its kernel writes its waking vector, the hooks put core's entry there,
the machine suspends; the firmware jumps to what it finds in the FACS, which is core's entry or the
kernel's. Core does what it has been asked to do and suspends the machine again, with a kernel's
vector in the FACS. Nothing but the two words of the FACS says who is next.

`cycle_simulates_twoSlot` is the refinement: what the OSes see of all this are the steps of the
two-slot machine.
-/

namespace SwitchOs

open CoreAction

/-- What happens to the machine. -/
inductive CycleEvent where
  | execute (mem : ℕ → UInt8)
  | hook (e : WakeEvent)
  | sleep
  | core (os : Image × UInt32) (request : CoreAction) (vector : UInt32)
  | resume (vector : UInt32)

/-- The machine, with the last vector that the running kernel wrote; whether it is in S3; and whether
core has run since it was suspended. -/
structure Cycle where
  watched : Watched
  asleep : Bool
  served : Bool

namespace Cycle

def machine (s : Cycle) : Machine := s.watched.machine

/-- The OS as the machine is suspended: its RAM image, and the saved vector. -/
def suspended (core : CoreHeader) (s : Cycle) : Image × UInt32 :=
  (ramImage core s.machine.mem, core.savedVector s.machine.mem)

/-- The OS that the firmware resumes: the RAM image, and the waking vector. -/
def resumable (core : CoreHeader) (s : Cycle) : Image × UInt32 :=
  (ramImage core s.machine.mem, core.wakingVector s.machine.mem)

/-- The two-slot machine as core wakes up: the running OS is the suspended one, with its request. -/
def offered (core : CoreHeader) (s : Cycle) (request : CoreAction) (a : TwoSlot (Image × UInt32)) :
    TwoSlot (Image × UInt32) :=
  { a with running := s.suspended core, request := request, asleep := true }

end Cycle

/-- The steps of the machine, with the devices in `D`. -/
inductive CycleStep (P : Platform) (fuel : ℕ) (core : CoreHeader) (F : Firmware core.facs)
    (D : BlkDev → Prop) : Cycle → CycleEvent → Cycle → Prop
  | execute {s : Cycle} (mem : ℕ → UInt8) : s.asleep = false →
      (∀ x, core.InFacs x → mem x = s.machine.mem x) →
      CycleStep P fuel core F D s (.execute mem)
        { s with watched := ⟨{ s.machine with mem := mem }, s.watched.lastWritten⟩ }
  | hook {s : Cycle} {e : WakeEvent} {w : Watched} : s.asleep = false → WakeStep F s.watched e w →
      CycleStep P fuel core F D s (.hook e) { s with watched := w }
  | sleep {s : Cycle} : s.asleep = false →
      CycleStep P fuel core F D s .sleep { s with asleep := true, served := false }
  | core {s : Cycle} {dev : BlkDev} {U : Uacpi core} {request : CoreAction} {m : Machine} :
      s.asleep = true → core.wakingVector s.machine.mem = CORE_WAKEUP_PHYS_ADDR → D dev →
      s.machine.core = core.setAction request.toUInt32 →
      coreExecution P dev fuel U F s.machine = some m →
      CycleStep P fuel core F D s (.core (s.suspended core) request m.kernelWakingVector)
        ⟨⟨m, none⟩, true, true⟩
  | resume {s : Cycle} : s.asleep = true →
      core.wakingVector s.machine.mem ≠ CORE_WAKEUP_PHYS_ADDR →
      CycleStep P fuel core F D s (.resume (core.wakingVector s.machine.mem))
        ⟨⟨s.machine, none⟩, false, false⟩

/-- What the two-slot machine sees of an event. -/
def CycleEvent.seen : CycleEvent → List (Event (Image × UInt32) UInt32)
  | .core os request vector => [.execute os request, .wake vector]
  | _ => []

/-- No `_PTS` after the kernel's first write finds core's entry; the kernel has written its vector
before it suspends; and a switch to a dump on the disk is only asked for where the loop of
`switch_memory_area` stays inside the address space. -/
def Orderly (core : CoreHeader) (s : Cycle) : CycleEvent → Prop
  | .hook e => PtsFindsKernel s.watched e
  | .sleep => s.watched.lastWritten ≠ none
  | .core _ request _ => request = CORE_ACTION_SWITCH →
      isDumpHeaderValid core s.machine.disk = true → ChunksFit core
  | _ => True

/-- A vector that a kernel may write. -/
def KernelVector (v : UInt32) : Prop := v ≠ 0 ∧ v ≠ CORE_WAKEUP_PHYS_ADDR

/-- The vectors of the kernels, the saved one and the one that core has put back, are in `V`. -/
structure Wakes (core : CoreHeader) (V : UInt32 → Prop) (s : Cycle) : Prop where
  action : ∃ request : CoreAction, s.machine.core = core.setAction request.toUInt32
  vector : VectorInv core.facs s.watched
  written : ∀ v, s.watched.lastWritten = some v → V v
  suspended : s.asleep = true → s.served = false → s.watched.lastWritten ≠ none
  served : s.asleep = true → s.served = true → V (core.wakingVector s.machine.mem)

/-- The machine `s`, whose OSes are those of `a`. -/
structure Related (core : CoreHeader) (s : Cycle) (a : TwoSlot (Image × UInt32)) : Prop where
  wakes : Wakes core KernelVector s
  stored : StoredOn core s.machine.disk a.stored
  storedVector : ∀ os, a.stored = some os → KernelVector os.2
  between : a.asleep = false
  running : s.asleep = true → s.served = true → a.running = s.resumable core

section Steps

variable {P : Platform} {fuel : ℕ} {core : CoreHeader} {F : Firmware core.facs} {D : BlkDev → Prop}
  {V : UInt32 → Prop} {s t : Cycle} {a : TwoSlot (Image × UInt32)}

/-! ## The running OS -/

/-- The hook leaves the disk alone. -/
theorem setVariableHook_disk (F : Firmware core.facs) (call : SetVariableCall) (m : Machine) :
    (setVariableHook F call m).2.disk = m.disk := by
  rw [setVariableHook]
  split_ifs with hguid hsize hcheckpoint
  · rfl
  · cases handleCommand call.variableName call.data call.dataSize m.core <;> rfl
  · rfl
  · rfl

/-- It changes the header to no more than another action. -/
theorem setVariableHook_action (call : SetVariableCall) {m : Machine}
    (h : ∃ request : CoreAction, m.core = core.setAction request.toUInt32) :
    ∃ request : CoreAction,
      (setVariableHook F call m).2.core = core.setAction request.toUInt32 := by
  obtain ⟨request, hcore⟩ := h
  have hfacs : m.core.facs = core.facs := by
    rw [hcore]
    rfl
  rcases setVariableHook_cases F call m hfacs with (heq | ⟨action, hvalid, heq⟩) | ⟨hsame, -⟩
  · exact ⟨request, by rw [heq, hcore]⟩
  · obtain ⟨b, rfl⟩ := exists_action_of_valid hvalid
    exact ⟨b, by rw [heq, hcore]; rfl⟩
  · exact ⟨request, by rw [hsame, hcore]⟩

theorem WakeStep.disk {w w' : Watched} {e : WakeEvent} (hstep : WakeStep F w e w') :
    w'.machine.disk = w.machine.disk := by
  cases hstep with
  | write _ _ => rfl
  | pts arg0 => rfl
  | setVariable call => exact setVariableHook_disk F call _

theorem Wakes.execute (h : Wakes core V s) (hawake : s.asleep = false) {mem : ℕ → UInt8}
    (hmem : ∀ x, core.InFacs x → mem x = s.machine.mem x) :
    Wakes core V { s with watched := ⟨{ s.machine with mem := mem }, s.watched.lastWritten⟩ } := by
  obtain ⟨request, hcore⟩ := h.action
  have hvectors : s.machine.core.wakingVector mem = s.machine.core.wakingVector s.machine.mem ∧
      s.machine.core.savedVector mem = s.machine.core.savedVector s.machine.mem := by
    rw [hcore]
    exact vectors_congr fun x hx hx' => hmem x ⟨hx, hx'⟩
  refine ⟨⟨request, hcore⟩, ⟨h.vector.facs, fun v hv => ?_⟩, h.written,
    fun hs => by simp [hawake] at hs, fun hs => by simp [hawake] at hs⟩
  simp only [Watched.waking, Watched.saved]
  rw [hvectors.1, hvectors.2]
  exact h.vector.vector v hv

theorem Wakes.hook (h : Wakes core V s) (hawake : s.asleep = false) {e : WakeEvent} {w : Watched}
    (hfinds : PtsFindsKernel s.watched e) (hwrite : ∀ v, e = .write v → V v)
    (hstep : WakeStep F s.watched e w) : Wakes core V { s with watched := w } := by
  have hvector : VectorInv core.facs w := h.vector.step ⟨hfinds, hstep⟩
  have hrest : (∃ request : CoreAction, w.machine.core = core.setAction request.toUInt32) ∧
      ∀ v, w.lastWritten = some v → V v := by
    cases hstep with
    | write _ _ => exact ⟨h.action, fun v hv => hwrite v (by rw [Option.some.inj hv])⟩
    | pts arg0 => exact ⟨h.action, h.written⟩
    | setVariable call => exact ⟨setVariableHook_action call h.action, h.written⟩
  exact ⟨hrest.1, hvector, hrest.2, fun hs => by simp [hawake] at hs,
    fun hs => by simp [hawake] at hs⟩

theorem Wakes.sleep (h : Wakes core V s) (hwritten : s.watched.lastWritten ≠ none) :
    Wakes core V { s with asleep := true, served := false } :=
  ⟨h.action, h.vector, h.written, fun _ _ => hwritten, nofun⟩

theorem Wakes.resume (h : Wakes core V s) : Wakes core V ⟨⟨s.machine, none⟩, false, false⟩ :=
  ⟨h.action, ⟨h.vector.facs, nofun⟩, nofun, nofun, nofun⟩

/-- Core has put a vector of `V` back. -/
theorem Wakes.served_core (h : Wakes core V s) {m : Machine} (hcore : m.core = s.machine.core)
    (hwaking : V (core.wakingVector m.mem)) : Wakes core V ⟨⟨m, none⟩, true, true⟩ := by
  obtain ⟨request, haction⟩ := h.action
  refine ⟨⟨request, hcore.trans haction⟩, ⟨?_, nofun⟩, nofun, nofun, fun _ _ => hwaking⟩
  show m.core.facs = core.facs
  rw [hcore, haction]
  rfl

/-! ## Core -/

/-- A machine that the firmware hands to core is one that a kernel has suspended, and its vector is
saved. -/
theorem Wakes.saved (h : Wakes core V s) (hV : ∀ v, V v → KernelVector v) (hs : s.asleep = true)
    (hwaking : core.wakingVector s.machine.mem = CORE_WAKEUP_PHYS_ADDR) :
    V (core.savedVector s.machine.mem) := by
  obtain ⟨request, hcore⟩ := h.action
  have hunserved : s.served = false := by
    by_contra hserved
    exact (hV _ (h.served hs (by simpa using hserved))).2 hwaking
  obtain ⟨v, hv⟩ := Option.ne_none_iff_exists'.mp (h.suspended hs hunserved)
  obtain ⟨hne, hcases⟩ := h.vector.vector v hv
  have hin : s.watched.waking = CORE_WAKEUP_PHYS_ADDR := by
    rw [Watched.waking, show s.watched.machine.core = _ from hcore]
    exact hwaking
  have hsaved : core.savedVector s.machine.mem = v := by
    rcases hcases with hkernel | ⟨-, hsaved⟩
    · exact absurd (hkernel.symm.trans hin) hne
    · rw [Watched.saved, show s.watched.machine.core = _ from hcore] at hsaved
      exact hsaved
  rw [hsaved]
  exact h.written v hv

/-- A kernel that suspends the machine with its own vector in the FACS is resumed with it. -/
theorem Wakes.unserved (h : Wakes core V s) (hs : s.asleep = true) (hunserved : s.served = false)
    (hne : core.wakingVector s.machine.mem ≠ CORE_WAKEUP_PHYS_ADDR) :
    s.watched.lastWritten = some (core.wakingVector s.machine.mem) := by
  obtain ⟨v, hv⟩ := Option.ne_none_iff_exists'.mp (h.suspended hs hunserved)
  obtain ⟨request, hcore⟩ := h.action
  obtain ⟨-, hcases⟩ := h.vector.vector v hv
  rw [Watched.waking, show s.watched.machine.core = _ from hcore] at hcases
  rcases hcases with hkernel | ⟨hentry, -⟩
  · rw [hv, ← hkernel]
    rfl
  · exact absurd hentry hne

/-- The machine, as the system that core finds and the two-slot machine before its wakeup. -/
theorem Related.sim (h : Related core s a) {request : CoreAction}
    (hcore : s.machine.core = core.setAction request.toUInt32)
    (hsaved : KernelVector (core.savedVector s.machine.mem)) :
    Sim core ⟨s.machine, true⟩ (s.offered core request a) :=
  ⟨hcore, rfl, fun _ => hsaved.1, rfl, h.stored⟩

/-- The vector of the OS that core resumes is one that a kernel has written. -/
theorem act_vector {a : TwoSlot (Image × UInt32)} (hrunning : V a.running.2)
    (hstored : ∀ os, a.stored = some os → V os.2) :
    V a.act.running.2 ∧ ∀ os, a.act.stored = some os → V os.2 := by
  unfold TwoSlot.act
  split
  case h_1 => exact ⟨hrunning, fun os hos => by rwa [← Option.some.inj hos]⟩
  case h_2 os hreq hst =>
    exact ⟨hstored os hst, fun os hos => by rwa [← Option.some.inj hos]⟩
  case h_3 => exact ⟨hrunning, hstored⟩
  case h_4 => exact ⟨hrunning, hstored⟩

theorem ramImage_congr {mem mem' : ℕ → UInt8} (h : ∀ x, core.InRam x → mem' x = mem x) :
    ramImage core mem' = ramImage core mem :=
  ramImage_eq_iff.mpr fun i hi => window_eq_window.mpr fun j hj =>
    h _ ⟨i, hi, by omega, by omega⟩

/-- **An execution of core** on a disk that does what it is asked: it ends, and what the firmware finds
then is the OS that the two-slot machine resumes. -/
theorem Related.core_runs (hvalid : isCoreHeaderValid core = true) (hg : Geometry P.sizes core)
    (hfuel : switchFuel ≤ fuel) (hspts : SparesRam core F) (h : Related core s a)
    (hs : s.asleep = true) {request : CoreAction}
    (hcore : s.machine.core = core.setAction request.toUInt32)
    (hwaking : core.wakingVector s.machine.mem = CORE_WAKEUP_PHYS_ADDR)
    (hfit : request = CORE_ACTION_SWITCH → isDumpHeaderValid core s.machine.disk = true →
      ChunksFit core) (U : Uacpi core) :
    ∃ m, coreExecution P .exact fuel U F s.machine = some m ∧
      Runs TwoSlot.Step a [.execute (s.suspended core) request, .wake m.kernelWakingVector]
        (s.offered core request a).act ∧
      Related core ⟨⟨m, none⟩, true, true⟩ (s.offered core request a).act := by
  have hsaved := h.wakes.saved (fun _ hv => hv) hs hwaking
  have hsim := h.sim hcore hsaved
  have hfitting : Fitting core ⟨s.machine, true⟩ (.wake 0) := by
    intro _ haction
    refine hfit ?_
    rw [show (⟨s.machine, true⟩ : System).machine.core = _ from hcore,
      CoreHeader.setAction_action] at haction
    cases request <;> first | rfl | exact absurd haction (by decide)
  obtain ⟨m, hrun, hv, hsim'⟩ := hsim.wake (P := P) hvalid hg hfuel rfl hfitting
  obtain ⟨m', hexec, hleaves⟩ := coreExecution_spec (U := U) hg hspts (by rw [hcore]; rfl) hrun
  obtain ⟨hvector, hstored⟩ := act_vector (a := s.offered core request a) hsaved h.storedVector
  have hv' : m'.kernelWakingVector = (s.offered core request a).act.running.2 :=
    hleaves.vector.trans hv
  have hwaking' : core.wakingVector m'.mem = m.kernelWakingVector :=
    hleaves.waking (by rw [hv]; exact hvector.1)
  refine ⟨m', hexec, .cons (.execute a _ request) (.cons ?_ (.nil _)), ?_, ?_, hstored,
    hsim'.asleep, fun _ _ => ?_⟩
  · rw [hv']
    exact .wake _ rfl
  · refine h.wakes.served_core (hleaves.header.trans (coreMain_core hrun)) ?_
    rw [hwaking', hv]
    exact hvector
  · show StoredOn core m'.disk _
    rw [hleaves.disk]
    exact hsim'.stored
  · rw [hsim'.running, Cycle.resumable, System.running]
    show (ramImage core m.mem, m.kernelWakingVector) = (ramImage core m'.mem, core.wakingVector m'.mem)
    rw [ramImage_congr hleaves.ram, hwaking']

/-! ## The simulation -/

/-- A step of the running OS, or of the firmware, that the two-slot machine does not see. -/
theorem Related.unseen (h : Related core s a) (hwakes : Wakes core KernelVector t)
    (hdisk : t.machine.disk = s.machine.disk) (hunserved : t.asleep = true → t.served = false) :
    Related core t a := by
  refine ⟨hwakes, ?_, h.storedVector, h.between, fun hs hserved => ?_⟩
  · rw [hdisk]
    exact h.stored
  · rw [hunserved hs] at hserved
    cases hserved

/-- One step of the machine is what the two-slot machine sees of it. -/
theorem cycle_simulates (hvalid : isCoreHeaderValid core = true) (hg : Geometry P.sizes core)
    (hfuel : switchFuel ≤ fuel) (hspts : SparesRam core F) :
    SimulatesBy CycleEvent.seen (Where (Orderly core) (CycleStep P fuel core F (· = .exact)))
      TwoSlot.Step (Related core) := by
  rintro s a e t h ⟨horderly, hstep⟩
  cases hstep with
  | execute mem hawake hmem =>
    exact ⟨a, .nil a, h.unseen (h.wakes.execute hawake hmem) rfl fun hs => by simp [hawake] at hs⟩
  | @hook e w hawake hwake =>
    have hwrite : ∀ v, e = .write v → KernelVector v := by
      rintro v rfl
      cases hwake with
      | write hv hne => exact ⟨hv, hne⟩
    exact ⟨a, .nil a, h.unseen (h.wakes.hook hawake horderly hwrite hwake) hwake.disk
      fun hs => by simp [hawake] at hs⟩
  | sleep _ => exact ⟨a, .nil a, h.unseen (h.wakes.sleep horderly) rfl fun _ => rfl⟩
  | @core dev U request m hs hwaking hdev hcore hexec =>
    subst hdev
    obtain ⟨m', hexec', hruns, hrelated⟩ :=
      h.core_runs (P := P) hvalid hg hfuel hspts hs hcore hwaking horderly U
    obtain rfl : m = m' := Option.some.inj (hexec.symm.trans hexec')
    exact ⟨_, hruns, hrelated⟩
  | resume _ _ => exact ⟨a, .nil a, h.unseen h.wakes.resume rfl fun _ => rfl⟩

/-- Whatever the firmware resumes: after core has run, the OS that the two-slot machine runs, and
otherwise the kernel that has suspended the machine. -/
theorem Related.resumes (h : Related core s a) {v : UInt32}
    (hstep : CycleStep P fuel core F D s (.resume v) t) :
    (s.served = true → (ramImage core t.machine.mem, v) = a.running) ∧
      (s.served = false → s.watched.lastWritten = some v) := by
  cases hstep with
  | resume hs hne =>
    exact ⟨fun hserved => (h.running hs hserved).symm,
      fun hunserved => h.wakes.unserved hs hunserved hne⟩

end Steps

section Runs

variable {P : Platform} {fuel : ℕ} {core : CoreHeader} {F : Firmware core.facs}

/-- **From S3 to S3 the machine is a two-slot machine.** In every orderly run from a disk without a
dump, what core does is what the two-slot machine does; the firmware resumes the OS that this machine
runs if core has been served, and else the kernel that suspended; and whenever the firmware finds core's
entry, core runs and hands the machine back, whatever uACPI reports. -/
theorem cycle_simulates_twoSlot (P : Platform) (hspts : SparesRam core F)
    (hvalid : isCoreHeaderValid core = true) (hg : Geometry P.sizes core) (hfuel : switchFuel ≤ fuel)
    {m : Machine} {request : CoreAction} (hcore : m.core = core.setAction request.toUInt32)
    (hmagic : DumpHeader.magic m.disk ≠ CORE_DISK_DUMP_MAGIC) {es : List CycleEvent} {s : Cycle}
    (hrun : Runs (Where (Orderly core) (CycleStep P fuel core F (· = .exact)))
      ⟨⟨m, none⟩, false, false⟩ es s) :
    ∃ a, Runs TwoSlot.Step
        ⟨(ramImage core m.mem, core.wakingVector m.mem), none, request, false⟩
        (es.flatMap CycleEvent.seen) a ∧
      StoredOn core s.machine.disk a.stored ∧
      (∀ v t, CycleStep P fuel core F (· = .exact) s (.resume v) t →
        (s.served = true → (ramImage core t.machine.mem, v) = a.running) ∧
          (s.served = false → s.watched.lastWritten = some v)) ∧
      (s.asleep = true → core.wakingVector s.machine.mem = CORE_WAKEUP_PHYS_ADDR →
        (s.machine.core.action = CORE_ACTION_SWITCH.toUInt32 →
          isDumpHeaderValid core s.machine.disk = true → ChunksFit core) →
        ∀ U : Uacpi core, ∃ m', coreExecution P .exact fuel U F s.machine = some m' ∧
          core.wakingVector m'.mem ≠ CORE_WAKEUP_PHYS_ADDR) := by
  have hinit : Related core ⟨⟨m, none⟩, false, false⟩
      ⟨(ramImage core m.mem, core.wakingVector m.mem), none, request, false⟩ :=
    ⟨⟨⟨request, hcore⟩, ⟨by rw [hcore]; rfl, nofun⟩, nofun, nofun, nofun⟩, storedOn_none hmagic,
      nofun, rfl, nofun⟩
  obtain ⟨a, hruns, hrelated⟩ := (cycle_simulates hvalid hg hfuel hspts).runs hrun _ hinit
  refine ⟨a, hruns, hrelated.stored, fun v t hstep => hrelated.resumes hstep, ?_⟩
  intro hs hwaking hfit U
  obtain ⟨action, haction⟩ := hrelated.wakes.action
  obtain ⟨m', hexec, -, hrelated'⟩ := hrelated.core_runs (P := P) hvalid hg hfuel hspts hs haction
    hwaking (fun hswitch => hfit (by rw [haction, hswitch]; rfl)) U
  exact ⟨m', hexec, (hrelated'.wakes.served rfl rfl).2⟩

/-! ## A suspend -/

theorem setWakingVector_outside (hapart : ∀ x, core.InRam x → ¬ core.InFacs x) (v : UInt32)
    (mem : ℕ → UInt8) {x : ℕ} (hx : core.InRam x ∨ core.InSavedVector x) :
    core.setWakingVector v mem x = mem x := by
  rw [CoreHeader.setWakingVector]
  refine put32_outside ?_
  rcases hx with hram | hsaved
  · have hfacs := hapart x hram
    simp only [CoreHeader.InFacs, FACS_SIZE, FACS_FIRMWARE_WAKING_VECTOR] at hfacs ⊢
    omega
  · simp only [CoreHeader.InSavedVector, FACS_RSVD1, FACS_FIRMWARE_WAKING_VECTOR] at hsaved ⊢
    omega

/-- uACPI that comes up, evaluates `_PTS` and writes nothing but the waking vector. -/
def quietUacpi (hapart : ∀ x, core.InRam x → ¬ core.InFacs x) : Uacpi core where
  setup _ mem := (true, mem)
  evaluatesPts _ := true
  setWakingVector v mem := core.setWakingVector v mem
  setup_guarded _ _ _ _ := rfl
  setWakingVector_vector v _ := wakingVector_setWakingVector v
  setWakingVector_guarded v mem _ hx := setWakingVector_outside hapart v mem hx

theorem onePage_apart_facs : ∀ x, (onePage 0x100000).InRam x → ¬ (onePage 0x100000).InFacs x :=
  (onePage_geometry (by decide)).apart_facs

/-- An OS asks for a store, writes its vector, has `_PTS` evaluated and suspends. -/
def storingEvents : List CycleEvent :=
  [.hook (.setVariable storeCommand), .hook (.write 0x9000), .hook (.pts 3), .sleep]

/-- What it leaves of a machine. -/
def storingCycle (core : CoreHeader) (F : Firmware core.facs) (m : Machine) : Cycle where
  watched := ⟨ptsHook F 3 { m with
    mem := m.core.setWakingVector 0x9000 m.mem
    core := m.core.setAction CORE_ACTION_STORE.toUInt32 }, some 0x9000⟩
  asleep := true
  served := false

section Storing

variable {D : BlkDev → Prop} {m : Machine}

theorem storingCycle_vectors (F : Firmware core.facs) (hfacs : m.core.facs = core.facs) :
    core.wakingVector (storingCycle core F m).machine.mem = CORE_WAKEUP_PHYS_ADDR ∧
      core.savedVector (storingCycle core F m).machine.mem = 0x9000 := by
  obtain ⟨hwaking, hsaved⟩ := ptsHook_spec F 3 { m with
    mem := m.core.setWakingVector 0x9000 m.mem
    core := m.core.setAction CORE_ACTION_STORE.toUInt32 } hfacs
  have hfacs' : (m.core.setAction CORE_ACTION_STORE.toUInt32).facs = core.facs := hfacs
  have hwritten : (m.core.setAction CORE_ACTION_STORE.toUInt32).wakingVector
      (m.core.setWakingVector 0x9000 m.mem) = 0x9000 :=
    wakingVector_setWakingVector 0x9000
  rw [hwritten] at hsaved
  simp only [CoreHeader.wakingVector, CoreHeader.savedVector, hfacs'] at hwaking hsaved ⊢
  exact ⟨hwaking, hsaved⟩

theorem runs_storingEvents (F : Firmware core.facs) :
    Runs (Where (Orderly core) (CycleStep P fuel core F D)) ⟨⟨m, none⟩, false, false⟩ storingEvents
      (storingCycle core F m) := by
  have hcommand : CycleStep P fuel core F D ⟨⟨m, none⟩, false, false⟩
      (.hook (.setVariable storeCommand))
      ⟨⟨{ m with core := m.core.setAction CORE_ACTION_STORE.toUInt32 }, none⟩, false, false⟩ := by
    have hstep : WakeStep F ⟨m, none⟩ (.setVariable storeCommand) _ := .setVariable _ storeCommand
    rw [setVariableHook_accepted F storeCommand_accepted] at hstep
    exact .hook rfl hstep
  refine .cons ⟨nofun, hcommand⟩ (.cons ⟨nofun, .hook rfl (.write _ (by decide) (by decide))⟩
    (.cons ⟨?_, .hook rfl (.pts _ 3)⟩ (.cons ⟨nofun, .sleep rfl⟩ (.nil _))))
  rintro arg0 - - hentry
  rw [Watched.waking] at hentry
  exact absurd ((wakingVector_setWakingVector (0x9000 : UInt32)).symm.trans hentry) (by decide)

theorem orderly_store {s : Cycle} {os : Image × UInt32} {v : UInt32} :
    Orderly core s (.core os CORE_ACTION_STORE v) := by
  intro hswitch
  cases hswitch

/-- Core then runs, on a device in `D`. -/
theorem step_storingCycle {dev : BlkDev} (hg : Geometry P.sizes core) (hspts : SparesRam core F)
    (hdev : D dev) (hcore : m.core = core.setAction CORE_ACTION_NOOP.toUInt32) {t : Machine}
    (hrun : coreMain P dev fuel (storingCycle core F m).machine = some t)
    (hv : t.kernelWakingVector = 0x9000) :
    ∃ m', Where (Orderly core) (CycleStep P fuel core F D) (storingCycle core F m)
        (.core ((storingCycle core F m).suspended core) CORE_ACTION_STORE 0x9000)
        ⟨⟨m', none⟩, true, true⟩ ∧
      Leaves core t m' ∧ core.wakingVector m'.mem = 0x9000 := by
  have hheader : (storingCycle core F m).machine.core = core.setAction CORE_ACTION_STORE.toUInt32 := by
    show m.core.setAction CORE_ACTION_STORE.toUInt32 = _
    rw [hcore]
    rfl
  have hfacs : m.core.facs = core.facs := by
    rw [hcore]
    rfl
  obtain ⟨m', hexec, hleaves⟩ := coreExecution_spec (U := quietUacpi hg.apart_facs) hg hspts
    (by rw [hheader]; rfl) hrun
  refine ⟨m', ⟨orderly_store, ?_⟩, hleaves, by rw [hleaves.waking (by rw [hv]; decide), hv]⟩
  have hstep : CycleStep P fuel core F D (storingCycle core F m) _ _ :=
    .core rfl (storingCycle_vectors F hfacs).1 hdev hheader hexec
  rwa [hleaves.vector, hv] at hstep

/-- On a disk that takes what it is given, core stores the OS and hands it back. -/
theorem step_storingCycle_exact (hvalid : isCoreHeaderValid core = true) (hg : Geometry P.sizes core)
    (hspts : SparesRam core F) (hcore : m.core = core.setAction CORE_ACTION_NOOP.toUInt32) :
    ∃ m', Where (Orderly core) (CycleStep P fuel core F (· = .exact)) (storingCycle core F m)
        (.core ((storingCycle core F m).suspended core) CORE_ACTION_STORE 0x9000)
        ⟨⟨m', none⟩, true, true⟩ ∧
      isDumpHeaderValid core m'.disk = true ∧ core.wakingVector m'.mem = 0x9000 := by
  have hheader : (storingCycle core F m).machine.core = core.setAction CORE_ACTION_STORE.toUInt32 := by
    show m.core.setAction CORE_ACTION_STORE.toUInt32 = _
    rw [hcore]
    rfl
  have hsaved : (core.setAction CORE_ACTION_STORE.toUInt32).savedVector
      (storingCycle core F m).machine.mem = 0x9000 :=
    (storingCycle_vectors F (by rw [hcore]; rfl)).2
  have hg' := hg.setAction CORE_ACTION_STORE.toUInt32
  obtain ⟨t, hrun, -, -, hv, hholds⟩ := @coreMain_store P .exact fuel (storingCycle core F m).machine
    (by rw [hheader]; exact isCoreHeaderValid_setAction hvalid (isCoreHeaderActionValid_toUInt32 _))
    (by rw [hheader]; exact hg') (by rw [hheader, hsaved]; decide) (by rw [hheader]; rfl) rfl
    fun _ _ => rfl
  rw [hheader, hsaved] at hv hholds
  obtain ⟨m', hstep, hleaves, hwaking⟩ := step_storingCycle (D := (· = .exact)) hg hspts rfl hcore hrun
    hv
  refine ⟨m', hstep, ?_, hwaking⟩
  rw [hleaves.disk, ← isDumpHeaderValid_setAction CORE_ACTION_STORE.toUInt32]
  exact hholds.laidOut.valid (by decide) hg'.nonempty hg'.aligned

end Storing

/-- The OS has been stored and handed back. -/
theorem cycle_simulates_twoSlot_stored : ∃ os s a,
    Runs (Where (Orderly (onePage 0x100000)) (CycleStep samplePlatform switchFuel
        (onePage 0x100000) (quietFirmware 0x3000) (· = .exact)))
      ⟨⟨sampleMachine (onePage 0x100000), none⟩, false, false⟩
      (storingEvents ++ [.core os CORE_ACTION_STORE 0x9000]) s ∧
    s.asleep = true ∧ a.stored ≠ none ∧
    Runs TwoSlot.Step
        ⟨(ramImage (onePage 0x100000) (sampleMachine (onePage 0x100000)).mem,
          (onePage 0x100000).wakingVector (sampleMachine (onePage 0x100000)).mem), none,
          CORE_ACTION_NOOP, false⟩
        ((storingEvents ++ [CycleEvent.core os CORE_ACTION_STORE 0x9000]).flatMap
          CycleEvent.seen) a ∧
      StoredOn (onePage 0x100000) s.machine.disk a.stored ∧
      (∀ v t, CycleStep samplePlatform switchFuel (onePage 0x100000) (quietFirmware 0x3000)
          (· = .exact) s (.resume v) t →
        (s.served = true → (ramImage (onePage 0x100000) t.machine.mem, v) = a.running) ∧
          (s.served = false → s.watched.lastWritten = some v)) ∧
      (s.asleep = true → (onePage 0x100000).wakingVector s.machine.mem = CORE_WAKEUP_PHYS_ADDR →
        (s.machine.core.action = CORE_ACTION_SWITCH.toUInt32 →
          isDumpHeaderValid (onePage 0x100000) s.machine.disk = true →
            ChunksFit (onePage 0x100000)) →
        ∀ U : Uacpi (onePage 0x100000), ∃ m', coreExecution samplePlatform .exact switchFuel U
            (quietFirmware 0x3000) s.machine = some m' ∧
          (onePage 0x100000).wakingVector m'.mem ≠ CORE_WAKEUP_PHYS_ADDR) := by
  have hvalid : isCoreHeaderValid (onePage 0x100000) = true := onePage_valid _
  have hg : Geometry samplePlatform.sizes (onePage 0x100000) := onePage_geometry (by decide)
  have hcore : (sampleMachine (onePage 0x100000)).core =
      (onePage 0x100000).setAction CORE_ACTION_NOOP.toUInt32 := rfl
  obtain ⟨m', hstep, hdump, -⟩ := step_storingCycle_exact (P := samplePlatform)
    (F := quietFirmware 0x3000) hvalid hg (fun _ _ _ _ => rfl) hcore
  have hasked : Runs (Where (Orderly (onePage 0x100000)) (CycleStep samplePlatform switchFuel
      (onePage 0x100000) (quietFirmware 0x3000) (· = .exact)))
      ⟨⟨sampleMachine (onePage 0x100000), none⟩, false, false⟩ storingEvents
      (storingCycle (onePage 0x100000) (quietFirmware 0x3000) (sampleMachine (onePage 0x100000))) :=
    runs_storingEvents _
  have hrun := hasked.snoc hstep
  obtain ⟨a, hruns, hstored, hrest⟩ := cycle_simulates_twoSlot (F := quietFirmware 0x3000)
    samplePlatform (fun _ _ _ _ => rfl) hvalid hg le_rfl hcore (by decide) hrun
  refine ⟨_, _, a, hrun, rfl, fun hnone => ?_, hruns, hstored, hrest⟩
  rw [hnone] at hstored
  exact absurd (hdump.symm.trans hstored) (by decide)

end Runs

end SwitchOs
