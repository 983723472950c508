import SwitchOs.Core.Main
import SwitchOs.Lib.Runs

/-!
# Core is a two-slot machine

What core is for: at any time one OS runs, and one may be stored. A store copies the running OS into
the second slot, a switch exchanges the two. `TwoSlot` is that machine, over any type of OS; an OS
here is a RAM image with the vector it is woken by.

`Step` is the system under it: OS execution, which may leave any bytes in memory, any nonzero saved
vector and any valid action before it suspends, and executions of `core_main` on a disk that does
what it is asked. `sim_simulates` is the simulation, for the steps that meet `Fitting`: a switch with
a dump on the disk needs `ChunksFit`, since the loop of `switch_memory_area` does not end, or ends
too early, where its address wraps.
-/

namespace SwitchOs

open CoreAction

/-! ## The two-slot machine -/

/-- The running OS, the stored one if there is one, and what core has been asked to do. -/
structure TwoSlot (α : Type) where
  running : α
  stored : Option α
  request : CoreAction
  asleep : Bool

/-- What is seen of a step: what an OS is when it suspends, and the vector it is woken by. -/
inductive Event (α ν : Type) where
  | execute (os : α) (request : CoreAction)
  | wake (vector : ν)

namespace TwoSlot

variable {α ν : Type}

/-- Do what core has been asked to do. -/
def act (s : TwoSlot α) : TwoSlot α :=
  match s.request, s.stored with
  | CORE_ACTION_STORE, _ => { s with stored := some s.running, asleep := false }
  | CORE_ACTION_SWITCH, some os => { s with running := os, stored := some s.running, asleep := false }
  | CORE_ACTION_SWITCH, none => { s with asleep := false }
  | CORE_ACTION_NOOP, _ => { s with asleep := false }

/-- OS execution replaces the running OS; a wakeup acts and resumes the running OS. -/
inductive Step : TwoSlot (α × ν) → Event (α × ν) ν → TwoSlot (α × ν) → Prop
  | execute (s : TwoSlot (α × ν)) (os : α × ν) (request : CoreAction) :
      Step s (.execute os request) { s with running := os, request := request, asleep := true }
  | wake (s : TwoSlot (α × ν)) : s.asleep = true → Step s (.wake s.act.running.2) s.act

end TwoSlot

/-! ## The system -/

/-- The machine, and whether the OS on it is suspended with its vector in the FACS. -/
structure System where
  machine : Machine
  asleep : Bool

/-- Steps of a system with the core header `core` (up to its action) and a disk that never fails. -/
inductive Step (P : Platform) (fuel : ℕ) (core : CoreHeader) :
    System → Event (Image × UInt32) UInt32 → System → Prop
  | execute {s : System} {mem : ℕ → UInt8} {request : CoreAction} :
      core.savedVector mem ≠ 0 →
      Step P fuel core s (.execute (ramImage core mem, core.savedVector mem) request)
        ⟨{ s.machine with mem := mem, core := core.setAction request.toUInt32 }, true⟩
  | wake {s : System} {m : Machine} :
      s.asleep = true → coreMain P .exact fuel s.machine = some m →
      Step P fuel core s (.wake m.kernelWakingVector) ⟨m, false⟩

/-- A switch to a dump on the disk is only asked for where the loop of `switch_memory_area` stays
inside the address space. -/
def Fitting (core : CoreHeader) (s : System) (e : Event (Image × UInt32) UInt32) : Prop :=
  (∃ v, e = .wake v) → s.machine.core.action = CORE_ACTION_SWITCH.toUInt32 →
    isDumpHeaderValid core s.machine.disk = true → ChunksFit core

/-- The OS of a system: its RAM image, and the vector it saved or was last resumed with. -/
def System.running (core : CoreHeader) (s : System) : Image × UInt32 :=
  (ramImage core s.machine.mem,
    if s.asleep then core.savedVector s.machine.mem else s.machine.kernelWakingVector)

/-- What a disk holds in its slot. -/
def StoredOn (core : CoreHeader) (disk : ℕ → UInt8) : Option (Image × UInt32) → Prop
  | none => isDumpHeaderValid core disk = false
  | some os => Holds core os.1 os.2 disk ∧ os.2 ≠ 0

/-- The system `s` is in the state `a` of the two-slot machine. -/
structure Sim (core : CoreHeader) (s : System) (a : TwoSlot (Image × UInt32)) : Prop where
  request : s.machine.core = core.setAction a.request.toUInt32
  asleep : a.asleep = s.asleep
  saved : s.asleep = true → core.savedVector s.machine.mem ≠ 0
  running : a.running = s.running core
  stored : StoredOn core s.machine.disk a.stored

variable {P : Platform} {fuel : ℕ} {core : CoreHeader}

theorem holds_setAction {image : Image} {v : UInt32} {disk : ℕ → UInt8} (action : UInt32) :
    Holds (core.setAction action) image v disk ↔ Holds core image v disk :=
  ⟨fun h => ⟨(laidOut_setAction action).mp h.laidOut, h.image⟩,
    fun h => ⟨(laidOut_setAction action).mpr h.laidOut, h.image⟩⟩

/-- On an exact disk a suspended machine comes to its action. -/
theorem coreMain_exact {m : Machine} {a : CoreAction} (hvalid : isCoreHeaderValid core = true)
    (hcore : m.core = core.setAction a.toUInt32) (hsaved : core.savedVector m.mem ≠ 0) :
    coreMain P .exact fuel m = (coreAction P .exact fuel m.found).map Prod.snd := by
  refine coreMain_eq ?_ ?_ rfl
  · rw [hcore]
    exact isCoreHeaderValid_setAction hvalid (isCoreHeaderActionValid_toUInt32 a)
  · rw [hcore]
    exact hsaved

/-- A switch does not wake up anything if the loop over its first area never ends. -/
theorem coreMain_diverge {m : Machine} {v : UInt32} (hvalid : isCoreHeaderValid core = true)
    (hg : Geometry P.sizes core) (hcore : m.core = core.setAction CORE_ACTION_SWITCH.toUInt32)
    (hsaved : core.savedVector m.mem ≠ 0) (hl : LaidOut core v m.disk) (hv : v ≠ 0)
    (hstop : 2 ^ 64 - SWITCH_BUF_SIZE + core.areaStart 0 % SWITCH_BUF_SIZE <
      ((core.ramAreas 0).start + (core.ramAreas 0).size).toNat)
    (halign : core.areaStart 0 % VIRTIO_BLK_SECTOR_SIZE = 0) :
    coreMain P .exact fuel m = none := by
  have hcore' : m.found.core = core.setAction CORE_ACTION_SWITCH.toUInt32 := hcore
  have hg' := hg.setAction CORE_ACTION_SWITCH.toUInt32
  have hdump : isDumpHeaderValid m.found.core m.found.disk = true := by
    rw [hcore']
    exact hl.valid hv hg.nonempty hg.aligned
  have hloop : diskSwitchDump P .exact fuel m.found.tick = none :=
    diskSwitchDump_diverge (fun _ => rfl) hcore' hg' ((laidOut_setAction _).mpr hl) hv hstop halign
  rw [coreMain_exact hvalid hcore hsaved, coreAction_switch (by rw [hcore']; rfl)
    (by rw [hcore']; exact hg'.count_le) rfl, if_pos hdump, hloop]
  rfl

section Wake

variable {s : System} {a : TwoSlot (Image × UInt32)}

theorem Sim.found_vector (h : Sim core s a) :
    s.machine.found.kernelWakingVector = core.savedVector s.machine.mem := by
  rw [Machine.found, h.request]
  rfl

/-- An execution of core that leaves memory and disk alone resumes the running OS. -/
theorem Sim.resume (h : Sim core s a) (hs : s.asleep = true) {m : Machine}
    (hcore : m.core = s.machine.core) (hmem : m.mem = s.machine.mem)
    (hdisk : m.disk = s.machine.disk) (hv : m.kernelWakingVector = core.savedVector s.machine.mem)
    (hact : a.act = { a with asleep := false }) :
    m.kernelWakingVector = a.act.running.2 ∧ Sim core ⟨m, false⟩ a.act := by
  have hrun := h.running
  rw [System.running, if_pos hs] at hrun
  rw [hact]
  refine ⟨by rw [hv, hrun], by rw [hcore]; exact h.request, rfl, nofun, ?_, by
    rw [hdisk]; exact h.stored⟩
  rw [System.running, hrun, hmem, hv]
  rfl

/-- **A wakeup with a store** copies the running OS into the slot. -/
theorem Sim.wake_store (hvalid : isCoreHeaderValid core = true) (hg : Geometry P.sizes core)
    (h : Sim core s a) (hs : s.asleep = true) (ha : a.request = CORE_ACTION_STORE) :
    ∃ m, coreMain P .exact fuel s.machine = some m ∧
      m.kernelWakingVector = a.act.running.2 ∧ Sim core ⟨m, false⟩ a.act := by
  have hcore := h.request
  have hsaved := h.saved hs
  have hvalid' : isCoreHeaderValid s.machine.core = true := by
    rw [hcore]
    exact isCoreHeaderValid_setAction hvalid (isCoreHeaderActionValid_toUInt32 _)
  have hrunning := h.running
  rw [System.running, if_pos hs] at hrunning
  have hact : a.act = { a with stored := some a.running, asleep := false } := by
    rw [TwoSlot.act, ha]
  refine (coreMain_store hvalid' (by rw [hcore]; exact hg.setAction _) (by rw [hcore]; exact hsaved)
    (by rw [hcore, ha]; rfl) rfl fun _ _ => BlkDev.exact_fails _).imp
    fun m ⟨hrun, hmem, hmcore, hv, hholds⟩ => ⟨hrun, ?_, ?_⟩
  · rw [hv, hcore, hact, hrunning]
    rfl
  · rw [hcore] at hv hholds
    rw [hact]
    refine ⟨hmcore.trans hcore, rfl, nofun, ?_, ?_⟩
    · rw [System.running, hmem, hv, hrunning]
      rfl
    · rw [hrunning]
      exact ⟨(holds_setAction _).mp hholds, hsaved⟩

/-- **A wakeup with a switch** exchanges the running OS with the stored one. -/
theorem Sim.wake_switch (hvalid : isCoreHeaderValid core = true) (hg : Geometry P.sizes core)
    (hfit : ChunksFit core) (hfuel : switchFuel ≤ fuel) (h : Sim core s a) (hs : s.asleep = true)
    (ha : a.request = CORE_ACTION_SWITCH) {os : Image × UInt32} (hstored : a.stored = some os) :
    ∃ m, coreMain P .exact fuel s.machine = some m ∧
      m.kernelWakingVector = a.act.running.2 ∧ Sim core ⟨m, false⟩ a.act := by
  have hcore := h.request
  have hsaved := h.saved hs
  have hg' := hg.setAction a.request.toUInt32
  have hon := h.stored
  rw [hstored] at hon
  obtain ⟨hholds, hv0⟩ := hon
  obtain ⟨m, hrun, hmcore, hv, himage, hholds', -⟩ := diskSwitchDump_ok (P := P)
    (m := s.machine.found.tick) hcore hg' hfit hfuel ((holds_setAction _).mpr hholds) hv0 hsaved
    fun _ _ => BlkDev.exact_fails _
  have hrunning := h.running
  rw [System.running, if_pos hs] at hrunning
  have hact : a.act = { a with running := os, stored := some a.running, asleep := false } := by
    rw [TwoSlot.act, ha, hstored]
  have hdump : isDumpHeaderValid s.machine.found.core s.machine.found.disk = true := by
    rw [show s.machine.found.core = _ from hcore]
    exact hholds.laidOut.valid hv0 hg.nonempty hg.aligned
  refine ⟨m, ?_, ?_, ?_⟩
  · rw [coreMain_exact hvalid hcore hsaved, coreAction_switch (by
      rw [show s.machine.found.core = _ from hcore, ha]; rfl) (by
      rw [show s.machine.found.core = _ from hcore]; exact hg'.count_le) rfl, if_pos hdump, hrun]
    rfl
  · rw [hv, hact]
  · rw [hact]
    refine ⟨hmcore, rfl, nofun, ?_, ?_⟩
    · rw [System.running, hv, show ramImage core m.mem = os.1 from himage]
      rfl
    · rw [hrunning]
      exact ⟨(holds_setAction _).mp hholds', hsaved⟩

/-- **A wakeup with nothing to do**: no action, or a switch with nothing stored. -/
theorem Sim.wake_none (hvalid : isCoreHeaderValid core = true) (hg : Geometry P.sizes core)
    (h : Sim core s a) (hs : s.asleep = true)
    (ha : a.request = CORE_ACTION_NOOP ∨ a.request = CORE_ACTION_SWITCH ∧ a.stored = none) :
    ∃ m, coreMain P .exact fuel s.machine = some m ∧
      m.kernelWakingVector = a.act.running.2 ∧ Sim core ⟨m, false⟩ a.act := by
  have hcore := h.request
  have hcore' : s.machine.found.core = core.setAction a.request.toUInt32 := hcore
  have hsaved := h.saved hs
  rcases ha with ha | ⟨ha, hnone⟩
  · refine ⟨s.machine.found, ?_, h.resume hs rfl rfl rfl h.found_vector ?_⟩
    · rw [coreMain_exact hvalid hcore hsaved, coreAction_other]
      · rfl
      · rw [hcore', ha, CoreHeader.setAction_action]
        decide
      · rw [hcore', ha, CoreHeader.setAction_action]
        decide
    · rw [TwoSlot.act, ha]
  · have hon := h.stored
    rw [hnone] at hon
    refine ⟨s.machine.found.tick, ?_, h.resume hs rfl rfl rfl h.found_vector ?_⟩
    · rw [coreMain_exact hvalid hcore hsaved, coreAction_switch (by rw [hcore', ha]; rfl)
        (by rw [hcore']; exact (hg.setAction _).count_le) rfl, if_neg]
      · rfl
      · rw [hcore', isDumpHeaderValid_setAction]
        exact Bool.eq_false_iff.mp hon
    · rw [TwoSlot.act, ha, hnone]

/-- A wakeup of a suspended system returns to an OS, the one that the two-slot machine resumes. -/
theorem Sim.wake (hvalid : isCoreHeaderValid core = true) (hg : Geometry P.sizes core)
    (hfuel : switchFuel ≤ fuel) (h : Sim core s a) (hs : s.asleep = true) {v : UInt32}
    (hfit : Fitting core s (.wake v)) :
    ∃ m, coreMain P .exact fuel s.machine = some m ∧
      m.kernelWakingVector = a.act.running.2 ∧ Sim core ⟨m, false⟩ a.act := by
  cases ha : a.request with
  | CORE_ACTION_NOOP => exact h.wake_none hvalid hg hs (Or.inl ha)
  | CORE_ACTION_STORE => exact h.wake_store hvalid hg hs ha
  | CORE_ACTION_SWITCH =>
    cases hstored : a.stored with
    | none => exact h.wake_none hvalid hg hs (Or.inr ⟨ha, hstored⟩)
    | some os =>
      refine h.wake_switch hvalid hg ?_ hfuel hs ha hstored
      have hon := h.stored
      rw [hstored] at hon
      refine hfit ⟨v, rfl⟩ (by rw [h.request, ha]; rfl) ?_
      exact hon.1.laidOut.valid hon.2 hg.nonempty hg.aligned

end Wake

/-! ## The simulation -/

/-- One step of the system is one step of the two-slot machine. -/
theorem sim_simulates (hvalid : isCoreHeaderValid core = true) (hg : Geometry P.sizes core)
    (hfuel : switchFuel ≤ fuel) :
    Simulates (Where (Fitting core) (Step P fuel core)) TwoSlot.Step (Sim core) := by
  rintro s a e t hsim ⟨hfit, hstep⟩
  cases hstep with
  | execute hsaved =>
    exact ⟨_, .execute a _ _, rfl, rfl, fun _ => hsaved, rfl, hsim.stored⟩
  | wake hs hrun =>
    obtain ⟨m, hm, hv, hsim'⟩ := hsim.wake (P := P) hvalid hg hfuel hs hfit
    obtain rfl : _ = m := Option.some.inj (hrun.symm.trans hm)
    refine ⟨a.act, ?_, hsim'⟩
    rw [hv]
    exact .wake a (hsim.asleep.trans hs)

/-- A disk without the magic holds no dump. -/
theorem storedOn_none {disk : ℕ → UInt8} (hmagic : DumpHeader.magic disk ≠ CORE_DISK_DUMP_MAGIC) :
    StoredOn core disk none :=
  if_pos hmagic

/-- **Core is a two-slot machine.** From a disk without a dump, every run of OS executions and
wakeups, of which the switches are fitting, is a run of the two-slot machine with the same events,
and a suspended system whose next step would be fitting does wake up. -/
theorem core_simulates_twoSlot (P : Platform) (hvalid : isCoreHeaderValid core = true)
    (hg : Geometry P.sizes core) (hfuel : switchFuel ≤ fuel) {m : Machine} {request : CoreAction}
    (hcore : m.core = core.setAction request.toUInt32)
    (hmagic : DumpHeader.magic m.disk ≠ CORE_DISK_DUMP_MAGIC)
    {es : List (Event (Image × UInt32) UInt32)} {s : System}
    (hrun : Runs (Where (Fitting core) (Step P fuel core)) ⟨m, false⟩ es s) :
    ∃ a, Runs TwoSlot.Step ⟨(ramImage core m.mem, m.kernelWakingVector), none, request, false⟩ es a ∧
      Sim core s a ∧ (s.asleep = true → ∀ v, Fitting core s (.wake v) →
        ∃ m', coreMain P .exact fuel s.machine = some m' ∧
          m'.kernelWakingVector = a.act.running.2) := by
  have hinit : Sim core ⟨m, false⟩ ⟨(ramImage core m.mem, m.kernelWakingVector), none, request,
      false⟩ :=
    ⟨hcore, rfl, nofun, rfl, storedOn_none hmagic⟩
  obtain ⟨a, hruns, hsim⟩ := (sim_simulates hvalid hg hfuel).runs hrun _ hinit
  refine ⟨a, hruns, hsim, fun hs v hfit => ?_⟩
  obtain ⟨m', hm', hv, -⟩ := hsim.wake (P := P) hvalid hg hfuel hs hfit
  exact ⟨m', hm', hv⟩

/-! ## Runs with a single page of RAM -/

/-- A page of RAM behind core, at the end of what core may take. -/
abbrev highPage : CoreHeader := onePage 0x43000000

/-- An OS that fills memory with ones is stored, another one that fills it with twos asks for a switch,
and the first one is woken up. -/
def switchEvents : List (Event (Image × UInt32) UInt32) :=
  [.execute (ramImage highPage fun _ => 1, highPage.savedVector fun _ => 1) CORE_ACTION_STORE,
    .wake (highPage.savedVector fun _ => 1),
    .execute (ramImage highPage fun _ => 2, highPage.savedVector fun _ => 2) CORE_ACTION_SWITCH,
    .wake (highPage.savedVector fun _ => 1)]

theorem runs_switchEvents : ∃ s, Runs (Where (Fitting highPage) (Step samplePlatform switchFuel
    highPage)) ⟨sampleMachine highPage, false⟩ switchEvents s := by
  have hvalid : isCoreHeaderValid highPage = true := onePage_valid _
  have hg : Geometry samplePlatform.sizes highPage := onePage_geometry (by decide)
  have hfit : ChunksFit highPage := by
    intro i _
    show 0x43000000 + pieceCount SWITCH_BUF_SIZE 4096 * SWITCH_BUF_SIZE < 2 ^ 64
    decide
  -- the store
  have hasked : Sim highPage ⟨sampleMachine (highPage.setAction CORE_ACTION_STORE.toUInt32), true⟩
      ⟨(ramImage highPage (fun _ => 1), highPage.savedVector (fun _ => 1)), none,
        CORE_ACTION_STORE, true⟩ :=
    ⟨rfl, rfl, fun _ => savedVector_ones _, rfl, storedOn_none (by decide)⟩
  obtain ⟨m₁, hstore, hv₁, hstored⟩ := @Sim.wake_store samplePlatform switchFuel _ _ _ hvalid
    hg hasked rfl rfl
  have hstep₁ : Step samplePlatform switchFuel highPage _ (.wake m₁.kernelWakingVector) _ :=
    .wake rfl hstore
  rw [hv₁] at hstep₁
  -- the switch
  have hasked₂ : Sim highPage ⟨{ m₁ with
        mem := fun _ => 2, core := highPage.setAction CORE_ACTION_SWITCH.toUInt32 }, true⟩
      ⟨(ramImage highPage (fun _ => 2), highPage.savedVector (fun _ => 2)),
        some (ramImage highPage (fun _ => 1), highPage.savedVector (fun _ => 1)),
        CORE_ACTION_SWITCH, true⟩ :=
    ⟨rfl, rfl, fun _ => savedVector_twos _, rfl, hstored.stored⟩
  obtain ⟨m₂, hswitch, hv₂, -⟩ := hasked₂.wake_switch (P := samplePlatform) hvalid hg hfit le_rfl
    rfl rfl rfl
  have hstep₂ : Step samplePlatform switchFuel highPage _ (.wake m₂.kernelWakingVector) _ :=
    .wake rfl hswitch
  rw [hv₂] at hstep₂
  exact ⟨_, .cons ⟨nofun, .execute (savedVector_ones _)⟩ (.cons ⟨fun _ _ _ => hfit, hstep₁⟩
    (.cons ⟨nofun, .execute (savedVector_twos _)⟩ (.cons ⟨fun _ _ _ => hfit, hstep₂⟩ (.nil _))))⟩

theorem core_simulates_twoSlot_onePage : ∃ s a,
    Runs (Where (Fitting highPage) (Step samplePlatform switchFuel highPage))
      ⟨sampleMachine highPage, false⟩ switchEvents s ∧
    Runs TwoSlot.Step ⟨(ramImage highPage (fun _ => 1), 0), none, CORE_ACTION_NOOP, false⟩
      switchEvents a ∧
    Sim highPage s a ∧ (s.asleep = true → ∀ v, Fitting highPage s (.wake v) →
      ∃ m', coreMain samplePlatform .exact switchFuel s.machine = some m' ∧
        m'.kernelWakingVector = a.act.running.2) := by
  have hcore : (sampleMachine highPage).core = highPage.setAction CORE_ACTION_NOOP.toUInt32 := rfl
  obtain ⟨s, hrun⟩ := runs_switchEvents
  obtain ⟨a, hsees⟩ := core_simulates_twoSlot samplePlatform (onePage_valid _)
    (onePage_geometry (by decide)) le_rfl hcore (by decide) hrun
  exact ⟨s, a, hrun, hsees⟩

/-- The page below the last one of the address space: it ends where the loop of
`switch_memory_area` cannot get past. -/
abbrev topPage : CoreHeader := onePage 0xFFFFFFFFFFFFE000

/-- **A switch that never wakes up.** With a page of RAM below the last one of the address space,
the OS stores itself, wakes up and asks for a switch: the address of the loop wraps from the page
to `SWITCH_BUF_SIZE` after it, and the loop goes on for ever. -/
theorem switch_never_wakes :
    isCoreHeaderValid topPage = true ∧ Geometry samplePlatform.sizes topPage ∧
      DumpHeader.magic (sampleMachine topPage).disk ≠ CORE_DISK_DUMP_MAGIC ∧
      ∃ es s, Runs (Step samplePlatform switchFuel topPage) ⟨sampleMachine topPage, false⟩ es s ∧
        s.asleep = true ∧ ∀ fuel, coreMain samplePlatform .exact fuel s.machine = none := by
  have hvalid : isCoreHeaderValid topPage = true := onePage_valid _
  have hg : Geometry samplePlatform.sizes topPage := onePage_geometry (by decide)
  refine ⟨hvalid, hg, by decide, ?_⟩
  -- the store
  have hexec : Step samplePlatform switchFuel topPage ⟨sampleMachine topPage, false⟩ _
      ⟨sampleMachine (topPage.setAction CORE_ACTION_STORE.toUInt32), true⟩ :=
    .execute (savedVector_ones _)
  have hsim : Sim topPage ⟨sampleMachine (topPage.setAction CORE_ACTION_STORE.toUInt32), true⟩
      ⟨(ramImage topPage (fun _ => 1), topPage.savedVector (fun _ => 1)), none, CORE_ACTION_STORE,
        true⟩ :=
    ⟨rfl, rfl, fun _ => savedVector_ones _, rfl, storedOn_none (by decide)⟩
  obtain ⟨m, hm, -, hsim'⟩ := hsim.wake_store (P := samplePlatform) hvalid hg
    rfl rfl
  obtain ⟨hholds, hv0⟩ := hsim'.stored
  -- the switch
  have hexec' : Step samplePlatform switchFuel topPage ⟨m, false⟩ _
      ⟨{ m with mem := fun _ => 1, core := topPage.setAction CORE_ACTION_SWITCH.toUInt32 }, true⟩ :=
    .execute (savedVector_ones _)
  refine ⟨_, _, .cons hexec (.cons (.wake rfl hm) (.cons hexec' (.nil _))), rfl, fun fuel => ?_⟩
  exact coreMain_diverge hvalid hg rfl (savedVector_ones topPage)
    hholds.laidOut hv0 (by decide) (by decide)

end SwitchOs
