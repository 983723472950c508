import SwitchOs.Cycle.Machine

/-!
# A machine that does not come back

Core puts a vector into the FACS only if it has one, and the hooked `_PTS` puts core's entry there
before. So once core's entry is what the kernel's vector has been overwritten with, or there is no
vector, or the header is not accepted, core hands the machine to itself (`Stuck`), and does so at every
later wakeup, on any device (`stuck_forever`): only a dump to switch to gets it out.
-/

namespace SwitchOs

open CoreAction

variable {P : Platform} {dev : BlkDev} {fuel : ℕ} {core : CoreHeader} {m t : Machine}

/-! ## Stuck machines -/

/-- The machine is in S3 with core's entry in the FACS, and core has no kernel to put in its place. -/
structure Stuck (core : CoreHeader) (s : Cycle) : Prop where
  asleep : s.asleep = true
  entry : core.wakingVector s.machine.mem = CORE_WAKEUP_PHYS_ADDR
  nothing : isCoreHeaderValid s.machine.core = false ∨
    (core.savedVector s.machine.mem = 0 ∨ core.savedVector s.machine.mem = CORE_WAKEUP_PHYS_ADDR) ∧
      NoSwitch s.machine

variable {F : Firmware core.facs} {D : BlkDev → Prop} {s u : Cycle} {e : CycleEvent}

theorem noSwitch_congr {m m' : Machine} (hcore : m'.core = m.core)
    (hdisk : m.core.action = CORE_ACTION_SWITCH.toUInt32 → m'.disk = m.disk) (h : NoSwitch m) :
    NoSwitch m' := by
  by_cases haction : m.core.action = CORE_ACTION_SWITCH.toUInt32
  · rwa [NoSwitch, hcore, hdisk haction]
  · exact Or.inl (by rwa [hcore])

/-- What a stuck machine's core finds: no vector, or its own entry. -/
theorem Stuck.coreMain (h : Stuck core s) (hcore : s.machine.core.facs = core.facs)
    (hrun : coreMain P dev fuel s.machine = some t) :
    t.mem = s.machine.mem ∧
      (t.kernelWakingVector = 0 ∨ t.kernelWakingVector = CORE_WAKEUP_PHYS_ADDR) ∧
        (s.machine.core.action = CORE_ACTION_SWITCH.toUInt32 → t.disk = s.machine.disk) := by
  have hsavedVector : s.machine.core.savedVector s.machine.mem =
      core.savedVector s.machine.mem := by
    rw [CoreHeader.savedVector, CoreHeader.savedVector, hcore]
  rcases h.nothing with hvalid | ⟨hsaved, hno⟩
  · rw [coreMain_rejected hvalid] at hrun
    rw [← Option.some.inj hrun]
    exact ⟨rfl, Or.inl rfl, fun _ => rfl⟩
  · obtain ⟨hmem, hv, hdisk⟩ := coreMain_noSwitch hno hrun
    refine ⟨hmem, ?_, hdisk⟩
    rcases hv with hzero | hv
    · exact Or.inl hzero
    · rw [hv, hsavedVector]
      exact hsaved

/-- The step lemma: all that can happen to a stuck machine is core, and it stays stuck. -/
theorem Stuck.step (hg : Geometry P.sizes core) (hspts : SparesRam core F) (h : Stuck core s)
    (hstep : CycleStep P fuel core F D s e u) :
    (∃ os request v, e = .core os request v) ∧ Stuck core u := by
  cases hstep with
  | execute _ hawake => rw [h.asleep] at hawake; cases hawake
  | hook hawake => rw [h.asleep] at hawake; cases hawake
  | sleep hawake => rw [h.asleep] at hawake; cases hawake
  | resume _ hne => exact absurd h.entry hne
  | @core dev U request m hs hwaking hdev hcore hexec =>
    refine ⟨⟨_, _, _, rfl⟩, ?_⟩
    have hfacs : s.machine.core.facs = core.facs := by
      rw [hcore]
      rfl
    rw [coreExecution] at hexec
    obtain ⟨t, hrun, hexit⟩ := Option.bind_eq_some_iff.mp hexec
    obtain ⟨hmem, hv, hdisk⟩ := h.coreMain hfacs hrun
    have hheader := coreMain_core hrun
    obtain ⟨m', hexec', hleaves⟩ := coreExecution_spec (U := U) hg hspts hfacs hrun
    obtain rfl : m = m' := by
      rw [coreExecution, hrun, Option.bind_some, hexit] at hexec'
      exact Option.some.inj hexec'
    have hprepared : t.kernelWakingVector = 0 →
        core.wakingVector m.mem = CORE_WAKEUP_PHYS_ADDR := by
      intro hzero
      rcases hleaves.prepared hzero with ⟨hsame, -⟩ | ⟨hentry, -⟩
      · rw [hsame, hmem, hwaking]
      · exact hentry
    have hentry : core.wakingVector m.mem = CORE_WAKEUP_PHYS_ADDR := by
      rcases hv with hzero | hv
      · exact hprepared hzero
      · rw [hleaves.waking (by rw [hv]; decide), hv]
    refine ⟨rfl, hentry, ?_⟩
    rcases h.nothing with hvalid | ⟨hsaved, hno⟩
    · refine Or.inl ?_
      show isCoreHeaderValid m.core = false
      rw [hleaves.header, hheader, hvalid]
    · refine Or.inr ⟨?_, noSwitch_congr (hleaves.header.trans hheader)
        (fun haction => hleaves.disk.trans (hdisk haction)) hno⟩
      show core.savedVector m.mem = 0 ∨ core.savedVector m.mem = CORE_WAKEUP_PHYS_ADDR
      rcases hleaves.saved with hsame | hentered
      · rw [hsame, hmem]
        exact hsaved
      · exact Or.inr (by rw [hentered, hmem, hwaking])

/-- **A stuck machine stays stuck**: whatever its devices and uACPI do, core is all that ever runs. -/
theorem stuck_forever (hg : Geometry P.sizes core) (hspts : SparesRam core F) (h : Stuck core s)
    {es : List CycleEvent} (hrun : Runs (CycleStep P fuel core F D) s es u) :
    Stuck core u ∧ ∀ e ∈ es, ∃ os request v, e = .core os request v := by
  induction hrun with
  | nil => exact ⟨h, nofun⟩
  | cons hstep _ ih =>
    obtain ⟨hevent, hnext⟩ := h.step hg hspts hstep
    obtain ⟨hstuck, hrest⟩ := ih hnext
    exact ⟨hstuck, List.forall_mem_cons.mpr ⟨hevent, hrest⟩⟩

/-! ## A second `_PTS` -/

/-- The machine is suspended after a `_PTS` that has found core's entry. -/
theorem stuck_of_second_pts (hcore : s.machine.core.facs = core.facs)
    (hentry : core.wakingVector s.machine.mem = CORE_WAKEUP_PHYS_ADDR) (hno : NoSwitch s.machine)
    {arg0 : UInt64} (hrun : Runs (CycleStep P fuel core F D) s [.hook (.pts arg0), .sleep] u) :
    Stuck core u := by
  obtain _ | ⟨hpts, hrest⟩ := hrun
  obtain _ | ⟨hsleep, hnil⟩ := hrest
  cases hnil
  cases hsleep with
  | sleep _ =>
    cases hpts with
    | hook _ hwake =>
      cases hwake with
      | pts =>
        obtain ⟨hwaking, hsaved⟩ := ptsHook_spec F arg0 s.machine hcore
        simp only [CoreHeader.wakingVector, CoreHeader.savedVector, hcore] at hwaking hsaved
        exact ⟨rfl, hwaking, Or.inr ⟨Or.inr (hsaved.trans hentry), hno⟩⟩

/-- **A second `_PTS` is the end.** Where `_PTS` is evaluated while core's entry is in the FACS, by a
kernel that tries again or after a sleep checkpoint, and the machine is suspended then, no OS runs on it
any more: in every run core wakes up core, unless it finds a dump to switch to. -/
theorem second_pts_hangs (hg : Geometry P.sizes core) (hspts : SparesRam core F)
    (hcore : s.machine.core.facs = core.facs)
    (hentry : core.wakingVector s.machine.mem = CORE_WAKEUP_PHYS_ADDR) (hno : NoSwitch s.machine)
    {arg0 : UInt64} {es : List CycleEvent}
    (hrun : Runs (CycleStep P fuel core F D) s (.hook (.pts arg0) :: .sleep :: es) u) :
    ∀ e ∈ es, ∃ os request v, e = .core os request v := by
  obtain _ | ⟨hpts, hrest⟩ := hrun
  obtain _ | ⟨hsleep, hrest⟩ := hrest
  have hstuck := stuck_of_second_pts hcore hentry hno (.cons hpts (.cons hsleep (.nil _)))
  exact (stuck_forever hg hspts hstuck hrest).2

/-- A sleep checkpoint has put core's entry into the FACS. -/
def checkpointedCycle : Cycle where
  watched := ⟨{ sampleMachine (onePage 0x100000) with
    mem := (onePage 0x100000).overrideWakingVector
      ((onePage 0x100000).setWakingVector 0x9000 fun _ => 1) }, some 0x9000⟩
  asleep := false
  served := false

/-- `_PTS` comes on top of it: core runs, and wakes up core. -/
theorem second_pts_hangs_checkpoint :
    ∃ e u, Runs (CycleStep samplePlatform 0 (onePage 0x100000) (quietFirmware 0x3000) fun _ => True)
        checkpointedCycle [.hook (.pts 3), .sleep, e] u ∧
      ∀ e' ∈ [e], ∃ os request v, e' = CycleEvent.core os request v := by
  have hg : Geometry samplePlatform.sizes (onePage 0x100000) := onePage_geometry (by decide)
  have hpts := ptsHook_spec (quietFirmware 0x3000) 3 checkpointedCycle.machine rfl
  obtain ⟨t, hrun, -, -, -⟩ := @coreMain_idle .exact
    (ptsHook (quietFirmware 0x3000) 3 checkpointedCycle.machine) samplePlatform 0 (onePage_valid _)
    (by decide) (Or.inl rfl)
  obtain ⟨m, hexec, -⟩ := coreExecution_spec (U := quietUacpi onePage_apart_facs)
    (F := quietFirmware 0x3000) hg (fun _ _ _ _ => rfl) rfl hrun
  have hcore : (ptsHook (quietFirmware 0x3000) 3 checkpointedCycle.machine).core =
      (onePage 0x100000).setAction CORE_ACTION_NOOP.toUInt32 := rfl
  have hsteps : Runs (CycleStep samplePlatform 0 (onePage 0x100000) (quietFirmware 0x3000)
      fun _ => True) checkpointedCycle (.hook (.pts 3) :: .sleep :: [.core _ CORE_ACTION_NOOP _]) _ :=
    .cons (.hook rfl (.pts _ 3)) (.cons (.sleep rfl) (.cons
      (.core rfl hpts.1 trivial hcore hexec) (.nil _)))
  exact ⟨_, _, hsteps, second_pts_hangs hg (fun _ _ _ _ => rfl) rfl (by decide)
    (Or.inl (by decide)) hsteps⟩

end SwitchOs
