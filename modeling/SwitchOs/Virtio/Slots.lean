import SwitchOs.Virtio.Lockstep

/-!
# Core over its driver is a two-slot machine

`DrivenStep` is the system of `SwitchOs.Step` with the driver in it: OS execution may leave any bytes
in memory, core's heap among them, and each execution of core meets a device of its own, with its
own queue and its own timing. `driven_simulates_twoSlot` carries the simulation over.
-/

namespace SwitchOs

open Virtio CoreAction

/-- A device that core can work with: it is found, has a queue with room for a request that fits
core's largest blocks, and serves every request. -/
structure DiskDevice.Works (D : DiskDevice) : Prop where
  found : D.found = true
  size_ge : 3 ≤ D.queueSize.toNat
  size_le : D.queueSize.toNat ≤ 512
  serves : D.Serves

/-- The machine with its driver, and whether the OS on it is suspended. -/
structure DrivenSystem where
  state : Driven
  asleep : Bool

/-- Steps of a system with the core header `core` (up to its action), the driver and devices that
work. -/
inductive DrivenStep (W : Wiring) (fuel : ℕ) (core : CoreHeader) :
    DrivenSystem → Event (Image × UInt32) UInt32 → DrivenSystem → Prop
  | execute {s : DrivenSystem} {mem : ℕ → UInt8} {request : CoreAction} :
      core.savedVector mem ≠ 0 →
      DrivenStep W fuel core s (.execute (ramImage core mem, core.savedVector mem) request)
        ⟨{ s.state.setMem mem with core := core.setAction request.toUInt32 }, true⟩
  | wake {s : DrivenSystem} {D : DiskDevice} {t : Driven} :
      s.asleep = true → D.Works → Driven.coreMain W D fuel s.state = some t →
      DrivenStep W fuel core s (.wake t.kernelWakingVector) ⟨t, false⟩

/-- Core is only woken up for what its driver can serve. -/
def Serving (s : DrivenSystem) (e : Event (Image × UInt32) UInt32) : Prop :=
  (∃ v, e = .wake v) → Servable s.state.core s.state.disk

/-- The system is, but for the private bytes, one over the flat disk in the state `a`. -/
def DrivenSim (W : Wiring) (core : CoreHeader) (s : DrivenSystem)
    (a : TwoSlot (Image × UInt32)) : Prop :=
  ∃ m, Alike W (core.setAction a.request.toUInt32) s.state m ∧ Sim core ⟨m, s.asleep⟩ a

variable {W : Wiring} {D : DiskDevice} {fuel : ℕ} {core : CoreHeader} {s : DrivenSystem}
  {a : TwoSlot (Image × UInt32)}

theorem TwoSlot.act_request {α : Type} (a : TwoSlot α) : a.act.request = a.request := by
  unfold TwoSlot.act
  split <;> rfl

theorem DiskDevice.Works.blk (hD : D.Works) : D.blk = .exact := by
  rw [DiskDevice.blk, hD.found]
  rfl

theorem Alike.ramImage {t : Driven} {m : Machine} {core' : CoreHeader} (h : Alike W core' t m)
    (hg : Geometry W.sizes core) : ramImage core t.mem = SwitchOs.ramImage core m.mem :=
  ramImage_eq_iff.mpr fun i hi => window_eq_window.mpr fun j hj =>
    h.mem _ (hg.ram_public ⟨i, hi, by omega, by omega⟩)

/-- **A wakeup over the driver** ends, and does what the two-slot machine does. -/
theorem DrivenSim.wake (hvalid : isCoreHeaderValid core = true) (hg : Geometry W.sizes core)
    (hfuel : switchFuel ≤ fuel) (h : DrivenSim W core s a) (hs : s.asleep = true) (hD : D.Works)
    (hserv : Servable s.state.core s.state.disk) :
    ∃ t, Driven.coreMain W D fuel s.state = some t ∧ t.kernelWakingVector = a.act.running.2 ∧
      DrivenSim W core ⟨t, false⟩ a.act := by
  obtain ⟨m, halike, hsim⟩ := h
  rw [halike.header, halike.disk] at hserv
  have hrel := coreMain_alike fuel hD.serves hD.size_ge hD.size_le (hg.setAction _) hserv halike
  have hfitting : Fitting core ⟨m, s.asleep⟩ (.wake 0) := by
    intro _ haction hdump
    rw [halike.header'] at haction
    exact hserv.switch haction hdump
  obtain ⟨m', hrun, hv, hsim'⟩ := hsim.wake (P := W.platform s.state) hvalid hg hfuel hs hfitting
  rw [hD.blk, hrun] at hrel
  rcases hcore : Driven.coreMain W D fuel s.state with _ | t
  · rw [hcore] at hrel
    cases hrel
  · rw [hcore] at hrel
    cases hrel with
    | some halike' =>
      refine ⟨t, rfl, halike'.vector.trans hv, m', ?_, hsim'⟩
      rw [TwoSlot.act_request]
      exact halike'

/-- One step of the driven system is one step of the two-slot machine. -/
theorem driven_simulates (hvalid : isCoreHeaderValid core = true) (hg : Geometry W.sizes core)
    (hfuel : switchFuel ≤ fuel) :
    Simulates (Where Serving (DrivenStep W fuel core)) TwoSlot.Step (DrivenSim W core) := by
  rintro s a e t h ⟨hserv, hstep⟩
  cases hstep with
  | @execute mem request hsaved =>
    obtain ⟨m, halike, hsim⟩ := h
    refine ⟨_, .execute a _ request, { m with
      mem := mem, core := core.setAction request.toUInt32 }, ?_, rfl, rfl, fun _ => hsaved, rfl,
      hsim.stored⟩
    exact ⟨fun _ _ => rfl, halike.disk, rfl, rfl, halike.issued, halike.vector⟩
  | wake hs hD hrun =>
    obtain ⟨t', hrun', hv, h'⟩ := h.wake hvalid hg hfuel hs hD (hserv ⟨_, rfl⟩)
    obtain rfl := Option.some.inj (hrun.symm.trans hrun')
    obtain ⟨m, -, hsim⟩ := h
    refine ⟨a.act, ?_, h'⟩
    rw [hv]
    exact .wake a (hsim.asleep.trans hs)

/-! ## A sample wiring -/

theorem sampleLayout_bounds : ∀ i < 5, CORE_PHYS_ADDR ≤ sampleLayout.buf i ∧
    sampleLayout.buf i + (gAllocator i).bufSize ≤ 0x41100000 := by decide

theorem inHeap_sampleLayout {x : ℕ} (hx : InHeap sampleLayout x) :
    CORE_PHYS_ADDR ≤ x ∧ x < 0x41100000 := by
  obtain ⟨i, hi, h1, h2⟩ := hx
  have hbounds := sampleLayout_bounds i hi
  omega

theorem inHeader_sample {x : ℕ} (hx : InHeader 0x40200000 x) : 0x40200000 ≤ x ∧ x < 0x40200800 := by
  have haddr : (0x40200000 : UInt64).toNat = 0x40200000 := rfl
  simp only [InHeader, haddr, DUMP_HEADER_SIZE] at hx
  omega

theorem sample_heap_core (x : ℕ) (hx : InHeap sampleLayout x) : CoreMemory sampleSizes x := by
  have hbounds := inHeap_sampleLayout hx
  have hsize : sampleSizes.core = 0x900000 := rfl
  refine Or.inl ⟨hbounds.1, ?_⟩
  rw [hsize, CORE_PHYS_ADDR]
  omega

theorem sample_header_core (x : ℕ) (hx : InHeader 0x40200000 x) : CoreMemory sampleSizes x := by
  have hbounds := inHeader_sample hx
  have hsize : sampleSizes.pm = 0x20e000 := rfl
  refine Or.inr (Or.inr ⟨?_, ?_⟩)
  · rw [CORE_PM_PHYS_ADDR]
    omega
  · rw [hsize, CORE_PM_PHYS_ADDR]
    omega

theorem sample_header_heap (x : ℕ) (hx : InHeader 0x40200000 x) : ¬ InHeap sampleLayout x := by
  intro hheap
  have h1 := inHeader_sample hx
  have h2 := inHeap_sampleLayout hheap
  rw [CORE_PHYS_ADDR] at h2
  omega

theorem sample_switchBuf_heap (x : ℕ) (h1 : 0x41100000 ≤ x) (_ : x < 0x41100000 + SWITCH_BUF_SIZE) :
    ¬ InHeap sampleLayout x := by
  intro hheap
  have h2 := inHeap_sampleLayout hheap
  omega

theorem sample_switchBuf_header (x : ℕ) (h1 : 0x41100000 ≤ x)
    (_ : x < 0x41100000 + SWITCH_BUF_SIZE) : ¬ InHeader 0x40200000 x := by
  intro hheader
  have h2 := inHeader_sample hheader
  omega

theorem sampleBuf_ge : CORE_PHYS_ADDR ≤ 0x41100000 := by decide

theorem sampleBuf_le : 0x41100000 + SWITCH_BUF_SIZE ≤ CORE_PHYS_ADDR + sampleSizes.core := by decide

theorem sampleSizes_le : sampleSizes.core ≤ CORE_MAX_PHYS_MEM_SIZE := by decide

/-- The heap at the start of core's memory, `switch_buf` at its end, the headers on the stack. -/
def sampleWiring : Wiring where
  sizes := sampleSizes
  layout := sampleLayout
  switchBuf := 0x41100000
  header _ := 0x40200000
  switchBuf_ge := sampleBuf_ge
  switchBuf_le := sampleBuf_le
  sizes_le := sampleSizes_le
  heap_core := sample_heap_core
  header_core _ := sample_header_core
  header_heap _ := sample_header_heap
  switchBuf_heap := sample_switchBuf_heap
  switchBuf_header _ := sample_switchBuf_header

/-- A queue of four descriptors, and every request served at the first look. -/
def sampleDevice : DiskDevice := ⟨true, 4, fun _ _ => some VIRTIO_BLK_S_OK, 1⟩

theorem sampleDevice_works : sampleDevice.Works :=
  ⟨rfl, by decide, by decide, fun _ => ⟨0, by decide, nofun, rfl⟩⟩

/-- A machine whose memory is all ones, with an empty disk and a driver that has not been set up. -/
def sampleDriven (core : CoreHeader) : Driven :=
  ⟨⟨⟨fun _ => 1, fun _ => 0⟩, fun _ => 0, initialQueue 4, 0⟩, core, 0, 0⟩

/-- The OS on a page of RAM suspends with a store asked for. -/
def storingDriven : DrivenSystem :=
  ⟨{ (sampleDriven (onePage 0x100000)).setMem fun _ => 1 with
    core := (onePage 0x100000).setAction CORE_ACTION_STORE.toUInt32 }, true⟩

theorem storingDriven_servable : Servable storingDriven.state.core storingDriven.state.disk where
  store _ i _ := show 4096 < 2 ^ 32 by decide
  switch haction := absurd haction (by decide)

/-! ## The simulation -/

/-- **Core is a two-slot machine, with its driver.** From a disk without a dump, every run in which
core is only woken up for what its driver can serve is a run of the two-slot machine with the same
events; the disk holds the stored OS, memory the running one; and a suspended system wakes up on every
device that works, whenever it answers. -/
theorem driven_simulates_twoSlot (W : Wiring) (hvalid : isCoreHeaderValid core = true)
    (hg : Geometry W.sizes core) (hfuel : switchFuel ≤ fuel) {s₀ : Driven} {request : CoreAction}
    (hcore : s₀.core = core.setAction request.toUInt32)
    (hmagic : DumpHeader.magic s₀.disk ≠ CORE_DISK_DUMP_MAGIC)
    {es : List (Event (Image × UInt32) UInt32)} {s : DrivenSystem}
    (hrun : Runs (Where Serving (DrivenStep W fuel core)) ⟨s₀, false⟩ es s) :
    ∃ a, Runs TwoSlot.Step ⟨(ramImage core s₀.mem, s₀.kernelWakingVector), none, request, false⟩ es
        a ∧ StoredOn core s.state.disk a.stored ∧ a.running.1 = ramImage core s.state.mem ∧
      (s.asleep = true → Servable s.state.core s.state.disk → ∀ D : DiskDevice, D.Works →
        ∃ t, Driven.coreMain W D fuel s.state = some t ∧ StoredOn core t.disk a.act.stored ∧
          a.act.running = (ramImage core t.mem, t.kernelWakingVector)) := by
  let m₀ : Machine := ⟨s₀.mem, s₀.disk, s₀.core, s₀.issued, s₀.kernelWakingVector⟩
  have hinit : DrivenSim W core ⟨s₀, false⟩
      ⟨(ramImage core s₀.mem, s₀.kernelWakingVector), none, request, false⟩ :=
    ⟨m₀, ⟨fun _ _ => rfl, rfl, hcore, hcore, rfl, rfl⟩, hcore, rfl, nofun, rfl,
      storedOn_none hmagic⟩
  obtain ⟨a, hruns, hdriven⟩ := (driven_simulates hvalid hg hfuel).runs hrun _ hinit
  have hstate : ∀ {s : DrivenSystem} {a : TwoSlot (Image × UInt32)}, DrivenSim W core s a →
      StoredOn core s.state.disk a.stored ∧ a.running.1 = ramImage core s.state.mem := by
    rintro s a ⟨m, halike, hsim⟩
    rw [halike.disk, halike.ramImage hg, hsim.running]
    exact ⟨hsim.stored, rfl⟩
  refine ⟨a, hruns, (hstate hdriven).1, (hstate hdriven).2, fun hs hserv D hD => ?_⟩
  obtain ⟨t, hmain, hv, hdriven'⟩ := hdriven.wake hvalid hg hfuel hs hD hserv
  exact ⟨t, hmain, (hstate hdriven').1, Prod.ext (hstate hdriven').2 hv.symm⟩

/-- It is woken up, and the disk holds the OS. -/
theorem driven_simulates_twoSlot_onePage :
    ∃ t, Driven.coreMain sampleWiring sampleDevice switchFuel storingDriven.state = some t ∧
      StoredOn (onePage 0x100000) t.disk (some (ramImage (onePage 0x100000) (fun _ => 1),
        (onePage 0x100000).savedVector fun _ => 1)) := by
  obtain ⟨a, hruns, -, -, hwakes⟩ := driven_simulates_twoSlot sampleWiring (onePage_valid 0x100000)
    (onePage_geometry (by decide)) le_rfl (show (sampleDriven (onePage 0x100000)).core =
      (onePage 0x100000).setAction CORE_ACTION_NOOP.toUInt32 from rfl) (by decide)
    (.cons ⟨fun h => absurd h (by simp), .execute (savedVector_ones _)⟩ (.nil storingDriven))
  obtain ⟨t, hrun, hstored, -⟩ := hwakes rfl storingDriven_servable sampleDevice sampleDevice_works
  cases hruns with
  | cons hstep hrest =>
    cases hrest
    cases hstep
    exact ⟨t, hrun, hstored⟩

end SwitchOs
