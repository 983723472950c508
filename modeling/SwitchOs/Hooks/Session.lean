import SwitchOs.Hooks.Commands
import SwitchOs.Hooks.WakingVector
import SwitchOs.Core.TwoSlot
import SwitchOs.Core.Resume

/-!
# Stores and switches on request

An OS asks core for a store or a switch with a `SET_CORE_ACTION` command, through the `SetVariable`
hook; core does it at the next S3. The action lies in core's header, which survives every suspend, and
nothing sets it back: core does it again at every later S3.

`Settled` is the condition that no such action is left over (`NothingLeft`), and `acts_only_when_asked`
says what holds in the runs that meet it: core changes memory or the disk no more often than a command
has been accepted, and only in the first execution after one, to do what it asked for; a suspend without
a command changes nothing and resumes the OS that suspended.
-/

namespace SwitchOs

open CoreAction

/-! ## `core_main` leaves its header alone -/

section SameCore

variable {P : Platform} {dev : BlkDev} {fuel : ℕ} {core : CoreHeader}

/-- The core header is this one. -/
def HasCore (core : CoreHeader) (m : Machine) : Prop := m.core = core

theorem blkRequest_core {move : Machine → Machine} (h : ∀ m, (move m).core = m.core) :
    Prog.Preserves (HasCore core) (blkRequest dev move) := by
  rw [blkRequest]
  refine Prog.preserves_bind Prog.preserves_get fun m => ?_
  refine Prog.preserves_bind (Prog.preserves_modify fun _ hs => hs) fun _ => ?_
  refine Prog.preserves_bind (Prog.preserves_check _ _) fun _ => ?_
  exact Prog.preserves_modify fun s hs => (h s).trans hs

theorem readDumpHeader_core : Prog.Preserves (HasCore core) (readDumpHeader P dev) := by
  rw [readDumpHeader]
  refine Prog.preserves_bind (blkRequest_core fun _ => rfl) fun _ => ?_
  exact Prog.preserves_bind Prog.preserves_get fun _ => Prog.preserves_pure _

theorem diskStoreDump_core : Prog.Preserves (HasCore core) (diskStoreDump P dev) := by
  rw [diskStoreDump]
  refine Prog.preserves_bind Prog.preserves_get fun m => ?_
  refine Prog.preserves_bind (Prog.preserves_lift _) fun header => ?_
  refine Prog.preserves_bind (Prog.preserves_forEach _ fun i _ => ?_) fun _ => ?_
  · exact blkRequest_core fun _ => rfl
  · exact blkRequest_core fun _ => rfl

theorem switchChunks_core (stop : UInt64) :
    ∀ (fuel : ℕ) (addr sector : UInt64),
      Prog.Preserves (HasCore core) (switchChunks P dev stop fuel addr sector) := by
  intro fuel
  induction fuel with
  | zero =>
    intro addr sector
    rw [switchChunks]
    split
    · exact Prog.preserves_diverge
    · exact Prog.preserves_pure ()
  | succ fuel ih =>
    intro addr sector
    rw [switchChunks]
    split
    · refine Prog.preserves_bind (Prog.preserves_check _ _) fun _ => ?_
      refine Prog.preserves_bind ?_ fun _ => ih _ _
      refine Prog.preserves_bind (blkRequest_core fun _ => rfl) fun _ => ?_
      refine Prog.preserves_bind (blkRequest_core fun _ => rfl) fun _ => ?_
      exact Prog.preserves_modify fun _ hs => hs
    · exact Prog.preserves_pure ()

theorem diskSwitchDump_core : Prog.Preserves (HasCore core) (diskSwitchDump P dev fuel) := by
  rw [diskSwitchDump]
  refine Prog.preserves_bind readDumpHeader_core fun header => ?_
  refine Prog.preserves_bind Prog.preserves_get fun m => ?_
  refine Prog.preserves_bind (Prog.preserves_check _ _) fun _ => ?_
  refine Prog.preserves_bind (Prog.preserves_forEach _ fun i _ => switchChunks_core _ _ _ _)
    fun _ => ?_
  refine Prog.preserves_bind (Prog.preserves_modify fun _ hs => hs) fun _ => ?_
  refine Prog.preserves_bind Prog.preserves_get fun m => ?_
  refine Prog.preserves_bind (Prog.preserves_lift _) fun v => ?_
  exact blkRequest_core fun _ => rfl

theorem coreMainBody_core : Prog.Preserves (HasCore core) (coreMainBody P dev fuel) := by
  rw [coreMainBody]
  refine Prog.preserves_bind Prog.preserves_get fun m => ?_
  refine Prog.preserves_bind (Prog.preserves_check _ _) fun _ => ?_
  refine Prog.preserves_bind (Prog.preserves_lift _) fun v => ?_
  refine Prog.preserves_bind (Prog.preserves_modify fun _ hs => hs) fun _ => ?_
  refine Prog.preserves_bind (Prog.preserves_check _ _) fun _ => ?_
  rw [coreAction]
  refine Prog.preserves_bind Prog.preserves_get fun m => ?_
  split_ifs
  · exact diskStoreDump_core
  · refine Prog.preserves_bind ?_ fun contains => ?_
    · rw [doesDiskContainDump]
      refine Prog.preserves_bind readDumpHeader_core fun _ => ?_
      exact Prog.preserves_bind Prog.preserves_get fun _ => Prog.preserves_pure _
    · exact Prog.preserves_bind (Prog.preserves_check _ _) fun _ => diskSwitchDump_core
  · exact Prog.preserves_throw _

/-- **`core_main` leaves its header as it was**: the action too. -/
theorem coreMain_core {m m' : Machine} (h : coreMain P dev fuel m = some m') :
    m'.core = m.core := by
  rw [coreMain, Option.map_eq_some_iff] at h
  obtain ⟨⟨r, t⟩, hrun, rfl⟩ := h
  exact coreMainBody_core { m with issued := 0, kernelWakingVector := 0 } r t rfl
    hrun

end SameCore

/-! ## What an execution of core changes -/

section Worked

variable {P : Platform} {dev : BlkDev} {fuel : ℕ} {m t : Machine}

/-- There is no action left in the header that core would come to: none at all, or no device, or a switch
without a dump that can be read. -/
def NothingLeft (dev : BlkDev) (m : Machine) : Prop :=
  m.core.action = CORE_ACTION_NOOP.toUInt32 ∨ dev.initOk = false ∨
    m.core.action = CORE_ACTION_SWITCH.toUInt32 ∧
      (dev.fails 0 = true ∨ isDumpHeaderValid m.core m.disk = false)

/-- Memory or the disk has changed. -/
def Worked (m t : Machine) : Prop := t.mem ≠ m.mem ∨ t.disk ≠ m.disk

/-- **An execution with nothing left to do** leaves memory and disk as they are and resumes the OS that
suspended. -/
theorem coreMain_idle (P : Platform) (fuel : ℕ) (hvalid : isCoreHeaderValid m.core = true)
    (hsaved : m.core.savedVector m.mem ≠ 0) (hnothing : NothingLeft dev m) :
    ∃ t, coreMain P dev fuel m = some t ∧ t.mem = m.mem ∧ t.disk = m.disk ∧
      t.kernelWakingVector = m.core.savedVector m.mem := by
  cases hinit : dev.initOk with
  | false => exact ⟨m.found, coreMain_noDisk hvalid hsaved hinit, rfl, rfl, rfl⟩
  | true =>
    rw [coreMain_eq hvalid hsaved hinit]
    rcases hnothing with hnoop | hno | ⟨haction, hno⟩
    · rw [coreAction_other (m := m.found) (ne_of_eq_of_ne hnoop (by decide))
        (ne_of_eq_of_ne hnoop (by decide))]
      exact ⟨m.found, rfl, rfl, rfl, rfl⟩
    · rw [hinit] at hno
      cases hno
    · cases hfail : dev.fails 0 with
      | true =>
        rw [coreAction_switch_fail (m := m.found) haction hfail]
        exact ⟨m.found.tick, rfl, rfl, rfl, rfl⟩
      | false =>
        have hdump : isDumpHeaderValid m.found.core m.found.disk = false :=
          hno.resolve_left (by rw [hfail]; exact Bool.false_ne_true)
        rw [coreAction_switch (m := m.found) haction (ramAreasSize_le hvalid) hfail,
          if_neg (by rw [hdump]; exact Bool.false_ne_true)]
        exact ⟨m.found.tick, rfl, rfl, rfl, rfl⟩

/-- **An execution that changes something** is a store, and changes the disk only, or a switch with a
dump. -/
theorem coreMain_worked (hvalid : isCoreHeaderValid m.core = true)
    (hsaved : m.core.savedVector m.mem ≠ 0) (hrun : coreMain P dev fuel m = some t)
    (hworked : Worked m t) :
    m.core.action = CORE_ACTION_STORE.toUInt32 ∧ t.mem = m.mem ∨
      m.core.action = CORE_ACTION_SWITCH.toUInt32 ∧ isDumpHeaderValid m.core m.disk = true := by
  have hidle : ¬ NothingLeft dev m := by
    intro hnothing
    obtain ⟨t', hrun', hmem, hdisk, -⟩ := coreMain_idle P fuel hvalid hsaved hnothing
    obtain rfl := Option.some.inj (hrun.symm.trans hrun')
    exact hworked.elim (absurd hmem) (absurd hdisk)
  obtain ⟨a, ha⟩ := exists_action_of_valid (action_of_valid hvalid)
  cases a with
  | CORE_ACTION_NOOP => exact absurd (Or.inl ha.symm) hidle
  | CORE_ACTION_STORE =>
    have hno : NoSwitch m := Or.inl (by rw [← ha]; decide)
    exact Or.inl ⟨ha.symm, (coreMain_noSwitch hno hrun).1⟩
  | CORE_ACTION_SWITCH =>
    refine Or.inr ⟨ha.symm, ?_⟩
    by_contra hdump
    exact hidle (Or.inr (Or.inr ⟨ha.symm, Or.inr (Bool.eq_false_iff.mpr hdump)⟩))

end Worked

/-! ## Sessions -/

/-- The hook accepts this call as a `SET_CORE_ACTION` command. -/
def commandAccepted (call : SetVariableCall) : Bool :=
  isCommandsGuid call.vendorGuid &&
    decide (wstrcmp call.variableName 0 (wideLiteral "SET_CORE_ACTION") = 0) &&
      (call.dataSize == 4) && isCoreHeaderActionValid (get32 call.data 0)

/-- An accepted command sets the action, and does nothing else. -/
theorem setVariableHook_accepted {facs : UInt64} (F : Firmware facs) {call : SetVariableCall}
    (h : commandAccepted call = true) (m : Machine) :
    setVariableHook F call m =
      (EFI_SUCCESS, { m with core := m.core.setAction (get32 call.data 0) }) := by
  simp only [commandAccepted, Bool.and_eq_true, decide_eq_true_eq, beq_iff_eq] at h
  obtain ⟨⟨⟨hguid, hname⟩, hsize⟩, hvalid⟩ := h
  have hsize0 : call.dataSize ≠ 0 := by
    rw [hsize]
    decide
  have hcmd : handleCommand call.variableName call.data call.dataSize m.core =
      .ok (m.core.setAction (get32 call.data 0)) := by
    rw [handleCommand, if_pos hname, setCoreActionHandler, if_pos hsize]
    exact if_pos hvalid
  rw [setVariableHook, if_pos hguid, if_neg hsize0, hcmd]

/-- A call that is no accepted command leaves core's header alone. -/
theorem setVariableHook_refused {facs : UInt64} (F : Firmware facs) {call : SetVariableCall}
    (h : commandAccepted call = false) (m : Machine) : (setVariableHook F call m).2.core = m.core := by
  rw [setVariableHook]
  by_cases hguid : isCommandsGuid call.vendorGuid = true
  · rw [if_pos hguid]
    by_cases hsize : call.dataSize = 0
    · rw [if_pos hsize]
    rw [if_neg hsize, handleCommand]
    by_cases hname : wstrcmp call.variableName 0 (wideLiteral "SET_CORE_ACTION") = 0
    · rw [if_pos hname, setCoreActionHandler]
      by_cases hfour : call.dataSize = 4
      · have hinvalid : ¬ isCoreHeaderActionValid (get32 call.data 0) = true := by
          simpa [commandAccepted, hguid, hname, hfour] using h
        simp only [if_pos hfour, if_neg hinvalid]
      · rw [if_neg hfour]
    · rw [if_neg hname]
  · rw [if_neg hguid]

/-- What happens to a machine: the OS runs, calls `SetVariable`, suspends, and core wakes up with the
disk in some state. -/
inductive SessionEvent where
  | execute (mem : ℕ → UInt8)
  | setVariable (call : SetVariableCall)
  | suspend
  | wake (dev : BlkDev)

/-- The machine; whether it is suspended; the action of the last command accepted since the last
execution of core; and how many commands have been accepted, and how often core has changed memory or
the disk. -/
structure Session where
  machine : Machine
  asleep : Bool
  asked : Option UInt32
  accepted : ℕ
  performed : ℕ

variable {facs : UInt64}

open Classical in
/-- The steps of a session, in any order that a machine can take them. An OS suspends with its waking
vector saved; it does not write to core's memory. -/
inductive SessionStep (P : Platform) (fuel : ℕ) (F : Firmware facs) :
    Session → SessionEvent → Session → Prop
  | execute {s : Session} (mem : ℕ → UInt8) : s.asleep = false →
      SessionStep P fuel F s (.execute mem) { s with machine := { s.machine with mem := mem } }
  | setVariable {s : Session} (call : SetVariableCall) : s.asleep = false →
      SessionStep P fuel F s (.setVariable call)
        { s with
          machine := (setVariableHook F call s.machine).2
          asked := if commandAccepted call then some (get32 call.data 0) else s.asked
          accepted := s.accepted + (commandAccepted call).toNat }
  | suspend {s : Session} : s.asleep = false →
      s.machine.core.savedVector s.machine.mem ≠ 0 →
      SessionStep P fuel F s .suspend { s with asleep := true }
  | wake {s : Session} {dev : BlkDev} {m : Machine} : s.asleep = true →
      coreMain P dev fuel s.machine = some m →
      SessionStep P fuel F s (.wake dev)
        { s with
          machine := m
          asleep := false
          asked := none
          performed := s.performed + if Worked s.machine m then 1 else 0 }

/-- No action is left over: where core is executed without a command since its last execution, it has
nothing to do. -/
def Settled (s : Session) (e : SessionEvent) : Prop :=
  ∀ dev, e = .wake dev → s.asked = none → NothingLeft dev s.machine

/-- What core has changed is paid for by commands, and the last one by one more, whose action is that of
the header. -/
structure SessionInv (facs : UInt64) (s : Session) : Prop where
  facs : s.machine.core.facs = facs
  valid : isCoreHeaderValid s.machine.core = true
  saved : s.asleep = true → s.machine.core.savedVector s.machine.mem ≠ 0
  action : ∀ action, s.asked = some action → s.machine.core.action = action
  paid : s.performed + s.asked.isSome.toNat ≤ s.accepted

variable {P : Platform} {fuel : ℕ} {F : Firmware facs} {s t : Session} {e : SessionEvent}

/-- The hook keeps the header valid and the FACS where it is. -/
theorem setVariableHook_core (call : SetVariableCall) {m : Machine} (hfacs : m.core.facs = facs)
    (hvalid : isCoreHeaderValid m.core = true) :
    (setVariableHook F call m).2.core.facs = facs ∧
      isCoreHeaderValid (setVariableHook F call m).2.core = true := by
  rcases setVariableHook_cases F call m hfacs with (heq | ⟨action, haction, heq⟩) | ⟨hcore, -⟩
  · rw [heq]
    exact ⟨hfacs, hvalid⟩
  · rw [heq]
    exact ⟨hfacs, isCoreHeaderValid_setAction hvalid haction⟩
  · rw [hcore]
    exact ⟨hfacs, hvalid⟩

/-- The step lemma. -/
theorem SessionInv.step (h : SessionInv facs s) (hstep : Where Settled (SessionStep P fuel F) s e t) :
    SessionInv facs t := by
  obtain ⟨hsettled, hstep⟩ := hstep
  cases hstep with
  | execute mem hawake =>
    exact ⟨h.facs, h.valid, fun hs => by simp [hawake] at hs, h.action, h.paid⟩
  | setVariable call hawake =>
    obtain ⟨hfacs, hvalid⟩ := setVariableHook_core (F := F) call h.facs h.valid
    refine ⟨hfacs, hvalid, fun hs => by simp [hawake] at hs, ?_, ?_⟩
    · intro action hasked
      cases hcall : commandAccepted call with
      | true =>
        simp only [hcall, if_true, Option.some.injEq] at hasked
        rw [setVariableHook_accepted F hcall, ← hasked]
        rfl
      | false =>
        simp only [hcall, Bool.false_eq_true, if_false] at hasked
        rw [setVariableHook_refused F hcall]
        exact h.action action hasked
    · have hpaid := h.paid
      cases hcall : commandAccepted call with
      | true =>
        simp only [if_true, Option.isSome_some, Bool.toNat_true]
        omega
      | false =>
        simp only [Bool.false_eq_true, if_false, Bool.toNat_false]
        omega
  | suspend _ hsaved => exact ⟨h.facs, h.valid, fun _ => hsaved, h.action, h.paid⟩
  | @wake dev m hasleep hrun =>
    have hcore := coreMain_core hrun
    refine ⟨by rw [hcore]; exact h.facs, by rw [hcore]; exact h.valid, nofun, nofun, ?_⟩
    have hpaid := h.paid
    simp only [Option.isSome_none, Bool.toNat_false, Nat.add_zero]
    cases hasked : s.asked with
    | none =>
      -- without a command core changes nothing
      obtain ⟨m', hrun', hmem, hdisk, -⟩ := coreMain_idle P fuel h.valid
        (h.saved hasleep) (hsettled dev rfl hasked)
      obtain rfl := Option.some.inj (hrun.symm.trans hrun')
      rw [if_neg fun hworked => hworked.elim (absurd hmem) (absurd hdisk)]
      omega
    | some action =>
      rw [hasked, Option.isSome_some, Bool.toNat_true] at hpaid
      split <;> omega

/-- **A store or switch happens only when asked for.** In every run in which no action is left over,
core changes memory or the disk at most as often as a command has been accepted, and only in its first
execution after one, with the action of the last: a store, which leaves memory alone, or a switch with a
dump on the disk. A suspend without a command changes neither memory nor disk and resumes the OS that
suspended. -/
theorem acts_only_when_asked (P : Platform) (fuel : ℕ) (F : Firmware facs) (s t : Session)
    (es : List SessionEvent) (hfacs : s.machine.core.facs = facs)
    (hvalid : isCoreHeaderValid s.machine.core = true) (hawake : s.asleep = false)
    (hfresh : s.asked = none ∧ s.performed = 0 ∧ s.accepted = 0)
    (hrun : Runs (Where Settled (SessionStep P fuel F)) s es t) :
    t.performed ≤ t.accepted ∧
      (∀ dev m, t.asleep = true → coreMain P dev fuel t.machine = some m →
        Settled t (.wake dev) → Worked t.machine m → t.asked = some t.machine.core.action ∧
          (t.machine.core.action = CORE_ACTION_STORE.toUInt32 ∧ m.mem = t.machine.mem ∨
            t.machine.core.action = CORE_ACTION_SWITCH.toUInt32 ∧
              isDumpHeaderValid t.machine.core t.machine.disk = true)) ∧
      ∀ dev, t.asleep = true → t.asked = none → NothingLeft dev t.machine →
        ∃ m, coreMain P dev fuel t.machine = some m ∧ m.mem = t.machine.mem ∧
          m.disk = t.machine.disk ∧
          m.kernelWakingVector = t.machine.core.savedVector t.machine.mem := by
  obtain ⟨hasked, hperformed, haccepted⟩ := hfresh
  have hstart : SessionInv facs s :=
    ⟨hfacs, hvalid, fun hs => by simp [hawake] at hs, fun a ha => by simp [hasked] at ha,
      by simp [hasked, hperformed]⟩
  have hinv : SessionInv facs t :=
    hrun.invariant (I := SessionInv facs) (fun _ _ _ h hstep => h.step hstep) hstart
  refine ⟨le_trans (Nat.le_add_right _ _) hinv.paid, ?_, ?_⟩
  · intro dev m hasleep hmain hsettled hworked
    refine ⟨?_, coreMain_worked hinv.valid (hinv.saved hasleep) hmain hworked⟩
    cases hasked : t.asked with
    | none =>
      obtain ⟨m', hmain', hmem, hdisk, -⟩ := coreMain_idle P fuel hinv.valid
        (hinv.saved hasleep) (hsettled dev rfl hasked)
      obtain rfl := Option.some.inj (hmain.symm.trans hmain')
      exact absurd hworked (not_or.mpr ⟨not_not_intro hmem, not_not_intro hdisk⟩)
    | some action => rw [hinv.action action hasked]
  · intro dev hasleep hno hnothing
    exact coreMain_idle P fuel hinv.valid (hinv.saved hasleep) hnothing

/-! ## A second S3 -/

theorem storeCommand_accepted : commandAccepted storeCommand = true := by decide

/-- A machine that has not been asked for anything. -/
def freshSession : Session := ⟨sampleMachine (onePage 0x100000), false, none, 0, 0⟩

/-- The OS asks for a store and suspends. -/
def askedSession : Session :=
  ⟨{ freshSession.machine with core := storePage }, true, some 1, 1, 0⟩

theorem runs_askedSession :
    Runs (Where Settled (SessionStep samplePlatform 0 (quietFirmware 0x3000))) freshSession
      [.setVariable storeCommand, .suspend] askedSession := by
  have hcall : SessionStep samplePlatform 0 (quietFirmware 0x3000) freshSession
      (.setVariable storeCommand) { askedSession with asleep := false } := by
    have hstep : SessionStep samplePlatform 0 (quietFirmware 0x3000) freshSession
      (.setVariable storeCommand) _ := .setVariable storeCommand rfl
    rwa [setVariableHook_accepted _ storeCommand_accepted, storeCommand_accepted] at hstep
  exact .cons ⟨nofun, hcall⟩ (.cons ⟨nofun, .suspend rfl (savedVector_ones _)⟩ (.nil _))

/-- Core then stores: the disk gets a dump of the page. -/
theorem askedSession_stores : ∃ m, coreMain samplePlatform .exact 0 askedSession.machine = some m ∧
    m.mem = (fun _ => 1) ∧ m.core = storePage ∧
      dumpImage m.disk = ramImage storePage (fun _ => 1) ∧ Worked askedSession.machine m := by
  obtain ⟨m, hrun, hmem, hcore, -, hholds⟩ := @coreMain_store samplePlatform .exact 0
    askedSession.machine storePage_valid storePage_geometry
    (savedVector_ones _) rfl rfl fun _ _ => rfl
  refine ⟨m, hrun, hmem, hcore, hholds.image, Or.inr fun hdisk => ?_⟩
  have hmagic : DumpHeader.magic askedSession.machine.disk = CORE_DISK_DUMP_MAGIC := by
    rw [← hdisk]
    exact hholds.laidOut.magic
  exact absurd hmagic (by decide)

/-- A command, a suspend and a store; the OS suspends again, core comes to no device and resumes it, and
the OS suspends once more. -/
def storedEvents : List SessionEvent :=
  [.setVariable storeCommand, .suspend] ++
    [.wake .exact, .suspend, .wake ⟨false, fun _ => true⟩, .suspend]

theorem runs_storedEvents : ∃ m : Machine,
    Runs (Where Settled (SessionStep samplePlatform 0 (quietFirmware 0x3000))) freshSession
      storedEvents ⟨m, true, none, 1, 1⟩ := by
  obtain ⟨m, hrun, hmem, hcore, -, hworked⟩ := askedSession_stores
  have hsaved : m.core.savedVector m.mem ≠ 0 := by
    rw [hmem]
    exact savedVector_ones _
  have hidle : coreMain samplePlatform ⟨false, fun _ => true⟩ 0 m = some m.found :=
    coreMain_noDisk (by rw [hcore]; exact storePage_valid) hsaved rfl
  have hwake : SessionStep samplePlatform 0 (quietFirmware 0x3000) askedSession (.wake .exact)
      ⟨m, false, none, 1, 1⟩ := by
    have hstep : SessionStep samplePlatform 0 (quietFirmware 0x3000) askedSession (.wake .exact) _ :=
      .wake rfl hrun
    rwa [if_pos hworked] at hstep
  have hagain : SessionStep samplePlatform 0 (quietFirmware 0x3000) ⟨m, true, none, 1, 1⟩
      (.wake ⟨false, fun _ => true⟩) ⟨m.found, false, none, 1, 1⟩ := by
    have hstep : SessionStep samplePlatform 0 (quietFirmware 0x3000) ⟨m, true, none, 1, 1⟩
      (.wake ⟨false, fun _ => true⟩) _ := .wake rfl hidle
    have hsame : ¬ Worked m m.found := not_or.mpr ⟨not_not_intro rfl, not_not_intro rfl⟩
    rwa [if_neg hsame] at hstep
  refine ⟨m.found, runs_askedSession.append (.cons ⟨fun dev _ hasked => ?_, hwake⟩
    (.cons ⟨nofun, .suspend rfl hsaved⟩ (.cons ⟨fun dev hdev _ => ?_, hagain⟩
      (.cons ⟨nofun, .suspend rfl hsaved⟩ (.nil _)))))⟩
  · cases hasked
  · cases hdev
    exact Or.inr (Or.inl rfl)

theorem acts_only_when_asked_once : ∃ t,
    Runs (Where Settled (SessionStep samplePlatform 0 (quietFirmware 0x3000))) freshSession
      storedEvents t ∧
    t.performed = 1 ∧ t.performed ≤ t.accepted ∧
      (∀ dev m, t.asleep = true → coreMain samplePlatform dev 0 t.machine = some m →
        Settled t (.wake dev) → Worked t.machine m → t.asked = some t.machine.core.action ∧
          (t.machine.core.action = CORE_ACTION_STORE.toUInt32 ∧ m.mem = t.machine.mem ∨
            t.machine.core.action = CORE_ACTION_SWITCH.toUInt32 ∧
              isDumpHeaderValid t.machine.core t.machine.disk = true)) ∧
      ∀ dev, t.asleep = true → t.asked = none → NothingLeft dev t.machine →
        ∃ m, coreMain samplePlatform dev 0 t.machine = some m ∧ m.mem = t.machine.mem ∧
          m.disk = t.machine.disk ∧
          m.kernelWakingVector = t.machine.core.savedVector t.machine.mem := by
  obtain ⟨m, hrun⟩ := runs_storedEvents
  exact ⟨_, hrun, rfl, acts_only_when_asked samplePlatform 0 (quietFirmware 0x3000) freshSession _ _
    rfl (onePage_valid _) rfl ⟨rfl, rfl, rfl⟩ hrun⟩

/-- **A store that nobody asked for.** The OS asks for one store, suspends and is resumed; it runs on
and suspends again: core stores it again, over its first dump. -/
theorem second_suspend_stores_again :
    ∃ (es : List SessionEvent) (t : Session) (m : Machine),
      isCoreHeaderValid freshSession.machine.core = true ∧ Geometry sampleSizes freshSession.machine.core ∧
      Runs (SessionStep samplePlatform 0 (quietFirmware 0x3000)) freshSession es t ∧
      t.asleep = true ∧ t.asked = none ∧ t.accepted = 1 ∧ t.performed = 1 ∧
      coreMain samplePlatform .exact 0 t.machine = some m ∧ m.disk ≠ t.machine.disk := by
  obtain ⟨m₁, hrun₁, hmem₁, hcore₁, himage₁, hworked⟩ := askedSession_stores
  -- the OS changes its memory and suspends without a command
  have hcore₂ : ({ m₁ with mem := fun _ => 2 } : Machine).core = storePage := hcore₁
  obtain ⟨m₂, hrun₂, -, -, -, hholds₂⟩ := @coreMain_store samplePlatform .exact 0
    { m₁ with mem := fun _ => 2 }
    (by rw [hcore₂]; exact storePage_valid) (by rw [hcore₂]; exact storePage_geometry)
    (savedVector_twos _) (by rw [hcore₂]; rfl) rfl fun _ _ => rfl
  have hwake : SessionStep samplePlatform 0 (quietFirmware 0x3000) askedSession (.wake .exact)
      ⟨m₁, false, none, 1, 1⟩ := by
    have hstep : SessionStep samplePlatform 0 (quietFirmware 0x3000) askedSession (.wake .exact) _ :=
      .wake rfl hrun₁
    rwa [if_pos hworked] at hstep
  refine ⟨[.setVariable storeCommand, .suspend] ++ [.wake .exact, .execute fun _ => 2, .suspend],
    ⟨{ m₁ with mem := fun _ => 2 }, true, none, 1, 1⟩, m₂, onePage_valid _,
    onePage_geometry (by decide), ?_, rfl, rfl, rfl, rfl, hrun₂, fun hdisk => ?_⟩
  · exact (runs_askedSession.mono fun _ _ _ h => h.2).append (.cons hwake
      (.cons (.execute (fun _ => 2) rfl) (.cons (.suspend rfl (savedVector_twos _)) (.nil _))))
  · -- the two dumps hold different images
    have himage : ramImage storePage (fun _ => 2) = ramImage storePage (fun _ => 1) := by
      rw [← himage₁, ← hdisk]
      have hstored := hholds₂.image
      rw [hcore₂] at hstored
      exact hstored.symm
    have hwindow := ramImage_eq_iff.mp himage 0 (by decide)
    exact absurd (window_eq_window.mp hwindow 0 (by decide)) (by decide)

end SwitchOs
