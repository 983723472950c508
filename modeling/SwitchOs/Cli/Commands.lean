import SwitchOs.Cli.Osl

/-!
# `switch-os-cli store` and `switch-os-cli switch`

The two commands ask for the privileges they need, set the action in core's header by a call of
`SetVariable`, and enter S3. `op_spec` says what they do on any OS layer that does what `cli/osl.h` says,
whatever fails: the machine is as it was, or the action is set, or the action is set and the machine is
suspended. `op_twoSlot` is the whole way of a command, from the user to the OS that the firmware resumes.
-/

namespace SwitchOs

open CoreAction

/-- The bytes of an `enum core_action` variable. -/
def actionBytes (action : CoreAction) : ℕ → UInt8 := put32 (fun _ => 0) 0 action.toUInt32

/-- `send_uefi_command`. -/
def sendUefiCommand (O : Osl) (name : List UInt16) (data : ℕ → UInt8) (dataSize : UInt64) :
    Prog Err Cycle Unit :=
  O.setUefiVariable EFI_COMMANDS_GUID name data dataSize

/-- What `execute_store_op` and `execute_switch_op` do, with their action. -/
def executeOp (O : Osl) (action : CoreAction) (isLazy : Bool) : Prog Err Cycle Unit := do
  O.enableUefiPrivileges
  O.enableSleepPrivileges
  sendUefiCommand O (wideLiteral "SET_CORE_ACTION") (actionBytes action) 4
  if isLazy then pure () else O.enterSleepS3

/-- `execute_store_op`. -/
def executeStoreOp (O : Osl) (isLazy : Bool) : Prog Err Cycle Unit :=
  executeOp O CORE_ACTION_STORE isLazy

/-- `execute_switch_op`. -/
def executeSwitchOp (O : Osl) (isLazy : Bool) : Prog Err Cycle Unit :=
  executeOp O CORE_ACTION_SWITCH isLazy

/-- What argtable makes of the arguments of a subcommand: whether its table could be allocated, how
often `--help` and `--lazy` are there, and the errors. -/
structure ParsedArgs where
  allocated : Bool
  help : ℕ
  lazyCount : ℕ
  nerrors : ℕ

/-- `store_handler` and `switch_handler`, with the operation that they execute: the exit code. -/
def opHandler (op : Bool → Prog Err Cycle Unit) (args : ParsedArgs) : Prog Err Cycle ℕ := do
  if args.allocated = false then pure 1
  else if args.help > 0 then pure 0
  else if args.nerrors > 0 then pure 1
  else do
    let ok ← Prog.succeeds (op (decide (args.lazyCount > 0)))
    pure (if ok then 0 else 1)

/-- `store_handler`. -/
def storeHandler (O : Osl) : ParsedArgs → Prog Err Cycle ℕ := opHandler (executeStoreOp O)

/-- `switch_handler`. -/
def switchHandler (O : Osl) : ParsedArgs → Prog Err Cycle ℕ := opHandler (executeSwitchOp O)

section Commands

variable {P : Platform} {fuel : ℕ} {core : CoreHeader} {F : Firmware core.facs} {D : BlkDev → Prop}
  {K : OsKernel core} {O : Osl} {s t : Cycle} {action : CoreAction} {isLazy : Bool}
  {args : ParsedArgs}

/-- The implementations of `cli/osl.h`, each with the kernel under it, whose own call for S3 is relied
on for what `EntersS3` says. -/
inductive Implemented (F : Firmware core.facs) : Osl → OsKernel core → Prop
  | linux (L : Linux core) (hS3 : EntersS3 F L.kernel L.enterS3) :
      Implemented F (linuxOsl F L) L.kernel
  | windows (W : Windows core) (hS3 : EntersS3 F W.kernel W.setSuspendState) :
      Implemented F (windowsOsl F W) W.kernel

theorem Implemented.meets (h : Implemented F O K) : O.Meets F K := by
  cases h with
  | linux L hS3 => exact linux_meets hS3
  | windows W hS3 => exact windows_meets hS3

/-! ## The command -/

/-- The machine, with another action in core's header. -/
def Cycle.ask (s : Cycle) (action : CoreAction) : Cycle :=
  { s with watched :=
    ⟨{ s.machine with core := s.machine.core.setAction action.toUInt32 }, s.watched.lastWritten⟩ }

theorem setCoreAction_accepts (action : CoreAction) (c : CoreHeader) :
    setCoreActionHandler (actionBytes action) 4 c = .ok (c.setAction action.toUInt32) := by
  have hbytes : get32 (actionBytes action) 0 = action.toUInt32 := get32_put32 _ _ _
  rw [setCoreActionHandler, if_pos rfl, hbytes]
  cases action <;> rfl

/-- A deletion of the command's variable changes nothing. -/
theorem after_deletion {call : SetVariableCall} (hguid : call.vendorGuid = EFI_COMMANDS_GUID)
    (hsize : call.dataSize = 0) (s : Cycle) : s.after F (.setVariable call) = s := by
  have hcommand : isCommandsGuid call.vendorGuid = true := by
    rw [hguid]
    decide
  rw [Cycle.after, setVariableHook, if_pos hcommand, if_pos hsize]
  rfl

/-- The call itself sets the action. -/
theorem after_command {call : SetVariableCall} (hguid : call.vendorGuid = EFI_COMMANDS_GUID)
    (hname : IsName call.variableName "SET_CORE_ACTION") (hdata : call.data = actionBytes action)
    (hsize : call.dataSize = 4) (s : Cycle) :
    s.after F (.setVariable call) = s.ask action ∧
      (setVariableHook F call s.machine).1 = EFI_SUCCESS := by
  have hcommand : isCommandsGuid call.vendorGuid = true := by
    rw [hguid]
    decide
  have hhandled : handleCommand call.variableName call.data call.dataSize s.machine.core =
      .ok (s.machine.core.setAction action.toUInt32) := by
    rw [handleCommand, if_pos (wstrcmp_command.mpr hname), hdata, hsize, setCoreAction_accepts]
  have hhook : setVariableHook F call s.machine =
      (EFI_SUCCESS, { s.machine with core := s.machine.core.setAction action.toUInt32 }) := by
    rw [setVariableHook, if_pos hcommand, if_neg (by rw [hsize]; decide), hhandled]
  rw [Cycle.after, hhook]
  exact ⟨rfl, rfl⟩

theorem afterCalls_deletions {call : SetVariableCall} (hguid : call.vendorGuid = EFI_COMMANDS_GUID)
    {deletions : List SetVariableCall} (hdeletes : ∀ c ∈ deletions, c = { call with dataSize := 0 })
    (s : Cycle) : s.afterCalls F deletions = s := by
  induction deletions with
  | nil => rfl
  | cons c cs ih =>
    obtain rfl := hdeletes c List.mem_cons_self
    have hdeleted : s.after F (.setVariable { call with dataSize := 0 }) = s :=
      @after_deletion _ F { call with dataSize := 0 } hguid rfl s
    rw [Cycle.afterCalls, List.map_cons, List.foldl_cons, hdeleted]
    exact ih fun d hd => hdeletes d (List.mem_cons_of_mem _ hd)

theorem commandName_chars : wideLiteral "SET_CORE_ACTION" =
    [83, 69, 84, 95, 67, 79, 82, 69, 95, 65, 67, 84, 73, 79, 78] := by decide

/-- What is left of the command is the action, or nothing but an error. -/
theorem sendUefiCommand_spec (hO : O.Meets F K) (action : CoreAction) (s : Cycle) :
    ∃ r t, sendUefiCommand O (wideLiteral "SET_CORE_ACTION") (actionBytes action) 4 s = some (r, t) ∧
      ((r = .error .ERR_INVALID ∧ t = s) ∨ (r = .ok () ∧ t = s.ask action ∧
        ∃ call, s.after F (.setVariable call) = s.ask action)) := by
  have hascii : ∀ c ∈ wideLiteral "SET_CORE_ACTION", c ≠ 0 ∧ c < 128 := by
    rw [commandName_chars]
    simp
  obtain ⟨r, t, hrun, hsets | hnone⟩ := hO.variable_set EFI_COMMANDS_GUID
    (wideLiteral "SET_CORE_ACTION") (actionBytes action) 4 s (by decide) (by decide) hascii
  · obtain ⟨call, hname, hguid, hdata, hsize, deletions, hdeletes, hcases⟩ := hsets
    rw [afterCalls_deletions hguid hdeletes] at hcases
    obtain ⟨hafter, hstatus⟩ := @after_command _ F action call hguid hname hdata hsize s
    refine ⟨r, t, hrun, hcases.imp_right fun h => ⟨h.2.mpr hstatus, h.1.trans hafter, call, hafter⟩⟩
  · exact ⟨r, t, hrun, Or.inl hnone⟩

/-- Where a `store` or a `switch` may end. -/
inductive OpEnds (F : Firmware core.facs) (K : OsKernel core) (action : CoreAction) (isLazy : Bool)
    (s : Cycle) : Except Err Unit → Cycle → Prop
  | refused (e : Err) : OpEnds F K action isLazy s (.error e) s
  | asked : isLazy = true → OpEnds F K action isLazy s (.ok ()) (s.ask action)
  | awake (e : Err) {t : Cycle} : isLazy = false → PreparedTo F K (s.ask action) t →
      OpEnds F K action isLazy s (.error e) t
  | suspended : isLazy = false → OpEnds F K action isLazy s (.ok ()) (kernelSuspend F K (s.ask action))

/-- **A `store` or a `switch`**, whatever fails. -/
theorem executeOp_spec (hO : O.Meets F K) (action : CoreAction) (isLazy : Bool) (s : Cycle) :
    ∃ r t, executeOp O action isLazy s = some (r, t) ∧ OpEnds F K action isLazy s r t ∧
      (t = s ∨ ∃ call, s.after F (.setVariable call) = s.ask action) := by
  obtain ⟨r, huefi⟩ := hO.uefi s
  obtain ⟨r', hsleep⟩ := hO.sleep s
  rw [executeOp]
  cases r with
  | error e => exact ⟨_, s, Prog.bind_error huefi, .refused e, Or.inl rfl⟩
  | ok _ =>
    rw [Prog.bind_ok huefi]
    cases r' with
    | error e => exact ⟨_, s, Prog.bind_error hsleep, .refused e, Or.inl rfl⟩
    | ok _ =>
      rw [Prog.bind_ok hsleep]
      obtain ⟨r, t, hsend, ⟨rfl, rfl⟩ | ⟨rfl, rfl, hcall⟩⟩ := sendUefiCommand_spec hO action s
      · exact ⟨_, _, Prog.bind_error hsend, .refused _, Or.inl rfl⟩
      · rw [Prog.bind_ok hsend]
        cases isLazy with
        | true => exact ⟨_, _, rfl, .asked rfl, Or.inr hcall⟩
        | false =>
          obtain ⟨r, t, hs3, ⟨rfl, rfl⟩ | ⟨rfl, hprepared⟩⟩ := hO.s3 (s.ask action)
          · exact ⟨_, _, hs3, .suspended rfl, Or.inr hcall⟩
          · exact ⟨_, _, hs3, .awake _ rfl hprepared, Or.inr hcall⟩

theorem Wakes.ask {V : UInt32 → Prop} (h : Wakes core V s) (action : CoreAction) :
    Wakes core V (s.ask action) := by
  obtain ⟨request, hcore⟩ := h.action
  refine ⟨⟨action, ?_⟩, ⟨h.vector.facs, h.vector.vector⟩, h.written, h.suspended, h.served⟩
  show s.machine.core.setAction action.toUInt32 = core.setAction action.toUInt32
  rw [hcore]
  rfl

/-- Setting the action is a step of the machine. -/
theorem ask_run (hawake : s.asleep = false) {call : SetVariableCall}
    (hcall : s.after F (.setVariable call) = s.ask action) :
    OrderlyRuns P fuel core F D s [.hook (.setVariable call)] (s.ask action) := by
  have hstep : WakeStep F s.watched (.setVariable call) (s.after F (.setVariable call)).watched :=
    .setVariable _ call
  rw [← hcall]
  exact .cons ⟨nofun, .hook hawake hstep⟩ (.nil _)

/-- What a command does to the machine is an orderly run of it that the two-slot machine does not
see. -/
theorem OpEnds.runs {r : Except Err Unit} (h : OpEnds F K action isLazy s r t)
    (hasked : t = s ∨ ∃ call, s.after F (.setVariable call) = s.ask action)
    (hwakes : Wakes core KernelVector s) (hawake : s.asleep = false) :
    ∃ es, OrderlyRuns P fuel core F D s es t ∧ es.flatMap CycleEvent.seen = [] := by
  rcases hasked with rfl | ⟨call, hcall⟩
  · exact ⟨[], .nil _, rfl⟩
  · have hrun := @ask_run P fuel _ _ D _ _ hawake _ hcall
    cases h with
    | refused e => exact ⟨[], .nil _, rfl⟩
    | asked _ => exact ⟨_, hrun, rfl⟩
    | awake e _ hprepared =>
      obtain ⟨⟨es, hes, hseen⟩, -⟩ := @PreparedTo.spec _ P fuel F D _ _ K hprepared
        (hwakes.ask action) (show (s.ask action).asleep = false from hawake)
      exact ⟨_, hrun.append hes, by rw [List.flatMap_append, hseen]; rfl⟩
    | suspended _ =>
      obtain ⟨⟨es, hes, hseen⟩, -⟩ :=
        @kernelSuspend_spec _ P fuel F D _ K (hwakes.ask action) (show (s.ask action).asleep = false from hawake)
      exact ⟨_, hrun.append hes, by rw [List.flatMap_append, hseen]; rfl⟩

/-- The exit code of a handler tells what the operation came to. -/
theorem opHandler_spec (hO : O.Meets F K) (action : CoreAction) (args : ParsedArgs) (s : Cycle) :
    ∃ code t, opHandler (executeOp O action) args s = some (.ok code, t) ∧
      ((t = s ∧ (code = 0 → args.help > 0)) ∨ ∃ r,
        OpEnds F K action (decide (args.lazyCount > 0)) s r t ∧
          (t = s ∨ ∃ call, s.after F (.setVariable call) = s.ask action) ∧
          (code = 0 ↔ r = .ok ())) := by
  rw [opHandler]
  split_ifs with hallocated hhelp herrors
  · exact ⟨1, s, rfl, Or.inl ⟨rfl, fun hone => absurd hone (by decide)⟩⟩
  · exact ⟨0, s, rfl, Or.inl ⟨rfl, fun _ => hhelp⟩⟩
  · exact ⟨1, s, rfl, Or.inl ⟨rfl, fun hone => absurd hone (by decide)⟩⟩
  · obtain ⟨r, t, hrun, hends, hasked⟩ := executeOp_spec hO action (decide (args.lazyCount > 0)) s
    cases r with
    | ok u =>
      refine ⟨0, t, ?_, Or.inr ⟨_, hends, hasked, iff_of_true rfl rfl⟩⟩
      have hok : Prog.succeeds (executeOp O action (decide (args.lazyCount > 0))) s =
          some (.ok true, t) := by rw [Prog.succeeds, hrun]
      rw [Prog.bind_ok hok]
      rfl
    | error e =>
      refine ⟨1, t, ?_, Or.inr ⟨_, hends, hasked,
        iff_of_false (fun hone => absurd hone (by decide)) fun hok => by cases hok⟩⟩
      have hfails : Prog.succeeds (executeOp O action (decide (args.lazyCount > 0))) s =
          some (.ok false, t) := by rw [Prog.succeeds, hrun]
      rw [Prog.bind_ok hfails]
      rfl

end Commands

/-! ## A store on a Linux -/

/-- A kernel that sets variables without a deletion, and suspends with `_PTS` right behind its
vector. -/
def plainKernel (core : CoreHeader) : OsKernel core where
  deletes _ := []
  comes _ := true
  early _ := []
  vector _ := 0x9000
  calls _ := []
  catcher _ := .pts UACPI_SLEEP_STATE_S3
  later _ := []
  memory s := s.machine.mem
  deletes_only _ _ := nofun
  early_write _ _ := nofun
  early_foreign _ _ := nofun
  early_pts _ _ _ := nofun
  vector_kernel _ := by unfold KernelVector; decide
  calls_foreign _ _ := nofun
  calls_uncaught _ _ := nofun
  catcher_catches _ := trivial
  memory_facs _ _ _ := rfl

/-- A Linux on it, in which nothing fails. -/
def plainLinux (core : CoreHeader) : Linux core where
  kernel := plainKernel core
  stack _ := 0xCC
  decode str i := (str i).toUInt16
  opens _ := true
  writes bytes s := (bytes.length, kernelSuspend (quietFirmware core.facs) (plainKernel core) s)
  decode_ascii _ _ _ _ _ _ := rfl

theorem plainLinux_entersS3 :
    EntersS3 (quietFirmware core.facs) (plainLinux core).kernel (plainLinux core).enterS3 :=
  ⟨fun _ _ => rfl, fun s hfailed => absurd hfailed (by simp [Linux.enterS3, plainLinux])⟩

/-- The same Linux, where S3 cannot be entered: the write fails after `_PTS`. -/
def refusingLinux (core : CoreHeader) : Linux core :=
  { plainLinux core with
    writes := fun _ s =>
      (-1, ((plainKernel core).caught s).foldl (Cycle.after (quietFirmware core.facs)) s) }

theorem refusingLinux_entersS3 :
    EntersS3 (quietFirmware core.facs) (refusingLinux core).kernel (refusingLinux core).enterS3 :=
  ⟨fun s hentered => absurd hentered (by simp [Linux.enterS3, refusingLinux]),
    fun s _ => ⟨(plainKernel core).caught s, List.prefix_rfl, rfl⟩⟩

/-- The machine after it has booted. -/
def bootedCycle : Cycle := ⟨⟨sampleMachine (onePage 0x100000), none⟩, false, false⟩

theorem booted_core : (sampleMachine (onePage 0x100000)).core =
    (onePage 0x100000).setAction CORE_ACTION_NOOP.toUInt32 := rfl

/-- The arguments of a command without any. -/
def noArgs : ParsedArgs := ⟨true, 0, 0, 0⟩

theorem store_plainLinux :
    storeHandler (linuxOsl (quietFirmware 0x3000) (plainLinux (onePage 0x100000))) noArgs bootedCycle =
      some (.ok 0, kernelSuspend (quietFirmware 0x3000) (plainKernel (onePage 0x100000))
        (bootedCycle.ask CORE_ACTION_STORE)) := by
  rfl

theorem store_refusingLinux : ∃ t,
    storeHandler (linuxOsl (quietFirmware 0x3000) (refusingLinux (onePage 0x100000))) noArgs
      bootedCycle = some (.ok 1, t) := ⟨_, rfl⟩

/-! ## Commands on a machine that has been running -/

section Reached

variable {P : Platform} {fuel : ℕ} {core : CoreHeader} {F : Firmware core.facs} {m : Machine}
  {request : CoreAction} {es : List CycleEvent} {s : Cycle}

/-- What holds of every machine that orderly runs lead to from a disk without a dump. -/
theorem related_of_runs (hspts : SparesRam core F) (hvalid : isCoreHeaderValid core = true)
    (hg : Geometry P.sizes core) (hfuel : switchFuel ≤ fuel) (hcore : m.core = core.setAction request.toUInt32)
    (hmagic : DumpHeader.magic m.disk ≠ CORE_DISK_DUMP_MAGIC)
    (hrun : OrderlyRuns P fuel core F (· = .exact) ⟨⟨m, none⟩, false, false⟩ es s) :
    ∃ a, Runs TwoSlot.Step ⟨(ramImage core m.mem, core.wakingVector m.mem), none, request, false⟩
        (es.flatMap CycleEvent.seen) a ∧ Related core s a := by
  refine (cycle_simulates hvalid hg hfuel hspts).runs hrun _ ?_
  exact ⟨⟨⟨request, hcore⟩, ⟨by rw [hcore]; rfl, nofun⟩, nofun, nofun, nofun⟩, storedOn_none hmagic,
    nofun, rfl, nofun⟩

/-- **A `store` or a `switch` on a machine that has been running**, on either OS and whatever fails in
it: it ends, in an orderly run of the machine. It suspends only with its action in core's header and
core's entry in the FACS, and says so with its exit code; a failure leaves the machine awake, as it was, or,
if it is S3 that could not be entered, with the action set and after some of the kernel's
preparations. -/
theorem command_outcomes (hspts : SparesRam core F) (hvalid : isCoreHeaderValid core = true)
    (hg : Geometry P.sizes core) (hfuel : switchFuel ≤ fuel) (hcore : m.core = core.setAction request.toUInt32)
    (hmagic : DumpHeader.magic m.disk ≠ CORE_DISK_DUMP_MAGIC)
    (hrun : OrderlyRuns P fuel core F (· = .exact) ⟨⟨m, none⟩, false, false⟩ es s)
    (hawake : s.asleep = false) {O : Osl} {K : OsKernel core} (hO : Implemented F O K)
    (action : CoreAction) (args : ParsedArgs) :
    ∃ code t, opHandler (executeOp O action) args s = some (.ok code, t) ∧
      (∃ fs, OrderlyRuns P fuel core F (· = .exact) s fs t ∧ fs.flatMap CycleEvent.seen = []) ∧
      (t.asleep = true → code = 0 ∧ t.machine.core.action = action.toUInt32 ∧
        core.wakingVector t.machine.mem = CORE_WAKEUP_PHYS_ADDR ∧
        (t.suspended core).2 = K.vector (s.ask action)) ∧
      (code = 0 → args.help = 0 →
        t.machine.core.action = action.toUInt32 ∧ (t.asleep = true ↔ args.lazyCount = 0)) ∧
      (code ≠ 0 → t.asleep = false ∧ (t = s ∨ args.lazyCount = 0 ∧
        t.machine.core.action = action.toUInt32 ∧ PreparedTo F K (s.ask action) t)) := by
  obtain ⟨a, -, hrelated⟩ := related_of_runs hspts hvalid hg hfuel hcore hmagic hrun
  obtain ⟨code, t, hdone, ⟨rfl, hhelp⟩ | ⟨r, hends, hasked, hcode⟩⟩ :=
    opHandler_spec hO.meets action args s
  · exact ⟨code, t, hdone, ⟨[], .nil _, rfl⟩, fun hs => by simp [hawake] at hs,
      fun hzero hnone => absurd (hhelp hzero) (by omega), fun _ => ⟨hawake, Or.inl rfl⟩⟩
  · refine ⟨code, t, hdone, hends.runs hasked hrelated.wakes hawake, ?_⟩
    have hask : (s.ask action).machine.core.action = action.toUInt32 :=
      CoreHeader.setAction_action _ _
    cases hends with
    | refused e =>
      exact ⟨fun hs => by simp [hawake] at hs, fun hzero => absurd (hcode.mp hzero) nofun,
        fun _ => ⟨hawake, Or.inl rfl⟩⟩
    | asked hlazy =>
      have hlate : args.lazyCount ≠ 0 := by simpa [Nat.pos_iff_ne_zero] using hlazy
      exact ⟨fun hs => absurd (hawake.symm.trans hs) nofun,
        fun _ _ => ⟨hask, iff_of_false (fun hs => absurd (hawake.symm.trans hs) nofun) hlate⟩,
        fun hne => absurd (hcode.mpr rfl) hne⟩
    | awake e hlazy hprepared =>
      have hnow : args.lazyCount = 0 := by simpa using hlazy
      obtain ⟨-, hstill, hheader⟩ := @PreparedTo.spec _ P fuel F (· = .exact) _ _ K hprepared
        (hrelated.wakes.ask action) (show (s.ask action).asleep = false from hawake)
      rw [← hheader] at hask
      exact ⟨fun hs => absurd (hstill.symm.trans hs) nofun, fun hzero => absurd (hcode.mp hzero) nofun,
        fun _ => ⟨hstill, Or.inr ⟨hnow, hask, hprepared⟩⟩⟩
    | suspended hlazy =>
      have hnow : args.lazyCount = 0 := by simpa using hlazy
      obtain ⟨-, -, hheader, hentry, hsuspended⟩ := @kernelSuspend_spec _ P fuel F (· = .exact) _ K
        (hrelated.wakes.ask action) (show (s.ask action).asleep = false from hawake)
      rw [← hheader] at hask
      exact ⟨fun _ => ⟨hcode.mpr rfl, hask, hentry, by rw [hsuspended]⟩,
        fun _ _ => ⟨hask, iff_of_true rfl hnow⟩, fun hne => absurd (hcode.mpr rfl) hne⟩

/-- A `store` on the Linux that has booted, and one where S3 cannot be entered. -/
theorem command_outcomes_plainLinux :
    (∃ t, storeHandler (linuxOsl (quietFirmware 0x3000) (plainLinux (onePage 0x100000))) noArgs
        bootedCycle = some (.ok 0, t) ∧ t.asleep = true ∧
      (onePage 0x100000).wakingVector t.machine.mem = CORE_WAKEUP_PHYS_ADDR) ∧
    ∃ t, storeHandler (linuxOsl (quietFirmware 0x3000) (refusingLinux (onePage 0x100000))) noArgs
        bootedCycle = some (.ok 1, t) ∧ t.asleep = false := by
  obtain ⟨_, t, hdone, -, hasleep, hzero, -⟩ := @command_outcomes samplePlatform switchFuel
    (onePage 0x100000) (quietFirmware 0x3000) _ _ _ bootedCycle (fun _ _ _ _ => rfl) (onePage_valid _)
    (onePage_geometry (by decide)) le_rfl booted_core (by decide) (.nil bootedCycle) rfl _ _
    (.linux (plainLinux (onePage 0x100000)) plainLinux_entersS3) CORE_ACTION_STORE noArgs
  obtain ⟨_, u, hfailed, -, -, -, hnonzero⟩ := @command_outcomes samplePlatform switchFuel
    (onePage 0x100000) (quietFirmware 0x3000) _ _ _ bootedCycle (fun _ _ _ _ => rfl) (onePage_valid _)
    (onePage_geometry (by decide)) le_rfl booted_core (by decide) (.nil bootedCycle) rfl _ _
    (.linux (refusingLinux (onePage 0x100000)) refusingLinux_entersS3) CORE_ACTION_STORE noArgs
  obtain ⟨hcode, -⟩ := Prod.mk.inj (Option.some.inj (hdone.symm.trans store_plainLinux))
  obtain rfl := Except.ok.inj hcode
  have ht : t.asleep = true := (hzero rfl rfl).2.mpr rfl
  obtain ⟨u', hrefused⟩ := store_refusingLinux
  obtain ⟨hcode', -⟩ := Prod.mk.inj (Option.some.inj (hfailed.symm.trans hrefused))
  obtain rfl := Except.ok.inj hcode'
  exact ⟨⟨t, hdone, ht, (hasleep ht).2.2.1⟩, u, hfailed, (hnonzero (by decide)).1⟩

/-- **A `store` or a `switch` from the user to the OS that is resumed.** Where it does not fail, and is
not put off, the firmware runs core, which hands back the OS that the two-slot machine resumes: for a
`store` the one that has been suspended, with its memory as its kernel left it, and for a `switch` the
one that was on the disk, if there was one. -/
theorem command_resumes (hspts : SparesRam core F) (hvalid : isCoreHeaderValid core = true)
    (hg : Geometry P.sizes core) (hfuel : switchFuel ≤ fuel) (hcore : m.core = core.setAction request.toUInt32)
    (hmagic : DumpHeader.magic m.disk ≠ CORE_DISK_DUMP_MAGIC)
    (hrun : OrderlyRuns P fuel core F (· = .exact) ⟨⟨m, none⟩, false, false⟩ es s)
    (hawake : s.asleep = false) {O : Osl} {K : OsKernel core} (hO : Implemented F O K)
    {action : CoreAction} {args : ParsedArgs} (hhelp : args.help = 0) (hnow : args.lazyCount = 0)
    {t : Cycle} (hdone : opHandler (executeOp O action) args s = some (.ok 0, t))
    (hfit : action = CORE_ACTION_SWITCH → isDumpHeaderValid core t.machine.disk = true →
      ChunksFit core) (U : Uacpi core) :
    ∃ a m', Runs TwoSlot.Step
        ⟨(ramImage core m.mem, core.wakingVector m.mem), none, request, false⟩
        (es.flatMap CycleEvent.seen) a ∧
      coreExecution P .exact fuel U F t.machine = some m' ∧
      (ramImage core m'.mem, core.wakingVector m'.mem) =
        (t.offered core action a).act.running ∧
      StoredOn core m'.disk (t.offered core action a).act.stored ∧
      t.suspended core =
        (ramImage core (K.memory (kernelPrepare F K (s.ask action))), K.vector (s.ask action)) := by
  obtain ⟨_, -, hbefore⟩ := related_of_runs hspts hvalid hg hfuel hcore hmagic hrun
  obtain ⟨code, t', hdone', ⟨rfl, hhelped⟩ | ⟨r, hends, hasked, hcode⟩⟩ :=
    opHandler_spec hO.meets action args s
  · obtain ⟨hzero, rfl⟩ := Prod.mk.inj (Option.some.inj (hdone.symm.trans hdone'))
    exact absurd (hhelped (Except.ok.inj hzero).symm) (by omega)
  · obtain ⟨hzero, rfl⟩ := Prod.mk.inj (Option.some.inj (hdone.symm.trans hdone'))
    obtain rfl := hcode.mp (Except.ok.inj hzero).symm
    obtain ⟨fs, hfs, hseen⟩ := hends.runs hasked hbefore.wakes hawake
    obtain ⟨a, hruns, hrelated⟩ :=
      related_of_runs hspts hvalid hg hfuel hcore hmagic (hrun.append hfs)
    rw [List.flatMap_append, hseen, List.append_nil] at hruns
    cases hends with
    | asked hlazy => simp [hnow] at hlazy
    | suspended _ =>
      obtain ⟨-, -, hheader, hentry, hsuspended⟩ := @kernelSuspend_spec _ P fuel F (· = .exact) _ K
        (hbefore.wakes.ask action) (show (s.ask action).asleep = false from hawake)
      obtain ⟨last, hlast⟩ := hbefore.wakes.action
      have hcore' : (kernelSuspend F K (s.ask action)).machine.core =
          core.setAction action.toUInt32 := by
        rw [hheader]
        show s.machine.core.setAction action.toUInt32 = _
        rw [hlast]
        rfl
      obtain ⟨m', hexec, -, hresumed⟩ := hrelated.core_runs (P := P) hvalid hg hfuel hspts rfl hcore'
        hentry hfit U
      exact ⟨a, m', hruns, hexec, (hresumed.running rfl rfl).symm, hresumed.stored, hsuspended⟩

/-- It resumes the Linux, with its memory on the disk. -/
theorem command_resumes_plainLinux :
    ∃ m', coreExecution samplePlatform .exact switchFuel (quietUacpi onePage_apart_facs)
        (quietFirmware 0x3000) (kernelSuspend (quietFirmware 0x3000) (plainKernel (onePage 0x100000))
          (bootedCycle.ask CORE_ACTION_STORE)).machine = some m' ∧
      (onePage 0x100000).wakingVector m'.mem = 0x9000 ∧
      ∃ image, StoredOn (onePage 0x100000) m'.disk (some (image, 0x9000)) := by
  have hdone : opHandler (executeOp (linuxOsl (quietFirmware 0x3000) (plainLinux (onePage 0x100000)))
      CORE_ACTION_STORE) noArgs bootedCycle =
      some (.ok 0, kernelSuspend (quietFirmware 0x3000) (plainKernel (onePage 0x100000))
        (bootedCycle.ask CORE_ACTION_STORE)) := store_plainLinux
  obtain ⟨a, m', -, hexec, hrunning, hstored, hsuspended⟩ := @command_resumes samplePlatform switchFuel
    (onePage 0x100000) (quietFirmware 0x3000) _ _ _ bootedCycle (fun _ _ _ _ => rfl) (onePage_valid _)
    (onePage_geometry (by decide)) le_rfl booted_core (by decide) (.nil bootedCycle) rfl _ _
    (.linux (plainLinux (onePage 0x100000)) plainLinux_entersS3) CORE_ACTION_STORE noArgs rfl rfl _ hdone nofun
    (quietUacpi onePage_apart_facs)
  rw [TwoSlot.act, Cycle.offered, hsuspended] at hrunning hstored
  exact ⟨m', hexec, congrArg Prod.snd hrunning, _, hstored⟩

end Reached

end SwitchOs
