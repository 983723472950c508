import SwitchOs.Hooks.SetVariable

/-!
# What the `SetVariable` hook reports

`_start` of `uefi/services/hooks/set_variable/set_variable.c` once more, with the pointers of its header
and with what it calls: the handlers of `handle_command`, and the original service. The hook reports
what it did unless the name of a command is one that no handler is for (`reports_iff`).
`setVariableStart_eq` says that it is the hook of the running OS.
-/

namespace SwitchOs

/-- The pointers to the waking vectors in `struct set_variable_hook_header`. -/
structure SetVariableHookHeader where
  wakingVectorAddr : UInt64
  originalWakingVectorAddr : UInt64

/-- What the hook calls: a handler, which accepts its data or not, or the original service, which
returns a status. -/
inductive HookEvent where
  | handler (name : String) (accepted : Bool)
  | forward (call : SetVariableCall) (status : UInt64)

/-- The end of a call of the hook. -/
structure HookRun where
  status : UInt64
  machine : Machine
  events : List HookEvent

/-- `handle_command`, with the handlers that it runs. -/
def runCommand (cmdName : ℕ → UInt16) (data : ℕ → UInt8) (dataSize : UInt64) (core : CoreHeader) :
    Except Err CoreHeader × List HookEvent :=
  if wstrcmp cmdName 0 (wideLiteral "SET_CORE_ACTION") = 0 then
    let res := setCoreActionHandler data dataSize core
    (res, [.handler "SET_CORE_ACTION" res.isOk])
  else (.ok core, [])

section Start

variable (original : SetVariableCall → (ℕ → UInt8) → UInt64 × (ℕ → UInt8))
  (header : SetVariableHookHeader)

/-- `_start` of the hook. -/
def setVariableStart (call : SetVariableCall) (m : Machine) : HookRun :=
  if isCommandsGuid call.vendorGuid then
    if call.dataSize = 0 then ⟨EFI_SUCCESS, m, []⟩
    else
      match runCommand call.variableName call.data call.dataSize m.core with
      | (.ok core, events) => ⟨EFI_SUCCESS, { m with core := core }, events⟩
      | (.error e, events) => ⟨efierr e, m, events⟩
  else
    let waking := get32 m.mem header.wakingVectorAddr.toNat
    let mem :=
      if wstrcmp call.variableName 0 (wideLiteral "SystemSleepCheckpoint") = 0 ∧
          waking ≠ CORE_WAKEUP_PHYS_ADDR then
        put32 (put32 m.mem header.originalWakingVectorAddr.toNat waking)
          header.wakingVectorAddr.toNat CORE_WAKEUP_PHYS_ADDR
      else m.mem
    let r := original call mem
    ⟨r.1, { m with mem := r.2 }, [.forward call r.1]⟩

/-! ## Names -/

/-- From index `i` on the string has these characters, and then its end. -/
def HasChars (str : ℕ → UInt16) : ℕ → List UInt16 → Prop
  | i, [] => str i = 0
  | i, c :: cs => str i = c ∧ HasChars str (i + 1) cs

/-- The string at the pointer is the literal. -/
def IsName (str : ℕ → UInt16) (name : String) : Prop := HasChars str 0 (wideLiteral name)

/-- `wstrcmp` finds a difference unless the strings are the same. -/
theorem wstrcmp_eq_zero_iff {str : ℕ → UInt16} {l : List UInt16} :
    ∀ {i : ℕ}, (∀ c ∈ l, c ≠ 0) → (wstrcmp str i l = 0 ↔ HasChars str i l) := by
  induction l with
  | nil =>
    intro i _
    rw [wstrcmp, HasChars, ← UInt16.toNat_inj]
    simp
  | cons c cs ih =>
    intro i hne
    have hc : c ≠ 0 := hne c List.mem_cons_self
    rw [wstrcmp, HasChars]
    by_cases heq : str i = c
    · rw [if_pos ⟨by rwa [heq], hc, heq⟩, ih fun d hd => hne d (List.mem_cons_of_mem _ hd)]
      exact (and_iff_right heq).symm
    · rw [if_neg fun h => heq h.2.2]
      refine iff_of_false (fun h => heq ?_) fun h => heq h.1
      exact UInt16.toNat_inj.mp (by omega)

theorem wstrcmp_command {str : ℕ → UInt16} :
    wstrcmp str 0 (wideLiteral "SET_CORE_ACTION") = 0 ↔ IsName str "SET_CORE_ACTION" := by
  refine wstrcmp_eq_zero_iff fun c hc => ?_
  have hne : (wideLiteral "SET_CORE_ACTION").all (· != 0) = true := by rfl
  simpa using List.all_eq_true.mp hne c hc

/-! ## What is reported -/

/-- A call with the GUID of the commands is not forwarded, succeeds exactly where there is no data or
a handler for the name has accepted it, and changes nothing without data or with an error; any other
call is forwarded once, and its status returned. -/
structure Reports (call : SetVariableCall) (m : Machine) : Prop where
  not_forwarded : isCommandsGuid call.vendorGuid = true →
    ∀ c status, HookEvent.forward c status ∉ (setVariableStart original header call m).events
  success : isCommandsGuid call.vendorGuid = true →
    ((setVariableStart original header call m).status = EFI_SUCCESS ↔ call.dataSize = 0 ∨
      ∃ name, IsName call.variableName name ∧
        HookEvent.handler name true ∈ (setVariableStart original header call m).events)
  deletion : isCommandsGuid call.vendorGuid = true → call.dataSize = 0 →
    (setVariableStart original header call m).machine = m
  error : isCommandsGuid call.vendorGuid = true →
    (setVariableStart original header call m).status ≠ EFI_SUCCESS →
      (setVariableStart original header call m).machine = m
  forwarded : isCommandsGuid call.vendorGuid = false →
    (setVariableStart original header call m).events =
      [.forward call (setVariableStart original header call m).status]

variable {original header} {call : SetVariableCall} {m : Machine}

theorem setVariableStart_other (hguid : isCommandsGuid call.vendorGuid = false) :
    (setVariableStart original header call m).events =
      [.forward call (setVariableStart original header call m).status] := by
  unfold setVariableStart
  simp only [hguid, Bool.false_eq_true, if_false]

theorem setVariableStart_deletion (hguid : isCommandsGuid call.vendorGuid = true)
    (hsize : call.dataSize = 0) :
    setVariableStart original header call m = ⟨EFI_SUCCESS, m, []⟩ := by
  rw [setVariableStart, if_pos hguid, if_pos hsize]

/-- A name without a handler: a success, and nothing has run. -/
theorem setVariableStart_unknown (hguid : isCommandsGuid call.vendorGuid = true)
    (hsize : call.dataSize ≠ 0) (hname : ¬ IsName call.variableName "SET_CORE_ACTION") :
    setVariableStart original header call m = ⟨EFI_SUCCESS, m, []⟩ := by
  rw [setVariableStart, if_pos hguid, if_neg hsize, runCommand,
    if_neg fun h => hname (wstrcmp_command.mp h)]

/-- A name with a handler: what the handler returns. -/
theorem setVariableStart_known (hguid : isCommandsGuid call.vendorGuid = true)
    (hsize : call.dataSize ≠ 0) (hname : IsName call.variableName "SET_CORE_ACTION") :
    (∃ core, setVariableStart original header call m =
        ⟨EFI_SUCCESS, { m with core := core }, [.handler "SET_CORE_ACTION" true]⟩) ∨
      ∃ e, setVariableStart original header call m =
        ⟨efierr e, m, [.handler "SET_CORE_ACTION" false]⟩ := by
  rw [setVariableStart, if_pos hguid, if_neg hsize, runCommand, if_pos (wstrcmp_command.mpr hname)]
  cases setCoreActionHandler call.data call.dataSize m.core with
  | ok core => exact Or.inl ⟨core, rfl⟩
  | error e => exact Or.inr ⟨e, rfl⟩

theorem efierr_ne_success (e : Err) : efierr e ≠ EFI_SUCCESS := by
  cases e
  decide

/-- A command without data is reported as it is. -/
theorem reports_deletion (hguid : isCommandsGuid call.vendorGuid = true) (hsize : call.dataSize = 0) :
    Reports original header call m := by
  have hrun : setVariableStart original header call m = ⟨EFI_SUCCESS, m, []⟩ :=
    setVariableStart_deletion hguid hsize
  refine ⟨fun _ c status hevent => ?_, fun _ => ?_, fun _ _ => ?_, fun _ _ => ?_, fun hother => ?_⟩
  · rw [hrun] at hevent
    cases hevent
  · rw [hrun]
    exact iff_of_true rfl (Or.inl hsize)
  · rw [hrun]
  · rw [hrun]
  · exact absurd hguid (by rw [hother]; decide)

/-- So is one with a handler. -/
theorem reports_known (hguid : isCommandsGuid call.vendorGuid = true) (hsize : call.dataSize ≠ 0)
    (hname : IsName call.variableName "SET_CORE_ACTION") : Reports original header call m := by
  have hother : ¬ isCommandsGuid call.vendorGuid = false := by
    rw [hguid]
    decide
  obtain ⟨core, hrun⟩ | ⟨e, hrun⟩ :=
    @setVariableStart_known original header call m hguid hsize hname
  · refine ⟨fun _ c status hevent => ?_, fun _ => ?_, fun _ hzero => absurd hzero hsize,
      fun _ herror => ?_, fun h => absurd h hother⟩
    · rw [hrun] at hevent
      simp at hevent
    · rw [hrun]
      exact iff_of_true rfl (Or.inr ⟨_, hname, List.mem_singleton_self _⟩)
    · rw [hrun] at herror
      exact absurd rfl herror
  · refine ⟨fun _ c status hevent => ?_, fun _ => ?_, fun _ hzero => absurd hzero hsize,
      fun _ _ => ?_, fun h => absurd h hother⟩
    · rw [hrun] at hevent
      simp at hevent
    · rw [hrun]
      refine iff_of_false (efierr_ne_success e) ?_
      rintro (hzero | ⟨name, -, hevent⟩)
      · exact hsize hzero
      · simp at hevent
    · rw [hrun]

/-- A name without a handler is not: there is a success, and nothing has run. -/
theorem not_reports_unknown (hguid : isCommandsGuid call.vendorGuid = true)
    (hsize : call.dataSize ≠ 0) (hname : ¬ IsName call.variableName "SET_CORE_ACTION") :
    ¬ Reports original header call m := by
  intro h
  have hsuccess := h.success hguid
  rw [setVariableStart_unknown hguid hsize hname] at hsuccess
  rcases hsuccess.mp rfl with hzero | ⟨name, -, hevent⟩
  · exact hsize hzero
  · cases hevent

/-- The hook reports what it did exactly if the call is no command, or has no data, or its name is that
of the one command. -/
theorem reports_iff : Reports original header call m ↔
    isCommandsGuid call.vendorGuid = false ∨ call.dataSize = 0 ∨
      IsName call.variableName "SET_CORE_ACTION" := by
  by_cases hguid : isCommandsGuid call.vendorGuid = true
  · by_cases hsize : call.dataSize = 0
    · exact iff_of_true (reports_deletion hguid hsize) (Or.inr (Or.inl hsize))
    · by_cases hname : IsName call.variableName "SET_CORE_ACTION"
      · exact iff_of_true (reports_known hguid hsize hname) (Or.inr (Or.inr hname))
      · refine iff_of_false (not_reports_unknown hguid hsize hname) ?_
        rintro (hother | hzero | hknown)
        · rw [hguid] at hother
          cases hother
        · exact hsize hzero
        · exact hname hknown
  · have hother := Bool.eq_false_iff.mpr hguid
    refine iff_of_true ⟨?_, ?_, ?_, ?_, fun _ => setVariableStart_other hother⟩ (Or.inl hother)
    all_goals exact fun h => absurd h hguid

/-! ## The hook of the running OS -/

/-- The pointers that `hook_set_variable` fills in. -/
def setVariableHeader (facs : UInt64) : SetVariableHookHeader :=
  ⟨facs + UInt64.ofNat FACS_FIRMWARE_WAKING_VECTOR, facs + UInt64.ofNat FACS_RSVD1⟩

/-- With the handlers left out, `runCommand` is `handleCommand`. -/
theorem runCommand_fst (cmdName : ℕ → UInt16) (data : ℕ → UInt8) (dataSize : UInt64)
    (core : CoreHeader) :
    (runCommand cmdName data dataSize core).1 = handleCommand cmdName data dataSize core := by
  unfold runCommand handleCommand
  split <;> rfl

/-- With the pointers of `hook_set_variable`, for a FACS inside the address space, this is the hook of
the running OS. -/
theorem setVariableStart_eq {facs : UInt64} (F : Firmware facs) (hfacs : m.core.facs = facs)
    (hend : facs.toNat + FACS_SIZE ≤ 2 ^ 64) :
    ((setVariableStart F.setVariable (setVariableHeader facs) call m).status,
      (setVariableStart F.setVariable (setVariableHeader facs) call m).machine) =
        setVariableHook F call m := by
  have hwaking : (setVariableHeader facs).wakingVectorAddr.toNat =
      m.core.facs.toNat + FACS_FIRMWARE_WAKING_VECTOR := by
    rw [hfacs, setVariableHeader, UInt64.toNat_add]
    simp only [FACS_SIZE] at hend
    exact Nat.mod_eq_of_lt (by simp [FACS_FIRMWARE_WAKING_VECTOR]; omega)
  have hsaved : (setVariableHeader facs).originalWakingVectorAddr.toNat =
      m.core.facs.toNat + FACS_RSVD1 := by
    rw [hfacs, setVariableHeader, UInt64.toNat_add]
    simp only [FACS_SIZE] at hend
    exact Nat.mod_eq_of_lt (by simp [FACS_RSVD1]; omega)
  unfold setVariableStart setVariableHook
  rw [hwaking, hsaved]
  by_cases hguid : isCommandsGuid call.vendorGuid = true
  · rw [if_pos hguid, if_pos hguid]
    by_cases hsize : call.dataSize = 0
    · rw [if_pos hsize, if_pos hsize]
    · rw [if_neg hsize, if_neg hsize, ← runCommand_fst]
      obtain ⟨res, events⟩ := runCommand call.variableName call.data call.dataSize m.core
      cases res <;> rfl
  · rw [if_neg hguid, if_neg hguid]
    rfl

end Start

/-- The command that asks for a store. -/
def storeCommand : SetVariableCall where
  variableName i := (wideLiteral "SET_CORE_ACTION").getD i 0
  vendorGuid := EFI_COMMANDS_GUID
  attributes := 7
  dataSize := 4
  data i := if i = 0 then 1 else 0

/-- A command with a byte of data and the name "X". -/
def unknownCommand : SetVariableCall where
  variableName i := if i = 0 then 0x58 else 0
  vendorGuid := EFI_COMMANDS_GUID
  attributes := 0
  dataSize := 1
  data _ := 0

/-- The hook answers with a success, and has done nothing. -/
theorem unknownCommand_not_reported : ¬ Reports (fun _ mem => (EFI_SUCCESS, mem))
    (setVariableHeader 0x7000) unknownCommand ⟨fun _ => 0, fun _ => 0, emptyCore, 0, 0⟩ :=
  not_reports_unknown (by decide) (by decide) fun h => absurd h.1 (by decide)

end SwitchOs
