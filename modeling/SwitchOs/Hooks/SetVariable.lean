import SwitchOs.Core.Extents
import SwitchOs.Uefi.Types

/-!
# The hooks of a running OS

What an OS meets of switch-os before it suspends: the `SetVariable` hook
(`uefi/services/hooks/set_variable/`), which takes commands and catches the sleep checkpoints of
Windows, and the `_PTS` hook (`uefi/acpi/asl/pts_hook.asl`). Both save the kernel's waking vector in the
reserved bytes of the FACS and put core's entry in its place.

The firmware behind the hooks is a parameter (`Firmware`): it may do anything to memory but the FACS.
-/

namespace SwitchOs

/-- `offsetof(struct acpi_facs, firmware_waking_vector)`. -/
def FACS_FIRMWARE_WAKING_VECTOR : ℕ := 12

def EFI_COMMANDS_GUID : Guid :=
  ⟨0xe21c66ed, 0xbc2e, 0x4d30, [0xac, 0x5e, 0x1b, 0x96, 0x80, 0x02, 0xc5, 0x41]⟩

/-- The arguments of `SetVariable`: the name as the characters from the pointer on. -/
structure SetVariableCall where
  variableName : ℕ → UInt16
  vendorGuid : Guid
  attributes : UInt32
  dataSize : UInt64
  data : ℕ → UInt8

/-- What the firmware does where the hooks call it: `SetVariable` returns a status, and the `_PTS`
method of the firmware (`SPTS` once it is hooked) takes the sleep state. Neither writes to the FACS. -/
structure Firmware (facs : UInt64) where
  setVariable : SetVariableCall → (ℕ → UInt8) → UInt64 × (ℕ → UInt8)
  spts : UInt64 → (ℕ → UInt8) → (ℕ → UInt8)
  setVariable_facs : ∀ call mem x, facs.toNat ≤ x → x < facs.toNat + FACS_SIZE →
    (setVariable call mem).2 x = mem x
  spts_facs : ∀ arg mem x, facs.toNat ≤ x → x < facs.toNat + FACS_SIZE → spts arg mem x = mem x

/-! ## Commands -/

/-- The characters of a `L"…"` literal, without the terminating one. -/
def wideLiteral (s : String) : List UInt16 := s.toList.map fun c => UInt16.ofNat c.toNat

/-- `wstrcmp` with a literal, from index `i` of the string on. -/
def wstrcmp (str1 : ℕ → UInt16) (i : ℕ) : List UInt16 → ℤ
  | [] => (str1 i).toNat
  | c :: cs =>
    if str1 i ≠ 0 ∧ c ≠ 0 ∧ str1 i = c then wstrcmp str1 (i + 1) cs
    else (str1 i).toNat - c.toNat

def isCommandsGuid (guid : Guid) : Bool := guid == EFI_COMMANDS_GUID

/-- `set_core_action_handler`. -/
def setCoreActionHandler (data : ℕ → UInt8) (dataSize : UInt64) (core : CoreHeader) :
    Except Err CoreHeader :=
  if dataSize = 4 then
    let action := get32 data 0
    if isCoreHeaderActionValid action then .ok (core.setAction action) else .error .ERR_INVALID
  else .error .ERR_INVALID

/-- `handle_command`: a command that is not known is no error. -/
def handleCommand (cmdName : ℕ → UInt16) (data : ℕ → UInt8) (dataSize : UInt64)
    (core : CoreHeader) : Except Err CoreHeader :=
  if wstrcmp cmdName 0 (wideLiteral "SET_CORE_ACTION") = 0 then
    setCoreActionHandler data dataSize core
  else .ok core

/-! ## The waking vectors -/

namespace CoreHeader

/-- `facs->firmware_waking_vector`. -/
def wakingVector (core : CoreHeader) (mem : ℕ → UInt8) : UInt32 :=
  get32 mem (core.facs.toNat + FACS_FIRMWARE_WAKING_VECTOR)

/-- `facs->firmware_waking_vector = v`. -/
def setWakingVector (core : CoreHeader) (v : UInt32) (mem : ℕ → UInt8) : ℕ → UInt8 :=
  put32 mem (core.facs.toNat + FACS_FIRMWARE_WAKING_VECTOR) v

/-- What both hooks do: the waking vector goes to the reserved bytes, and core's entry takes its
place. -/
def overrideWakingVector (core : CoreHeader) (mem : ℕ → UInt8) : ℕ → UInt8 :=
  core.setWakingVector CORE_WAKEUP_PHYS_ADDR
    (put32 mem (core.facs.toNat + FACS_RSVD1) (core.wakingVector mem))

end CoreHeader

variable {facs : UInt64}

/-- `_start` of the `SetVariable` hook. -/
def setVariableHook (F : Firmware facs) (call : SetVariableCall) (m : Machine) : UInt64 × Machine :=
  if isCommandsGuid call.vendorGuid then
    if call.dataSize = 0 then (EFI_SUCCESS, m)
    else
      match handleCommand call.variableName call.data call.dataSize m.core with
      | .ok core => (EFI_SUCCESS, { m with core := core })
      | .error e => (efierr e, m)
  else
    let mem :=
      if wstrcmp call.variableName 0 (wideLiteral "SystemSleepCheckpoint") = 0 ∧
          m.core.wakingVector m.mem ≠ CORE_WAKEUP_PHYS_ADDR then
        m.core.overrideWakingVector m.mem
      else m.mem
    let r := F.setVariable call mem
    (r.1, { m with mem := r.2 })

/-- The hooked `_PTS` method. -/
def ptsHook (F : Firmware facs) (arg0 : UInt64) (m : Machine) : Machine :=
  { m with mem := F.spts arg0 (m.core.overrideWakingVector m.mem) }

variable {core core' : CoreHeader} {mem mem' : ℕ → UInt8} {m : Machine}

@[simp] theorem wakingVector_setWakingVector (v : UInt32) :
    core.wakingVector (core.setWakingVector v mem) = v := by
  rw [CoreHeader.wakingVector, CoreHeader.setWakingVector, get32_put32]

@[simp] theorem savedVector_setWakingVector (v : UInt32) :
    core.savedVector (core.setWakingVector v mem) = core.savedVector mem := by
  rw [CoreHeader.savedVector, CoreHeader.setWakingVector]
  exact get32_put32_outside (by simp only [FACS_FIRMWARE_WAKING_VECTOR, FACS_RSVD1]; omega)

@[simp] theorem wakingVector_overrideWakingVector :
    core.wakingVector (core.overrideWakingVector mem) = CORE_WAKEUP_PHYS_ADDR :=
  wakingVector_setWakingVector _

@[simp] theorem savedVector_overrideWakingVector :
    core.savedVector (core.overrideWakingVector mem) = core.wakingVector mem := by
  rw [CoreHeader.overrideWakingVector, savedVector_setWakingVector, CoreHeader.savedVector,
    get32_put32]

/-- The vectors only depend on the FACS. -/
theorem vectors_congr (h : ∀ x, core.facs.toNat ≤ x → x < core.facs.toNat + FACS_SIZE →
      mem' x = mem x) :
    core.wakingVector mem' = core.wakingVector mem ∧
      core.savedVector mem' = core.savedVector mem := by
  refine ⟨get32_congr fun i hi => h _ ?_ ?_, get32_congr fun i hi => h _ ?_ ?_⟩ <;>
    simp only [FACS_FIRMWARE_WAKING_VECTOR, FACS_RSVD1, FACS_SIZE] <;> omega

/-- A command changes nothing but the action, and that to a valid one. -/
theorem handleCommand_ok {cmdName : ℕ → UInt16} {data : ℕ → UInt8} {dataSize : UInt64}
    (h : handleCommand cmdName data dataSize core = .ok core') :
    core' = core ∨ ∃ action, isCoreHeaderActionValid action = true ∧
      core' = core.setAction action := by
  rw [handleCommand] at h
  split_ifs at h with hname
  · simp only [setCoreActionHandler] at h
    split_ifs at h with hsize hvalid
    exact Or.inr ⟨_, hvalid, (Except.ok.inj h).symm⟩
  · exact Or.inl (Except.ok.inj h).symm

/-- What a `SetVariable` call does: it is a command that changes at most the action, or the waking
vector is overridden where it is the kernel's, or the FACS stays as it is. -/
theorem setVariableHook_cases (F : Firmware facs) (call : SetVariableCall) (m : Machine)
    (hfacs : m.core.facs = facs) :
    ((setVariableHook F call m).2 = m ∨ ∃ action, isCoreHeaderActionValid action = true ∧
        (setVariableHook F call m).2 = { m with core := m.core.setAction action }) ∨
      ((setVariableHook F call m).2.core = m.core ∧
        ((m.core.wakingVector m.mem ≠ CORE_WAKEUP_PHYS_ADDR ∧
            m.core.wakingVector (setVariableHook F call m).2.mem = CORE_WAKEUP_PHYS_ADDR ∧
            m.core.savedVector (setVariableHook F call m).2.mem = m.core.wakingVector m.mem) ∨
          (m.core.wakingVector (setVariableHook F call m).2.mem = m.core.wakingVector m.mem ∧
            m.core.savedVector (setVariableHook F call m).2.mem = m.core.savedVector m.mem))) := by
  have hfirmware : ∀ mem : ℕ → UInt8,
      m.core.wakingVector (F.setVariable call mem).2 = m.core.wakingVector mem ∧
        m.core.savedVector (F.setVariable call mem).2 = m.core.savedVector mem := fun mem =>
    vectors_congr fun x hx hx' => F.setVariable_facs call mem x (hfacs ▸ hx) (hfacs ▸ hx')
  simp only [setVariableHook]
  split_ifs with hguid hsize hcheckpoint
  · exact Or.inl (Or.inl rfl)
  · cases hcmd : handleCommand call.variableName call.data call.dataSize m.core with
    | error e => exact Or.inl (Or.inl rfl)
    | ok core =>
      rcases handleCommand_ok hcmd with rfl | ⟨action, hvalid, rfl⟩
      · exact Or.inl (Or.inl rfl)
      · exact Or.inl (Or.inr ⟨action, hvalid, rfl⟩)
  · obtain ⟨hwaking, hsaved⟩ := hfirmware (m.core.overrideWakingVector m.mem)
    exact Or.inr ⟨rfl, Or.inl ⟨hcheckpoint.2, hwaking.trans wakingVector_overrideWakingVector,
      hsaved.trans savedVector_overrideWakingVector⟩⟩
  · exact Or.inr ⟨rfl, Or.inr (hfirmware m.mem)⟩

/-- What an evaluation of `_PTS` does, whatever vector it finds. -/
theorem ptsHook_spec (F : Firmware facs) (arg0 : UInt64) (m : Machine) (hfacs : m.core.facs = facs) :
    m.core.wakingVector (ptsHook F arg0 m).mem = CORE_WAKEUP_PHYS_ADDR ∧
      m.core.savedVector (ptsHook F arg0 m).mem = m.core.wakingVector m.mem := by
  obtain ⟨hwaking, hsaved⟩ := vectors_congr fun x hx hx' =>
      F.spts_facs arg0 (m.core.overrideWakingVector m.mem) x (hfacs ▸ hx) (hfacs ▸ hx')
  exact ⟨hwaking.trans wakingVector_overrideWakingVector,
    hsaved.trans savedVector_overrideWakingVector⟩

end SwitchOs
