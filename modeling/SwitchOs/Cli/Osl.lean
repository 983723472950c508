import SwitchOs.Cycle.Kernel
import Mathlib.Data.List.GetD

/-!
# The OS layer of the command line tool

`cli/osl.h` and its two implementations, over the kernel of the running OS. `Osl.Meets` is what the
commands rely on, and `linux_meets` and `windows_meets` say that both implementations do it, on a kernel
whose own call for S3 does what `EntersS3` says.
-/

namespace SwitchOs

/-- `cli/osl.h`. -/
structure Osl where
  enableUefiPrivileges : Prog Err Cycle Unit
  enableSleepPrivileges : Prog Err Cycle Unit
  setUefiVariable : Guid → List UInt16 → (ℕ → UInt8) → UInt64 → Prog Err Cycle Unit
  enterSleepS3 : Prog Err Cycle Unit

variable {core : CoreHeader}

/-- What is relied on of the call with which a kernel is asked for S3: where it reports success, the
machine has been suspended in it; and where it fails, the kernel has come no further than its
preparations, and leaves the machine awake. -/
structure EntersS3 (F : Firmware core.facs) (K : OsKernel core) (enter : Cycle → Bool × Cycle) :
    Prop where
  suspends : ∀ s, (enter s).1 = true → (enter s).2 = kernelSuspend F K s
  stops : ∀ s, (enter s).1 = false → PreparedTo F K s (enter s).2

/-! ## Linux -/

/-- `wcsrtombs(dst, &src, n, NULL)` in the C locale, from byte `i` on: the buffer, and the number of
bytes in it, or -1 at a character that is not ASCII. -/
def wcsrtombs (src : ℕ → UInt32) (dst : ℕ → UInt8) : ℕ → ℕ → (ℕ → UInt8) × UInt64
  | 0, i => (dst, UInt64.ofNat i)
  | n + 1, i =>
    if src i = 0 then (setCell dst i 0, UInt64.ofNat i)
    else if src i < 128 then wcsrtombs src (setCell dst i (src i).toUInt8) n (i + 1)
    else (dst, 0xFFFFFFFFFFFFFFFF)

/-- `sizeof(name_str)`. -/
def NAME_STR_SIZE : ℕ := 64

/-- `power_state_mem_str`, with its terminating zero. -/
def powerStateMemStr : List UInt8 := [0x6d, 0x65, 0x6d, 0x0a, 0]

/-- What a Linux is to `cli/osl/linux.c`: its kernel, the uninitialised stack, what libefivar and the
kernel make of the bytes of a name, whether `/sys/power/state` can be opened, and what a `write` to it
returns, with the machine that it leaves. -/
structure Linux (core : CoreHeader) where
  kernel : OsKernel core
  stack : ℕ → UInt8
  decode : (ℕ → UInt8) → ℕ → UInt16
  opens : Cycle → Bool
  writes : List UInt8 → Cycle → ℤ × Cycle
  decode_ascii : ∀ str n, (∀ i < n, str i ≠ 0 ∧ str i < 128) → str n = 0 →
    ∀ i ≤ n, decode str i = (str i).toUInt16

/-- The conversion of the name into `name_str`. -/
def Linux.nameStr (L : Linux core) (name : List UInt16) : (ℕ → UInt8) × UInt64 :=
  wcsrtombs (fun i => (name.getD i 0).toUInt32) L.stack NAME_STR_SIZE 0

/-- `write` to `/sys/power/state`. -/
def Linux.writePowerState (L : Linux core) (bytes : List UInt8) : Prog Err Cycle ℤ := fun s =>
  some (.ok (L.writes bytes s).1, (L.writes bytes s).2)

/-- The call for S3: whether all the bytes of `power_state_mem_str` have been taken. -/
def Linux.enterS3 (L : Linux core) (s : Cycle) : Bool × Cycle :=
  ((L.writes powerStateMemStr s).1 == powerStateMemStr.length, (L.writes powerStateMemStr s).2)

/-- `cli/osl/linux.c`. -/
def linuxOsl (F : Firmware core.facs) (L : Linux core) : Osl where
  enableUefiPrivileges := pure ()
  enableSleepPrivileges := pure ()
  setUefiVariable guid name data dataSize := do
    check (decide ((L.nameStr name).2 > 0))
    let ok ← kernelSetVariable F L.kernel ⟨L.decode (L.nameStr name).1, guid, 0, dataSize, data⟩
    check ok
  enterSleepS3 := do
    let s ← Prog.get
    check (L.opens s)
    let written ← L.writePowerState powerStateMemStr
    check (written == powerStateMemStr.length)

/-! ## Windows -/

/-- What a Windows is to `cli/osl/windows.c`: its kernel; whether the process token can be opened, a
privilege be looked up, the token be adjusted, and the privilege be assigned; GUIDs as strings; and
what `SetSuspendState` returns, with the machine that it leaves. -/
structure Windows (core : CoreHeader) where
  kernel : OsKernel core
  openProcessToken : Cycle → Bool
  lookupPrivilegeValue : String → Bool
  adjustTokenPrivileges : String → Cycle → Bool
  allAssigned : String → Cycle → Bool
  stringFromGuid : Guid → Option (List UInt16)
  guidOfString : List UInt16 → Guid
  setSuspendState : Cycle → Bool × Cycle
  guidOfString_stringFromGuid : ∀ guid str, stringFromGuid guid = some str → guidOfString str = guid

/-- `set_privilege`. -/
def setPrivilege (W : Windows core) (privilege : String) : Prog Err Cycle Unit := do
  let s ← Prog.get
  check (W.lookupPrivilegeValue privilege)
  check (W.adjustTokenPrivileges privilege s)
  check (W.allAssigned privilege s)

/-- `enable_uefi_privileges` and `enable_sleep_privileges`. -/
def enablePrivilege (W : Windows core) (privilege : String) : Prog Err Cycle Unit := do
  let s ← Prog.get
  check (W.openProcessToken s)
  setPrivilege W privilege

/-- `guid_to_string`. -/
def guidToString (W : Windows core) (guid : Guid) : Prog Err Cycle (List UInt16) :=
  match W.stringFromGuid guid with
  | some str => pure str
  | none => Prog.throw .ERR_INVALID

/-- A wide string with its terminating zero, and whatever lies behind it. -/
def wideString (name : List UInt16) (i : ℕ) : UInt16 := name.getD i 0

/-- `SetSuspendState(FALSE, FALSE, FALSE)`. -/
def callSetSuspendState (W : Windows core) : Prog Err Cycle Bool := fun s =>
  some (.ok (W.setSuspendState s).1, (W.setSuspendState s).2)

/-- The attributes of `SetFirmwareEnvironmentVariableW`: non-volatile, for boot services and at run
time. -/
def WINDOWS_VARIABLE_ATTRIBUTES : UInt32 := 7

/-- `cli/osl/windows.c`. -/
def windowsOsl (F : Firmware core.facs) (W : Windows core) : Osl where
  enableUefiPrivileges := enablePrivilege W "SeSystemEnvironmentPrivilege"
  enableSleepPrivileges := enablePrivilege W "SeShutdownPrivilege"
  setUefiVariable guid name data dataSize := do
    let guidStr ← guidToString W guid
    let ok ← kernelSetVariable F W.kernel
      ⟨wideString name, W.guidOfString guidStr, WINDOWS_VARIABLE_ATTRIBUTES, dataSize, data⟩
    check ok
  enterSleepS3 := do
    let ok ← callSetSuspendState W
    check ok

/-! ## Names -/

/-- A string has the characters of a list if it has them one by one. -/
theorem hasChars_iff {str : ℕ → UInt16} {l : List UInt16} : ∀ {k : ℕ},
    HasChars str k l ↔ (∀ i < l.length, str (k + i) = l.getD i 0) ∧ str (k + l.length) = 0 := by
  induction l with
  | nil => exact ⟨fun h => ⟨nofun, h⟩, fun h => h.2⟩
  | cons c cs ih =>
    intro k
    rw [HasChars, ih, List.length_cons]
    constructor
    · rintro ⟨hc, hrest, hend⟩
      refine ⟨fun i hi => ?_, by rwa [show k + (cs.length + 1) = k + 1 + cs.length by omega]⟩
      cases i with
      | zero => exact hc
      | succ i =>
        rw [show k + (i + 1) = k + 1 + i by omega]
        exact hrest i (by omega)
    · rintro ⟨hall, hend⟩
      refine ⟨hall 0 (by omega), fun i hi => ?_,
        by rwa [show k + 1 + cs.length = k + (cs.length + 1) by omega]⟩
      rw [show k + 1 + i = k + (i + 1) by omega]
      exact hall (i + 1) (by omega)

theorem hasChars_wideString (name : List UInt16) : HasChars (wideString name) 0 name := by
  refine hasChars_iff.mpr ⟨fun i _ => by rw [Nat.zero_add, wideString], ?_⟩
  rw [Nat.zero_add, wideString, List.getD_eq_default _ _ le_rfl]

/-- An ASCII string that fits is converted whole, with its end. -/
theorem wcsrtombs_ascii {src : ℕ → UInt32} {len : ℕ} (hsrc : ∀ i < len, src i ≠ 0 ∧ src i < 128)
    (hend : src len = 0) : ∀ (n i : ℕ) (dst : ℕ → UInt8), i ≤ len → len < i + n →
      (wcsrtombs src dst n i).2 = UInt64.ofNat len ∧
        (∀ j < i, (wcsrtombs src dst n i).1 j = dst j) ∧
        ∀ j, i ≤ j → j ≤ len → (wcsrtombs src dst n i).1 j = (src j).toUInt8 := by
  intro n
  induction n with
  | zero => intro i dst hi hlen; omega
  | succ n ih =>
    intro i dst hi hlen
    rcases Nat.lt_or_eq_of_le hi with hlt | rfl
    · obtain ⟨hne, hascii⟩ := hsrc i hlt
      rw [wcsrtombs, if_neg hne, if_pos hascii]
      obtain ⟨hcount, hbefore, hafter⟩ :=
        ih (i + 1) (setCell dst i (src i).toUInt8) (by omega) (by omega)
      refine ⟨hcount, fun j hj => ?_, fun j hij hj => ?_⟩
      · rw [hbefore j (by omega), setCell_ne _ _ (by omega)]
      · rcases Nat.lt_or_eq_of_le hij with hlt | rfl
        · exact hafter j hlt hj
        · rw [hbefore i (by omega), setCell_self]
    · rw [wcsrtombs, if_pos hend]
      refine ⟨rfl, fun j hj => setCell_ne _ _ (by omega), fun j hij hj => ?_⟩
      obtain rfl : i = j := by omega
      rw [hend]
      exact setCell_self _ _ _

theorem ascii_roundTrip {c : UInt16} (hc : c < 128) :
    (c.toUInt32.toUInt8).toUInt16 = c ∧ (c ≠ 0 → c.toUInt32.toUInt8 ≠ 0) ∧
      c.toUInt32.toUInt8 < 128 ∧ c.toUInt32 < 128 ∧ (c ≠ 0 → c.toUInt32 ≠ 0) := by
  have hlt : c.toNat < 128 := by simpa [UInt16.lt_iff_toNat_lt] using hc
  have hbyte : c.toUInt32.toUInt8.toNat = c.toNat := by
    simp only [UInt32.toNat_toUInt8, UInt16.toNat_toUInt32]
    omega
  refine ⟨?_, fun hne hz => hne ?_, ?_, ?_, fun hne hz => hne ?_⟩
  · rw [← UInt16.toNat_inj, UInt8.toNat_toUInt16, hbyte]
  · rw [← UInt16.toNat_inj, ← hbyte, hz]
    rfl
  · rw [UInt8.lt_iff_toNat_lt, hbyte]
    exact hlt
  · rw [UInt32.lt_iff_toNat_lt, UInt16.toNat_toUInt32]
    exact hlt
  · rw [← UInt16.toNat_inj, ← UInt16.toNat_toUInt32, hz]
    rfl

/-- What a Linux makes of an ASCII name that fits. -/
theorem hasChars_decode (L : Linux core) {name : List UInt16} (hlen : name.length < NAME_STR_SIZE)
    (hname : ∀ c ∈ name, c ≠ 0 ∧ c < 128) :
    HasChars (L.decode (L.nameStr name).1) 0 name ∧
      (L.nameStr name).2 = UInt64.ofNat name.length := by
  have hget : ∀ i < name.length, name.getD i 0 ≠ 0 ∧ name.getD i 0 < 128 := fun i hi =>
    hname _ (by rw [List.getD_eq_getElem _ _ hi]; exact List.getElem_mem hi)
  have hlast : name.getD name.length 0 = 0 := List.getD_eq_default _ _ le_rfl
  obtain ⟨hcount, -, hbytes⟩ := @wcsrtombs_ascii (fun i => (name.getD i 0).toUInt32)
    name.length (fun i hi => ⟨(ascii_roundTrip (hget i hi).2).2.2.2.2 (hget i hi).1,
      (ascii_roundTrip (hget i hi).2).2.2.2.1⟩) (by rw [hlast]; rfl) NAME_STR_SIZE 0 L.stack
    (Nat.zero_le _) (by omega)
  refine ⟨hasChars_iff.mpr ?_, hcount⟩
  simp only [Nat.zero_add]
  have hbytes : ∀ j ≤ name.length, (L.nameStr name).1 j = (name.getD j 0).toUInt32.toUInt8 :=
    fun j hj => hbytes j (Nat.zero_le _) hj
  have hdecode : ∀ i ≤ name.length,
      L.decode (L.nameStr name).1 i = ((L.nameStr name).1 i).toUInt16 := by
    refine L.decode_ascii _ name.length (fun i hi => ?_) ?_
    · rw [hbytes i (le_of_lt hi)]
      exact ⟨(ascii_roundTrip (hget i hi).2).2.1 (hget i hi).1,
        (ascii_roundTrip (hget i hi).2).2.2.1⟩
    · rw [hbytes _ le_rfl, hlast]
      rfl
  refine ⟨fun i hi => ?_, ?_⟩
  · rw [hdecode i (le_of_lt hi), hbytes i (le_of_lt hi)]
    exact (ascii_roundTrip (hget i hi).2).1
  · rw [hdecode _ le_rfl, hbytes _ le_rfl, hlast]
    rfl

/-! ## What `cli/osl.h` promises -/

/-- The calls that set a variable: deletions, and then the call itself with its status, or none and an
error. -/
def SetsVariable (F : Firmware core.facs) (name : List UInt16) (guid : Guid) (data : ℕ → UInt8)
    (dataSize : UInt64) (s : Cycle) (r : Except Err Unit) (t : Cycle) : Prop :=
  ∃ call : SetVariableCall, HasChars call.variableName 0 name ∧ call.vendorGuid = guid ∧
    call.data = data ∧ call.dataSize = dataSize ∧
    ∃ deletions : List SetVariableCall, (∀ c ∈ deletions, c = { call with dataSize := 0 }) ∧
      ((r = .error .ERR_INVALID ∧ t = s.afterCalls F deletions) ∨
        (t = (s.afterCalls F deletions).after F (.setVariable call) ∧
          (r = .ok () ↔
            (setVariableHook F call (s.afterCalls F deletions).machine).1 = EFI_SUCCESS)))

/-- An OS layer that does what `cli/osl.h` says, on a kernel: privileges change nothing, a variable with
an ASCII name that fits is set by `SetVariable`, and S3 is entered, or an error comes back from a machine
that the kernel has at most prepared for it. -/
structure Osl.Meets (F : Firmware core.facs) (K : OsKernel core) (O : Osl) : Prop where
  uefi : ∀ s, ∃ r, O.enableUefiPrivileges s = some (r, s)
  sleep : ∀ s, ∃ r, O.enableSleepPrivileges s = some (r, s)
  variable_set : ∀ guid name data dataSize s, name.length < NAME_STR_SIZE → name ≠ [] →
    (∀ c ∈ name, c ≠ 0 ∧ c < 128) →
    ∃ r t, O.setUefiVariable guid name data dataSize s = some (r, t) ∧
      (SetsVariable F name guid data dataSize s r t ∨ (r = .error .ERR_INVALID ∧ t = s))
  s3 : ∀ s, ∃ r t, O.enterSleepS3 s = some (r, t) ∧
    ((r = .ok () ∧ t = kernelSuspend F K s) ∨ (r = .error .ERR_INVALID ∧ PreparedTo F K s t))

variable {F : Firmware core.facs}

/-- A kernel that sets a variable, and the check of what it reports. -/
theorem setsVariable_kernel (K : OsKernel core) {call : SetVariableCall} {name : List UInt16}
    (hname : HasChars call.variableName 0 name) (s : Cycle) :
    ∃ r t, (kernelSetVariable F K call >>= fun ok => check ok : Prog Err Cycle Unit) s =
        some (r, t) ∧
      SetsVariable F name call.vendorGuid call.data call.dataSize s r t := by
  obtain ⟨ok, t, hrun, hcases⟩ := @kernelSetVariable_spec _ F K call s
  refine ⟨if ok then .ok () else .error .ERR_INVALID, t, ?_, call, hname, rfl, rfl, rfl,
    K.deletes call, K.deletes_only call, ?_⟩
  · rw [Prog.bind_ok hrun]
    cases ok <;> rfl
  · rcases hcases with ⟨rfl, ht⟩ | ⟨ht, hstatus⟩
    · exact Or.inl ⟨rfl, ht⟩
    · refine Or.inr ⟨ht, ?_⟩
      rw [← hstatus]
      cases ok <;> simp

/-- What adjusts privileges leaves the machine alone. -/
theorem enablePrivilege_stays (W : Windows core) (privilege : String) (s : Cycle) :
    ∃ r, enablePrivilege W privilege s = some (r, s) := by
  have hset : Prog.Preserves (· = s) (setPrivilege W privilege) ∧
      Prog.Returns (setPrivilege W privilege) :=
    ⟨Prog.preserves_bind Prog.preserves_get fun _ =>
        Prog.preserves_bind (Prog.preserves_check _ _) fun _ =>
          Prog.preserves_bind (Prog.preserves_check _ _) fun _ => Prog.preserves_check _ _,
      Prog.returns_bind Prog.returns_get fun _ =>
        Prog.returns_bind (Prog.returns_check _ _) fun _ =>
          Prog.returns_bind (Prog.returns_check _ _) fun _ => Prog.returns_check _ _⟩
  have hpres : Prog.Preserves (· = s) (enablePrivilege W privilege) :=
    Prog.preserves_bind Prog.preserves_get fun _ =>
      Prog.preserves_bind (Prog.preserves_check _ _) fun _ => hset.1
  have hret : Prog.Returns (enablePrivilege W privilege) :=
    Prog.returns_bind Prog.returns_get fun _ =>
      Prog.returns_bind (Prog.returns_check _ _) fun _ => hset.2
  obtain ⟨r, t, hrun⟩ := hret s
  obtain rfl : t = s := hpres s r t rfl hrun
  exact ⟨r, hrun⟩

/-- The check of what a call for S3 reports. -/
theorem entersS3_check {K : OsKernel core} {enter : Cycle → Bool × Cycle} (h : EntersS3 F K enter)
    (s : Cycle) :
    ∃ r t, (check (enter s).1 : Prog Err Cycle Unit) (enter s).2 = some (r, t) ∧
      ((r = .ok () ∧ t = kernelSuspend F K s) ∨ (r = .error .ERR_INVALID ∧ PreparedTo F K s t)) := by
  cases hentered : (enter s).1 with
  | true => exact ⟨_, _, rfl, Or.inl ⟨rfl, h.suspends s hentered⟩⟩
  | false => exact ⟨_, _, rfl, Or.inr ⟨rfl, h.stops s hentered⟩⟩

theorem linux_meets {L : Linux core} (hS3 : EntersS3 F L.kernel L.enterS3) :
    (linuxOsl F L).Meets F L.kernel where
  uefi _ := ⟨.ok (), rfl⟩
  sleep _ := ⟨.ok (), rfl⟩
  variable_set guid name data dataSize s hlen hne hname := by
    obtain ⟨hchars, hcount⟩ := hasChars_decode L hlen hname
    have hpos : (L.nameStr name).2 > 0 := by
      have hlength : 0 < name.length := List.length_pos_iff.mpr hne
      rw [hcount, gt_iff_lt, UInt64.lt_iff_toNat_lt, UInt64.toNat_ofNat']
      simp only [NAME_STR_SIZE] at hlen
      exact lt_of_lt_of_eq hlength (Nat.mod_eq_of_lt (by omega)).symm
    obtain ⟨r, t, hrun, hsets⟩ := @setsVariable_kernel _ F L.kernel
      ⟨L.decode (L.nameStr name).1, guid, 0, dataSize, data⟩ name hchars s
    exact ⟨r, t, (Prog.bind_check_true (decide_eq_true hpos) _ _ s).trans hrun, Or.inl hsets⟩
  s3 s := by
    have hopen : (linuxOsl F L).enterSleepS3 s =
        (check (L.opens s) >>= fun _ => L.writePowerState powerStateMemStr >>= fun written =>
          check (written == powerStateMemStr.length) : Prog Err Cycle Unit) s := rfl
    by_cases hopens : L.opens s = true
    · rw [hopen, Prog.bind_check_true hopens]
      have hwritten : L.writePowerState powerStateMemStr s =
          some (.ok (L.writes powerStateMemStr s).1, (L.enterS3 s).2) := rfl
      rw [Prog.bind_ok hwritten]
      exact entersS3_check hS3 s
    · rw [hopen, Prog.bind_check_false (Bool.eq_false_iff.mpr hopens)]
      exact ⟨_, s, rfl, Or.inr ⟨rfl, PreparedTo.refl s⟩⟩

theorem windows_meets {W : Windows core} (hS3 : EntersS3 F W.kernel W.setSuspendState) :
    (windowsOsl F W).Meets F W.kernel where
  uefi := enablePrivilege_stays W _
  sleep := enablePrivilege_stays W _
  variable_set guid name data dataSize s _ _ _ := by
    cases hguid : W.stringFromGuid guid with
    | none =>
      refine ⟨.error .ERR_INVALID, s, ?_, Or.inr ⟨rfl, rfl⟩⟩
      show (guidToString W guid >>= _) s = _
      have herror : guidToString W guid s = some (.error .ERR_INVALID, s) := by
        rw [guidToString, hguid]
        rfl
      rw [Prog.bind_error herror]
    | some str =>
      obtain ⟨r, t, hrun, hsets⟩ := @setsVariable_kernel _ F W.kernel
        ⟨wideString name, W.guidOfString str, WINDOWS_VARIABLE_ATTRIBUTES, dataSize, data⟩ name
        (hasChars_wideString name) s
      refine ⟨r, t, ?_, Or.inl ?_⟩
      · show (guidToString W guid >>= _) s = _
        have hstr : guidToString W guid s = some (.ok str, s) := by
          rw [guidToString, hguid]
          rfl
        rw [Prog.bind_ok hstr]
        exact hrun
      · rwa [W.guidOfString_stringFromGuid guid str hguid] at hsets
  s3 s := by
    show ∃ r t, (callSetSuspendState W >>= fun ok => check ok : Prog Err Cycle Unit) s = _ ∧ _
    have hcalled : callSetSuspendState W s =
        some (.ok (W.setSuspendState s).1, (W.setSuspendState s).2) := rfl
    rw [Prog.bind_ok hcalled]
    exact entersS3_check hS3 s

end SwitchOs
