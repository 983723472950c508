import SwitchOs.Hooks.SetVariable
import SwitchOs.Lib.Runs

/-!
# The kernel's waking vector

The kernel writes its waking vector, and the two hooks save it and put core's entry in its place, in
any order and any number of times. The `SetVariable` hook looks whether core's entry is there
already; the `_PTS` hook does not, and then saves core's own entry over the kernel's vector.
`wakingVector_kept` is the invariant for the runs in which no `_PTS` finds core's entry
(`PtsFindsKernel`), and `pts_loses` says that each `_PTS` that does find it loses the vector.
-/

namespace SwitchOs

/-- What happens between two suspends: the kernel writes its vector, `_PTS` is evaluated, or
`SetVariable` is called. -/
inductive WakeEvent where
  | write (v : UInt32)
  | pts (arg0 : UInt64)
  | setVariable (call : SetVariableCall)

/-- The machine, and the last vector that the kernel wrote. -/
structure Watched where
  machine : Machine
  lastWritten : Option UInt32

namespace Watched

/-- The waking vector in the FACS. -/
def waking (s : Watched) : UInt32 := s.machine.core.wakingVector s.machine.mem

/-- The saved vector in the FACS. -/
def saved (s : Watched) : UInt32 := s.machine.core.savedVector s.machine.mem

/-- Once the kernel has written a vector: if core's entry is in its place, the vector is saved. -/
def Kept (s : Watched) : Prop :=
  ∀ v, s.lastWritten = some v → s.waking = CORE_WAKEUP_PHYS_ADDR → s.saved = v

end Watched

variable {facs : UInt64}

/-- The steps, in any order. -/
inductive WakeStep (F : Firmware facs) : Watched → WakeEvent → Watched → Prop
  | write (s : Watched) {v : UInt32} : v ≠ 0 → v ≠ CORE_WAKEUP_PHYS_ADDR →
      WakeStep F s (.write v)
        ⟨{ s.machine with mem := s.machine.core.setWakingVector v s.machine.mem }, some v⟩
  | pts (s : Watched) (arg0 : UInt64) :
      WakeStep F s (.pts arg0) ⟨ptsHook F arg0 s.machine, s.lastWritten⟩
  | setVariable (s : Watched) (call : SetVariableCall) :
      WakeStep F s (.setVariable call) ⟨(setVariableHook F call s.machine).2, s.lastWritten⟩

/-- An evaluation of `_PTS` after the kernel's first write finds the kernel's vector, not core's
entry. -/
def PtsFindsKernel (s : Watched) (e : WakeEvent) : Prop :=
  ∀ arg0, e = .pts arg0 → s.lastWritten ≠ none → s.waking ≠ CORE_WAKEUP_PHYS_ADDR

/-- Either the last vector is still in place, or it is saved behind core's entry. -/
structure VectorInv (facs : UInt64) (s : Watched) : Prop where
  facs : s.machine.core.facs = facs
  vector : ∀ v, s.lastWritten = some v → v ≠ CORE_WAKEUP_PHYS_ADDR ∧
    (s.waking = v ∨ (s.waking = CORE_WAKEUP_PHYS_ADDR ∧ s.saved = v))

variable {F : Firmware facs} {s t : Watched} {e : WakeEvent}

theorem VectorInv.kept (h : VectorInv facs s) : s.Kept := by
  intro v hv hcore
  obtain ⟨hne, hwaking | ⟨-, hsaved⟩⟩ := h.vector v hv
  · exact absurd (hwaking.symm.trans hcore) hne
  · exact hsaved

/-- The step lemma. -/
theorem VectorInv.step (h : VectorInv facs s) (hstep : Where PtsFindsKernel (WakeStep F) s e t) :
    VectorInv facs t := by
  obtain ⟨hguard, hstep⟩ := hstep
  cases hstep with
  | write _ hne =>
    refine ⟨h.facs, fun v' hv' => ?_⟩
    obtain rfl := Option.some.inj hv'
    exact ⟨hne, Or.inl (wakingVector_setWakingVector _)⟩
  | pts arg0 =>
    obtain ⟨hwaking, hsaved⟩ := ptsHook_spec F arg0 s.machine h.facs
    refine ⟨h.facs, fun v hv => ?_⟩
    have hkernel := hguard arg0 rfl (by simpa using Option.ne_none_iff_exists'.mpr ⟨v, hv⟩)
    obtain ⟨hne, hin | ⟨hcore, -⟩⟩ := h.vector v hv
    · exact ⟨hne, Or.inr ⟨hwaking, hsaved.trans hin⟩⟩
    · exact absurd hcore hkernel
  | setVariable call =>
    rcases setVariableHook_cases F call s.machine h.facs with
      (heq | ⟨action, -, heq⟩) | ⟨hcore, hvectors⟩
    · rw [heq]
      exact h
    · rw [heq]
      exact ⟨h.facs, h.vector⟩
    · refine ⟨by rw [hcore]; exact h.facs, fun v hv => ?_⟩
      obtain ⟨hne, hv⟩ := h.vector v hv
      refine ⟨hne, ?_⟩
      simp only [Watched.waking, Watched.saved, hcore] at hv ⊢
      rcases hvectors with ⟨hkernel, hwaking, hsaved⟩ | ⟨hwaking, hsaved⟩
      · -- the hook overrides the kernel's vector, so it was still in place
        rcases hv with hin | ⟨hentry, -⟩
        · exact Or.inr ⟨hwaking, hsaved.trans hin⟩
        · exact absurd hentry hkernel
      · rw [hwaking, hsaved]
        exact hv

/-- **The waking vector is kept**: in every run in which no `_PTS` after the kernel's first write finds
core's entry in the FACS, every state with core's entry there has the last vector saved. -/
theorem wakingVector_kept (F : Firmware facs) (s t : Watched) (es : List WakeEvent)
    (hfacs : s.machine.core.facs = facs) (hfirst : s.lastWritten = none)
    (hrun : Runs (Where PtsFindsKernel (WakeStep F)) s es t) : t.Kept := by
  have hinv : VectorInv facs s := ⟨hfacs, fun v hv => by simp [hfirst] at hv⟩
  exact (hrun.invariant (I := VectorInv facs) (fun _ _ _ h hstep => h.step hstep) hinv).kept

/-- **A `_PTS` that finds core's entry** saves it over the kernel's vector. -/
theorem pts_loses {arg0 : UInt64} {v : UInt32} (hfacs : s.machine.core.facs = facs)
    (hv : s.lastWritten = some v) (hne : v ≠ CORE_WAKEUP_PHYS_ADDR)
    (hentry : s.waking = CORE_WAKEUP_PHYS_ADDR) (hstep : WakeStep F s (.pts arg0) t) :
    ¬ t.Kept := by
  cases hstep with
  | pts =>
    obtain ⟨hwaking, hsaved⟩ := ptsHook_spec F arg0 s.machine hfacs
    intro hkept
    exact hne ((hkept v hv hwaking).symm.trans (hsaved.trans hentry))

/-! ## A sleep checkpoint before `_PTS` -/

/-- A firmware whose `SetVariable` and `_PTS` write to no memory. -/
def quietFirmware (facs : UInt64) : Firmware facs where
  setVariable _ mem := (EFI_SUCCESS, mem)
  spts _ mem := mem
  setVariable_facs _ _ _ _ _ := rfl
  spts_facs _ _ _ _ _ := rfl

/-- A machine with zeros in the FACS, which lies at `0x3000`. -/
def zeroMachine : Machine where
  mem _ := 0
  disk _ := 0
  core := { emptyCore with facs := 0x3000 }
  issued := 0
  kernelWakingVector := 0

/-- The call with which Windows records a sleep checkpoint. -/
def checkpointCall : SetVariableCall where
  variableName i := (wideLiteral "SystemSleepCheckpoint").getD i 0
  vendorGuid := ⟨0, 0, 0, []⟩
  attributes := 7
  dataSize := 4
  data _ := 0

/-- The kernel's vector, then a checkpoint. -/
def checkpointed : Watched :=
  ⟨(setVariableHook (quietFirmware 0x3000) checkpointCall
      { zeroMachine with mem := zeroMachine.core.setWakingVector 0x9000 zeroMachine.mem }).2,
    some 0x9000⟩

theorem checkpointed_vectors :
    checkpointed.waking = CORE_WAKEUP_PHYS_ADDR ∧ checkpointed.saved = 0x9000 := by
  decide

/-- A run to the state after the checkpoint, in which every `_PTS` finds the kernel's vector. -/
theorem runs_checkpointed :
    Runs (Where PtsFindsKernel (WakeStep (quietFirmware 0x3000))) ⟨zeroMachine, none⟩
      [.write 0x9000, .setVariable checkpointCall] checkpointed :=
  .cons ⟨nofun, .write _ (by decide) (by decide)⟩ (.cons ⟨nofun, .setVariable _ _⟩ (.nil _))

/-- After the kernel's vector and a checkpoint the vector is saved. -/
theorem wakingVector_kept_checkpoint : checkpointed.Kept :=
  wakingVector_kept (quietFirmware 0x3000) ⟨zeroMachine, none⟩ checkpointed _ rfl rfl
    runs_checkpointed

/-- **The vector is lost** by a `_PTS` after a checkpoint. -/
theorem pts_after_checkpoint_loses :
    ∃ (F : Firmware 0x3000) (s t : Watched) (es : List WakeEvent),
      s.machine.core.facs = 0x3000 ∧ s.waking = 0 ∧ s.saved = 0 ∧ s.lastWritten = none ∧
        Runs (WakeStep F) s es t ∧ ¬ t.Kept := by
  have hpts : WakeStep (quietFirmware 0x3000) checkpointed (.pts 3)
      ⟨ptsHook (quietFirmware 0x3000) 3 checkpointed.machine, some 0x9000⟩ := .pts checkpointed 3
  refine ⟨quietFirmware 0x3000, ⟨zeroMachine, none⟩, _, _, rfl, by decide, by decide, rfl,
    (Runs.cons (.write _ (by decide) (by decide)) (.cons (.setVariable _ _)
      (.cons hpts (.nil _)))), ?_⟩
  exact pts_loses rfl rfl (by decide) checkpointed_vectors.1 hpts

end SwitchOs
