import SwitchOs.Cycle.Machine
import SwitchOs.Hooks.Commands

/-!
# A kernel that sets variables and suspends

What the kernel of the running OS does for a program that asks it to: it sets a UEFI variable, for which
some kernels delete the variable first; and it suspends the machine. On its way into S3 it writes its
waking vector, and after that either evaluates `_PTS`, as Linux does, or calls `SetVariable` for a sleep
checkpoint, as Windows does. Either catches it: core's entry is in the FACS when the machine is
suspended, and the kernel's vector is saved (`kernelSuspend_spec`).
-/

namespace SwitchOs

variable {core : CoreHeader}

/-- The event is one in which a hook puts core's entry in the place of the kernel's vector. -/
def WakeEvent.Catches : WakeEvent → Prop
  | .write _ => False
  | .pts _ => True
  | .setVariable call =>
    isCommandsGuid call.vendorGuid = false ∧ IsName call.variableName "SystemSleepCheckpoint"

/-- The running OS' kernel: the calls that it makes before it sets a variable, and whether it comes to
set it; and how it suspends: what it does before it writes its vector, the vector, the calls up to the
event that catches it, the calls after that, and the memory that it leaves. -/
structure OsKernel (core : CoreHeader) where
  deletes : SetVariableCall → List SetVariableCall
  comes : SetVariableCall → Bool
  early : Cycle → List WakeEvent
  vector : Cycle → UInt32
  calls : Cycle → List SetVariableCall
  catcher : Cycle → WakeEvent
  later : Cycle → List SetVariableCall
  memory : Cycle → ℕ → UInt8
  deletes_only : ∀ call c, c ∈ deletes call → c = { call with dataSize := 0 }
  early_write : ∀ s v, .write v ∉ early s
  early_foreign : ∀ s call, .setVariable call ∈ early s → isCommandsGuid call.vendorGuid = false
  early_pts : ∀ s arg0, s.watched.lastWritten ≠ none → .pts arg0 ∉ early s
  vector_kernel : ∀ s, KernelVector (vector s)
  calls_foreign : ∀ s call, call ∈ calls s ++ later s → isCommandsGuid call.vendorGuid = false
  calls_uncaught : ∀ s call, call ∈ calls s → ¬ (WakeEvent.setVariable call).Catches
  catcher_catches : ∀ s, (catcher s).Catches
  memory_facs : ∀ s x, core.InFacs x → memory s x = s.machine.mem x

/-! ## What a kernel does -/

/-- The machine after an event. -/
def Cycle.after (F : Firmware core.facs) (s : Cycle) (e : WakeEvent) : Cycle :=
  { s with watched :=
      match e with
      | .write v =>
        ⟨{ s.machine with mem := s.machine.core.setWakingVector v s.machine.mem }, some v⟩
      | .pts arg0 => ⟨ptsHook F arg0 s.machine, s.watched.lastWritten⟩
      | .setVariable call => ⟨(setVariableHook F call s.machine).2, s.watched.lastWritten⟩ }

/-- A call of `SetVariable`, with its status. -/
def performCall (F : Firmware core.facs) (call : SetVariableCall) : Prog Err Cycle UInt64 := do
  let s ← Prog.get
  Prog.modify fun s => s.after F (.setVariable call)
  pure (setVariableHook F call s.machine).1

/-- The kernel sets a variable, and says whether it has. -/
def kernelSetVariable (F : Firmware core.facs) (K : OsKernel core) (call : SetVariableCall) :
    Prog Err Cycle Bool := do
  Prog.forEach (fun c => do let _ ← performCall F c; pure ()) (K.deletes call)
  if K.comes call then do
    let status ← performCall F call
    pure (status == EFI_SUCCESS)
  else pure false

/-- What a kernel does from its vector on. -/
def OsKernel.caught (K : OsKernel core) (s : Cycle) : List WakeEvent :=
  .write (K.vector s) :: ((K.calls s).map .setVariable ++
    K.catcher s :: (K.later s).map .setVariable)

/-- The machine as the kernel has prepared it. -/
def kernelPrepare (F : Firmware core.facs) (K : OsKernel core) (s : Cycle) : Cycle :=
  (K.early s ++ K.caught s).foldl (Cycle.after F) s

/-- The machine after some beginning of what the kernel does to prepare it. -/
def PreparedTo (F : Firmware core.facs) (K : OsKernel core) (s t : Cycle) : Prop :=
  ∃ es, es <+: K.early s ++ K.caught s ∧ t = es.foldl (Cycle.after F) s

/-- The kernel suspends the machine. -/
def kernelSuspend (F : Firmware core.facs) (K : OsKernel core) (s : Cycle) : Cycle where
  watched := ⟨{ (kernelPrepare F K s).machine with mem := K.memory (kernelPrepare F K s) },
    (kernelPrepare F K s).watched.lastWritten⟩
  asleep := true
  served := false

/-! ## One event after the other -/

section Events

variable {P : Platform} {fuel : ℕ} {F : Firmware core.facs} {D : BlkDev → Prop} {s t : Cycle}
  {e : WakeEvent} {es : List WakeEvent} {V : UInt32 → Prop}

/-- The orderly runs of the machine. -/
abbrev OrderlyRuns (P : Platform) (fuel : ℕ) (core : CoreHeader) (F : Firmware core.facs)
    (D : BlkDev → Prop) : Cycle → List CycleEvent → Cycle → Prop :=
  Runs (Where (Orderly core) (CycleStep P fuel core F D))

/-- What a kernel writes is a kernel's vector. -/
def WakeEvent.Written (e : WakeEvent) : Prop := ∀ v, e = .write v → KernelVector v

/-- The event is none with which core is asked for anything. -/
def WakeEvent.Foreign (e : WakeEvent) : Prop :=
  ∀ call, e = .setVariable call → isCommandsGuid call.vendorGuid = false

theorem wakeStep_after (hwritten : e.Written) : WakeStep F s.watched e (s.after F e).watched := by
  cases e with
  | write v => exact .write _ (hwritten v rfl).1 (hwritten v rfl).2
  | pts arg0 => exact .pts _ arg0
  | setVariable call => exact .setVariable _ call

theorem setVariableHook_foreign {m : Machine} {call : SetVariableCall}
    (hforeign : isCommandsGuid call.vendorGuid = false) :
    (setVariableHook F call m).2.core = m.core := by
  rw [setVariableHook, if_neg (by simp [hforeign])]

/-- An event that is foreign leaves core's header alone. -/
theorem after_core (hforeign : e.Foreign) : (s.after F e).machine.core = s.machine.core := by
  cases e with
  | write v => rfl
  | pts arg0 => rfl
  | setVariable call => exact setVariableHook_foreign (hforeign call rfl)

/-- A state that orderly events keep: the machine is awake and in order, with this header of core and
this vector written last. -/
structure Awake (core c : CoreHeader) (l : Option UInt32) (u : Cycle) : Prop where
  wakes : Wakes core KernelVector u
  awake : u.asleep = false
  header : u.machine.core = c
  written : u.watched.lastWritten = l

variable {c : CoreHeader} {l : Option UInt32}

/-- One event: a step of the machine, into a state that is in order. -/
theorem Awake.step (h : Awake core c l s) (hwritten : e.Written) (hforeign : e.Foreign)
    (hfinds : PtsFindsKernel s.watched e) :
    Where (Orderly core) (CycleStep P fuel core F D) s (.hook e) (s.after F e) ∧
      Awake core c (s.after F e).watched.lastWritten (s.after F e) :=
  ⟨⟨hfinds, .hook h.awake (wakeStep_after hwritten)⟩,
    h.wakes.hook h.awake hfinds hwritten (wakeStep_after hwritten), h.awake,
    (after_core hforeign).trans h.header, rfl⟩

/-- Events that write no vector, with an invariant that says what each `_PTS` finds. -/
theorem Awake.events {I : Cycle → Prop} (h : Awake core c l s)
    (hforeign : ∀ e ∈ es, e.Foreign) (hwrite : ∀ v, .write v ∉ es)
    (hfinds : ∀ e ∈ es, ∀ u, Awake core c l u → I u → PtsFindsKernel u.watched e) (hs : I s)
    (hstep : ∀ e ∈ es, ∀ u, Awake core c l u → I u → I (u.after F e)) :
    OrderlyRuns P fuel core F D s (es.map .hook) (es.foldl (Cycle.after F) s) ∧
      Awake core c l (es.foldl (Cycle.after F) s) ∧ I (es.foldl (Cycle.after F) s) := by
  induction es generalizing s with
  | nil => exact ⟨.nil s, h, hs⟩
  | cons e es ih =>
    have he := List.mem_cons_self (a := e) (l := es)
    have hwritten : e.Written := fun v hv => absurd (hv ▸ he) (hwrite v)
    obtain ⟨hrun, hkept⟩ := @Awake.step _ P fuel F D _ _ _ _ h hwritten (hforeign e he)
      (hfinds e he s h hs)
    have hlast : (s.after F e).watched.lastWritten = l := by
      cases e with
      | write v => exact absurd he (hwrite v)
      | pts arg0 => exact h.written
      | setVariable call => exact h.written
    rw [hlast] at hkept
    obtain ⟨hruns, hkept', hI⟩ := ih hkept (fun d hd => hforeign d (List.mem_cons_of_mem _ hd))
      (fun v hv => hwrite v (List.mem_cons_of_mem _ hv))
      (fun d hd => hfinds d (List.mem_cons_of_mem _ hd)) (hstep e he s h hs)
      (fun d hd => hstep d (List.mem_cons_of_mem _ hd))
    exact ⟨.cons hrun hruns, hkept', hI⟩

/-- Calls of `SetVariable` look for nothing. -/
theorem Awake.calls {I : Cycle → Prop} {calls : List SetVariableCall} (h : Awake core c l s)
    (hforeign : ∀ call ∈ calls, isCommandsGuid call.vendorGuid = false) (hs : I s)
    (hstep : ∀ call ∈ calls, ∀ u, Awake core c l u → I u → I (u.after F (.setVariable call))) :
    OrderlyRuns P fuel core F D s ((calls.map .setVariable).map .hook)
        ((calls.map .setVariable).foldl (Cycle.after F) s) ∧
      Awake core c l ((calls.map .setVariable).foldl (Cycle.after F) s) ∧
      I ((calls.map .setVariable).foldl (Cycle.after F) s) := by
  refine h.events (fun e he d hd => ?_) (fun v hv => ?_) (fun e he u _ _ arg0 hpts => ?_) hs
    fun e he u hu hI => ?_
  · obtain ⟨call, hcall, rfl⟩ := List.mem_map.mp he
    obtain rfl := WakeEvent.setVariable.inj hd
    exact hforeign call hcall
  · obtain ⟨call, -, hcall⟩ := List.mem_map.mp hv
    cases hcall
  · obtain ⟨call, -, rfl⟩ := List.mem_map.mp he
    cases hpts
  · obtain ⟨call, hcall, rfl⟩ := List.mem_map.mp he
    exact hstep call hcall u hu hI

/-! ## What catches a kernel -/

theorem wstrcmp_checkpoint {str : ℕ → UInt16} :
    wstrcmp str 0 (wideLiteral "SystemSleepCheckpoint") = 0 ↔ IsName str "SystemSleepCheckpoint" := by
  refine wstrcmp_eq_zero_iff fun c hc => ?_
  have hne : (wideLiteral "SystemSleepCheckpoint").all (· != 0) = true := by rfl
  simpa using List.all_eq_true.mp hne c hc

/-- What a call leaves in the FACS: core's entry, if it is a sleep checkpoint, and else what was
there. -/
theorem after_call_waking (h : Awake core c l s) {call : SetVariableCall}
    (hforeign : isCommandsGuid call.vendorGuid = false) :
    ((WakeEvent.setVariable call).Catches →
        (s.after F (.setVariable call)).watched.waking = CORE_WAKEUP_PHYS_ADDR) ∧
      (¬ (WakeEvent.setVariable call).Catches →
        (s.after F (.setVariable call)).watched.waking = s.watched.waking) := by
  have hfirmware : ∀ mem : ℕ → UInt8, s.machine.core.wakingVector (F.setVariable call mem).2 =
      s.machine.core.wakingVector mem := fun mem =>
    (vectors_congr fun x hx hx' => F.setVariable_facs call mem x
      (h.wakes.vector.facs ▸ hx) (h.wakes.vector.facs ▸ hx')).1
  simp only [Cycle.after, Watched.waking, setVariableHook, hforeign, Bool.false_eq_true, if_false,
    WakeEvent.Catches, true_and, ← wstrcmp_checkpoint, hfirmware]
  refine ⟨fun hname => ?_, fun hname => ?_⟩
  · split_ifs with hcheckpoint
    · exact wakingVector_overrideWakingVector
    · by_contra hne
      exact hcheckpoint ⟨hname, hne⟩
  · rw [if_neg fun hcheckpoint => hname hcheckpoint.1]
    rfl

/-- A call after that leaves core's entry where it is. -/
theorem after_call_entry (h : Awake core c l s) {call : SetVariableCall}
    (hforeign : isCommandsGuid call.vendorGuid = false)
    (hentry : s.watched.waking = CORE_WAKEUP_PHYS_ADDR) :
    (s.after F (.setVariable call)).watched.waking = CORE_WAKEUP_PHYS_ADDR := by
  obtain ⟨hcaught, huncaught⟩ := @after_call_waking _ F _ _ _ h call hforeign
  by_cases hcatches : (WakeEvent.setVariable call).Catches
  · exact hcaught hcatches
  · exact (huncaught hcatches).trans hentry

/-- What a kernel does before it writes its vector. -/
theorem Awake.early (h : Awake core c l s) (K : OsKernel core) :
    OrderlyRuns P fuel core F D s ((K.early s).map .hook) ((K.early s).foldl (Cycle.after F) s) ∧
      Awake core c l ((K.early s).foldl (Cycle.after F) s) := by
  have hfinds : ∀ e ∈ K.early s, ∀ u, Awake core c l u → True → PtsFindsKernel u.watched e := by
    -- a `_PTS` this early is one before any vector
    rintro e he u hu - arg0 rfl hwritten
    exact absurd he (K.early_pts s arg0 (by rwa [h.written, ← hu.written]))
  obtain ⟨hruns, hawake, -⟩ := @Awake.events _ P fuel F D _ _ _ _ (fun _ => True) h
    (fun e he call hcall => K.early_foreign s call (hcall ▸ he)) (K.early_write s) hfinds trivial
    fun _ _ _ _ _ => trivial
  exact ⟨hruns, hawake⟩

/-- What it does then leaves core's entry in the FACS. -/
theorem Awake.caught (h : Awake core c l t) (K : OsKernel core) (s : Cycle) :
    OrderlyRuns P fuel core F D t ((K.caught s).map .hook) ((K.caught s).foldl (Cycle.after F) t) ∧
      Awake core c (some (K.vector s)) ((K.caught s).foldl (Cycle.after F) t) ∧
      ((K.caught s).foldl (Cycle.after F) t).watched.waking = CORE_WAKEUP_PHYS_ADDR := by
  obtain ⟨hwrite, hwritten⟩ := @Awake.step _ P fuel F D t (.write (K.vector s)) c l h
    (fun v hv => WakeEvent.write.inj hv ▸ K.vector_kernel s) nofun nofun
  obtain ⟨hcalls, hcalled, hin⟩ := @Awake.calls _ P fuel F D _ c _
    (fun u => u.watched.waking = K.vector s) (K.calls s) hwritten
    (fun call hcall => K.calls_foreign s call (List.mem_append_left _ hcall))
    (wakingVector_setWakingVector _) (fun call hcall u hu hin =>
      ((after_call_waking hu (K.calls_foreign s call (List.mem_append_left _ hcall))).2
        (K.calls_uncaught s call hcall)).trans hin)
  generalize hu : ((K.calls s).map WakeEvent.setVariable).foldl (Cycle.after F)
    (t.after F (.write (K.vector s))) = u at hcalls hcalled hin
  have hcatches := K.catcher_catches s
  have hfinds : PtsFindsKernel u.watched (K.catcher s) := fun _ _ _ => by
    rw [hin]
    exact (K.vector_kernel s).2
  obtain ⟨hcatch, hcaught, hentry⟩ : Where (Orderly core) (CycleStep P fuel core F D) u
      (.hook (K.catcher s)) (u.after F (K.catcher s)) ∧
      Awake core c (some (K.vector s)) (u.after F (K.catcher s)) ∧
      (u.after F (K.catcher s)).watched.waking = CORE_WAKEUP_PHYS_ADDR := by
    cases hcatcher : K.catcher s with
    | write v =>
      rw [hcatcher] at hcatches
      exact hcatches.elim
    | pts arg0 =>
      rw [hcatcher] at hfinds
      obtain ⟨hstep, hnext⟩ := @Awake.step _ P fuel F D _ (.pts arg0) _ _ hcalled nofun nofun hfinds
      refine ⟨hstep, ?_, (ptsHook_spec F arg0 u.machine hcalled.wakes.vector.facs).1⟩
      rwa [show (u.after F (.pts arg0)).watched.lastWritten = some (K.vector s) from
        hcalled.written] at hnext
    | setVariable call =>
      rw [hcatcher] at hcatches
      have hforeign := hcatches.1
      obtain ⟨hstep, hnext⟩ := @Awake.step _ P fuel F D _ (.setVariable call) _ _ hcalled nofun
        (fun d hd => WakeEvent.setVariable.inj hd ▸ hforeign) nofun
      refine ⟨hstep, ?_, (after_call_waking hcalled hforeign).1 hcatches⟩
      rwa [show (u.after F (.setVariable call)).watched.lastWritten = some (K.vector s) from
        hcalled.written] at hnext
  obtain ⟨hlater, hlast, hend⟩ := @Awake.calls _ P fuel F D _ c _
    (fun u => u.watched.waking = CORE_WAKEUP_PHYS_ADDR) (K.later s) hcaught
    (fun call hcall => K.calls_foreign s call (List.mem_append_right _ hcall)) hentry
    (fun call hcall u hu hin =>
      after_call_entry hu (K.calls_foreign s call (List.mem_append_right _ hcall)) hin)
  rw [OsKernel.caught, List.foldl_cons, List.foldl_append, hu, List.foldl_cons, List.map_cons,
    List.map_append, List.map_cons]
  exact ⟨.cons hwrite (hcalls.append (.cons hcatch hlater)), hlast, hend⟩

/-- What a kernel does to prepare the machine is an orderly run of it. -/
theorem kernelPrepare_spec (K : OsKernel core) (h : Wakes core KernelVector s)
    (hawake : s.asleep = false) :
    OrderlyRuns P fuel core F D s ((K.early s ++ K.caught s).map .hook) (kernelPrepare F K s) ∧
      Awake core s.machine.core (some (K.vector s)) (kernelPrepare F K s) ∧
      (kernelPrepare F K s).watched.waking = CORE_WAKEUP_PHYS_ADDR := by
  have hinit : Awake core s.machine.core s.watched.lastWritten s := ⟨h, hawake, rfl, rfl⟩
  obtain ⟨hearly, hawake'⟩ := @Awake.early _ P fuel F D _ _ _ hinit K
  obtain ⟨hcaught, hlast, hentry⟩ := @Awake.caught _ P fuel F D _ _ _ hawake' K s
  rw [← List.foldl_append] at hcaught hlast hentry
  rw [List.map_append]
  exact ⟨hearly.append hcaught, hlast, hentry⟩

theorem OsKernel.foreign (K : OsKernel core) (s : Cycle) :
    ∀ e ∈ K.early s ++ K.caught s, e.Foreign := by
  rintro e he call rfl
  rcases List.mem_append.mp he with he | he
  · exact K.early_foreign s call he
  · simp only [OsKernel.caught, List.mem_cons, List.mem_append, List.mem_map, reduceCtorEq,
      WakeEvent.setVariable.injEq, exists_eq_right, false_or] at he
    rcases he with hcall | hcatcher | hcall
    · exact K.calls_foreign s call (List.mem_append_left _ hcall)
    · have hcatches := K.catcher_catches s
      rw [← hcatcher] at hcatches
      exact hcatches.1
    · exact K.calls_foreign s call (List.mem_append_right _ hcall)

/-- There is one state that some events of the hooks lead to. -/
theorem foldl_after_of_runs (h : OrderlyRuns P fuel core F D s (es.map .hook) t) :
    t = es.foldl (Cycle.after F) s := by
  induction es generalizing s with
  | nil =>
    cases h
    rfl
  | cons e es ih =>
    cases h with
    | cons hstep hrest =>
      obtain ⟨-, hstep⟩ := hstep
      cases hstep with
      | hook _ hwake =>
        have hrest := ih hrest
        cases hwake <;> exact hrest

theorem foldl_after_core (hforeign : ∀ e ∈ es, e.Foreign) :
    (es.foldl (Cycle.after F) s).machine.core = s.machine.core := by
  induction es generalizing s with
  | nil => rfl
  | cons e es ih =>
    rw [List.foldl_cons, ih fun d hd => hforeign d (List.mem_cons_of_mem _ hd)]
    exact after_core (hforeign e List.mem_cons_self)

theorem foldl_after_asleep : (es.foldl (Cycle.after F) s).asleep = s.asleep := by
  induction es generalizing s with
  | nil => rfl
  | cons e es ih => exact ih

theorem PreparedTo.refl {K : OsKernel core} (s : Cycle) : PreparedTo F K s s :=
  ⟨[], List.nil_prefix, rfl⟩

/-- A beginning of it is one, too, with core's header as it was. -/
theorem PreparedTo.spec {K : OsKernel core} (hprepared : PreparedTo F K s t)
    (h : Wakes core KernelVector s) (hawake : s.asleep = false) :
    (∃ es, OrderlyRuns P fuel core F D s es t ∧ es.flatMap CycleEvent.seen = []) ∧
      t.asleep = false ∧ t.machine.core = s.machine.core := by
  obtain ⟨es, ⟨rest, hes⟩, rfl⟩ := hprepared
  obtain ⟨hrun, -, -⟩ := @kernelPrepare_spec _ P fuel F D _ K h hawake
  rw [← hes, List.map_append] at hrun
  obtain ⟨t, hrun, -⟩ := hrun.of_append
  obtain rfl := foldl_after_of_runs hrun
  exact ⟨⟨_, hrun, by simp [CycleEvent.seen, List.flatMap_map]⟩, foldl_after_asleep.trans hawake,
    foldl_after_core fun e he => K.foreign s e (hes ▸ List.mem_append_left rest he)⟩

/-- **A suspend** is an orderly run of the machine, into an S3 with core's entry in the FACS, the
kernel's vector behind it, and nothing else in core's header. -/
theorem kernelSuspend_spec (K : OsKernel core) (h : Wakes core KernelVector s)
    (hawake : s.asleep = false) :
    (∃ es, OrderlyRuns P fuel core F D s es (kernelSuspend F K s) ∧ es.flatMap CycleEvent.seen = []) ∧
      Wakes core KernelVector (kernelSuspend F K s) ∧
      (kernelSuspend F K s).machine.core = s.machine.core ∧
      core.wakingVector (kernelSuspend F K s).machine.mem = CORE_WAKEUP_PHYS_ADDR ∧
      (kernelSuspend F K s).suspended core =
        (ramImage core (K.memory (kernelPrepare F K s)), K.vector s) := by
  obtain ⟨hprepare, hlast, hentry⟩ := @kernelPrepare_spec _ P fuel F D _ K h hawake
  have hexecute := hlast.wakes.execute hlast.awake (K.memory_facs _)
  have hsleep := hexecute.sleep (by simp [hlast.written])
  obtain ⟨request, hcore⟩ := hlast.wakes.action
  obtain ⟨hwaking, hsaved⟩ := @vectors_congr core _ _ fun x hx hx' =>
    K.memory_facs (kernelPrepare F K s) x ⟨hx, hx'⟩
  have hkernel : (kernelPrepare F K s).watched.saved = K.vector s :=
    hlast.wakes.vector.kept _ hlast.written hentry
  rw [Watched.waking, show (kernelPrepare F K s).watched.machine.core = _ from hcore] at hentry
  rw [Watched.saved, show (kernelPrepare F K s).watched.machine.core = _ from hcore] at hkernel
  refine ⟨⟨(K.early s ++ K.caught s).map .hook ++
      [.execute (K.memory (kernelPrepare F K s)), .sleep], ?_, ?_⟩, hsleep, hlast.header,
    hwaking.trans hentry, Prod.ext rfl (hsaved.trans hkernel)⟩
  · exact hprepare.append (.cons ⟨trivial, .execute _ hlast.awake (K.memory_facs _)⟩
      (.cons ⟨by simp [Orderly, hlast.written], .sleep hlast.awake⟩ (.nil _)))
  · simp [CycleEvent.seen, List.flatMap_map]

/-! ## A variable -/

/-- The machine after some calls of `SetVariable`. -/
def Cycle.afterCalls (F : Firmware core.facs) (s : Cycle) (calls : List SetVariableCall) : Cycle :=
  (calls.map WakeEvent.setVariable).foldl (Cycle.after F) s

theorem performCalls_apply (calls : List SetVariableCall) (s : Cycle) :
    Prog.forEach (fun c => do let _ ← performCall F c; pure ()) calls s =
      some (.ok (), s.afterCalls F calls) := by
  induction calls generalizing s with
  | nil => rfl
  | cons c cs ih =>
    have hcall : (do let _ ← performCall F c; pure () : Prog Err Cycle Unit) s =
        some (.ok (), s.after F (.setVariable c)) := rfl
    rw [Prog.forEach_cons, Prog.bind_ok hcall, ih]
    rfl

/-- A kernel that sets a variable returns, with the calls it made: the deletions, and the call itself if
it comes to it, whose status it reports. -/
theorem kernelSetVariable_spec (K : OsKernel core) (call : SetVariableCall) (s : Cycle) :
    ∃ ok t, kernelSetVariable F K call s = some (.ok ok, t) ∧
      ((ok = false ∧ t = s.afterCalls F (K.deletes call)) ∨
        (t = (s.afterCalls F (K.deletes call)).after F (.setVariable call) ∧
          (ok = true ↔ (setVariableHook F call (s.afterCalls F (K.deletes call)).machine).1 =
            EFI_SUCCESS))) := by
  rw [kernelSetVariable, Prog.bind_ok (performCalls_apply _ s)]
  by_cases hcomes : K.comes call = true
  · rw [if_pos hcomes]
    exact ⟨_, _, rfl, Or.inr ⟨rfl, by simp⟩⟩
  · rw [if_neg hcomes]
    exact ⟨false, _, rfl, Or.inl ⟨rfl, rfl⟩⟩

end Events

end SwitchOs
