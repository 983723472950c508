import SwitchOs.Virtio.Talking
import SwitchOs.Core.HeapRuns

/-!
# What the struct held before

`core_main` gives `init_virtio_blk_dev` a struct that nothing has been written to. `SameOutcome` says
that what it holds makes no difference: any two initial contents come to the same result, the same
accesses to the device and the same free lists. `sameOutcome_iff` says when that is so. The rest of
the initialisation reads `common_cfg`, `notify.off` and the three parts of the queue whether they
have been set or not: after every error `common_cfg`, before the device is started both addresses,
and after an error in `init_virtio_blk_queue` the parts. `SetInTime` is that they have been.
-/

namespace SwitchOs.Virtio

open Prog

/-! ## Two runs -/

/-- The first `k` free blocks of allocator `i`, or all of them. -/
def freeBlocks (h : Heap) (i k : ℕ) : List UInt64 := nodes 0 (nextBlock h.mem) k (h.head i)

/-- Neither run returns, or both do, with the same result, accesses and free lists. -/
def SameEnd : Option (Except Err Unit × SetupState) → Option (Except Err Unit × SetupState) → Prop
  | none, none => True
  | some (r, s), some (r', s') =>
    r = r' ∧ s.log = s'.log ∧ ∀ i < 5, ∀ k, freeBlocks s.heap i k = freeBlocks s'.heap i k
  | _, _ => False

/-- `init_virtio_blk_dev` with a struct that holds `dev`. -/
def initRun (D : Device) (L : Layout) (core : CoreHeader) (p : PciSpace) (h : Heap)
    (dev : BlkStruct) : Option (Except Err Unit × SetupState) :=
  Setup.initVirtioBlkDev D L core ⟨dev, p, h, []⟩

/-- The initial contents of the struct make no difference. -/
def SameOutcome (D : Device) (L : Layout) (core : CoreHeader) (p : PciSpace) (h : Heap) : Prop :=
  ∀ dev dev', SameEnd (initRun D L core p h dev) (initRun D L core p h dev')

/-! ## What has to be set -/

/-- On the disk at `a`, what the initialisation reads from the capabilities on is set before that:
the list does not end, or a capability has given `common_cfg`; if the whole list is taken and that is
not null, one has given `notify.off`; and if that is not null either and the device accepts the
features, it has a queue whose first two parts can be allocated. -/
def CapsInTime (D : Device) (p : PciSpace) (a : PciDevAddr) (h : Heap) : Prop :=
  (AllTaken p a ∧ ¬ CapsEnd p a) ∨
    ∃ c, commonCfg p a = some c ∧ (AllTaken p a → c ≠ 0 →
      ∃ n, notifyOff p a = some n ∧ (n ≠ 0 →
        featuresOk D (enabledSpace p a) (statusAccesses c) c = true →
          QueueReady D (enabledSpace p a)
            (statusAccesses c ++ featureAccesses c ++ [featureRead c]) c h))

/-- Everything that the initialisation reads is set before that: the disk is found, has a list of
capabilities, and what comes from there is set. -/
def SetInTime (D : Device) (core : CoreHeader) (p : PciSpace) (h : Heap) : Prop :=
  Identified core p ∧ HasCapList (restoredSpace core p) core.diskAddr ∧
    CapsInTime D (restoredSpace core p) core.diskAddr h

section Leftover

variable {D : Device} {L : Layout} {core : CoreHeader} {p : PciSpace} {h : Heap} {a : PciDevAddr}
  {c n : UInt64} {log log' : List Access} {K K' : BlkStruct → Prop}

/-! ## Accesses to the configuration space only -/

theorem filter_quiet (hquiet : ∀ e ∈ log, e.isMemory = false) :
    (log ++ log').filter Access.isMemory = log'.filter Access.isMemory := by
  have hnil : log.filter Access.isMemory = [] :=
    List.filter_eq_nil_iff.mpr fun e he => by simp [hquiet e he]
  rw [List.filter_append, hnil, List.nil_append]

theorem featuresOk_quiet (hquiet : ∀ e ∈ log, e.isMemory = false) :
    featuresOk D p (log ++ log') c = featuresOk D p log' c := by
  unfold featuresOk
  rw [List.append_assoc, List.append_assoc, filter_quiet hquiet, ← List.append_assoc]

theorem queueSize_quiet (hquiet : ∀ e ∈ log, e.isMemory = false) :
    queueSize D p (log ++ log') c = queueSize D p log' c := by
  unfold queueSize askedSize
  rw [List.append_assoc, List.append_assoc, filter_quiet hquiet, ← List.append_assoc]

theorem queueReady_quiet (hquiet : ∀ e ∈ log, e.isMemory = false) :
    QueueReady D p (log ++ log') c h ↔ QueueReady D p log' c h := by
  have hsize : queueSize D p (log ++ log') c = queueSize D p log' c := queueSize_quiet hquiet
  constructor
  · rintro ⟨h1, h2, h3⟩
    rw [hsize] at h1 h2 h3
    exact ⟨h1, h2, h3⟩
  · rintro ⟨h1, h2, h3⟩
    rw [← hsize] at h1 h2 h3
    exact ⟨h1, h2, h3⟩

theorem quiet_enable (hquiet : ∀ e ∈ log, e.isMemory = false) :
    ∀ e ∈ log ++ enableAccesses p a, e.isMemory = false := by
  intro e he
  rcases List.mem_append.mp he with he | he
  · exact hquiet e he
  · simp only [enableAccesses, List.mem_cons, List.not_mem_nil, or_false] at he
    rcases he with rfl | rfl
    · rfl
    · rfl

theorem featuresOk_featureLog (hquiet : ∀ e ∈ log, e.isMemory = false) {p' : PciSpace} :
    featuresOk D p' (featureLog p a log c) c = featuresOk D p' (statusAccesses c) c :=
  featuresOk_quiet (quiet_enable hquiet)

theorem queueReady_queueLog (hquiet : ∀ e ∈ log, e.isMemory = false) {p' : PciSpace} :
    QueueReady D p' (queueLog p a log c) c h ↔
      QueueReady D p' (statusAccesses c ++ featureAccesses c ++ [featureRead c]) c h := by
  unfold queueLog featureLog
  rw [List.append_assoc, List.append_assoc, queueReady_quiet (quiet_enable hquiet),
    ← List.append_assoc]

/-! ## Runs in which nothing that is read is left over -/

theorem sameEnd_of_at {r : Except Err Unit} {s s' : SetupState} (hs : At p h log K s)
    (hs' : At p h log K' s') : SameEnd (some (r, s)) (some (r, s')) := by
  refine ⟨rfl, hs.accesses.trans hs'.accesses.symm, fun i _ k => ?_⟩
  rw [hs.heap, hs'.heap]

theorem sameOutcome_of_comesTo {p' : PciSpace} {h' : Heap} {r : Except Err Unit}
    (hrun : ComesTo (At p h [] fun _ => True) (Setup.initVirtioBlkDev D L core) r
      (At p' h' log K)) : SameOutcome D L core p h := by
  intro dev dev'
  obtain ⟨s, hs, hat⟩ := hrun ⟨dev, p, h, []⟩ ⟨rfl, rfl, rfl, trivial⟩
  obtain ⟨s', hs', hat'⟩ := hrun ⟨dev', p, h, []⟩ ⟨rfl, rfl, rfl, trivial⟩
  rw [initRun, initRun, hs, hs']
  exact sameEnd_of_at hat hat'

/-- The accesses after an error. -/
def failedLog (c : UInt64) (log : List Access) : List Access :=
  if c ≠ 0 then log ++ [.write 2 (c + DEVICE_STATUS) VIRTIO_STATUS_FAILED.toUInt32] else log

theorem at_failDev {s : SetupState} (hs : At p h log (fun dev => dev.commonCfg = c) s) :
    At p h (failedLog c log) (fun dev => dev.commonCfg = c) (Setup.failDev s) := by
  have hc : s.dev.commonCfg = c := hs.dev
  unfold Setup.failDev failedLog
  rw [hc]
  split_ifs with hnull
  · exact ⟨hs.pci, hs.heap, congrArg (· ++ _) hs.accesses, hc⟩
  · exact hs

/-- A body after which `common_cfg` is known. -/
theorem exists_initVirtioBlkDev {p' : PciSpace} {h' : Heap} {r : Except Err Unit}
    {I : SetupState → Prop}
    (hbody : ComesTo I (Setup.initVirtioBlkDevBody D L core) r
      (At p' h' log fun dev => dev.commonCfg = c)) :
    ∃ log', ComesTo I (Setup.initVirtioBlkDev D L core) r
      (At p' h' log' fun dev => dev.commonCfg = c) := by
  cases r with
  | ok u => exact ⟨log, hbody.orCleanup_ok⟩
  | error e => exact ⟨failedLog c log, hbody.orCleanup_error fun s hs => at_failDev hs⟩

theorem comesTo_find (h : Heap) (hid : Identified core p) :
    ∃ accesses : List Access, (∀ e ∈ accesses, e.isMemory = false) ∧
      ComesTo (At p h [] fun _ => True) (Setup.findVirtioBlkDev core) (.ok ())
        (At (restoredSpace core p) h accesses fun dev => dev.pciDev.addr = core.diskAddr) := by
  obtain ⟨as, hquiet, hrun⟩ := findVirtioBlkDev_ok hid
  refine ⟨as, hquiet, fun s hs => ⟨_, hrun s hs.pci, rfl, hs.heap, ?_, rfl⟩⟩
  exact congrArg (· ++ as) hs.accesses

theorem Scans.comesTo {x : Setup Unit} {r : Except Err Unit} {g : BlkStruct → BlkStruct}
    (hx : Scans p a x r g) (hg : ∀ dev, dev.pciDev.addr = a → K (g dev)) (h : Heap)
    (hquiet : ∀ e ∈ log, e.isMemory = false) :
    ∃ log' : List Access, (∀ e ∈ log', e.isMemory = false) ∧
      ComesTo (At p h log fun dev => dev.pciDev.addr = a) x r (At p h log' K) := by
  obtain ⟨as, hquiet', hrun⟩ := hx
  refine ⟨log ++ as, fun e he => ?_, fun s hs => ⟨_, hrun s hs.pci hs.dev, hs.pci, hs.heap, ?_,
    hg s.dev hs.dev⟩⟩
  · rcases List.mem_append.mp he with he | he
    · exact hquiet e he
    · exact hquiet' e he
  · exact congrArg (· ++ as) hs.accesses

theorem initRun_endless (hid : Identified core p)
    (hlist : HasCapList (restoredSpace core p) core.diskAddr)
    (htaken : AllTaken (restoredSpace core p) core.diskAddr)
    (hend : ¬ CapsEnd (restoredSpace core p) core.diskAddr) (dev : BlkStruct) :
    initRun D L core p h dev = none := by
  obtain ⟨as, -, hfind⟩ := comesTo_find h hid
  obtain ⟨s, hs, hat⟩ := hfind ⟨dev, p, h, []⟩ ⟨rfl, rfl, rfl, trivial⟩
  apply Prog.orCleanup_none
  unfold Setup.initVirtioBlkDevBody
  rw [Prog.bind_ok hs]
  exact Prog.bind_none (parse_endless hlist htaken hend hat.pci hat.dev)

/-- The struct once the capabilities have been taken into it. -/
theorem fillCaps_known {dev : BlkStruct} (haddr : dev.pciDev.addr = a)
    (hc : commonCfg p a = some c) (hn : notifyOff p a = some n) :
    Known a c n (fun _ => True) (fun _ => True) (fillCaps p a (takenCaps p a) dev) := by
  obtain ⟨hcommon, hnotify, -, hdev⟩ := takenCaps_fields p a dev
  rw [hc, Option.getD_some] at hcommon
  rw [hn, Option.getD_some] at hnotify
  exact ⟨(congrArg PciDev.addr hdev).trans haddr, hcommon, hnotify, trivial, trivial⟩

theorem fillCaps_commonCfg (dev : BlkStruct) (hc : commonCfg p a = some c) :
    (fillCaps p a (takenCaps p a) dev).commonCfg = c := by
  obtain ⟨hcommon, -⟩ := takenCaps_fields p a dev
  rw [hcommon, hc, Option.getD_some]

/-- What comes after the capabilities is the same every time. -/
theorem afterCaps_runs (hquiet : ∀ e ∈ log, e.isMemory = false)
    (hlist : HasCapList p a) (hcaps : CapsInTime D p a h) (hend : AllTaken p a → CapsEnd p a) :
    ∃ r p' h' c log', ComesTo (At p h log fun dev => dev.pciDev.addr = a)
      (Setup.parseVirtioBlkCaps >>= fun _ => Setup.startVirtioBlkDev D L) r
      (At p' h' log' fun dev => dev.commonCfg = c) := by
  rcases hcaps with ⟨htaken, hendless⟩ | ⟨c, hc, hcaps⟩
  · exact absurd (hend htaken) hendless
  by_cases htaken : AllTaken p a
  case neg =>
    obtain ⟨e, hparse⟩ := scans_parse_rejected hlist htaken
    obtain ⟨log', -, hrun⟩ := hparse.comesTo (K := fun dev => dev.commonCfg = c)
      (fun dev _ => fillCaps_commonCfg dev hc) h hquiet
    exact ⟨.error e, p, h, c, log', hrun.bind_error⟩
  have hparse := scans_parse_end hlist htaken (hend htaken)
  by_cases hnull : c = 0
  case pos =>
    obtain ⟨log', -, hrun⟩ := hparse.comesTo (K := fun dev => dev.commonCfg = c)
      (fun dev _ => fillCaps_commonCfg dev hc) h hquiet
    refine ⟨.error .ERR_INVALID, p, h, c, log', hrun.seq fun s hs => ⟨s, start_unset D L ?_, hs⟩⟩
    exact .inl (hs.dev.trans hnull)
  obtain ⟨n, hn, hready⟩ := hcaps htaken hnull
  obtain ⟨log', hquiet', hrun⟩ := hparse.comesTo
    (fun dev haddr => fillCaps_known haddr hc hn) h hquiet
  obtain ⟨r, p', h', log'', hstart⟩ := start_runs D L p h log' (fun _ => True) (fun _ => True)
    (a := a) (c := c) (n := n) fun _ hn hok => by
      rw [featuresOk_featureLog hquiet'] at hok
      rw [queueReady_queueLog hquiet']
      exact hready hn hok
  exact ⟨r, p', h', c, log'', hrun.seq hstart⟩

/-- **Nothing is left over** where everything is set in time. -/
theorem sameOutcome_of_setInTime (hset : SetInTime D core p h) : SameOutcome D L core p h := by
  obtain ⟨hid, hlist, hcaps⟩ := hset
  by_cases hend : AllTaken (restoredSpace core p) core.diskAddr →
      CapsEnd (restoredSpace core p) core.diskAddr
  case neg =>
    rw [Classical.not_imp] at hend
    intro dev dev'
    rw [initRun_endless hid hlist hend.1 hend.2, initRun_endless hid hlist hend.1 hend.2]
    trivial
  obtain ⟨log, hquiet, hfind⟩ := comesTo_find h hid
  obtain ⟨r, p', h', c, log', hrest⟩ := afterCaps_runs hquiet hlist hcaps hend
  obtain ⟨log'', hrun⟩ := exists_initVirtioBlkDev (hfind.seq hrest)
  exact sameOutcome_of_comesTo hrun

end Leftover

/-! ## Accesses are never taken back -/

/-- At least `N` accesses have been made. -/
def Accessed (N : ℕ) (s : SetupState) : Prop := N ≤ s.log.length

section Accessed

variable {D : Device} {L : Layout} {N : ℕ}

theorem accessed_logged {s : SetupState} (hs : Accessed N s) (e : Access) :
    Accessed N (s.logged e) := by
  unfold Accessed SetupState.logged at *
  rw [List.length_append]
  omega

theorem accessed_write (bytes : ℕ) (addr : UInt64) (value : UInt32) :
    Preserves (Accessed N) (Setup.write bytes addr value) :=
  preserves_modify fun _ hs => accessed_logged hs _

theorem accessed_read (bytes : ℕ) (addr : UInt64) :
    Preserves (Accessed N) (Setup.read D bytes addr) := by
  intro s r s' hs hrun
  obtain rfl : s' = s.logged (.read bytes addr) := (congrArg Prod.snd (Option.some.inj hrun)).symm
  exact accessed_logged hs _

theorem accessed_calloc (count size : ℕ) : Preserves (Accessed N) (Setup.calloc count size) := by
  intro s r s' hs hrun
  obtain rfl := (congrArg Prod.snd (Option.some.inj hrun)).symm
  exact hs

theorem accessed_setDev (f : BlkStruct → BlkStruct) : Preserves (Accessed N) (Setup.setDev f) :=
  preserves_modify fun _ hs => hs

theorem accessed_setQueue (f : QueueStruct → QueueStruct) :
    Preserves (Accessed N) (Setup.setQueue f) :=
  preserves_modify fun _ hs => hs

theorem accessed_setMem (f : SetupState → (ℕ → UInt8) → ℕ → UInt8) :
    Preserves (Accessed N) (Prog.modify fun s => s.setMem (f s) : Setup Unit) :=
  preserves_modify fun _ hs => hs

theorem accessed_addStatus (bits : UInt8) : Preserves (Accessed N) (Setup.addStatus bits) := by
  unfold Setup.addStatus
  refine preserves_bind (accessed_setDev _) fun _ => ?_
  refine preserves_bind preserves_get fun s => ?_
  exact accessed_write _ _ _

theorem accessed_initVirtioStatus : Preserves (Accessed N) Setup.initVirtioStatus := by
  unfold Setup.initVirtioStatus
  refine preserves_bind preserves_get fun s => ?_
  refine preserves_bind (accessed_write _ _ _) fun _ => ?_
  refine preserves_bind (accessed_write _ _ _) fun _ => ?_
  refine preserves_bind (accessed_write _ _ _) fun _ => ?_
  exact accessed_setDev _

theorem accessed_negotiate : Preserves (Accessed N) (Setup.negotiateVirtioFeatures D) := by
  unfold Setup.negotiateVirtioFeatures
  refine preserves_bind preserves_get fun s => ?_
  refine preserves_bind (accessed_write _ _ _) fun _ => ?_
  refine preserves_bind (accessed_read _ _) fun low => ?_
  refine preserves_bind (accessed_write _ _ _) fun _ => ?_
  refine preserves_bind (accessed_read _ _) fun high => ?_
  refine preserves_bind (preserves_check _ _) fun _ => ?_
  refine preserves_bind (accessed_write _ _ _) fun _ => ?_
  refine preserves_bind (accessed_write _ _ _) fun _ => ?_
  refine preserves_bind (accessed_write _ _ _) fun _ => ?_
  refine preserves_bind (accessed_write _ _ _) fun _ => ?_
  refine preserves_bind (accessed_addStatus _) fun _ => ?_
  refine preserves_bind (accessed_read _ _) fun status => ?_
  refine preserves_bind (preserves_check _ _) fun _ => ?_
  exact accessed_setDev _

theorem accessed_configureQueuePtrs : Preserves (Accessed N) Setup.configureQueuePtrs := by
  unfold Setup.configureQueuePtrs
  refine preserves_bind preserves_get fun s => ?_
  refine preserves_bind (accessed_write _ _ _) fun _ => ?_
  refine preserves_bind (accessed_write _ _ _) fun _ => ?_
  refine preserves_bind (accessed_write _ _ _) fun _ => ?_
  refine preserves_bind (accessed_write _ _ _) fun _ => ?_
  refine preserves_bind (accessed_write _ _ _) fun _ => ?_
  refine preserves_bind (accessed_write _ _ _) fun _ => ?_
  exact accessed_write _ _ _

theorem accessed_initQueueNotifyOff : Preserves (Accessed N) (Setup.initQueueNotifyOff D) := by
  unfold Setup.initQueueNotifyOff
  refine preserves_bind preserves_get fun s => ?_
  refine preserves_bind (preserves_check _ _) fun _ => ?_
  refine preserves_bind (accessed_read _ _) fun queueNotifyOff => ?_
  exact accessed_setQueue _

theorem accessed_startQueue (size : UInt16) :
    Preserves (Accessed N) (Setup.startQueue D size) := by
  unfold Setup.startQueue
  refine preserves_bind (accessed_setMem _) fun _ => ?_
  refine preserves_bind accessed_configureQueuePtrs fun _ => ?_
  refine preserves_bind (accessed_setMem _) fun _ => ?_
  refine preserves_bind (accessed_setQueue _) fun _ => ?_
  refine preserves_bind (accessed_setQueue _) fun _ => ?_
  refine preserves_bind accessed_initQueueNotifyOff fun _ => ?_
  refine preserves_bind preserves_get fun s => ?_
  exact accessed_write _ _ _

theorem accessed_initVirtioBlkQueue : Preserves (Accessed N) (Setup.initVirtioBlkQueue D L) := by
  refine preserves_orCleanup ?_ fun s hs => hs
  unfold Setup.initVirtioBlkQueueBody
  refine preserves_bind preserves_get fun s => ?_
  refine preserves_bind (accessed_write _ _ _) fun _ => ?_
  refine preserves_bind (accessed_read _ _) fun size => ?_
  refine preserves_bind (preserves_check _ _) fun _ => ?_
  refine preserves_bind (accessed_setQueue _) fun _ => ?_
  refine preserves_bind (accessed_calloc _ _) fun desc => ?_
  refine preserves_bind (accessed_setQueue _) fun _ => ?_
  refine preserves_bind (preserves_check _ _) fun _ => ?_
  refine preserves_bind (accessed_calloc _ _) fun avail => ?_
  refine preserves_bind (accessed_setQueue _) fun _ => ?_
  refine preserves_bind (preserves_check _ _) fun _ => ?_
  refine preserves_bind (accessed_calloc _ _) fun used => ?_
  refine preserves_bind (accessed_setQueue _) fun _ => ?_
  refine preserves_bind (preserves_check _ _) fun _ => ?_
  exact accessed_startQueue _

/-- With both addresses the device is started: at least two more accesses. -/
theorem start_accesses {s s' : SetupState} {r : Except Err Unit} (hc : s.dev.commonCfg ≠ 0)
    (hn : s.dev.notifyOff ≠ 0) (hrun : Setup.startVirtioBlkDev D L s = some (r, s')) :
    s.log.length + 2 ≤ s'.log.length := by
  unfold Setup.startVirtioBlkDev at hrun
  rw [Prog.bind_get_apply, check, Prog.bind_check_true (by simp [hc, hn])] at hrun
  have hrest : Preserves (Accessed (s.log.length + 2)) (Setup.initVirtioStatus >>= fun _ =>
      Setup.negotiateVirtioFeatures D >>= fun _ =>
      Setup.setQueue (fun queue => { queue with num := 0 }) >>= fun _ =>
      Setup.initVirtioBlkQueue D L >>= fun _ => Setup.addStatus VIRTIO_STATUS_DRIVER_OK) := by
    refine preserves_bind accessed_initVirtioStatus fun _ => ?_
    refine preserves_bind accessed_negotiate fun _ => ?_
    refine preserves_bind (accessed_setQueue _) fun _ => ?_
    refine preserves_bind accessed_initVirtioBlkQueue fun _ => ?_
    exact accessed_addStatus _
  refine hrest _ r s' ?_ hrun
  unfold Accessed
  simp [SetupState.logged]

theorem failDev_null {s : SetupState} (hc : s.dev.commonCfg = 0) : Setup.failDev s = s := by
  unfold Setup.failDev
  rw [hc, if_neg (not_not.mpr rfl)]

theorem failDev_log {s : SetupState} (hc : s.dev.commonCfg ≠ 0) :
    (Setup.failDev s).log.length = s.log.length + 1 := by
  unfold Setup.failDev
  rw [if_pos hc]
  exact List.length_append

theorem failDev_heap (s : SetupState) : (Setup.failDev s).heap = s.heap := by
  unfold Setup.failDev
  split_ifs
  · rfl
  · rfl

theorem accessed_failDev {s : SetupState} (hs : Accessed N s) : Accessed N (Setup.failDev s) := by
  unfold Setup.failDev
  split_ifs
  · exact accessed_logged hs _
  · exact hs

/-- Likewise with what is done after an error. -/
theorem start_failed_accesses {s s' : SetupState} {r : Except Err Unit} (hc : s.dev.commonCfg ≠ 0)
    (hn : s.dev.notifyOff ≠ 0)
    (hrun : (Setup.startVirtioBlkDev D L).orCleanup Setup.failDev s = some (r, s')) :
    s.log.length + 2 ≤ s'.log.length := by
  cases hstart : Setup.startVirtioBlkDev D L s with
  | none =>
    rw [Prog.orCleanup_none hstart] at hrun
    cases hrun
  | some y =>
    obtain ⟨r', t⟩ := y
    have ht := start_accesses hc hn hstart
    cases r' with
    | ok u =>
      rw [Prog.orCleanup_ok hstart] at hrun
      obtain rfl := congrArg Prod.snd (Option.some.inj hrun)
      exact ht
    | error e =>
      rw [Prog.orCleanup_error hstart] at hrun
      obtain rfl := congrArg Prod.snd (Option.some.inj hrun)
      exact accessed_failDev ht

/-- Without both addresses, one more access at most: the device is told of the error. -/
theorem start_failed_unset (D : Device) (L : Layout) {s : SetupState}
    (hunset : s.dev.commonCfg = 0 ∨ s.dev.notifyOff = 0) :
    (Setup.startVirtioBlkDev D L).orCleanup Setup.failDev s =
      some (.error .ERR_INVALID, Setup.failDev s) :=
  Prog.orCleanup_error (start_unset D L hunset)

end Accessed

/-! ## Runs in which something is left over -/

/-- A struct that holds zeroes. -/
def zeroStruct : BlkStruct :=
  ⟨⟨⟨0, 0, 0⟩, 0, 0, 0⟩, 0, ⟨0, 0, 0, 0, 0, 0, 0, 0⟩, 0, 0, 0, 0⟩

section LeftOver

variable {D : Device} {L : Layout} {core : CoreHeader} {p : PciSpace} {h : Heap}

theorem not_sameEnd_of_log {r : Except Err Unit} {s : SetupState}
    {x : Option (Except Err Unit × SetupState)}
    (hlog : ∀ r' s', x = some (r', s') → s.log.length ≠ s'.log.length) :
    ¬ SameEnd (some (r, s)) x := by
  intro hend
  cases x with
  | none => exact hend
  | some y => exact hlog y.1 y.2 rfl (congrArg List.length hend.2.1)

/-- Of two devices with a null `common_cfg` and another one, only the other is told of anything. -/
theorem not_sameEnd_of_commonCfg {dev dev' : BlkStruct} {log : List Access}
    (hdev : dev.commonCfg = 0) (hdev' : dev'.commonCfg ≠ 0) :
    ¬ SameEnd ((Setup.startVirtioBlkDev D L).orCleanup Setup.failDev ⟨dev, p, h, log⟩)
      ((Setup.startVirtioBlkDev D L).orCleanup Setup.failDev ⟨dev', p, h, log⟩) := by
  rw [start_failed_unset D L (.inl hdev), failDev_null hdev]
  refine not_sameEnd_of_log fun r' s' hs => ?_
  by_cases hn : dev'.notifyOff = 0
  · rw [start_failed_unset D L (.inr hn)] at hs
    obtain rfl := congrArg Prod.snd (Option.some.inj hs)
    rw [failDev_log hdev']
    exact Nat.ne_of_lt (Nat.lt_succ_self _)
  · have haccesses := start_failed_accesses hdev' hn hs
    dsimp only at haccesses ⊢
    omega

/-- Of two devices with a null `notify.off` and another one, only the other is started. -/
theorem not_sameEnd_of_notifyOff {dev dev' : BlkStruct} {log : List Access}
    (hdev : dev.commonCfg ≠ 0) (hn : dev.notifyOff = 0) (hdev' : dev'.commonCfg ≠ 0)
    (hn' : dev'.notifyOff ≠ 0) :
    ¬ SameEnd ((Setup.startVirtioBlkDev D L).orCleanup Setup.failDev ⟨dev, p, h, log⟩)
      ((Setup.startVirtioBlkDev D L).orCleanup Setup.failDev ⟨dev', p, h, log⟩) := by
  rw [start_failed_unset D L (.inr hn)]
  refine not_sameEnd_of_log fun r' s' hs => ?_
  have haccesses := start_failed_accesses hdev' hn' hs
  rw [failDev_log hdev]
  dsimp only at haccesses ⊢
  omega

/-- An error before `common_cfg` has been set: what it held decides whether the device is told. -/
theorem not_sameOutcome_of_error {e : Err} {p' : PciSpace} {log : List Access}
    {g : BlkStruct → BlkStruct} (hbody : ∀ dev, Setup.initVirtioBlkDevBody D L core ⟨dev, p, h, []⟩ =
      some (.error e, ⟨g dev, p', h, log⟩)) (hg : ∀ dev, (g dev).commonCfg = dev.commonCfg) :
    ¬ SameOutcome D L core p h := by
  intro hsame
  have hrun : ∀ dev, initRun D L core p h dev =
      some (.error e, Setup.failDev ⟨g dev, p', h, log⟩) :=
    fun dev => Prog.orCleanup_error (hbody dev)
  have hend := hsame zeroStruct { zeroStruct with commonCfg := 1 }
  rw [hrun, hrun] at hend
  refine not_sameEnd_of_log (fun r' s' hs => ?_) hend
  obtain rfl := congrArg Prod.snd (Option.some.inj hs)
  have hzero : (g zeroStruct).commonCfg = 0 := hg _
  have hone : (g { zeroStruct with commonCfg := 1 }).commonCfg ≠ 0 := by
    rw [hg]
    decide
  rw [failDev_null hzero, failDev_log hone]
  exact Nat.ne_of_lt (Nat.lt_succ_self _)

theorem identified_of_sameOutcome (hsame : SameOutcome D L core p h) : Identified core p := by
  by_contra hid
  obtain ⟨e, p', as, -, hfind⟩ := findVirtioBlkDev_error hid
  have hbody : ∀ dev, Setup.initVirtioBlkDevBody D L core ⟨dev, p, h, []⟩ =
      some (.error e, ⟨identified p core.diskAddr dev, p', h, as⟩) :=
    fun dev => Prog.bind_error (hfind ⟨dev, p, h, []⟩ rfl)
  exact not_sameOutcome_of_error hbody (fun _ => rfl) hsame

/-- The body from the capabilities on. -/
theorem body_eq_parse (D : Device) (L : Layout) (h : Heap) (hid : Identified core p) :
    ∃ log, ∀ dev, Setup.initVirtioBlkDevBody D L core ⟨dev, p, h, []⟩ =
      (Setup.parseVirtioBlkCaps >>= fun _ => Setup.startVirtioBlkDev D L)
        ⟨identified p core.diskAddr dev, restoredSpace core p, h, log⟩ := by
  obtain ⟨as, -, hfind⟩ := findVirtioBlkDev_ok hid
  exact ⟨as, fun dev => Prog.bind_ok (hfind ⟨dev, p, h, []⟩ rfl)⟩

/-- A list of capabilities that comes to an error, before `common_cfg` has been set. -/
theorem not_sameOutcome_of_parse {e : Err} {g : BlkStruct → BlkStruct} (hid : Identified core p)
    (hparse : Scans (restoredSpace core p) core.diskAddr Setup.parseVirtioBlkCaps (.error e) g)
    (hg : ∀ dev, (g dev).commonCfg = dev.commonCfg) : ¬ SameOutcome D L core p h := by
  obtain ⟨log, hbody⟩ := body_eq_parse D L h hid
  obtain ⟨as, -, hrun⟩ := hparse
  have hfail : ∀ dev, Setup.initVirtioBlkDevBody D L core ⟨dev, p, h, []⟩ = some (.error e,
      ⟨g (identified p core.diskAddr dev), restoredSpace core p, h, log ++ as⟩) :=
    fun dev => (hbody dev).trans (Prog.bind_error (hrun _ rfl rfl))
  exact not_sameOutcome_of_error hfail fun dev => hg (identified p core.diskAddr dev)

theorem hasCapList_of_sameOutcome (hsame : SameOutcome D L core p h) :
    HasCapList (restoredSpace core p) core.diskAddr := by
  by_contra hlist
  exact not_sameOutcome_of_parse (identified_of_sameOutcome hsame) (scans_parse_noList hlist)
    (fun _ => rfl) hsame

/-- The struct when the device is started, if it comes to that. -/
def capsTaken (core : CoreHeader) (p : PciSpace) (dev : BlkStruct) : BlkStruct :=
  fillCaps (restoredSpace core p) core.diskAddr
    (takenCaps (restoredSpace core p) core.diskAddr) (identified p core.diskAddr dev)

theorem capsTaken_fields (core : CoreHeader) (p : PciSpace) (dev : BlkStruct) :
    (capsTaken core p dev).commonCfg =
        (commonCfg (restoredSpace core p) core.diskAddr).getD dev.commonCfg ∧
      (capsTaken core p dev).notifyOff =
        (notifyOff (restoredSpace core p) core.diskAddr).getD dev.notifyOff ∧
      (capsTaken core p dev).queue = dev.queue ∧
      (capsTaken core p dev).pciDev.addr = core.diskAddr := by
  obtain ⟨hcommon, hnotify, hqueue, hdev⟩ := takenCaps_fields (restoredSpace core p)
    core.diskAddr (identified p core.diskAddr dev)
  unfold capsTaken
  rw [hcommon, hnotify, hqueue, hdev]
  exact ⟨rfl, rfl, rfl, rfl⟩

theorem initRun_eq_start (D : Device) (L : Layout) (h : Heap) (hid : Identified core p)
    (hlist : HasCapList (restoredSpace core p) core.diskAddr)
    (htaken : AllTaken (restoredSpace core p) core.diskAddr)
    (hend : CapsEnd (restoredSpace core p) core.diskAddr) :
    ∃ log : List Access, (∀ e ∈ log, e.isMemory = false) ∧ ∀ dev, initRun D L core p h dev =
      (Setup.startVirtioBlkDev D L).orCleanup Setup.failDev
        ⟨capsTaken core p dev, restoredSpace core p, h, log⟩ := by
  obtain ⟨as, hquiet, hfind⟩ := findVirtioBlkDev_ok hid
  obtain ⟨as', hquiet', hparse⟩ := scans_parse_end hlist htaken hend
  refine ⟨as ++ as', fun e he => ?_, fun dev => Prog.orCleanup_congr ?_⟩
  · rcases List.mem_append.mp he with he | he
    · exact hquiet e he
    · exact hquiet' e he
  · unfold Setup.initVirtioBlkDevBody
    rw [Prog.bind_ok (hfind ⟨dev, p, h, []⟩ rfl)]
    exact Prog.bind_ok (hparse ⟨identified p core.diskAddr dev, restoredSpace core p, h, as⟩ rfl rfl)

theorem commonCfg_of_sameOutcome (hsame : SameOutcome D L core p h)
    (hend : AllTaken (restoredSpace core p) core.diskAddr →
      CapsEnd (restoredSpace core p) core.diskAddr) :
    ∃ c, commonCfg (restoredSpace core p) core.diskAddr = some c := by
  by_contra hnone
  rw [← Option.isSome_iff_exists, Option.not_isSome_iff_eq_none] at hnone
  have hid := identified_of_sameOutcome hsame
  have hlist := hasCapList_of_sameOutcome hsame
  by_cases htaken : AllTaken (restoredSpace core p) core.diskAddr
  case neg =>
    obtain ⟨e, hparse⟩ := scans_parse_rejected hlist htaken
    refine not_sameOutcome_of_parse hid hparse (fun dev => ?_) hsame
    obtain ⟨hcommon, -⟩ := takenCaps_fields (restoredSpace core p) core.diskAddr dev
    rw [hcommon, hnone, Option.getD_none]
  -- with a null pointer nothing happens, and with any other the device is at least told
  obtain ⟨log, -, hrun⟩ := initRun_eq_start D L h hid hlist htaken (hend htaken)
  have hcommon : ∀ dev, (capsTaken core p dev).commonCfg = dev.commonCfg := by
    intro dev
    rw [(capsTaken_fields core p dev).1, hnone, Option.getD_none]
  have hends := hsame zeroStruct { zeroStruct with commonCfg := 1 }
  have hzero : (capsTaken core p zeroStruct).commonCfg = 0 := by
    rw [hcommon]
    rfl
  have hone : (capsTaken core p { zeroStruct with commonCfg := 1 }).commonCfg ≠ 0 := by
    rw [hcommon]
    decide
  rw [hrun, hrun] at hends
  generalize capsTaken core p zeroStruct = dev at hzero hends
  generalize capsTaken core p { zeroStruct with commonCfg := 1 } = dev' at hone hends
  exact not_sameEnd_of_commonCfg hzero hone hends

theorem notifyOff_of_sameOutcome (hsame : SameOutcome D L core p h)
    (htaken : AllTaken (restoredSpace core p) core.diskAddr)
    (hend : CapsEnd (restoredSpace core p) core.diskAddr) {c : UInt64}
    (hc : commonCfg (restoredSpace core p) core.diskAddr = some c) (hnull : c ≠ 0) :
    ∃ n, notifyOff (restoredSpace core p) core.diskAddr = some n := by
  by_contra hnone
  rw [← Option.isSome_iff_exists, Option.not_isSome_iff_eq_none] at hnone
  obtain ⟨log, -, hrun⟩ := initRun_eq_start D L h (identified_of_sameOutcome hsame)
    (hasCapList_of_sameOutcome hsame) htaken hend
  have hcommon : ∀ dev, (capsTaken core p dev).commonCfg ≠ 0 := by
    intro dev
    rw [(capsTaken_fields core p dev).1, hc]
    exact hnull
  have hnotify : ∀ dev, (capsTaken core p dev).notifyOff = dev.notifyOff := by
    intro dev
    rw [(capsTaken_fields core p dev).2.1, hnone, Option.getD_none]
  have hends := hsame zeroStruct { zeroStruct with notifyOff := 1 }
  have hzero : (capsTaken core p zeroStruct).notifyOff = 0 := by
    rw [hnotify]
    rfl
  have hone : (capsTaken core p { zeroStruct with notifyOff := 1 }).notifyOff ≠ 0 := by
    rw [hnotify]
    decide
  rw [hrun, hrun] at hends
  have hset := hcommon zeroStruct
  have hset' := hcommon { zeroStruct with notifyOff := 1 }
  generalize capsTaken core p zeroStruct = dev at hset hzero hends
  generalize capsTaken core p { zeroStruct with notifyOff := 1 } = dev' at hset' hone hends
  exact not_sameEnd_of_notifyOff hset hzero hset' hone hends

/-- A block of the first allocator, put back into a heap, changes its first free block, unless it is
that block. -/
theorem exists_freed_differs (L : Layout) (h : Heap) :
    ∃ u, freeBlocks (coreFree L u h) 0 1 ≠ freeBlocks h 0 1 := by
  have hlt := L.buf_lt 0 (by decide)
  have hpos := L.buf_pos 0 (by decide)
  have hsize : (gAllocator 0).bufSize = 131072 := rfl
  have hspace : UInt64.size = 2 ^ 64 := rfl
  rw [hsize] at hlt
  have hfree : ∀ k ≤ 32, UInt64.ofNat (L.buf 0 + k) ≠ h.head 0 →
      freeBlocks (coreFree L (UInt64.ofNat (L.buf 0 + k)) h) 0 1 ≠ freeBlocks h 0 1 := by
    intro k hk hne heq
    have hnat : (UInt64.ofNat (L.buf 0 + k)).toNat = L.buf 0 + k :=
      UInt64.toNat_ofNat_of_lt' (by omega)
    have hfind : findAllocatorForAllocation L (UInt64.ofNat (L.buf 0 + k)) = some 0 := by
      unfold findAllocatorForAllocation
      rw [hnat]
      refine List.find?_cons_of_pos ?_
      simp only [hsize, Bool.and_eq_true, decide_eq_true_eq]
      omega
    have hnull : UInt64.ofNat (L.buf 0 + k) ≠ 0 := by
      intro hzero
      rw [hzero] at hnat
      have h0 : (0 : UInt64).toNat = 0 := rfl
      omega
    unfold freeBlocks coreFree nodes at heq
    rw [hfind] at heq
    simp only [Function.update_self, if_neg hnull] at heq
    split_ifs at heq
    · exact hne (List.cons.inj heq).1
  by_cases hhead : UInt64.ofNat (L.buf 0 + 0) = h.head 0
  · refine ⟨_, hfree 32 le_rfl fun hboth => ?_⟩
    have hnat := congrArg UInt64.toNat (hboth.trans hhead.symm)
    rw [UInt64.toNat_ofNat_of_lt' (by omega), UInt64.toNat_ofNat_of_lt' (by omega)] at hnat
    omega
  · exact ⟨_, hfree 0 (Nat.zero_le _) hhead⟩

/-- After an error in the set-up of the queue, the cleanup frees what `queue.used` held. -/
theorem queueReady_of_sameOutcome (hsame : SameOutcome D L core p h)
    (htaken : AllTaken (restoredSpace core p) core.diskAddr)
    (hend : CapsEnd (restoredSpace core p) core.diskAddr) {c n : UInt64}
    (hc : commonCfg (restoredSpace core p) core.diskAddr = some c) (hnull : c ≠ 0)
    (hn : notifyOff (restoredSpace core p) core.diskAddr = some n) (hnotify : n ≠ 0)
    (hok : featuresOk D (enabledSpace (restoredSpace core p) core.diskAddr) (statusAccesses c) c =
      true) :
    QueueReady D (enabledSpace (restoredSpace core p) core.diskAddr)
      (statusAccesses c ++ featureAccesses c ++ [featureRead c]) c h := by
  by_contra hready
  obtain ⟨log, hquiet, hrun⟩ := initRun_eq_start D L h (identified_of_sameOutcome hsame)
    (hasCapList_of_sameOutcome hsame) htaken hend
  rw [← featuresOk_featureLog hquiet] at hok
  rw [← queueReady_queueLog hquiet] at hready
  obtain ⟨h', log', hstart⟩ := start_stops L (fun _ => True) hnull hnotify hok hready
  obtain ⟨used, hdiffers⟩ := exists_freed_differs L h'
  -- the run from a struct whose queue holds nothing but that pointer
  have hused : ∀ u, ∃ s, initRun D L core p h
      { zeroStruct with queue := { zeroStruct.queue with used := u } } =
        some (.error .ERR_INVALID, s) ∧ s.heap = coreFree L u h' := by
    intro u
    obtain ⟨hcommon, hoff, hqueue, haddr⟩ := capsTaken_fields core p
      { zeroStruct with queue := { zeroStruct.queue with used := u } }
    rw [hc, Option.getD_some] at hcommon
    rw [hn, Option.getD_some] at hoff
    rw [hrun]
    generalize capsTaken core p { zeroStruct with queue := { zeroStruct.queue with used := u } } = dev
      at hcommon hoff hqueue haddr ⊢
    have hparts : dev.queue.desc = 0 ∧ dev.queue.avail = 0 ∧ dev.queue.used = u := by
      rw [hqueue]
      exact ⟨rfl, rfl, rfl⟩
    obtain ⟨t, ht, hheap⟩ := hstart u ⟨dev, restoredSpace core p, h, log⟩
      ⟨rfl, rfl, rfl, haddr, hcommon, hoff, trivial, hparts⟩
    exact ⟨Setup.failDev t, Prog.orCleanup_error ht, (failDev_heap t).trans hheap.heap⟩
  obtain ⟨s, hs, hsheap⟩ := hused used
  obtain ⟨s', hs', hsheap'⟩ := hused 0
  have hends := hsame { zeroStruct with queue := { zeroStruct.queue with used := used } }
    { zeroStruct with queue := { zeroStruct.queue with used := 0 } }
  rw [hs, hs'] at hends
  have hfree := hends.2.2 0 (by decide) 1
  rw [hsheap, hsheap', coreFree_null] at hfree
  exact hdiffers hfree

end LeftOver

/-- **What the struct held before makes no difference** exactly where everything that the
initialisation reads is set in time. -/
theorem sameOutcome_iff (D : Device) (L : Layout) (core : CoreHeader) (p : PciSpace) (h : Heap) :
    SameOutcome D L core p h ↔ SetInTime D core p h := by
  refine ⟨fun hsame => ⟨identified_of_sameOutcome hsame, hasCapList_of_sameOutcome hsame, ?_⟩,
    sameOutcome_of_setInTime⟩
  by_cases hend : AllTaken (restoredSpace core p) core.diskAddr →
      CapsEnd (restoredSpace core p) core.diskAddr
  case neg => exact .inl (Classical.not_imp.mp hend)
  obtain ⟨c, hc⟩ := commonCfg_of_sameOutcome hsame hend
  refine .inr ⟨c, hc, fun htaken hnull => ?_⟩
  obtain ⟨n, hn⟩ := notifyOff_of_sameOutcome hsame htaken (hend htaken) hc hnull
  exact ⟨n, hn, fun hnotify hok =>
    queueReady_of_sameOutcome hsame htaken (hend htaken) hc hnull hn hnotify hok⟩

/-- A virtio disk with one memory BAR, and with capabilities for the common configuration and the
notifications. -/
def sampleDisk : PciSpace where
  config := fun _ x => (([0xf4, 0x1a, 0x01, 0x10, 0, 0, 0x10] : List UInt8) ++
    List.replicate 12 0 ++ [0xfe] ++ List.replicate 32 0 ++ [0x40] ++ List.replicate 11 0 ++
    [0x09, 0x50, 16, 1, 0] ++ List.replicate 11 0 ++
    [0x09, 0, 20, 2, 0, 0, 0, 0, 0, 0x30, 0, 0, 0, 0, 0, 0, 4]).getD x 0
  writable := fun _ _ => 0

/-- With free blocks, and a device that answers 8 to every read, all is set in time. -/
example : SetInTime (fun _ _ => 8) emptyCore sampleDisk ⟨fun _ => 0, fun _ => 0x100000⟩ := by
  refine ⟨?_, ?_, .inr ⟨0xfe000000, by decide, fun _ _ => ⟨0xfe003000, by decide, fun _ _ => ?_⟩⟩⟩
  · unfold Identified
    decide
  · unfold HasCapList
    decide
  · exact ⟨by decide, by decide, by decide⟩

/-- A configuration space without the disk. -/
def emptySpace : PciSpace := ⟨fun _ _ => 0xff, fun _ _ => 0⟩

/-- Without the disk, what `common_cfg` held decides where the error is written to. -/
theorem leftover_commonCfg_written :
    (initRun (fun _ _ => 0) sampleLayout emptyCore emptySpace ⟨fun _ => 0, fun _ => 0⟩
        zeroStruct).map (fun y => y.2.memoryLog) = some [] ∧
      (initRun (fun _ _ => 0) sampleLayout emptyCore emptySpace ⟨fun _ => 0, fun _ => 0⟩
        { zeroStruct with commonCfg := 0x9000 }).map (fun y => y.2.memoryLog) =
          some [.write 2 0x9014 128] ∧
      ¬ SameOutcome (fun _ _ => 0) sampleLayout emptyCore emptySpace ⟨fun _ => 0, fun _ => 0⟩ := by
  refine ⟨by rfl, by rfl, fun hsame => ?_⟩
  have hid := identified_of_sameOutcome hsame
  revert hid
  unfold Identified
  decide

end SwitchOs.Virtio
