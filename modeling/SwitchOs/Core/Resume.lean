import SwitchOs.Core.Walk

/-!
# Core gives the machine back

`core_main` resumes a kernel with a vector that is not zero whenever it accepts its header and the FACS
holds one, whatever fails after that (`core_resumes_iff`). There are two halves to it: the vector is
never taken back (`preserves_coreAction`), and the action returns (`coreAction_returns`), for which
the loop of a switch must not wrap. Without a switch core leaves memory alone (`coreMain_noSwitch`).
-/

namespace SwitchOs

open CoreAction

variable {P : Platform} {dev : BlkDev} {fuel : ℕ} {m t : Machine}

/-! ## The vector that core resumes the kernel with -/

/-- There is a kernel to resume. -/
def HasVector (m : Machine) : Prop := m.kernelWakingVector ≠ 0

theorem preserves_blkRequest {move : Machine → Machine}
    (h : ∀ m, (move m).kernelWakingVector = m.kernelWakingVector) :
    Prog.Preserves HasVector (blkRequest dev move) := by
  refine Prog.preserves_bind Prog.preserves_get fun m => ?_
  refine Prog.preserves_bind (Prog.preserves_modify fun m hm => hm) fun _ => ?_
  refine Prog.preserves_bind (Prog.preserves_check _ _) fun _ => ?_
  exact Prog.preserves_modify fun m hm => by rwa [HasVector, h m]

theorem preserves_readDumpHeader : Prog.Preserves HasVector (readDumpHeader P dev) :=
  Prog.preserves_bind (preserves_blkRequest fun _ => rfl) fun _ =>
    Prog.preserves_bind Prog.preserves_get fun _ => Prog.preserves_pure _

theorem preserves_writeDumpHeader (header : DumpHeader) :
    Prog.Preserves HasVector (writeDumpHeader dev header) :=
  preserves_blkRequest fun _ => rfl

theorem preserves_diskStoreDump : Prog.Preserves HasVector (diskStoreDump P dev) := by
  refine Prog.preserves_bind Prog.preserves_get fun m => ?_
  refine Prog.preserves_bind (Prog.preserves_lift _) fun header => ?_
  refine Prog.preserves_bind (Prog.preserves_forEach _ fun i _ => ?_) fun _ =>
    preserves_writeDumpHeader _
  exact preserves_blkRequest fun _ => rfl

theorem preserves_switchChunks (stop : UInt64) (fuel : ℕ) : ∀ addr sector : UInt64,
    Prog.Preserves HasVector (switchChunks P dev stop fuel addr sector) := by
  induction fuel with
  | zero =>
    intro addr sector
    rw [switchChunks]
    split
    · exact Prog.preserves_diverge
    · exact Prog.preserves_pure _
  | succ fuel ih =>
    intro addr sector
    rw [switchChunks]
    split
    · refine Prog.preserves_bind (Prog.preserves_check _ _) fun _ => ?_
      refine Prog.preserves_bind ?_ fun _ => ih _ _
      refine Prog.preserves_bind (preserves_blkRequest fun _ => rfl) fun _ => ?_
      refine Prog.preserves_bind (preserves_blkRequest fun _ => rfl) fun _ => ?_
      exact Prog.preserves_modify fun _ hm => hm
    · exact Prog.preserves_pure _

/-- The vector of a dump is checked before it takes the place of the saved one. -/
theorem preserves_diskSwitchDump : Prog.Preserves HasVector (diskSwitchDump P dev fuel) := by
  refine Prog.preserves_bind preserves_readDumpHeader fun header => ?_
  refine Prog.preserves_bind Prog.preserves_get fun m => ?_
  refine Prog.preserves_check_bind _ fun hvalid => ?_
  refine Prog.preserves_bind (Prog.preserves_forEach _ fun i _ => preserves_switchChunks _ _ _ _)
    fun _ => ?_
  refine Prog.preserves_bind (Prog.preserves_modify fun _ _ => ?_) fun _ => ?_
  · exact (isDumpHeaderValid_iff.mp hvalid).2.1
  · refine Prog.preserves_bind Prog.preserves_get fun _ => ?_
    exact Prog.preserves_bind (Prog.preserves_lift _) fun _ => preserves_writeDumpHeader _

theorem preserves_coreAction : Prog.Preserves HasVector (coreAction P dev fuel) := by
  refine Prog.preserves_bind Prog.preserves_get fun m => ?_
  split
  · exact preserves_diskStoreDump
  · split
    · refine Prog.preserves_bind ?_ fun _ => ?_
      · exact Prog.preserves_bind preserves_readDumpHeader fun _ =>
          Prog.preserves_bind Prog.preserves_get fun _ => Prog.preserves_pure _
      · exact Prog.preserves_bind (Prog.preserves_check _ _) fun _ => preserves_diskSwitchDump
    · exact Prog.preserves_throw _

/-! ## The action returns -/

theorem returns_blkRequest (move : Machine → Machine) : Prog.Returns (blkRequest dev move) :=
  Prog.returns_bind Prog.returns_get fun _ => Prog.returns_bind (Prog.returns_modify _) fun _ =>
    Prog.returns_bind (Prog.returns_check _ _) fun _ => Prog.returns_modify _

theorem returns_diskStoreDump : Prog.Returns (diskStoreDump P dev) := by
  refine Prog.returns_bind Prog.returns_get fun m => ?_
  refine Prog.returns_bind (Prog.returns_lift _) fun header => ?_
  refine Prog.returns_bind (Prog.returns_forEach _ fun i _ => ?_) fun _ => returns_blkRequest _
  exact returns_blkRequest _

/-- Each iteration leaves one piece less between the address and the end, as long as the address
does not wrap. -/
theorem returns_switchChunks (stop : UInt64) : ∀ (fuel : ℕ) (addr sector : UInt64),
    addr.toNat + pieceCount SWITCH_BUF_SIZE (stop.toNat - addr.toNat) * SWITCH_BUF_SIZE < 2 ^ 64 →
    pieceCount SWITCH_BUF_SIZE (stop.toNat - addr.toNat) ≤ fuel →
    Prog.Returns (switchChunks P dev stop fuel addr sector) := by
  intro fuel
  induction fuel with
  | zero =>
    intro addr sector _ hfuel
    have hstop : ¬ addr < stop := by
      intro hlt
      rw [UInt64.lt_iff_toNat_lt] at hlt
      rw [pieceCount_succ (by decide) (by omega)] at hfuel
      omega
    rw [switchChunks_stop hstop]
    exact Prog.returns_pure ()
  | succ fuel ih =>
    intro addr sector hends hfuel
    by_cases hlt : addr < stop
    · have hlt' := UInt64.lt_iff_toNat_lt.mp hlt
      rw [pieceCount_succ (by decide) (by omega), Nat.add_one_mul] at hends
      rw [pieceCount_succ (by decide) (by omega)] at hfuel
      have hnext : (addr + UInt64.ofNat SWITCH_BUF_SIZE).toNat = addr.toNat + SWITCH_BUF_SIZE := by
        rw [toNat_addr_next, Nat.mod_eq_of_lt (by omega)]
      have hleft : stop.toNat - (addr + UInt64.ofNat SWITCH_BUF_SIZE).toNat =
          stop.toNat - addr.toNat - SWITCH_BUF_SIZE := by
        rw [hnext]
        omega
      rw [switchChunks_succ hlt]
      refine Prog.returns_bind (Prog.returns_check _ _) fun _ => Prog.returns_bind ?_ fun _ =>
        ih _ _ ?_ ?_
      · exact Prog.returns_bind (returns_blkRequest _) fun _ => Prog.returns_bind
          (returns_blkRequest _) fun _ => Prog.returns_modify _
      · rw [hleft, hnext]
        omega
      · rw [hleft]
        omega
    · rw [switchChunks_stop hlt]
      exact Prog.returns_pure ()

theorem returns_switchMemoryArea {core : CoreHeader} {i : ℕ} (hends : LoopEnds core i)
    (hfuel : switchFuel ≤ fuel) (sector : UInt32) :
    Prog.Returns (switchMemoryArea P dev fuel ⟨core.ramAreas i, sector⟩) := by
  refine returns_switchChunks _ _ _ _ hends ?_
  have hend := ((core.ramAreas i).start + (core.ramAreas i).size).toNat_lt
  have hspace : SWITCH_BUF_SIZE * (switchFuel + 1) = 2 ^ 64 + SWITCH_BUF_SIZE := by decide
  have hlt : pieceCount SWITCH_BUF_SIZE (switchedSize core i) < switchFuel + 1 :=
    Nat.div_lt_of_lt_mul (by rw [hspace, switchedSize]; omega)
  exact le_trans (Nat.le_of_lt_succ hlt) hfuel

/-- A switch returns if its loops end. -/
theorem diskSwitchDump_returns (hends : LoopsEnd m.core) (hfuel : switchFuel ≤ fuel) :
    ∃ r t, diskSwitchDump P dev fuel m = some (r, t) := by
  cases hread : dev.fails m.issued with
  | true => exact ⟨_, _, diskSwitchDump_stop_read hread⟩
  | false =>
    rw [diskSwitchDump, Prog.bind_ok (readDumpHeader_read hread), Prog.bind_get_apply]
    cases hvalid : isDumpHeaderValid m.tick.core (headerRead P m.disk) with
    | false =>
      rw [check, Prog.bind_check_false rfl]
      exact ⟨_, _, rfl⟩
    | true =>
      obtain ⟨-, -, -, hcount, hareas⟩ := isDumpHeaderValid_iff.mp hvalid
      rw [check, Prog.bind_check_true rfl]
      refine Prog.returns_bind (Prog.returns_forEach _ fun i hi => ?_) (fun _ => ?_) _
      · have hi' : i < m.core.areaCount := by
          rw [List.mem_range, hcount] at hi
          exact hi
        have harea : DumpHeader.areas (headerRead P m.disk) i =
            ⟨m.core.ramAreas i, (DumpHeader.areas (headerRead P m.disk) i).sector⟩ :=
          congrArg (fun area => DiskMemArea.mk area _) (hareas i hi').2
        rw [harea]
        exact returns_switchMemoryArea (hends i hi') hfuel _
      · exact Prog.returns_bind (Prog.returns_modify _) fun _ => Prog.returns_bind Prog.returns_get
          fun _ => Prog.returns_bind (Prog.returns_lift _) fun _ => returns_blkRequest _

/-- The action returns if, for a switch, the loops end. -/
theorem coreAction_returns (P : Platform) (dev : BlkDev) (hmax : m.core.areaCount ≤ MAX_RAM_AREAS)
    (hends : m.core.action = CORE_ACTION_SWITCH.toUInt32 → LoopsEnd m.core)
    (hfuel : switchFuel ≤ fuel) : ∃ r t, coreAction P dev fuel m = some (r, t) := by
  by_cases hstore : m.core.action = CORE_ACTION_STORE.toUInt32
  · rw [coreAction_store hstore]
    exact returns_diskStoreDump m
  · by_cases hswitch : m.core.action = CORE_ACTION_SWITCH.toUInt32
    · cases hread : dev.fails m.issued with
      | true => exact ⟨_, _, coreAction_switch_fail hswitch hread⟩
      | false =>
        rw [coreAction_switch hswitch hmax hread]
        split
        · exact diskSwitchDump_returns (m := m.tick) (hends hswitch) hfuel
        · exact ⟨_, _, rfl⟩
    · exact ⟨_, _, coreAction_other hstore hswitch⟩

/-! ## An execution without a switch -/

/-- Core has no dump to switch to, or has not been asked to. -/
def NoSwitch (m : Machine) : Prop :=
  m.core.action ≠ CORE_ACTION_SWITCH.toUInt32 ∨ isDumpHeaderValid m.core m.disk = false

/-- Memory and the vector are these. -/
def HasMemory (mem : ℕ → UInt8) (v : UInt32) (m : Machine) : Prop :=
  m.mem = mem ∧ m.kernelWakingVector = v

theorem blkRequest_memory {mem : ℕ → UInt8} {v : UInt32} {move : Machine → Machine}
    (h : ∀ m, HasMemory mem v m → HasMemory mem v (move m)) :
    Prog.Preserves (HasMemory mem v) (blkRequest dev move) := by
  rw [blkRequest]
  refine Prog.preserves_bind Prog.preserves_get fun m => ?_
  refine Prog.preserves_bind (Prog.preserves_modify fun _ hs => hs) fun _ => ?_
  exact Prog.preserves_bind (Prog.preserves_check _ _) fun _ => Prog.preserves_modify h

/-- A store writes to the disk only. -/
theorem diskStoreDump_memory {mem : ℕ → UInt8} {v : UInt32} :
    Prog.Preserves (HasMemory mem v) (diskStoreDump P dev) := by
  rw [diskStoreDump]
  refine Prog.preserves_bind Prog.preserves_get fun m => ?_
  refine Prog.preserves_bind (Prog.preserves_lift _) fun header => ?_
  refine Prog.preserves_bind (Prog.preserves_forEach _ fun i _ => ?_) fun _ => ?_
  · exact blkRequest_memory fun _ hs => hs
  · exact blkRequest_memory fun _ hs => hs

/-- **Core without a switch** leaves memory alone and has no vector but the saved one; where it has been
asked for a switch, it leaves the disk alone as well. -/
theorem coreMain_noSwitch (hno : NoSwitch m) (hrun : coreMain P dev fuel m = some t) :
    t.mem = m.mem ∧ (t.kernelWakingVector = 0 ∨ t.kernelWakingVector = m.core.savedVector m.mem) ∧
      (m.core.action = CORE_ACTION_SWITCH.toUInt32 → t.disk = m.disk) := by
  by_cases hearly : isCoreHeaderValid m.core = false ∨ m.core.savedVector m.mem = 0 ∨
      dev.initOk = false
  · obtain ⟨v, hv, hmain⟩ := @coreMain_early P dev fuel m hearly
    obtain rfl := Option.some.inj (hrun.symm.trans hmain)
    exact ⟨rfl, hv, fun _ => rfl⟩
  · simp only [not_or, Bool.not_eq_false] at hearly
    obtain ⟨hvalid, hsaved, hinit⟩ := hearly
    rw [coreMain_eq hvalid hsaved hinit, Option.map_eq_some_iff] at hrun
    obtain ⟨⟨r, t⟩, hrun, rfl⟩ := hrun
    by_cases haction : m.core.action = CORE_ACTION_SWITCH.toUInt32
    · -- a switch: the dump cannot be read, or is none
      have hticked : t = m.found.tick := by
        cases hfail : dev.fails m.found.issued with
        | true =>
          rw [coreAction_switch_fail (m := m.found) haction hfail] at hrun
          exact (congrArg Prod.snd (Option.some.inj hrun)).symm
        | false =>
          have hdump : isDumpHeaderValid m.found.core m.found.disk = false :=
            hno.resolve_left (not_not_intro haction)
          rw [coreAction_switch (m := m.found) haction (ramAreasSize_le hvalid) hfail,
            if_neg (by simp [hdump])] at hrun
          exact (congrArg Prod.snd (Option.some.inj hrun)).symm
      rw [hticked]
      exact ⟨rfl, Or.inr rfl, fun _ => rfl⟩
    · by_cases hstore : m.core.action = CORE_ACTION_STORE.toUInt32
      · rw [coreAction_store (m := m.found) hstore] at hrun
        obtain ⟨hmem, hv⟩ : t.mem = m.mem ∧ t.kernelWakingVector = m.core.savedVector m.mem :=
          diskStoreDump_memory m.found r t ⟨rfl, rfl⟩ hrun
        exact ⟨hmem, Or.inr hv, fun h => absurd h haction⟩
      · rw [coreAction_other (m := m.found) hstore haction] at hrun
        obtain rfl := congrArg Prod.snd (Option.some.inj hrun)
        exact ⟨rfl, Or.inr rfl, fun _ => rfl⟩

/-! ## Core resumes a kernel -/

/-- With a header that core accepts and a vector in the FACS, core resumes a kernel. -/
theorem coreMain_resumes (P : Platform) (dev : BlkDev) (hvalid : isCoreHeaderValid m.core = true)
    (hends : m.core.action = CORE_ACTION_SWITCH.toUInt32 → LoopsEnd m.core)
    (hfuel : switchFuel ≤ fuel) (hsaved : m.core.savedVector m.mem ≠ 0) :
    ∃ t, coreMain P dev fuel m = some t ∧ t.kernelWakingVector ≠ 0 := by
  cases hinit : dev.initOk with
  | false => exact ⟨_, coreMain_noDisk hvalid hsaved hinit, hsaved⟩
  | true =>
    obtain ⟨r, t, haction⟩ := coreAction_returns P dev (m := m.found) (ramAreasSize_le hvalid) hends
      hfuel
    refine ⟨t, ?_, preserves_coreAction m.found r t hsaved haction⟩
    rw [coreMain_eq hvalid hsaved hinit, haction]
    rfl

end SwitchOs
