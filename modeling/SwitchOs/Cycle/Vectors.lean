import SwitchOs.Cycle.Machine

/-!
# Only kernels are resumed

With devices that may fail any request, RAM areas and dumps can be mixed up, but vectors cannot: the
one that core puts back is the saved one or the one of the dump, the one in a dump's header is always
one that was saved, and the one saved was a kernel's. `resumes_written` says so of every run.
-/

namespace SwitchOs

open CoreAction DumpHeader

variable {P : Platform} {dev : BlkDev} {fuel : ℕ} {core : CoreHeader} {V : UInt32 → Prop}

/-- A dump on the disk is one for the RAM areas, with a vector in `V`. -/
def DumpIn (core : CoreHeader) (V : UInt32 → Prop) (disk : ℕ → UInt8) : Prop :=
  isDumpHeaderValid core disk = false ∨ ∃ v, V v ∧ LaidOut core v disk

theorem DumpIn.congr {disk disk' : ℕ → UInt8} (h : DumpIn core V disk)
    (hmax : core.areaCount ≤ MAX_RAM_AREAS) (hbytes : ∀ x < DUMP_HEADER_SIZE, disk' x = disk x) :
    DumpIn core V disk' := by
  rcases h with hnone | ⟨v, hv, hl⟩
  · exact Or.inl (by rw [isDumpHeaderValid_congr hmax hbytes, hnone])
  · exact Or.inr ⟨v, hv, hl.congr hmax hbytes⟩

theorem dumpIn_setAction (action : UInt32) {disk : ℕ → UInt8} :
    DumpIn (core.setAction action) V disk ↔ DumpIn core V disk := by
  simp only [DumpIn, isDumpHeaderValid_setAction, laidOut_setAction]

/-- Core's own header is `core`; the saved vector, the one it will put back and that of a dump are in
`V`. -/
structure VectorsIn (core : CoreHeader) (V : UInt32 → Prop) (m : Machine) : Prop where
  header : m.core = core
  saved : V (core.savedVector m.mem)
  vector : V m.kernelWakingVector
  dump : DumpIn core V m.disk

/-! ## Requests -/

theorem blkRequest_vectors {move : Machine → Machine}
    (h : ∀ m, VectorsIn core V m → VectorsIn core V (move m)) :
    Prog.Preserves (VectorsIn core V) (blkRequest dev move) := by
  rw [blkRequest]
  refine Prog.preserves_bind Prog.preserves_get fun m => ?_
  refine Prog.preserves_bind (Prog.preserves_modify fun _ hs => ?_) fun _ => ?_
  · exact ⟨hs.header, hs.saved, hs.vector, hs.dump⟩
  · exact Prog.preserves_bind (Prog.preserves_check _ _) fun _ => Prog.preserves_modify h

/-- A write behind the header leaves the dump's vector alone. -/
theorem VectorsIn.write {m : Machine} (h : VectorsIn core V m)
    (hmax : core.areaCount ≤ MAX_RAM_AREAS) {pos addr size : ℕ} (hpos : DUMP_HEADER_SIZE ≤ pos) :
    VectorsIn core V { m with disk := blit m.disk pos m.mem addr size } :=
  ⟨h.header, h.saved, h.vector,
    h.dump.congr hmax fun _ hx => blit_outside (Or.inl (lt_of_lt_of_le hx hpos))⟩

/-- A header for the RAM areas is written. -/
theorem writeDumpHeader_vectors (hmax : core.areaCount ≤ MAX_RAM_AREAS) {header : DumpHeader}
    {v : UInt32} (hv : V v) (hl : LaidOut core v header) :
    Prog.Preserves (VectorsIn core V) (writeDumpHeader dev header) :=
  blkRequest_vectors fun m hm =>
    ⟨hm.header, hm.saved, hm.vector, Or.inr ⟨v, hv, hl.written hmax m.disk⟩⟩

/-- Memory changes, but not the saved vector. -/
theorem VectorsIn.move {m : Machine} (h : VectorsIn core V m) {mem : ℕ → UInt8}
    (hmem : ∀ x, core.InSavedVector x → mem x = m.mem x) :
    VectorsIn core V { m with mem := mem } := by
  refine ⟨h.header, ?_, h.vector, h.dump⟩
  rw [savedVector_congr hmem]
  exact h.saved

/-! ## A store -/

theorem storeArea_vectors (hg : Geometry P.sizes core) {header : DumpHeader} {v : UInt32}
    (hl : LaidOut core v header) {i : ℕ} (hi : i < core.areaCount) :
    Prog.Preserves (VectorsIn core V) (storeArea dev (header.areas i)) := by
  refine blkRequest_vectors fun m hm => hm.write hg.count_le ?_
  rw [hl.areas i hi, toNat_sector hg.aligned hg.fits hi]
  exact header_le_extentPos hg.aligned (le_of_lt hi)

theorem diskStoreDump_vectors (hg : Geometry P.sizes core) (hV : ∀ v, V v → v ≠ 0) :
    Prog.Preserves (VectorsIn core V) (diskStoreDump P dev) := by
  rw [diskStoreDump]
  refine Prog.preserves_get_bind fun m hm => ?_
  obtain ⟨header, hfill, hl⟩ := fillDumpHeader_laidOut P.stack
    (findOriginalWakingVector_ok (hV _ hm.saved)) hg.count_le hg.aligned
  rw [hm.header, hfill]
  refine Prog.preserves_lift_bind fun header' hheader => ?_
  obtain rfl := Except.ok.inj hheader
  refine Prog.preserves_bind (Prog.preserves_forEach _ fun i hi => ?_) fun _ =>
    writeDumpHeader_vectors hg.count_le hm.saved hl
  rw [List.mem_range, hl.toNat_areasSize] at hi
  exact storeArea_vectors hg hl hi

/-! ## A switch -/

theorem chunkBody_vectors (hg : Geometry P.sizes core) {c : Chunk} (hc : c ∈ allChunks core) :
    Prog.Preserves (VectorsIn core V) (chunkBody P dev c) := by
  have hpos : sectorPos (c.pos / VIRTIO_BLK_SECTOR_SIZE) = c.pos :=
    sectorPos_div ((switchable_allChunks (P := P) hg).pos_mod c hc)
  have hlen : c.len ≤ SWITCH_BUF_SIZE := (switchable_allChunks (P := P) hg).len_le c hc
  rw [chunkBody, switchChunk]
  refine Prog.preserves_bind (blkRequest_vectors fun m hm => ?_) fun _ => ?_
  · -- `switch_buf` is core's
    refine hm.move fun x hx => blit_outside ?_
    have hbuf : ¬ P.InSwitchBuf x := fun hin => hg.facs_apart_core x hx.inFacs hin.coreMemory
    unfold Platform.InSwitchBuf at hbuf
    omega
  refine Prog.preserves_bind (blkRequest_vectors fun m hm => hm.write hg.count_le ?_) fun _ => ?_
  · rw [hpos]
    exact header_le_of_mem_allChunks hg.aligned hc
  · -- the chunk lies in a RAM area
    refine Prog.preserves_modify fun m hm => hm.move fun x hx => copyCells_outside _ _ _ ?_
    by_contra hin
    exact hg.apart_facs x (inRam_of_mem_allChunks hc ⟨by omega, by omega⟩) hx.inFacs

theorem finishSwitch_vectors (hg : Geometry P.sizes core) {header : DumpHeader} {v : UInt32} (hv : V v)
    (hl : LaidOut core v header) : Prog.Preserves (VectorsIn core V) (finishSwitch dev header) := by
  rw [finishSwitch]
  refine Prog.preserves_bind (Prog.preserves_modify fun m hm => ?_) fun _ => ?_
  · exact ⟨hm.header, hm.saved, by rw [hl.wakingVector]; exact hv, hm.dump⟩
  refine Prog.preserves_get_bind fun m hm => Prog.preserves_lift_bind fun saved hsaved => ?_
  have hval : saved = core.savedVector m.mem := by
    rw [hm.header, findOriginalWakingVector] at hsaved
    split_ifs at hsaved with hz
    exact (Except.ok.inj hsaved).symm
  refine writeDumpHeader_vectors hg.count_le (v := saved) ?_ (hl.setWakingVector saved)
  rw [hval]
  exact hm.saved

/-- A switch to a dump, with whatever requests failing. -/
theorem diskSwitchDump_vectors (hg : Geometry P.sizes core) (hfit : ChunksFit core)
    (hfuel : switchFuel ≤ fuel) (hV : ∀ v, V v → v ≠ 0) {m t : Machine} {r : Except Err Unit}
    (hm : VectorsIn core V m) (hdump : isDumpHeaderValid core m.disk = true)
    (hrun : diskSwitchDump P dev fuel m = some (r, t)) : VectorsIn core V t := by
  obtain hnone | ⟨v, hv, hl⟩ := hm.dump
  · rw [hnone] at hdump
    cases hdump
  have htick : VectorsIn core V m.tick := ⟨hm.header, hm.saved, hm.vector, hm.dump⟩
  cases hfail : dev.fails m.issued with
  | true =>
    rw [diskSwitchDump_stop_read hfail] at hrun
    obtain rfl : m.tick = t := congrArg Prod.snd (Option.some.inj hrun)
    exact htick
  | false =>
    obtain ⟨header, hlh, heq⟩ :=
      diskSwitchDump_eq (P := P) hm.header hg hfit hfuel hl (hV v hv) hfail
    rw [heq] at hrun
    have hbody : Prog.Preserves (VectorsIn core V) (Prog.forEach (chunkBody P dev)
        (allChunks core) >>= fun _ => finishSwitch dev header) :=
      Prog.preserves_bind (Prog.preserves_forEach _ fun c hc => chunkBody_vectors hg hc) fun _ =>
        finishSwitch_vectors hg hv hlh
    exact hbody m.tick r t htick hrun

/-- **An execution of core**, with whatever requests failing, puts back the saved vector or that of the
dump, and leaves no other one in a dump. -/
theorem coreMain_vectors (hvalid : isCoreHeaderValid core = true) (hg : Geometry P.sizes core)
    (hfuel : switchFuel ≤ fuel) (hV : ∀ v, V v → v ≠ 0) {m t : Machine} (hheader : m.core = core)
    (hsaved : V (core.savedVector m.mem)) (hdump : DumpIn core V m.disk)
    (hfit : core.action = CORE_ACTION_SWITCH.toUInt32 → isDumpHeaderValid core m.disk = true →
      ChunksFit core)
    (hrun : coreMain P dev fuel m = some t) :
    V t.kernelWakingVector ∧ DumpIn core V t.disk := by
  have hvalid' : isCoreHeaderValid m.core = true := by rw [hheader, hvalid]
  have hsaved' : m.core.savedVector m.mem ≠ 0 := by
    rw [hheader]
    exact hV _ hsaved
  have hfound : VectorsIn core V m.found :=
    ⟨hheader, hsaved, by rw [Machine.found, hheader]; exact hsaved, hdump⟩
  cases hinit : dev.initOk with
  | false =>
    rw [coreMain_noDisk hvalid' hsaved' hinit] at hrun
    rw [← Option.some.inj hrun]
    exact ⟨hfound.vector, hfound.dump⟩
  | true =>
    rw [coreMain_eq hvalid' hsaved' hinit, Option.map_eq_some_iff] at hrun
    obtain ⟨⟨r, t⟩, hrun, rfl⟩ := hrun
    have hend : VectorsIn core V t := by
      by_cases hstore : m.found.core.action = CORE_ACTION_STORE.toUInt32
      · rw [coreAction_store hstore] at hrun
        exact diskStoreDump_vectors hg hV m.found r t hfound hrun
      by_cases hswitch : m.found.core.action = CORE_ACTION_SWITCH.toUInt32
      · have htick : VectorsIn core V m.found.tick :=
          ⟨hfound.header, hfound.saved, hfound.vector, hfound.dump⟩
        cases hfail : dev.fails m.found.issued with
        | true =>
          rw [coreAction_switch_fail hswitch hfail] at hrun
          obtain rfl : m.found.tick = t := congrArg Prod.snd (Option.some.inj hrun)
          exact htick
        | false =>
          rw [coreAction_switch hswitch (ramAreasSize_le hvalid') hfail] at hrun
          split_ifs at hrun with hdumped
          · rw [hfound.header] at hdumped hswitch
            exact diskSwitchDump_vectors hg (hfit hswitch hdumped) hfuel hV htick hdumped hrun
          · obtain rfl : m.found.tick = t := congrArg Prod.snd (Option.some.inj hrun)
            exact htick
      · rw [coreAction_other hstore hswitch] at hrun
        obtain rfl : m.found = t := congrArg Prod.snd (Option.some.inj hrun)
        exact hfound
    exact ⟨hend.vector, hend.dump⟩

/-! ## Runs -/

section Runs

variable {F : Firmware core.facs} {D : BlkDev → Prop} {s t : Cycle} {e : CycleEvent}

/-- The vectors of the machine and of the dump on its disk are in `V`. -/
structure Traced (core : CoreHeader) (V : UInt32 → Prop) (s : Cycle) : Prop where
  wakes : Wakes core V s
  dump : DumpIn core V s.machine.disk

/-- The step lemma. -/
theorem Traced.step (hvalid : isCoreHeaderValid core = true) (hg : Geometry P.sizes core)
    (hfuel : switchFuel ≤ fuel) (hspts : SparesRam core F) (hV : ∀ v, V v → KernelVector v)
    (h : Traced core V s) (hwrite : ∀ v, e = .hook (.write v) → KernelVector v → V v)
    (hstep : Where (Orderly core) (CycleStep P fuel core F D) s e t) : Traced core V t := by
  obtain ⟨horderly, hstep⟩ := hstep
  cases hstep with
  | execute mem hawake hmem => exact ⟨h.wakes.execute hawake hmem, h.dump⟩
  | @hook e w hawake hwake =>
    have hin : ∀ v, e = .write v → V v := by
      rintro v rfl
      cases hwake with
      | write hv hne => exact hwrite v rfl ⟨hv, hne⟩
    refine ⟨h.wakes.hook hawake horderly hin hwake, ?_⟩
    show DumpIn core V w.machine.disk
    rw [hwake.disk]
    exact h.dump
  | sleep _ => exact ⟨h.wakes.sleep horderly, h.dump⟩
  | @core dev U request m hs hwaking hdev hcore hexec =>
    have hsaved : V (core.savedVector s.machine.mem) := h.wakes.saved hV hs hwaking
    obtain ⟨u, hrun, hexit⟩ := Option.bind_eq_some_iff.mp hexec
    obtain ⟨hvector, hdump⟩ := coreMain_vectors (isCoreHeaderValid_setAction hvalid
        (isCoreHeaderActionValid_toUInt32 request)) (hg.setAction request.toUInt32) hfuel
      (fun v hv => (hV v hv).1) hcore hsaved ((dumpIn_setAction _).mpr h.dump)
      (fun haction hvalid' => horderly (by cases request <;> first | rfl | cases haction)
        (by rwa [isDumpHeaderValid_setAction] at hvalid')) hrun
    obtain ⟨m', hexec', hleaves⟩ := coreExecution_spec (U := U) hg hspts (by rw [hcore]; rfl) hrun
    obtain rfl : m = m' := Option.some.inj (hexec.symm.trans hexec')
    refine ⟨h.wakes.served_core (hleaves.header.trans (coreMain_core hrun)) ?_, ?_⟩
    · rw [hleaves.waking (hV _ hvector).1]
      exact hvector
    · show DumpIn core V m.disk
      rw [hleaves.disk]
      exact (dumpIn_setAction _).mp hdump
  | resume _ _ => exact ⟨h.wakes.resume, h.dump⟩

/-- **Only kernels are resumed.** In every orderly run from a disk without a dump, on devices that may
fail any request, the firmware resumes only vectors that a kernel has written in this run: it never jumps
to zero, and never to a vector that nobody asked for. -/
theorem resumes_written (P : Platform) (hspts : SparesRam core F)
    (hvalid : isCoreHeaderValid core = true) (hg : Geometry P.sizes core) (hfuel : switchFuel ≤ fuel)
    {m : Machine} {request : CoreAction} (hcore : m.core = core.setAction request.toUInt32)
    (hmagic : DumpHeader.magic m.disk ≠ CORE_DISK_DUMP_MAGIC) {es : List CycleEvent}
    (hrun : Runs (Where (Orderly core) (CycleStep P fuel core F D)) ⟨⟨m, none⟩, false, false⟩ es s)
    {v : UInt32} (hstep : CycleStep P fuel core F D s (.resume v) t) :
    v ≠ 0 ∧ CycleEvent.hook (.write v) ∈ es := by
  have hV : ∀ v, KernelVector v ∧ CycleEvent.hook (.write v) ∈ es → KernelVector v :=
    fun _ hv => hv.1
  have hinit : Traced core (fun v => KernelVector v ∧ CycleEvent.hook (.write v) ∈ es)
      ⟨⟨m, none⟩, false, false⟩ := by
    refine ⟨⟨⟨request, hcore⟩, ⟨by rw [hcore]; rfl, nofun⟩, nofun, nofun, nofun⟩, Or.inl ?_⟩
    exact storedOn_none hmagic
  have htraced := (hrun.where_event (C := (· ∈ es)) fun _ he => he).invariant
    (I := Traced core fun v => KernelVector v ∧ CycleEvent.hook (.write v) ∈ es)
    (fun _ _ _ h hwhere => h.step hvalid hg hfuel hspts hV
      (fun v he hv => ⟨hv, he ▸ hwhere.1⟩) hwhere.2) hinit
  cases hstep with
  | resume hs hne =>
    have hin : KernelVector (core.wakingVector s.machine.mem) ∧
        CycleEvent.hook (.write (core.wakingVector s.machine.mem)) ∈ es := by
      cases hserved : s.served with
      | true => exact htraced.wakes.served hs hserved
      | false =>
        exact htraced.wakes.written _ (htraced.wakes.unserved hs hserved hne)
    exact ⟨hin.1.1, hin.2⟩

/-- An OS asks for a store and suspends, core cannot write the header of the dump, and the kernel is
resumed. -/
theorem resumes_written_failing :
    ∃ os s t, Runs (Where (Orderly (onePage 0x100000)) (CycleStep samplePlatform switchFuel
        (onePage 0x100000) (quietFirmware 0x3000) (· = .failAt 1)))
        ⟨⟨sampleMachine (onePage 0x100000), none⟩, false, false⟩
        (storingEvents ++ [.core os CORE_ACTION_STORE 0x9000]) s ∧
      CycleStep samplePlatform switchFuel (onePage 0x100000) (quietFirmware 0x3000) (· = .failAt 1) s
        (.resume 0x9000) t ∧
      (0x9000 : UInt32) ≠ 0 ∧ CycleEvent.hook (.write 0x9000) ∈
        storingEvents ++ [.core os CORE_ACTION_STORE 0x9000] := by
  have hg : Geometry samplePlatform.sizes (onePage 0x100000) := onePage_geometry (by decide)
  have hcore : (sampleMachine (onePage 0x100000)).core =
      (onePage 0x100000).setAction CORE_ACTION_NOOP.toUInt32 := rfl
  have hasked : Runs (Where (Orderly (onePage 0x100000)) (CycleStep samplePlatform switchFuel
      (onePage 0x100000) (quietFirmware 0x3000) (· = .failAt 1)))
      ⟨⟨sampleMachine (onePage 0x100000), none⟩, false, false⟩ storingEvents
      (storingCycle (onePage 0x100000) (quietFirmware 0x3000) (sampleMachine (onePage 0x100000))) :=
    runs_storingEvents _
  have hvectors : (onePage 0x100000).wakingVector (storingCycle (onePage 0x100000)
        (quietFirmware 0x3000) (sampleMachine (onePage 0x100000))).machine.mem =
          CORE_WAKEUP_PHYS_ADDR ∧
      storePage.savedVector (storingCycle (onePage 0x100000) (quietFirmware 0x3000)
        (sampleMachine (onePage 0x100000))).machine.mem = 0x9000 :=
    storingCycle_vectors _ rfl
  have hsaved := hvectors.2
  -- the store fails, and the vector is the saved one
  obtain ⟨u, hmain, hne⟩ := coreMain_resumes (m := (storingCycle (onePage 0x100000)
    (quietFirmware 0x3000) (sampleMachine (onePage 0x100000))).machine) samplePlatform (.failAt 1)
    storePage_valid (fun h => absurd h (by decide)) le_rfl
    (show storePage.savedVector _ ≠ 0 by rw [hsaved]; decide)
  have hv : u.kernelWakingVector = 0x9000 := by
    rw [← hsaved]
    exact (coreMain_noSwitch (Or.inl (by decide)) hmain).2.1.resolve_left hne
  obtain ⟨m, hstep, -, hwaking⟩ := step_storingCycle (D := (· = .failAt 1)) hg
    (fun _ _ _ _ => rfl) rfl hcore hmain hv
  have hrun := hasked.snoc hstep
  have hresume : CycleStep samplePlatform switchFuel (onePage 0x100000) (quietFirmware 0x3000)
      (· = .failAt 1) ⟨⟨m, none⟩, true, true⟩ (.resume ((onePage 0x100000).wakingVector m.mem))
        ⟨⟨m, none⟩, false, false⟩ :=
    .resume rfl (by rw [show Cycle.machine _ = m from rfl, hwaking]; decide)
  rw [hwaking] at hresume
  exact ⟨_, _, _, hrun, hresume, resumes_written samplePlatform (fun _ _ _ _ => rfl) (onePage_valid _)
    hg le_rfl hcore (by decide) hrun hresume⟩

end Runs

end SwitchOs
