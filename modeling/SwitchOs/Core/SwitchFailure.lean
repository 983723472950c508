import SwitchOs.Core.TwoSlot
import SwitchOs.Core.Walk

/-!
# A switch whose block request fails

`core_main` has no way back: where a request of `disk_switch_dump` fails, the kernel is resumed on
the RAM areas as they are by then. `coreMain_switch_stop` says what they are: the chunks before the
failing request have been exchanged, and the vector of the dump is handed out only when nothing but
the header is left to write. From this follows exactly when both OSes survive
(`switch_failure_keeps_iff`): if the exchanged chunks were equal to begin with, or the remaining ones
and the vectors were. A loop whose address wraps is followed up to that point.
-/

namespace SwitchOs

open CoreAction

variable {S : CoreSizes} {P : Platform} {dev : BlkDev} {fuel : ℕ} {core : CoreHeader}
  {m m' : Machine}

/-- The disk has been written by a complete `disk_store_dump` for the RAM areas of `core`. -/
def WrittenByStore (P : Platform) (core : CoreHeader) (disk : ℕ → UInt8) : Prop :=
  ∃ m m' : Machine, m.core = core.setAction CORE_ACTION_STORE.toUInt32 ∧
    diskStoreDump P .exact m = some (.ok (), m') ∧ m'.disk = disk

theorem diskStoreDump_savedVector (hrun : diskStoreDump P dev m = some (.ok (), m')) :
    m.core.savedVector m.mem ≠ 0 := by
  intro hz
  have herr : findOriginalWakingVector m.core m.mem = .error .ERR_INVALID := if_pos hz
  have hfill : fillDumpHeader m.core m.mem P.stack = .error .ERR_INVALID := by
    simp only [fillDumpHeader, herr, bind, Except.bind]
  rw [diskStoreDump, Prog.bind_get_apply, hfill, Prog.lift_error_apply] at hrun
  cases hrun

/-- A disk written by a store holds what was in RAM, and a vector. -/
theorem WrittenByStore.holds (h : WrittenByStore P core m.disk) (hg : Geometry P.sizes core) :
    ∃ image v, Holds core image v m.disk ∧ v ≠ 0 := by
  obtain ⟨m₀, m₁, hcore, hrun, hdisk⟩ := h
  have hsaved := diskStoreDump_savedVector hrun
  have hg' := hg.setAction CORE_ACTION_STORE.toUInt32
  rw [hcore] at hsaved
  obtain ⟨m₂, hrun', -, -, -, hholds⟩ := diskStoreDump_ok P hcore hg'.count_le
    hg'.aligned hg'.fits hsaved fun _ _ => BlkDev.exact_fails _
  obtain rfl : m₁ = m₂ := by
    rw [hrun] at hrun'
    simpa using hrun'
  rw [hdisk] at hholds
  exact ⟨_, _, (holds_setAction _).mp hholds, hsaved⟩

/-! ## The chunks after a store -/

/-- A disk laid out by a store has its extents where the layout puts them. -/
theorem LaidOut.entryPos {v : UInt32} {disk : ℕ → UInt8} (hl : LaidOut core v disk)
    (hg : Geometry S core) {i : ℕ} (hi : i < core.areaCount) :
    entryPos disk i = extentPos core i := by
  rw [SwitchOs.entryPos, DumpHeader.sector, hl.areas i hi, toNat_sector hg.aligned hg.fits hi,
    extentPos]

theorem LaidOut.onDisk {v : UInt32} {disk : ℕ → UInt8} (hl : LaidOut core v disk)
    (hg : Geometry S core) (hv : v ≠ 0) : DumpOnDisk S core disk := by
  refine hg.dumpOnDisk (hl.valid hv hg.nonempty hg.aligned)
    (extentsApart_of_sectorOf hl.toNat_areasSize (fun i hi => ?_) fun i hi => ?_)
  · rw [hl.areas i hi]
  · rw [DumpHeader.sector, hl.areas i hi, toNat_sector hg.aligned hg.fits hi]

/-- The chunks that a switch exchanges before the address of its loop wraps. -/
abbrev soundChunks (core : CoreHeader) : List Chunk := issuedChunks core (extentPos core)

theorem LaidOut.issuedChunks {v : UInt32} {disk : ℕ → UInt8} (hl : LaidOut core v disk)
    (hg : Geometry S core) : issuedChunks core (SwitchOs.entryPos disk) = soundChunks core := by
  refine upToFirst_congr fun i hi => ?_
  rw [areaWalk, areaWalk, hl.entryPos hg (List.mem_range.mp hi)]

/-- They are chunks of the areas. -/
theorem soundChunks_subset (hg : Geometry S core) : soundChunks core ⊆ allChunks core := by
  intro c hc
  obtain ⟨i, hi, hci⟩ := mem_issuedChunks hc
  refine List.mem_flatMap.mpr ⟨i, List.mem_range.mpr hi, ?_⟩
  rcases Nat.eq_or_lt_of_le (hg.no_wrap i hi) with htop | hlt
  · rw [areaWalk, switchedSize_top htop, chunksOf, pieces_zero] at hci
    cases hci
  · rwa [areaWalk, switchedSize_eq hlt] at hci

/-- The chunks of the areas that `pre` leaves out. -/
def chunksLeft (core : CoreHeader) (pre : List Chunk) : List Chunk :=
  (allChunks core).filter fun c => c ∉ pre

section Left

variable {pre : List Chunk}

theorem mem_chunksLeft {c : Chunk} : c ∈ chunksLeft core pre ↔ c ∈ allChunks core ∧ c ∉ pre := by
  rw [chunksLeft, List.mem_filter, decide_eq_true_iff]

theorem forall_chunks_iff (hsub : pre ⊆ allChunks core) {p : Chunk → Prop} :
    (∀ c ∈ allChunks core, p c) ↔ (∀ c ∈ pre, p c) ∧ ∀ c ∈ chunksLeft core pre, p c := by
  constructor
  · exact fun h => ⟨fun c hc => h c (hsub hc), fun c hc => h c (mem_chunksLeft.mp hc).1⟩
  · intro ⟨hpre, hleft⟩ c hc
    by_cases hin : c ∈ pre
    · exact hpre c hin
    · exact hleft c (mem_chunksLeft.mpr ⟨hc, hin⟩)

theorem separate_chunksLeft (hg : Geometry S core) (hsub : pre ⊆ allChunks core) {c : Chunk}
    (hc : c ∈ chunksLeft core pre) : ∀ d ∈ pre, d.Separate c := by
  intro d hd
  obtain ⟨hall, hnot⟩ := mem_chunksLeft.mp hc
  have hne : d ≠ c := fun h => hnot (h ▸ hd)
  have hsymm : Std.Symm Chunk.Separate := ⟨fun _ _ => Chunk.Separate.symm⟩
  exact (allChunks_pairwise hg).forall (hsub hd) hall hne

end Left

/-! ## Where the switch stops -/

/-- The number of chunks exchanged before request `k` of `disk_switch_dump`, counted from 1. -/
def chunksBefore (k : ℕ) : ℕ := (k - 2) / 2

/-- The requests before the address of the loop wraps, all of them if it never does: one for the
header, two for each chunk, and one for the header again. -/
def soundRequests (core : CoreHeader) : ℕ :=
  1 + 2 * (soundChunks core).length + if LoopsEnd core then 1 else 0

/-- Request `k`, if it is not the first, reads or writes the chunk after `chunksBefore k` others. -/
theorem request_eq_chunksBefore {k : ℕ} (hk : 1 < k) :
    k = 2 + 2 * chunksBefore k ∨ k = 3 + 2 * chunksBefore k := by
  unfold chunksBefore
  omega

/-- Where a switch is asked for and the dump is valid, core resumes the kernel on what
`disk_switch_dump` leaves. -/
theorem coreMain_switch_eq (hvalid : isCoreHeaderValid core = true) (hg : Geometry P.sizes core)
    (hcore : m.core = core) (haction : core.action = CORE_ACTION_SWITCH.toUInt32)
    (hsaved : core.savedVector m.mem ≠ 0) (hdump : isDumpHeaderValid core m.disk = true)
    (hinit : dev.initOk = true) (hread : dev.fails 0 = false) :
    coreMain P dev fuel m = (diskSwitchDump P dev fuel m.found.tick).map Prod.snd := by
  subst hcore
  have hdump' : isDumpHeaderValid m.found.core m.found.disk = true := hdump
  rw [coreMain_eq hvalid hsaved hinit,
    coreAction_switch (m := m.found) haction hg.count_le hread, if_pos hdump']

section Stop

variable {v : UInt32} {k : ℕ}

/-- A switch exchanges the sound chunks, and finishes if its loops end. -/
theorem diskSwitchDump_sound (P : Platform) (dev : BlkDev) (hcore : m.core = core) (hg : Geometry P.sizes core)
    (hfuel : switchFuel ≤ fuel) (hl : LaidOut core v m.disk) (hv : v ≠ 0)
    (hread : dev.fails m.issued = false) : ∃ rest : Prog Err Machine Unit,
      diskSwitchDump P dev fuel m =
        (Prog.forEach (chunkBody P dev) (soundChunks core) >>= fun _ => rest) m.tick ∧
      (LoopsEnd core → rest = finishSwitch dev (headerRead P m.disk)) := by
  subst hcore
  rw [← hl.issuedChunks hg]
  exact diskSwitchDump_walk (hl.onDisk hg hv) hfuel hread

theorem switchable_soundChunks (hg : Geometry P.sizes core) (hl : LaidOut core v m.disk)
    (hv : v ≠ 0) : Switchable P (soundChunks core) := by
  rw [← hl.issuedChunks hg]
  exact switchable_issuedChunks (hl.onDisk hg hv)

/-- The request that fails reads or writes the chunk after `chunksBefore k` others. -/
theorem diskSwitchDump_stop_chunk (hcore : m.core = core) (hg : Geometry P.sizes core)
    (hfuel : switchFuel ≤ fuel) (hl : LaidOut core v m.disk) (hv : v ≠ 0) (hissued : m.issued = 1)
    (hk : 1 < k) (hk' : k < 2 + 2 * (soundChunks core).length)
    (hok : ∀ r < k, dev.fails r = false) (hfail : dev.fails k = true) :
    ∃ m', diskSwitchDump P dev fuel m = some (.error .ERR_INVALID, m') ∧
      SwitchedUpTo P m ((soundChunks core).take (chunksBefore k)) m' := by
  have hreq := request_eq_chunksBefore hk
  have hj : chunksBefore k < (soundChunks core).length := by omega
  have hsplit : soundChunks core = (soundChunks core).take (chunksBefore k) ++
      (soundChunks core)[chunksBefore k] :: (soundChunks core).drop (chunksBefore k + 1) := by
    rw [List.getElem_cons_drop, List.take_append_drop]
  have hlen : ((soundChunks core).take (chunksBefore k)).length = chunksBefore k := by
    rw [List.length_take]
    omega
  have hs := switchable_soundChunks (P := P) hg hl hv
  rw [hsplit] at hs
  obtain ⟨t, hloop, hsw⟩ := @chunkLoop_stop P dev m.tick _ _ _ hs
    (fun r hr => by
      rw [hlen] at hr
      rw [Machine.tick_issued, hissued]
      exact hok _ (by omega))
    (by
      rw [hlen, Machine.tick_issued, hissued]
      rcases hreq with hread | hwrite
      · refine Or.inl ?_
        rwa [show 1 + 1 + 2 * chunksBefore k = k by omega]
      · refine Or.inr ⟨hok _ (by omega), ?_⟩
        rwa [show 1 + 1 + 2 * chunksBefore k + 1 = k by omega])
  obtain ⟨rest, hwalk, -⟩ := diskSwitchDump_sound P dev hcore hg hfuel hl hv
    (hok _ (by omega))
  refine ⟨t, ?_, hsw.of_tick⟩
  rw [hwalk]
  exact Prog.bind_error (by rw [hsplit]; exact hloop)

/-- Where the loops end, the request after the chunks writes the header. If it fails, everything is
exchanged and the vector of the dump handed out, which is still in the header. -/
theorem diskSwitchDump_stop_header (hcore : m.core = core) (hg : Geometry P.sizes core)
    (hends : LoopsEnd core) (hfuel : switchFuel ≤ fuel) (hl : LaidOut core v m.disk) (hv : v ≠ 0)
    (hsaved : core.savedVector m.mem ≠ 0) (hissued : m.issued = 1)
    (hok : ∀ r < 2 + 2 * (soundChunks core).length, dev.fails r = false)
    (hfail : dev.fails (2 + 2 * (soundChunks core).length) = true) :
    ∃ m' t, diskSwitchDump P dev fuel m = some (.error .ERR_INVALID, m') ∧
      SwitchedUpTo P m (soundChunks core) t ∧ m'.mem = t.mem ∧ m'.disk = t.disk ∧
      m'.kernelWakingVector = v := by
  obtain ⟨rest, hwalk, hrest⟩ := diskSwitchDump_sound P dev hcore hg hfuel hl hv
    (by rw [hissued]; exact hok _ (by omega))
  obtain ⟨t, hloop, hsw, ht⟩ := chunkLoop_ok (P := P) (m := m.tick)
    (switchable_soundChunks hg hl hv) fun r hr => by
      rw [Machine.tick_issued, hissued]
      exact hok _ (by omega)
  have hsw := hsw.of_tick
  have hissued' : t.issued = 2 + 2 * (soundChunks core).length := by
    rw [ht, Machine.tick_issued, hissued]
  have hlh : LaidOut core v (headerRead P m.disk) := hl.congr hg.count_le headerRead_bytes
  refine ⟨{ t with kernelWakingVector := v, issued := t.issued + 1 }, t, ?_, hsw, rfl, rfl, rfl⟩
  rw [hwalk, hrest hends, Prog.bind_ok hloop, finishSwitch_fail hlh (hsw.sameCore.trans hcore)
    (by rw [hsw.savedVector_eq (soundChunks_subset hg) hg]; exact hsaved)
    (by rw [hissued']; exact hfail)]

end Stop

/-- **A failed switch.** If request `k` is the first to fail, before the address of the loop wraps,
core resumes the kernel with the chunks before it exchanged; the vector is that of the dump if the
request was the last one. -/
theorem coreMain_switch_stop (hvalid : isCoreHeaderValid core = true) (hg : Geometry P.sizes core)
    (hfuel : switchFuel ≤ fuel) (hcore : m.core = core)
    (haction : core.action = CORE_ACTION_SWITCH.toUInt32) (hsaved : core.savedVector m.mem ≠ 0)
    {image : Image} {v : UInt32} (hold : Holds core image v m.disk) (hv : v ≠ 0) {k : ℕ}
    (hk : 1 ≤ k) (hk' : k ≤ soundRequests core) (hinit : dev.initOk = true)
    (hok : ∀ r < k, dev.fails r = false) (hfail : dev.fails k = true) :
    ∃ m' t, coreMain P dev fuel m = some m' ∧
      SwitchedUpTo P m.found ((soundChunks core).take (chunksBefore k)) t ∧ m'.mem = t.mem ∧
      m'.disk = t.disk ∧ m'.kernelWakingVector =
        if k < 2 + 2 * (soundChunks core).length then core.savedVector m.mem else v := by
  have hmain : coreMain P dev fuel m = (diskSwitchDump P dev fuel m.found.tick).map Prod.snd :=
    coreMain_switch_eq hvalid hg hcore haction hsaved
      (hold.laidOut.valid hv hg.nonempty hg.aligned) hinit (hok 0 (by omega))
  have hvector : m.found.kernelWakingVector = core.savedVector m.mem := by
    rw [Machine.found, hcore]
  have hissued : m.found.tick.issued = 1 := rfl
  rcases Nat.eq_or_lt_of_le hk with rfl | hk1
  · -- the header cannot be read
    refine ⟨m.found.tick.tick, m.found, ?_, .refl, rfl, rfl, ?_⟩
    · rw [hmain, diskSwitchDump_stop_read (m := m.found.tick) hfail]
      rfl
    · rw [if_pos (by omega)]
      exact hvector
  rcases Nat.lt_or_ge k (2 + 2 * (soundChunks core).length) with hlt | hge
  · -- a request of chunk `chunksBefore k` fails
    obtain ⟨m', hrun, hsw⟩ := diskSwitchDump_stop_chunk (P := P) (m := m.found.tick) hcore hg hfuel
      hold.laidOut hv hissued hk1 hlt hok hfail
    refine ⟨m', m', ?_, hsw.of_tick, rfl, rfl, ?_⟩
    · rw [hmain, hrun]
      rfl
    · rw [if_pos hlt, hsw.sameVector]
      exact hvector
  · -- the header cannot be written
    unfold soundRequests at hk'
    have hends : LoopsEnd core := by
      by_contra hcon
      rw [if_neg hcon] at hk'
      omega
    obtain rfl : k = 2 + 2 * (soundChunks core).length := by
      rw [if_pos hends] at hk'
      omega
    obtain ⟨m', t, hrun, hsw, hmem, hdisk, hv'⟩ := diskSwitchDump_stop_header (P := P)
      (m := m.found.tick) hcore hg hends hfuel hold.laidOut hv hsaved hissued hok hfail
    refine ⟨m', t, ?_, ?_, hmem, hdisk, ?_⟩
    · rw [hmain, hrun]
      rfl
    · rw [List.take_of_length_le (by unfold chunksBefore; omega)]
      exact hsw.of_tick
    · rw [if_neg (by omega)]
      exact hv'

/-! ## Whether both OSes survive -/

/-- Memory and disk agree on the chunks. -/
def Agree (m : Machine) (cs : List Chunk) : Prop :=
  ∀ c ∈ cs, window m.mem c.addr c.len = window m.disk c.pos c.len

/-- The disk has a valid header that describes `os`. -/
def Describes (core : CoreHeader) (disk : ℕ → UInt8) (os : Image × UInt32) : Prop :=
  isDumpHeaderValid core disk = true ∧ diskDump disk = os

/-- From `m` to `m'`, neither the OS that was running nor the one that was stored is lost: one of
them is resumed, and the disk describes the other. -/
def KeepsBoth (core : CoreHeader) (m m' : Machine) : Prop :=
  let running := (ramImage core m.mem, core.savedVector m.mem)
  let stored := diskDump m.disk
  let resumed := (ramImage core m'.mem, m'.kernelWakingVector)
  resumed = running ∧ Describes core m'.disk stored ∨
    resumed = stored ∧ Describes core m'.disk running

section Images

variable {pre : List Chunk} {v : UInt32}

/-- Exchanging the chunks of `pre` leaves the RAM image as it was if they agreed. -/
theorem SwitchedUpTo.ramImage_same_iff (h : SwitchedUpTo P m pre m') (hg : Geometry P.sizes core)
    (hsub : pre ⊆ allChunks core) :
    ramImage core m'.mem = ramImage core m.mem ↔ Agree m pre := by
  have hs := switchable_allChunks (P := P) hg
  rw [ramImage_eq_ramImage_iff, forall_chunks_iff hsub]
  constructor
  · intro ⟨hpre, _⟩ c hc
    rw [← hpre c hc, h.exchanged.mem_done c hc]
  · intro hagree
    refine ⟨fun c hc => by rw [h.exchanged.mem_done c hc, hagree c hc], fun c hc => ?_⟩
    exact h.exchanged.window_mem (separate_chunksLeft hg hsub hc)
      (hs.apart_buf c (mem_chunksLeft.mp hc).1)

/-- It makes the RAM image that of the disk if the remaining chunks agreed. -/
theorem SwitchedUpTo.ramImage_stored_iff (h : SwitchedUpTo P m pre m') (hg : Geometry P.sizes core)
    (hl : LaidOut core v m.disk) (hsub : pre ⊆ allChunks core) :
    ramImage core m'.mem = dumpImage m.disk ↔ Agree m (chunksLeft core pre) := by
  have hs := switchable_allChunks (P := P) hg
  rw [ramImage_eq_dumpImage_iff hl hg.aligned hg.fits, forall_chunks_iff hsub]
  have hleft : ∀ c ∈ chunksLeft core pre,
      window m'.mem c.addr c.len = window m.mem c.addr c.len := fun c hc =>
    h.exchanged.window_mem (separate_chunksLeft hg hsub hc) (hs.apart_buf c (mem_chunksLeft.mp hc).1)
  constructor
  · intro ⟨_, hrest⟩ c hc
    rw [← hleft c hc, hrest c hc]
  · intro hagree
    exact ⟨h.exchanged.mem_done, fun c hc => by rw [hleft c hc, hagree c hc]⟩

/-- The disk keeps its image if the exchanged chunks agreed. -/
theorem SwitchedUpTo.dumpImage_same_iff (h : SwitchedUpTo P m pre m') (hg : Geometry P.sizes core)
    (hl : LaidOut core v m.disk) (hl' : LaidOut core v m'.disk) (hsub : pre ⊆ allChunks core) :
    dumpImage m'.disk = dumpImage m.disk ↔ Agree m pre := by
  rw [dumpImage_eq_dumpImage_iff hl' hl hg.aligned hg.fits, forall_chunks_iff hsub]
  constructor
  · intro ⟨hpre, _⟩ c hc
    rw [← hpre c hc, h.exchanged.disk_done c hc]
  · intro hagree
    refine ⟨fun c hc => by rw [h.exchanged.disk_done c hc, hagree c hc], fun c hc => ?_⟩
    exact h.exchanged.window_disk (separate_chunksLeft hg hsub hc)

/-- The disk gets the RAM image if the remaining chunks agreed. -/
theorem SwitchedUpTo.dumpImage_ram_iff (h : SwitchedUpTo P m pre m') (hg : Geometry P.sizes core)
    (hl' : LaidOut core v m'.disk) (hsub : pre ⊆ allChunks core) :
    dumpImage m'.disk = ramImage core m.mem ↔ Agree m (chunksLeft core pre) := by
  rw [eq_comm, ramImage_eq_dumpImage_iff hl' hg.aligned hg.fits, forall_chunks_iff hsub]
  have hleft : ∀ c ∈ chunksLeft core pre,
      window m'.disk c.pos c.len = window m.disk c.pos c.len := fun c hc =>
    h.exchanged.window_disk (separate_chunksLeft hg hsub hc)
  constructor
  · intro ⟨_, hrest⟩ c hc
    rw [hrest c hc, hleft c hc]
  · intro hagree
    exact ⟨fun c hc => (h.exchanged.disk_done c hc).symm, fun c hc => by
      rw [hleft c hc, hagree c hc]⟩

/-- Whether both OSes survive the exchange of `pre`, by the vector that is resumed. -/
theorem SwitchedUpTo.keepsBoth_iff {t : Machine} (h : SwitchedUpTo P m pre t) (hg : Geometry P.sizes core)
    (hl : LaidOut core v m.disk) (hv : v ≠ 0) (hsub : pre ⊆ allChunks core)
    (hmem : m'.mem = t.mem) (hdisk : m'.disk = t.disk) :
    KeepsBoth core m m' ↔
      m'.kernelWakingVector = core.savedVector m.mem ∧ Agree m pre ∨
        m'.kernelWakingVector = v ∧ v = core.savedVector m.mem ∧ Agree m (chunksLeft core pre) := by
  have hl' : LaidOut core v t.disk := hl.congr hg.count_le (h.header_eq hsub hg)
  have hdump := hl'.valid hv hg.nonempty hg.aligned
  simp only [KeepsBoth, Describes, diskDump, hmem, hdisk, Prod.mk.injEq, hdump, true_and,
    hl.wakingVector, hl'.wakingVector, and_true, h.ramImage_same_iff hg hsub,
    h.ramImage_stored_iff hg hl hsub, h.dumpImage_same_iff hg hl hl' hsub,
    h.dumpImage_ram_iff hg hl' hsub]
  constructor
  · rintro (⟨⟨-, hw⟩, h⟩ | ⟨⟨-, hw⟩, h, hsame⟩)
    · exact Or.inl ⟨hw, h⟩
    · exact Or.inr ⟨hw, hsame, h⟩
  · rintro (⟨hw, h⟩ | ⟨hw, hsame, h⟩)
    · exact Or.inl ⟨⟨h, hw⟩, h⟩
    · exact Or.inr ⟨⟨h, hw⟩, h, hsame⟩

end Images

/-- Request `k` of `disk_switch_dump` may fail without harm: the address of the loop has not wrapped
by then, and either the chunks before it were equal in RAM and on the disk, and also the vectors if it
is the last request, or all other chunks were equal and the vectors. -/
def Harmless (core : CoreHeader) (m : Machine) (k : ℕ) : Prop :=
  k ≤ soundRequests core ∧
    ((k < 2 + 2 * (soundChunks core).length ∨
          DumpHeader.wakingVector m.disk = core.savedVector m.mem) ∧
        Agree m ((soundChunks core).take (chunksBefore k)) ∨
      DumpHeader.wakingVector m.disk = core.savedVector m.mem ∧
        Agree m (chunksLeft core ((soundChunks core).take (chunksBefore k))))

/-- Where request `k` fails before the address of the loop wraps, both OSes survive exactly if the
failure is harmless. -/
theorem coreMain_keepsBoth_iff (P : Platform) (hvalid : isCoreHeaderValid core = true)
    (hg : Geometry P.sizes core) (hfuel : switchFuel ≤ fuel) (hcore : m.core = core)
    (haction : core.action = CORE_ACTION_SWITCH.toUInt32) (hsaved : core.savedVector m.mem ≠ 0)
    (hstored : WrittenByStore P core m.disk) {k : ℕ} (hk : 1 ≤ k) (hk' : k ≤ soundRequests core)
    (hinit : dev.initOk = true) (hok : ∀ r < k, dev.fails r = false) (hfail : dev.fails k = true) :
    ∃ m', coreMain P dev fuel m = some m' ∧ (KeepsBoth core m m' ↔ Harmless core m k) := by
  obtain ⟨image, v, hold, hv⟩ := hstored.holds hg
  obtain ⟨m', t, hmain, hsw, hmem, hdisk, hvector⟩ := coreMain_switch_stop hvalid hg hfuel
    hcore haction hsaved hold hv hk hk' hinit hok hfail
  refine ⟨m', hmain, ?_⟩
  have hsw' : SwitchedUpTo P m ((soundChunks core).take (chunksBefore k))
      { t with kernelWakingVector := m.kernelWakingVector } :=
    ⟨hsw.sameCore, rfl, hsw.exchanged⟩
  have hsub : (soundChunks core).take (chunksBefore k) ⊆ allChunks core :=
    List.Subset.trans (List.take_subset _ _) (soundChunks_subset hg)
  rw [hsw'.keepsBoth_iff hg hold.laidOut hv hsub hmem hdisk, hvector, Harmless,
    hold.laidOut.wakingVector, and_iff_right hk']
  split
  case isTrue hlt =>
    simp only [hlt, true_or, true_and]
    constructor
    · rintro (h | ⟨hv', -, h⟩)
      · exact Or.inl h
      · exact Or.inr ⟨hv'.symm, h⟩
    · rintro (h | ⟨hv', h⟩)
      · exact Or.inl h
      · exact Or.inr ⟨hv'.symm, hv', h⟩
  case isFalse hge => simp only [hge, false_or, true_and]

/-- **When a failed switch loses no OS.** If request `k` of `disk_switch_dump` is the first to fail and
the failure is harmless, `core_main` resumes a kernel and both OSes survive. Up to the request with
which the address of the loop wraps they survive in no other case. -/
theorem switch_failure_keeps_iff (P : Platform) (hvalid : isCoreHeaderValid core = true)
    (hg : Geometry P.sizes core) (hfuel : switchFuel ≤ fuel) (hcore : m.core = core)
    (haction : core.action = CORE_ACTION_SWITCH.toUInt32) (hsaved : core.savedVector m.mem ≠ 0)
    (hstored : WrittenByStore P core m.disk) {k : ℕ} (hk : 1 ≤ k) (hinit : dev.initOk = true)
    (hok : ∀ r < k, dev.fails r = false) (hfail : dev.fails k = true) :
    (Harmless core m k → ∃ m', coreMain P dev fuel m = some m' ∧ KeepsBoth core m m') ∧
      (k ≤ soundRequests core → ∃ m', coreMain P dev fuel m = some m' ∧
        (KeepsBoth core m m' → Harmless core m k)) := by
  have hmain := fun hk' => coreMain_keepsBoth_iff P hvalid hg hfuel hcore haction hsaved hstored hk
    hk' hinit hok hfail
  constructor
  · intro h
    obtain ⟨m', hrun, hiff⟩ := hmain h.1
    exact ⟨m', hrun, hiff.mpr h⟩
  · intro hk'
    obtain ⟨m', hrun, hiff⟩ := hmain hk'
    exact ⟨m', hrun, hiff.mp⟩

/-! ## Two pages of RAM -/

/-- Another OS, which fills its memory with twos, stores itself on the empty disk. -/
theorem twos_store (hg : Geometry sampleSizes core) : ∃ m₁, diskStoreDump samplePlatform .exact
      ⟨fun _ => 2, fun _ => 0, core.setAction CORE_ACTION_STORE.toUInt32, 0, 0⟩ =
        some (.ok (), m₁) ∧
    Holds core (ramImage core fun _ => 2) 0x2020202 m₁.disk := by
  have hg := hg.setAction CORE_ACTION_STORE.toUInt32
  have hv : (core.setAction CORE_ACTION_STORE.toUInt32).savedVector (fun _ => 2) = 0x2020202 := by
    simp only [CoreHeader.savedVector, get32, getLE]
    decide
  obtain ⟨m₁, hrun, -, -, -, hholds⟩ := diskStoreDump_ok (m := ⟨fun _ => 2,
    fun _ => 0, core.setAction CORE_ACTION_STORE.toUInt32, 0, 0⟩) samplePlatform rfl
    hg.count_le hg.aligned hg.fits (by rw [hv]; decide) fun _ _ => BlkDev.exact_fails _
  rw [hv] at hholds
  exact ⟨m₁, hrun, (holds_setAction _).mp hholds⟩

/-- The core header of the two pages, with a switch asked for. -/
abbrev switchTwoPages : CoreHeader := twoPages.setAction CORE_ACTION_SWITCH.toUInt32

theorem switchTwoPages_valid : isCoreHeaderValid switchTwoPages = true :=
  isCoreHeaderValid_setAction (by decide) (isCoreHeaderActionValid_toUInt32 _)

/-- The running OS has twos in the first page as well, and ones elsewhere. -/
def mixedSwitch (disk : ℕ → UInt8) : Machine :=
  ⟨fun x => if 0x10000 ≤ x ∧ x < 0x11000 then 2 else 1, disk, switchTwoPages, 0, 0⟩

/-- The first page has been exchanged when the second cannot be read. -/
theorem mixedSwitch_harmless {disk : ℕ → UInt8} {v : UInt32}
    (hold : Holds twoPages (ramImage twoPages fun _ => 2) v disk) :
    Harmless switchTwoPages (mixedSwitch disk) 4 := by
  refine ⟨by decide, Or.inl ⟨Or.inl (by decide), fun c hc => ?_⟩⟩
  have hfirst : c = ⟨0x10000, 0x800, 0x1000⟩ := by
    have htake : (soundChunks switchTwoPages).take (chunksBefore 4) = [⟨0x10000, 0x800, 0x1000⟩] := by
      decide
    rwa [htake, List.mem_singleton] at hc
  have hall : c ∈ allChunks twoPages := by
    rw [hfirst]
    decide
  have hg := twoPages_geometry
  have htwos := (ramImage_eq_dumpImage_iff hold.laidOut hg.aligned hg.fits).mp hold.image.symm c hall
  refine Eq.trans ?_ htwos
  rw [hfirst]
  refine window_eq_window.mpr fun i hi => if_pos ?_
  simp only at hi ⊢
  omega

theorem switch_failure_keeps_iff_twoPages : ∃ m₁, diskStoreDump samplePlatform .exact
      ⟨fun _ => 2, fun _ => 0, twoPages.setAction CORE_ACTION_STORE.toUInt32, 0, 0⟩ =
        some (.ok (), m₁) ∧
    Harmless switchTwoPages (mixedSwitch m₁.disk) 4 ∧
    (Harmless switchTwoPages (mixedSwitch m₁.disk) 4 →
      ∃ m', coreMain samplePlatform (.failAt 4) switchFuel (mixedSwitch m₁.disk) = some m' ∧
        KeepsBoth switchTwoPages (mixedSwitch m₁.disk) m') ∧
    (4 ≤ soundRequests switchTwoPages →
      ∃ m', coreMain samplePlatform (.failAt 4) switchFuel (mixedSwitch m₁.disk) = some m' ∧
        (KeepsBoth switchTwoPages (mixedSwitch m₁.disk) m' →
          Harmless switchTwoPages (mixedSwitch m₁.disk) 4)) := by
  obtain ⟨m₁, hrun, hholds⟩ := twos_store twoPages_geometry
  have hsaved : switchTwoPages.savedVector (mixedSwitch m₁.disk).mem ≠ 0 := by
    have hfacs : switchTwoPages.savedVector (mixedSwitch m₁.disk).mem =
        switchTwoPages.savedVector fun _ => 1 := by
      refine savedVector_congr fun x hx => if_neg ?_
      have hlow := hx.1
      have hhigh := hx.2
      have hstart : switchTwoPages.facs.toNat = 0x3000 := rfl
      rw [hstart, FACS_RSVD1] at hlow hhigh
      omega
    rw [hfacs]
    exact savedVector_ones _
  have hok : ∀ r < 4, (BlkDev.failAt 4).fails r = false := by
    intro r hr
    simp only [BlkDev.failAt, beq_eq_false_iff_ne]
    omega
  exact ⟨m₁, hrun, mixedSwitch_harmless hholds, switch_failure_keeps_iff samplePlatform
    switchTwoPages_valid (twoPages_geometry.setAction _) le_rfl rfl rfl hsaved
    ⟨_, m₁, rfl, hrun, rfl⟩ (by omega) rfl hok rfl⟩

/-! ## One page of RAM -/

/-- The core header with a switch of the page asked for. -/
abbrev switchPage : CoreHeader := samplePage.setAction CORE_ACTION_SWITCH.toUInt32

theorem switchPage_valid : isCoreHeaderValid switchPage = true :=
  isCoreHeaderValid_setAction (onePage_valid _) (isCoreHeaderActionValid_toUInt32 _)

theorem switchPage_geometry : Geometry sampleSizes switchPage := samplePage_geometry.setAction _

theorem switchPage_savedVector : switchPage.savedVector (fun _ => 1) = 0x1010101 := by
  simp only [CoreHeader.savedVector, get32, getLE]
  decide

/-- The running OS, whose memory is all ones, asks for a switch. -/
def sampleSwitch (disk : ℕ → UInt8) : Machine := ⟨fun _ => 1, disk, switchPage, 0, 0⟩

/-- **A failed switch that loses an OS.** The page is switched, and then the header cannot be
written: the stored OS is resumed, and the header keeps its vector in place of the other's. -/
theorem failed_switch_loses : ∃ m₁, diskStoreDump samplePlatform .exact
      ⟨fun _ => 2, fun _ => 0, samplePage.setAction CORE_ACTION_STORE.toUInt32, 0, 0⟩ =
        some (.ok (), m₁) ∧
    isDumpHeaderValid switchPage m₁.disk = true ∧
    ∃ m', coreMain samplePlatform (.failAt 4) switchFuel (sampleSwitch m₁.disk) = some m' ∧
      ¬ KeepsBoth switchPage (sampleSwitch m₁.disk) m' := by
  obtain ⟨m₁, hrun, hholds⟩ := twos_store samplePage_geometry
  have hold : Holds switchPage _ _ m₁.disk := (holds_setAction _).mpr hholds
  have hv : (0x2020202 : UInt32) ≠ 0 := by decide
  have hsaved : switchPage.savedVector (sampleSwitch m₁.disk).mem ≠ 0 := savedVector_ones _
  have hlen : (soundChunks switchPage).length = 1 := by decide
  have hok : ∀ r < 4, (BlkDev.failAt 4).fails r = false := by
    intro r hr
    simp only [BlkDev.failAt, beq_eq_false_iff_ne]
    omega
  refine ⟨m₁, hrun, hold.laidOut.valid hv switchPage_geometry.nonempty
    switchPage_geometry.aligned, ?_⟩
  obtain ⟨m', t, hmain, hsw, hmem, hdisk, hvector⟩ := coreMain_switch_stop (P := samplePlatform)
    switchPage_valid switchPage_geometry le_rfl rfl rfl hsaved hold hv (k := 4) (by omega)
    (by decide) rfl hok rfl
  refine ⟨m', hmain, ?_⟩
  rw [if_neg (by rw [hlen]; omega)] at hvector
  have hsw' : SwitchedUpTo samplePlatform (sampleSwitch m₁.disk) _
      { t with kernelWakingVector := (sampleSwitch m₁.disk).kernelWakingVector } :=
    ⟨hsw.sameCore, rfl, hsw.exchanged⟩
  rw [hsw'.keepsBoth_iff switchPage_geometry hold.laidOut hv
    (List.Subset.trans (List.take_subset _ _) (soundChunks_subset switchPage_geometry)) hmem hdisk,
    hvector]
  have hne : (0x2020202 : UInt32) ≠ switchPage.savedVector (sampleSwitch m₁.disk).mem := by
    rw [sampleSwitch, switchPage_savedVector]
    decide
  rintro (⟨h, -⟩ | ⟨-, h, -⟩)
  · exact hne h
  · exact hne h

end SwitchOs
