import SwitchOs.Core.SwitchFailure

/-!
# A store that does not complete

`disk_store_dump` writes the header last, "in order to avoid corruption": a disk without a valid
header has none until every area is on it. A disk that already holds a dump keeps its old header,
though, while the extents that header names are overwritten one by one. `store_crash_iff` says
exactly when every prefix of the writes is consistent all the same.
-/

namespace SwitchOs

open CoreAction

variable {P : Platform} {dev : BlkDev} {core : CoreHeader} {m m' : Machine} {mem₀ : ℕ → UInt8}
  {n : ℕ}

/-- The header on the disk is the one that a complete `disk_store_dump` of the memory `mem₀` wrote,
whatever the extents hold by now. -/
def HeaderWrittenBy (P : Platform) (core : CoreHeader) (mem₀ disk : ℕ → UInt8) : Prop :=
  ∃ m m' : Machine, m.core = core ∧ m.mem = mem₀ ∧
    diskStoreDump P .exact m = some (.ok (), m') ∧ ∀ x < DUMP_HEADER_SIZE, disk x = m'.disk x

theorem HeaderWrittenBy.laidOut (h : HeaderWrittenBy P core mem₀ m.disk)
    (hmax : core.areaCount ≤ MAX_RAM_AREAS) (haligned : AreasAligned core) (hfits : Fits core) :
    LaidOut core (core.savedVector mem₀) m.disk ∧ core.savedVector mem₀ ≠ 0 := by
  obtain ⟨m₀, m₁, hcore, rfl, hrun, hdisk⟩ := h
  have hsaved := diskStoreDump_savedVector hrun
  rw [hcore] at hsaved
  obtain ⟨m₂, hrun', -, -, -, hholds⟩ := diskStoreDump_ok P hcore hmax haligned
    hfits hsaved fun _ _ => BlkDev.exact_fails _
  obtain rfl : m₁ = m₂ := by
    rw [hrun] at hrun'
    simpa using hrun'
  exact ⟨hholds.laidOut.congr hmax hdisk, hsaved⟩

/-! ## Which requests reach the disk -/

/-- Exactly the first `n` requests of `disk_store_dump` succeed; without a saved vector it issues
none. -/
def Reached (core : CoreHeader) (dev : BlkDev) (m : Machine) (n : ℕ) : Prop :=
  core.savedVector m.mem = 0 ∧ n = 0 ∨
    core.savedVector m.mem ≠ 0 ∧ n ≤ core.areaCount + 1 ∧
      (∀ r < n, dev.fails (m.issued + r) = false) ∧
      (n ≤ core.areaCount → dev.fails (m.issued + n) = true)

/-- **A prefix of a store** leaves either its first `n` areas on the disk and the old header, or,
where it is everything, the new dump. -/
theorem diskStoreDump_prefix (P : Platform) (hcore : m.core = core)
    (hmax : core.areaCount ≤ MAX_RAM_AREAS) (haligned : AreasAligned core) (hfits : Fits core)
    (hreached : Reached core dev m n) :
    ∃ r m', diskStoreDump P dev m = some (r, m') ∧
      (n ≤ core.areaCount ∧ StoredUpTo core m n m' ∨
        n = core.areaCount + 1 ∧ core.savedVector m.mem ≠ 0 ∧
          Holds core (ramImage core m.mem) (core.savedVector m.mem) m'.disk) := by
  rcases hreached with ⟨hz, rfl⟩ | ⟨hsaved, hn, hok, hfail⟩
  · have herr : findOriginalWakingVector core m.mem = .error .ERR_INVALID := if_pos hz
    have hfill : fillDumpHeader core m.mem P.stack = .error .ERR_INVALID := by
      simp only [fillDumpHeader, herr, bind, Except.bind]
    refine ⟨.error .ERR_INVALID, m, ?_, Or.inl ⟨Nat.zero_le _, .refl⟩⟩
    rw [diskStoreDump, Prog.bind_get_apply, hcore, hfill, Prog.lift_error_apply]
  · rcases Nat.lt_or_eq_of_le hn with hlt | rfl
    · obtain ⟨m', hrun, hstored⟩ := diskStoreDump_stop P hcore hmax haligned hfits hsaved
        (Nat.le_of_lt_succ hlt) hok (hfail (Nat.le_of_lt_succ hlt))
      exact ⟨_, m', hrun, Or.inl ⟨Nat.le_of_lt_succ hlt, hstored⟩⟩
    · obtain ⟨m', hrun, -, -, -, hholds⟩ := diskStoreDump_ok P hcore hmax haligned hfits hsaved
        fun r hr => hok r (Nat.lt_succ_of_le hr)
      exact ⟨_, m', hrun, Or.inr ⟨rfl, hsaved, hholds⟩⟩

/-! ## Consistency -/

/-- If the disk holds a dump after the first `n` requests of a store, it is the whole dump of the
store that wrote its header: this one if it is complete, else the one of `mem₀`. -/
def CrashConsistent (core : CoreHeader) (m : Machine) (mem₀ : ℕ → UInt8) (n : ℕ) (m' : Machine) :
    Prop :=
  isDumpHeaderValid core m'.disk = true →
    diskDump m'.disk =
      if n = core.areaCount + 1 then (ramImage core m.mem, core.savedVector m.mem)
      else (ramImage core mem₀, core.savedVector mem₀)

/-- The areas that the first `n` requests overwrite are as `mem₀` had them, and so are the extents of
the others. -/
def AreasKept (core : CoreHeader) (m : Machine) (mem₀ : ℕ → UInt8) (n : ℕ) : Prop :=
  ∀ i < core.areaCount,
    (if i < n then window m.mem (core.areaStart i) (core.areaSize i)
      else window m.disk (extentPos core i) (core.areaSize i)) =
      window mem₀ (core.areaStart i) (core.areaSize i)

/-- The extents after the first `n` areas. -/
theorem StoredUpTo.window_disk (h : StoredUpTo core m n m') (haligned : AreasAligned core) {i : ℕ}
    (hi : i < core.areaCount) :
    window m'.disk (extentPos core i) (core.areaSize i) =
      if i < n then window m.mem (core.areaStart i) (core.areaSize i)
      else window m.disk (extentPos core i) (core.areaSize i) := by
  split
  case isTrue hin => exact h.done i hin
  case isFalse hin =>
    have hmono := extentPos_mono haligned (Nat.le_of_not_lt hin) (le_of_lt hi)
    exact window_eq_window.mpr fun k _ => h.frame _ (Or.inr (by omega))

/-- Under the old header, the disk is consistent after `n` areas if and only if the areas are kept. -/
theorem StoredUpTo.consistent_iff (h : StoredUpTo core m n m') (hn : n ≤ core.areaCount)
    (hmax : core.areaCount ≤ MAX_RAM_AREAS) (hpos : core.ramAreasSize ≠ 0)
    (haligned : AreasAligned core) (hfits : Fits core)
    (hl : LaidOut core (core.savedVector mem₀) m.disk) (hsaved : core.savedVector mem₀ ≠ 0) :
    CrashConsistent core m mem₀ n m' ↔ AreasKept core m mem₀ n := by
  have hl' : LaidOut core (core.savedVector mem₀) m'.disk :=
    hl.congr hmax fun x hx => h.frame x (Or.inl hx)
  have hvalid := hl'.valid hsaved hpos haligned
  rw [CrashConsistent, if_neg (by omega), diskDump, hl'.wakingVector,
    dumpImage_laidOut hl' haligned hfits]
  simp only [hvalid, forall_const, Prod.mk.injEq, and_true, ramImage, List.map_inj_left,
    List.mem_range, AreasKept]
  refine forall₂_congr fun i hi => ?_
  rw [h.window_disk haligned hi]

/-- **When a store is crash-consistent.** After the first `n` requests of `disk_store_dump` the disk
is consistent if and only if these are all of them, or there was no valid header before, or the
areas are kept. -/
theorem store_crash_iff (P : Platform) (hcore : m.core = core)
    (hmax : core.areaCount ≤ MAX_RAM_AREAS) (haligned : AreasAligned core) (hfits : Fits core)
    (hold : isDumpHeaderValid core m.disk = false ∨ HeaderWrittenBy P core mem₀ m.disk)
    (hreached : Reached core dev m n) :
    ∃ r m', diskStoreDump P dev m = some (r, m') ∧ (CrashConsistent core m mem₀ n m' ↔
      n = core.areaCount + 1 ∨ isDumpHeaderValid core m.disk = false ∨ AreasKept core m mem₀ n) := by
  obtain ⟨r, m', hrun, hdisk⟩ := diskStoreDump_prefix P hcore hmax haligned hfits hreached
  refine ⟨r, m', hrun, ?_⟩
  rcases hdisk with ⟨hn, hstored⟩ | ⟨rfl, -, hholds⟩
  · have hne : n ≠ core.areaCount + 1 := by omega
    have hvalid : isDumpHeaderValid core m'.disk = isDumpHeaderValid core m.disk :=
      isDumpHeaderValid_congr hmax fun x hx => hstored.frame x (Or.inl hx)
    simp only [hne, false_or]
    cases hv : isDumpHeaderValid core m.disk with
    | false =>
      rw [hv] at hvalid
      exact ⟨fun _ => Or.inl rfl, fun _ hv' => absurd hv' (by simp [hvalid])⟩
    | true =>
      obtain ⟨hl, hsaved⟩ := (hold.resolve_left (by simp [hv])).laidOut hmax haligned hfits
      have hpos : core.ramAreasSize ≠ 0 := by
        have hiff := isDumpHeaderValid_iff.mp hv
        rw [← hiff.2.2.2.1]
        exact hiff.2.2.1
      rw [hstored.consistent_iff hn hmax hpos haligned hfits hl hsaved]
      simp
  · refine ⟨fun _ => Or.inl rfl, fun _ _ => ?_⟩
    rw [if_pos rfl, diskDump, hholds.image, hholds.laidOut.wakingVector]

/-! ## A store over a stored page -/

/-- The running OS, whose memory is all ones, asks for a store over a dump of all twos. -/
def sampleStore (disk : ℕ → UInt8) : Machine :=
  ⟨fun _ => 1, disk, samplePage.setAction CORE_ACTION_STORE.toUInt32, 0, 0⟩

/-- The store writes its page, and then the header cannot be written. -/
theorem reached_failAt_one (disk : ℕ → UInt8) :
    Reached storePage (.failAt 1) (sampleStore disk) 1 := by
  have hsaved : storePage.savedVector (sampleStore disk).mem ≠ 0 := savedVector_ones _
  refine Or.inr ⟨hsaved, by decide, fun r hr => ?_, fun _ => rfl⟩
  obtain rfl : r = 0 := by omega
  rfl

theorem store_crash_iff_onePage : ∃ m₁, diskStoreDump samplePlatform .exact
      ⟨fun _ => 2, fun _ => 0, storePage, 0, 0⟩ = some (.ok (), m₁) ∧
    ∃ r m', diskStoreDump samplePlatform (.failAt 1) (sampleStore m₁.disk) = some (r, m') ∧
      (CrashConsistent storePage (sampleStore m₁.disk) (fun _ => 2) 1 m' ↔
        1 = storePage.areaCount + 1 ∨ isDumpHeaderValid storePage m₁.disk = false ∨
          AreasKept storePage (sampleStore m₁.disk) (fun _ => 2) 1) := by
  obtain ⟨m₁, hrun, -⟩ := twos_store samplePage_geometry
  have hg := storePage_geometry
  exact ⟨m₁, hrun, store_crash_iff (m := sampleStore m₁.disk) samplePlatform rfl
    hg.count_le hg.aligned hg.fits (Or.inr ⟨_, m₁, rfl, rfl, hrun, fun _ _ => rfl⟩)
    (reached_failAt_one _)⟩

/-- **A store that mixes two OSes.** The page on the disk is overwritten, and then the header cannot
be written: the old header is valid, with its vector, over the new page. -/
theorem interrupted_store_mixes : ∃ m₁, diskStoreDump samplePlatform .exact
      ⟨fun _ => 2, fun _ => 0, storePage, 0, 0⟩ = some (.ok (), m₁) ∧
    ∃ r m', diskStoreDump samplePlatform (.failAt 1) (sampleStore m₁.disk) = some (r, m') ∧
      isDumpHeaderValid storePage m'.disk = true ∧
      ¬ CrashConsistent storePage (sampleStore m₁.disk) (fun _ => 2) 1 m' := by
  obtain ⟨m₁, hrun, hholds⟩ := twos_store samplePage_geometry
  have hg := storePage_geometry
  have hl : LaidOut storePage 0x2020202 m₁.disk := (laidOut_setAction _).mpr hholds.laidOut
  have hv : storePage.savedVector (fun _ => 2) = 0x2020202 := by
    simp only [CoreHeader.savedVector, get32, getLE]
    decide
  rw [← hv] at hl
  have hne : storePage.savedVector (fun _ => 2) ≠ 0 := by
    rw [hv]
    decide
  obtain ⟨r, m', hrun', hdisk⟩ := diskStoreDump_prefix (m := sampleStore m₁.disk)
    samplePlatform (show (sampleStore m₁.disk).core = storePage from rfl) hg.count_le hg.aligned
    hg.fits (reached_failAt_one _)
  obtain ⟨hn, hstored⟩ := hdisk.resolve_right fun h => absurd h.1 (by decide)
  refine ⟨m₁, hrun, r, m', hrun', ?_, ?_⟩
  · rw [isDumpHeaderValid_congr hg.count_le fun x hx => hstored.frame x (Or.inl hx)]
    exact hl.valid hne hg.nonempty hg.aligned
  · rw [hstored.consistent_iff hn hg.count_le hg.nonempty hg.aligned hg.fits hl hne]
    intro hkept
    have hpage := hkept 0 (by decide)
    rw [if_pos (by omega), window_eq_window] at hpage
    have hbyte : (1 : UInt8) = 2 := hpage 0 (by decide)
    exact absurd hbyte (by decide)

end SwitchOs
