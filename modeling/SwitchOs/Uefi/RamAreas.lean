import SwitchOs.Uefi.InsertDesc

/-!
# The RAM table

`fill_ram_areas` of `uefi/core_header_utils.c`: the usable descriptors of the UEFI memory map go into
the table one by one. Which areas that makes depends on the order of the map alone: a descriptor
opens an area unless an earlier one ends where it begins, and else goes into the area of that one
(`Opens`). The loop never misplaces a descriptor if the map is `InOrder`, and
`fillRamAreas_covers_iff` says that the table covers the usable memory exactly in that case.
-/

namespace SwitchOs

/-- `g_usable_memory_types`: loader and boot services code and data, conventional, ACPI reclaim and
persistent memory, runtime services code and data. -/
def gUsableMemoryTypes : List UInt32 := [1, 2, 3, 4, 7, 9, 14, 5, 6]

/-- `is_memory_desc_usable`. -/
def isMemoryDescUsable (desc : EfiMemoryDescriptor) : Bool :=
  gUsableMemoryTypes.any fun type => desc.type == type

/-- What the three calls that obtain the memory map do: the status of the first one
(`EFI_BUFFER_TOO_SMALL` for success), whether the pool is allocated, the status of the last one; and
the map they leave. -/
structure MemoryMap where
  sizeKnown : Bool
  pool : Bool
  read : Bool
  bytes : ℕ → UInt8
  size : ℕ
  descSize : ℕ
  descSize_pos : 0 < descSize

/-- The descriptor at byte `i` of the map. -/
def MemoryMap.descAt (map : MemoryMap) (i : ℕ) : EfiMemoryDescriptor :=
  ⟨get32 map.bytes i, get64 map.bytes (i + 8), get64 map.bytes (i + 24)⟩

/-- The descriptors of the map, in its order: one every `descSize` bytes that fits. -/
def MemoryMap.descs (map : MemoryMap) : List EfiMemoryDescriptor :=
  (List.range (map.size / map.descSize)).map fun k => map.descAt (k * map.descSize)

/-- The body of the loop of `fill_ram_areas`. -/
def fillDesc (desc : EfiMemoryDescriptor) : Prog Err CoreHeader Unit :=
  if isMemoryDescUsable desc then insertDesc desc else pure ()

/-- `fill_ram_areas`. -/
def fillRamAreas (map : MemoryMap) : Prog Err CoreHeader Unit := do
  check map.sizeKnown
  check map.pool
  check map.read
  Prog.forEach fillDesc map.descs

/-! ## What the order of the map says -/

/-- Descriptor `o` of the sequence opens the area that descriptor `k` goes into: `k` opens one itself
if no earlier descriptor ends where it begins, and else follows such an earlier one. -/
inductive Opens (u : ℕ → EfiMemoryDescriptor) (o : ℕ) : ℕ → Prop
  | self (h : ∀ m < o, (u m).stop ≠ (u o).physicalStart) : Opens u o o
  | follow {m k : ℕ} (hmk : m < k) (hadj : (u m).stop = (u k).physicalStart) (h : Opens u o m) :
      Opens u o k

/-- Descriptor `k` finds its place: the area it goes into was opened before any descriptor that
begins where `k` ends, and it does not wrap around the end of the address space. -/
structure FindsPlace (u : ℕ → EfiMemoryDescriptor) (k : ℕ) : Prop where
  order : ∀ j < k, (u j).physicalStart = (u k).stop → ∃ o < j, Opens u o k
  no_wrap : (u k).physicalStart = 0 → ∀ m < k, (u m).stop ≠ 0
  small : (u k).bytes ≠ 2 ^ 64

/-- The usable descriptors of the map, in its order. -/
def usableDescs (descs : List EfiMemoryDescriptor) : List EfiMemoryDescriptor :=
  descs.filter isMemoryDescUsable

/-- Descriptor `k` of a list. -/
def nthDesc (descs : List EfiMemoryDescriptor) (k : ℕ) : EfiMemoryDescriptor :=
  descs.getD k ⟨0, 0, 0⟩

/-- Every usable descriptor of the map finds its place. -/
def InOrder (descs : List EfiMemoryDescriptor) : Prop :=
  ∀ k < (usableDescs descs).length, FindsPlace (nthDesc (usableDescs descs)) k

/-- The byte `x` belongs to a usable descriptor of the list. -/
def UsableByte (descs : List EfiMemoryDescriptor) (x : ℕ) : Prop :=
  ∃ desc ∈ descs, isMemoryDescUsable desc = true ∧ desc.Contains x

variable {core core' : CoreHeader} {u : ℕ → EfiMemoryDescriptor} {head : ℕ → ℕ} {k n : ℕ}

/-- The first `n` descriptors of the sequence are well formed and apart. -/
structure DisjointDescs (u : ℕ → EfiMemoryDescriptor) (n : ℕ) : Prop where
  wellFormed : ∀ k < n, (u k).WellFormed
  apart : ∀ j < n, ∀ k < n, j ≠ k → (u j).Apart (u k)

/-- The byte `x` belongs to one of the first `n` descriptors. -/
def ByteOf (u : ℕ → EfiMemoryDescriptor) (n x : ℕ) : Prop := ∃ k < n, (u k).Contains x

/-- The table after the first `k` descriptors: area `i` was opened by descriptor `head i`, in this
order, and ends where some descriptor that goes into it does. -/
structure OpenedBy (u : ℕ → EfiMemoryDescriptor) (k : ℕ) (core : CoreHeader) (head : ℕ → ℕ) :
    Prop where
  covers : Covers core (ByteOf u k)
  mono : ∀ i j, i < j → j < core.areaCount → head i < head j
  start : ∀ i < core.areaCount, (core.ramAreas i).start = (u (head i)).physicalStart
  stop : ∀ i < core.areaCount, ∃ m < k, Opens u (head i) m ∧
    (core.ramAreas i).start + (core.ramAreas i).size = (u m).stop
  inside : ∀ m < k, ∃ i < core.areaCount, Opens u (head i) m ∧
    ∀ x, (u m).Contains x → (core.ramAreas i).Contains x

section Order

variable (hu : DisjointDescs u n)

include hu in
/-- No two of the descriptors end at the same address. -/
theorem DisjointDescs.stop_inj {m m' : ℕ} (hm : m < n) (hm' : m' < n)
    (h : (u m).stop = (u m').stop) : m = m' := by
  by_contra hne
  have hwf := hu.wellFormed m hm
  have hwf' := hu.wellFormed m' hm'
  have hpos := hwf.pos
  have hpos' := hwf'.pos
  have hend := hwf.no_wrap
  have hend' := hwf'.no_wrap
  have hstop := congrArg UInt64.toNat h
  rw [toNat_stop, toNat_stop] at hstop
  -- both ends lie in `(0, 2^64]`, so they are the same, and the last byte belongs to both
  refine hu.apart m hm m' hm' hne ((u m).physicalStart.toNat + (u m).bytes - 1) ⟨?_, ?_⟩ ⟨?_, ?_⟩ <;>
    omega

theorem Opens.le {o k : ℕ} (h : Opens u o k) : o ≤ k := by
  induction h with
  | self _ => exact le_refl o
  | follow hmk _ _ ih => omega

include hu in
/-- A descriptor goes into one area only. -/
theorem Opens.unique {o o' k : ℕ} (h : Opens u o k) (h' : Opens u o' k) (hk : k < n) : o = o' := by
  induction h with
  | self hself =>
    cases h' with
    | self => rfl
    | follow hmk hadj _ => exact absurd hadj (hself _ hmk)
  | @follow m k hmk hadj _ ih =>
    cases h' with
    | self hself => exact absurd hadj (hself _ hmk)
    | @follow m' _ hmk' hadj' hopens' =>
      obtain rfl : m = m' := hu.stop_inj (by omega) (by omega) (hadj.trans hadj'.symm)
      exact ih hopens' (by omega)

include hu in
/-- A descriptor that begins where a later one ends opens an area. -/
theorem opens_of_begins {j k : ℕ} (hjk : j < k) (hk : k < n)
    (h : (u j).physicalStart = (u k).stop) : Opens u j j := by
  refine Opens.self fun m hm hstop => ?_
  have hmk := hu.stop_inj (by omega) hk (hstop.trans h)
  omega

end Order

/-! ## One step of the loop -/

section Step

variable (hopen : OpenedBy u k core head) (hu : DisjointDescs u (k + 1))

include hu in
theorem DisjointDescs.new {x : ℕ} (hx : (u k).Contains x) : ¬ ByteOf u k x := by
  rintro ⟨m, hm, hmx⟩
  exact hu.apart k (by omega) m (by omega) (by omega) x hx hmx

theorem byteOf_succ {x : ℕ} : ByteOf u (k + 1) x ↔ ByteOf u k x ∨ (u k).Contains x := by
  constructor
  · rintro ⟨m, hm, hx⟩
    by_cases hmk : m = k
    · exact Or.inr (hmk ▸ hx)
    · exact Or.inl ⟨m, by omega, hx⟩
  · rintro (⟨m, hm, hx⟩ | hx)
    · exact ⟨m, by omega, hx⟩
    · exact ⟨k, by omega, hx⟩

include hopen hu in
/-- The area of a descriptor that ends where the next one begins ends there too: the byte after it
is not in the table yet. -/
theorem OpenedBy.area_ends {m i : ℕ} (hm : m < k) (hadj : (u m).stop = (u k).physicalStart)
    (hi : i < core.areaCount)
    (hinside : ∀ x, (u m).Contains x → (core.ramAreas i).Contains x) :
    (core.ramAreas i).start + (core.ramAreas i).size = (u k).physicalStart := by
  have hpos := (hu.wellFormed m (by omega)).pos
  have hend := (hu.wellFormed m (by omega)).no_wrap
  have hposk := (hu.wellFormed k (by omega)).pos
  have hwrap := hopen.covers.no_wrap i hi
  have hlast := hinside ((u m).physicalStart.toNat + (u m).bytes - 1) ⟨by omega, by omega⟩
  have hadj' := congrArg UInt64.toNat hadj
  rw [toNat_stop] at hadj'
  have hnot : ¬ (core.ramAreas i).Contains (u k).physicalStart.toNat := by
    intro hin
    exact hu.new ⟨le_refl _, by omega⟩ (hopen.covers.mem_of_area hi hin).2
  refine UInt64.toNat_inj.mp ?_
  rw [UInt64.toNat_add]
  simp only [CoreHeader.areaStart, CoreHeader.areaSize] at hwrap
  simp only [MemArea.Contains] at hlast hnot
  omega

include hopen hu in
/-- A descriptor that finds its place is not misplaced. -/
theorem OpenedBy.not_misplaced (hfits : FindsPlace u k) : ¬ Misplaced core (u k) := by
  rintro (⟨i, hfind⟩ | ⟨hzero, i, hfind⟩ | hfull)
  · -- area `i` begins where `k` ends; the one that `k` belongs to was opened before
    rcases inserted_cases core (u k) with
      ⟨i', hi, hfind', hfirst, hstart, -⟩ | ⟨i', -, hfind', -⟩ | ⟨hfind', -⟩
    · obtain rfl : i = i' := by simpa using hfind.symm.trans hfind'
      obtain ⟨last, hlast, hopens, -⟩ := hopen.stop i hi
      have hhead : head i < k := lt_of_le_of_lt hopens.le hlast
      obtain ⟨o, ho, hok⟩ := hfits.order (head i) hhead ((hopen.start i hi).symm.trans hstart)
      cases hok with
      | self => omega
      | @follow m _ hmk hadj hom =>
        obtain ⟨a, ha, hopens_a, hinside⟩ := hopen.inside m hmk
        obtain rfl : o = head a := Opens.unique hu hom hopens_a (by omega)
        have hai : a < i := by
          by_contra hge
          rcases Nat.lt_or_ge i a with hlt | hle
          · have := hopen.mono i a hlt ha
            omega
          · obtain rfl : i = a := by omega
            omega
        exact hfirst a hai (Or.inr (hopen.area_ends hu hmk hadj ha hinside))
    · simp [hfind] at hfind'
    · simp [hfind] at hfind'
  · -- area `i` ends where the address space does
    rcases inserted_cases core (u k) with
      ⟨i', -, hfind', -⟩ | ⟨i', hi, hfind', -, -, hadj, -⟩ | ⟨hfind', -⟩
    · simp [hfind] at hfind'
    · obtain rfl : i = i' := by simpa using hfind.symm.trans hfind'
      obtain ⟨last, hlast, -, hstop⟩ := hopen.stop i hi
      exact hfits.no_wrap hzero last hlast (hstop.symm.trans (hadj.trans hzero))
    · simp [hfind] at hfind'
  · exact hfits.small hfull

include hopen hu in
/-- A descriptor that is not misplaced finds its place. -/
theorem OpenedBy.findsPlace (hplaced : ¬ Misplaced core (u k)) : FindsPlace u k := by
  simp only [Misplaced, not_or, not_exists, not_and] at hplaced
  obtain ⟨hbegins, hends, hsmall⟩ := hplaced
  have hfound : ∀ m < k, (u m).stop = (u k).physicalStart →
      ∃ i, findAdjacent core (u k) (List.range core.areaCount) = some (.ends i) := by
    intro m hm hadj
    obtain ⟨a, ha, -, hinside⟩ := hopen.inside m hm
    have hadjoins := hopen.area_ends hu hm hadj ha hinside
    rcases inserted_cases core (u k) with
      ⟨i, -, hfind, -⟩ | ⟨i, -, hfind, -⟩ | ⟨-, hnone, -⟩
    · exact absurd hfind (hbegins i)
    · exact ⟨i, hfind⟩
    · exact absurd (Or.inr hadjoins) (hnone a ha)
  refine ⟨fun j hj hjstart => ?_, fun hzero m hm hstop => ?_, hsmall⟩
  · -- the area that `j` opened comes after the one that `k` goes into
    obtain ⟨a, ha, hopens_a, -⟩ := hopen.inside j hj
    have hself := opens_of_begins hu hj (by omega) hjstart
    have hja : head a = j := (Opens.unique hu hself hopens_a (by omega)).symm
    have hstart_a : (core.ramAreas a).start = (u k).stop := by
      rw [hopen.start a ha, hja, hjstart]
    rcases inserted_cases core (u k) with
      ⟨i, -, hfind, -⟩ | ⟨i, hi, -, hfirst, hstart, hadj, -⟩ | ⟨-, hnone, -⟩
    · exact absurd hfind (hbegins i)
    · have hia : i < a := by
        by_contra hge
        rcases Nat.lt_or_ge a i with hlt | hle
        · exact hfirst a hlt (Or.inl hstart_a)
        · obtain rfl : a = i := by omega
          exact hstart hstart_a
      obtain ⟨last, hlast, hopens, hstop⟩ := hopen.stop i hi
      have hhead := hopen.mono i a hia ha
      exact ⟨head i, by omega, hopens.follow hlast (hstop.symm.trans hadj)⟩
    · exact absurd (Or.inl hstart_a) (hnone a ha)
  · obtain ⟨i, hfind⟩ := hfound m hm (hstop.trans hzero.symm)
    exact hends hzero i hfind

include hopen hu in
/-- **A descriptor is misplaced** exactly if the order of the map gives it no place. -/
theorem OpenedBy.misplaced_iff : Misplaced core (u k) ↔ ¬ FindsPlace u k :=
  ⟨fun hmis hfits => hopen.not_misplaced hu hfits hmis,
    fun hnot => by_contra fun hplaced => hnot (hopen.findsPlace hu hplaced)⟩

include hopen in
/-- The table after descriptor `k` has gone into entry `e`, a new one or an old one that keeps its
head. -/
theorem OpenedBy.replace {e : ℕ} {head' : ℕ → ℕ} (hcovers : Covers core' (ByteOf u (k + 1)))
    (honly : OnlyEntry e core core') (he : e < core'.areaCount)
    (hheads : ∀ j, j ≠ e ∨ e < core.areaCount → head' j = head j)
    (hmono : ∀ i j, i < j → j < core'.areaCount → head' i < head' j)
    (hstart : (core'.ramAreas e).start = (u (head' e)).physicalStart)
    (hopens : Opens u (head' e) k)
    (hstop : (core'.ramAreas e).start + (core'.ramAreas e).size = (u k).stop)
    (hinside : ∀ x, (u k).Contains x → (core'.ramAreas e).Contains x)
    (hkept : e < core.areaCount → ∀ x, (core.ramAreas e).Contains x →
      (core'.ramAreas e).Contains x) :
    OpenedBy u (k + 1) core' head' := by
  refine ⟨hcovers, hmono, fun j hj => ?_, fun j hj => ?_, fun m hm => ?_⟩
  · by_cases hje : j = e
    · rw [hje]
      exact hstart
    · rw [honly.same j hje, hheads j (Or.inl hje)]
      exact hopen.start j (honly.old j hj hje)
  · by_cases hje : j = e
    · rw [hje]
      exact ⟨k, Nat.lt_succ_self k, hopens, hstop⟩
    · rw [honly.same j hje, hheads j (Or.inl hje)]
      obtain ⟨last, hlast, hopens', hstop'⟩ := hopen.stop j (honly.old j hj hje)
      exact ⟨last, Nat.lt_succ_of_lt hlast, hopens', hstop'⟩
  · by_cases hmk : m = k
    · rw [hmk]
      exact ⟨e, he, hopens, hinside⟩
    · obtain ⟨j, hj, hopens', hinside'⟩ := hopen.inside m (by omega)
      refine ⟨j, lt_of_lt_of_le hj honly.kept, ?_, fun x hx => ?_⟩
      · by_cases hje : j = e
        · rw [hheads j (Or.inr (hje ▸ hj))]
          exact hopens'
        · rw [hheads j (Or.inl hje)]
          exact hopens'
      · by_cases hje : j = e
        · rw [hje] at hj hinside' ⊢
          exact hkept hj x (hinside' x hx)
        · rw [honly.same j hje]
          exact hinside' x hx

include hopen hu in
/-- `k` goes into area `i`, which ends where it starts. -/
theorem OpenedBy.grow {i : ℕ} (hi : i < core.areaCount)
    (hcovers : Covers (core.inserted (u k)) (ByteOf u (k + 1)))
    (hsize : (u k).size.toNat = (u k).bytes) (hzero : (u k).physicalStart.toNat ≠ 0)
    (hstart : (core.ramAreas i).start ≠ (u k).stop)
    (hadj : (core.ramAreas i).start + (core.ramAreas i).size = (u k).physicalStart)
    (heq : core.inserted (u k) =
      core.setRamArea i ⟨(core.ramAreas i).start, (core.ramAreas i).size + (u k).size⟩) :
    OpenedBy u (k + 1) (core.inserted (u k)) head := by
  have hend := (hu.wellFormed k (by omega)).no_wrap
  obtain ⟨-, hcontains⟩ := grown_contains hstart hadj hzero (hopen.covers.no_wrap i hi) hsize hend
  obtain ⟨last, hlast, hopens, hstop⟩ := hopen.stop i hi
  have hself : (core.setRamArea i ⟨(core.ramAreas i).start,
      (core.ramAreas i).size + (u k).size⟩).ramAreas i =
        ⟨(core.ramAreas i).start, (core.ramAreas i).size + (u k).size⟩ := Function.update_self _ _ _
  rw [heq] at hcovers ⊢
  refine hopen.replace hcovers (onlyEntry_setRamArea i _) hi (fun _ _ => rfl) hopen.mono ?_
    (hopens.follow hlast (hstop.symm.trans hadj)) ?_ (fun x hx => ?_) fun _ x hx => ?_
  · rw [hself]
    exact hopen.start i hi
  · rw [hself]
    dsimp only
    rw [← UInt64.add_assoc, hadj]
    rfl
  · rw [hself]
    exact (hcontains x).mpr (Or.inr hx)
  · rw [hself]
    exact (hcontains x).mpr (Or.inl hx)

include hopen hu in
/-- `k` opens an area behind all the others. -/
theorem OpenedBy.append (hroom : core.areaCount < MAX_RAM_AREAS)
    (hcovers : Covers (core.inserted (u k)) (ByteOf u (k + 1)))
    (hsize : (u k).size.toNat = (u k).bytes) (hnone : ∀ i < core.areaCount, ¬ Adjoins core (u k) i)
    (heq : core.inserted (u k) =
      { core.setRamArea core.areaCount ⟨(u k).physicalStart, (u k).size⟩ with
        ramAreasSize := core.ramAreasSize + 1 }) :
    OpenedBy u (k + 1) (core.inserted (u k)) (Function.update head core.areaCount k) := by
  have hopens : Opens u k k := by
    refine Opens.self fun m hm hstop => ?_
    obtain ⟨a, ha, -, hinside⟩ := hopen.inside m hm
    exact hnone a ha (Or.inr (hopen.area_ends hu hm hstop ha hinside))
  have hcount := areaCount_append hroom ⟨(u k).physicalStart, (u k).size⟩
  have honly := onlyEntry_append hroom ⟨(u k).physicalStart, (u k).size⟩
  have hself : (core.inserted (u k)).ramAreas core.areaCount =
      ⟨(u k).physicalStart, (u k).size⟩ := by
    rw [heq]
    exact Function.update_self _ _ _
  rw [← heq] at hcount honly
  have hhead : ∀ j, j ≠ core.areaCount → Function.update head core.areaCount k j = head j :=
    fun j hj => Function.update_of_ne hj _ _
  have hhead_k : Function.update head core.areaCount k core.areaCount = k :=
    Function.update_self _ _ _
  refine hopen.replace hcovers honly (by omega) (fun j hj => hhead j (by omega))
    (fun i j hij hj => ?_) ?_ ?_ ?_ (fun x hx => ?_) fun hlt => absurd hlt (lt_irrefl _)
  · rw [hhead i (by omega)]
    by_cases hjc : j = core.areaCount
    · obtain ⟨last, hlast, hopens', -⟩ := hopen.stop i (by omega)
      rw [hjc, hhead_k]
      exact lt_of_le_of_lt hopens'.le hlast
    · rw [hhead j hjc]
      exact hopen.mono i j hij (by omega)
  · rw [hself, hhead_k]
  · rw [hhead_k]
    exact hopens
  · rw [hself]
    rfl
  · rw [hself, MemArea.Contains, hsize]
    exact hx

include hopen hu in
/-- **A descriptor that finds its place** leaves a table that the descriptors up to it opened. -/
theorem OpenedBy.step (hroom : core.areaCount < MAX_RAM_AREAS) (hfits : FindsPlace u k) :
    ∃ head', OpenedBy u (k + 1) (core.inserted (u k)) head' := by
  have hplaced : ¬ Misplaced core (u k) := hopen.not_misplaced hu hfits
  have hcovers : Covers (core.inserted (u k)) (ByteOf u (k + 1)) := by
    have hbytes : ByteOf u (k + 1) = fun x => ByteOf u k x ∨ (u k).Contains x :=
      funext fun x => propext byteOf_succ
    rw [hbytes]
    exact hopen.covers.insert hroom (hu.wellFormed k (by omega)) (fun _ => hu.new) hplaced
  have hend := (hu.wellFormed k (by omega)).no_wrap
  have hsmall := hfits.small
  have hsize : (u k).size.toNat = (u k).bytes := toNat_size (by omega)
  rcases inserted_cases core (u k) with
    ⟨i, -, hfind, -⟩ | ⟨i, hi, hfind, -, hstart, hadj, heq⟩ | ⟨-, hnone, heq⟩
  · exact absurd (Or.inl ⟨i, hfind⟩) hplaced
  · have hzero : (u k).physicalStart.toNat ≠ 0 := fun hz =>
      hplaced (Or.inr (Or.inl ⟨UInt64.toNat_inj.mp hz, i, hfind⟩))
    exact ⟨head, hopen.grow hu hi hcovers hsize hzero hstart hadj heq⟩
  · exact ⟨_, hopen.append hu hroom hcovers hsize hnone heq⟩

end Step

/-! ## The whole map -/

/-- What one insertion does when it returns. -/
theorem insertDesc_eq_ok {desc : EfiMemoryDescriptor}
    (h : insertDesc desc core = some (.ok (), core')) :
    core.areaCount < MAX_RAM_AREAS ∧ core' = core.inserted desc := by
  rw [insertDesc, Prog.bind_get_apply] at h
  obtain ⟨_, t, hcheck, hmodify⟩ := Prog.bind_eq_ok h
  obtain ⟨hroom, rfl⟩ := Prog.check_eq_ok hcheck
  exact ⟨of_decide_eq_true hroom, (congrArg Prod.snd (Option.some.inj hmodify)).symm⟩

/-- The loop skips the descriptors of the other types. -/
theorem fillDescs_filter (descs : List EfiMemoryDescriptor) :
    ∀ core, Prog.forEach fillDesc descs core =
      Prog.forEach insertDesc (usableDescs descs) core := by
  induction descs with
  | nil => intro core; rfl
  | cons desc descs ih =>
    intro core
    rw [Prog.forEach_cons]
    cases husable : isMemoryDescUsable desc with
    | true =>
      rw [usableDescs, List.filter_cons_of_pos husable, Prog.forEach_cons, fillDesc, husable,
        if_pos rfl]
      exact Prog.bind_congr fun _ t => ih t
    | false =>
      rw [usableDescs, List.filter_cons_of_neg (by simp [husable]), fillDesc, husable,
        if_neg Bool.false_ne_true, Prog.bind_pure_apply]
      exact ih core

/-- **A byte that neither the table nor the rest of the descriptors cover** is not covered in the
end. -/
theorem insertDescs_subset (descs : List EfiMemoryDescriptor) (core : CoreHeader)
    (h : Prog.forEach insertDesc descs core = some (.ok (), core')) :
    ∀ x < 2 ^ 64, core'.InRam x → core.InRam x ∨ ∃ desc ∈ descs, desc.Contains x := by
  refine Prog.forEach_eq_ok (fun done t => ∀ x < 2 ^ 64, t.InRam x →
    core.InRam x ∨ ∃ desc ∈ done, EfiMemoryDescriptor.Contains desc x)
    (fun done desc t t' ht hbody x hx hin => ?_) descs [] (fun _ _ hin => Or.inl hin) h
  obtain ⟨hroom, rfl⟩ := insertDesc_eq_ok hbody
  rcases inserted_subset hroom hx hin with hold | hnew
  · rcases ht x hx hold with hcore | ⟨d, hd, hdx⟩
    · exact Or.inl hcore
    · exact Or.inr ⟨d, List.mem_append_left _ hd, hdx⟩
  · exact Or.inr ⟨desc, List.mem_append_right _ (List.mem_singleton_self desc), hnew⟩

/-- **The loop from descriptor `k` on**: the table is right in the end if the rest of the descriptors
find their places, and else it lacks a byte. -/
theorem insertDescs_cases (hu : DisjointDescs u n) :
    ∀ (l k : ℕ) (core : CoreHeader) (head : ℕ → ℕ), k + l = n → OpenedBy u k core head →
      Prog.forEach insertDesc ((List.range' k l).map u) core = some (.ok (), core') →
      ((∀ m, k ≤ m → m < n → FindsPlace u m) ∧ Covers core' (ByteOf u n)) ∨
        ((∃ m < n, ¬ FindsPlace u m) ∧ ∃ y < 2 ^ 64, ByteOf u n y ∧ ¬ core'.InRam y) := by
  intro l
  induction l with
  | zero =>
    intro k core head hkn hopen h
    obtain rfl : core' = core := (congrArg Prod.snd (Option.some.inj h)).symm
    obtain rfl : k = n := by omega
    exact Or.inl ⟨fun m hkm hmk => by omega, hopen.covers⟩
  | succ l ih =>
    intro k core head hkn hopen h
    rw [List.range'_succ, List.map_cons, Prog.forEach_cons] at h
    obtain ⟨_, t, hbody, hrest⟩ := Prog.bind_eq_ok h
    obtain ⟨hroom, rfl⟩ := insertDesc_eq_ok hbody
    have huk : DisjointDescs u (k + 1) :=
      ⟨fun m hm => hu.wellFormed m (by omega),
        fun i hi j hj hij => hu.apart i (by omega) j (by omega) hij⟩
    by_cases hfits : FindsPlace u k
    · obtain ⟨head', hopen'⟩ := hopen.step huk hroom hfits
      rcases ih (k + 1) _ head' (by omega) hopen' hrest with ⟨hall, hcov⟩ | hbad
      · refine Or.inl ⟨fun m hkm hmn => ?_, hcov⟩
        by_cases hmk : m = k
        · exact hmk ▸ hfits
        · exact hall m (by omega) hmn
      · exact Or.inr hbad
    · -- the byte that this insertion loses stays lost
      obtain ⟨y, hy, hyU, hylost⟩ := misplaced_loses hopen.covers hroom
        (huk.wellFormed k (by omega)) (fun _ => huk.new) ((hopen.misplaced_iff huk).mpr hfits)
      obtain ⟨m, hm, hmy⟩ := byteOf_succ.mpr hyU
      refine Or.inr ⟨⟨k, by omega, hfits⟩, y, hy, ⟨m, by omega, hmy⟩, fun hin => ?_⟩
      rcases insertDescs_subset _ _ hrest y hy hin with hin | ⟨d, hd, hdy⟩
      · exact hylost hin
      · obtain ⟨j, hj, rfl⟩ := List.mem_map.mp hd
        rw [List.mem_range'_1] at hj
        exact hu.apart m (by omega) j (by omega) (by omega) y hmy hdy

theorem fillRamAreas_eq_ok {map : MemoryMap} (h : fillRamAreas map core = some (.ok (), core')) :
    Prog.forEach fillDesc map.descs core = some (.ok (), core') := by
  rw [fillRamAreas] at h
  obtain ⟨_, t₁, hsize, h₁⟩ := Prog.bind_eq_ok h
  obtain ⟨-, rfl⟩ := Prog.check_eq_ok hsize
  obtain ⟨_, t₂, hpool, h₂⟩ := Prog.bind_eq_ok h₁
  obtain ⟨-, rfl⟩ := Prog.check_eq_ok hpool
  obtain ⟨_, t₃, hread, h₃⟩ := Prog.bind_eq_ok h₂
  obtain ⟨-, rfl⟩ := Prog.check_eq_ok hread
  exact h₃

/-- An empty table has been opened by no descriptor. -/
theorem openedBy_empty (hempty : core.ramAreasSize = 0) : OpenedBy u 0 core head := by
  have hnone : ∀ i, ¬ i < core.areaCount := by
    intro i hi
    rw [CoreHeader.areaCount, hempty] at hi
    exact absurd hi (Nat.not_lt_zero i)
  have hcov : Covers core (ByteOf u 0) := by
    refine ⟨fun x _ => ⟨?_, ?_⟩, fun i hi => absurd hi (hnone i), fun i hi => absurd hi (hnone i),
      fun i hi => absurd hi (hnone i)⟩
    · rintro ⟨i, hi, -⟩
      exact absurd hi (hnone i)
    · rintro ⟨m, hm, -⟩
      exact absurd hm (by omega)
  exact ⟨hcov, fun _ j _ hj => absurd hj (hnone j), fun i hi => absurd hi (hnone i),
    fun i hi => absurd hi (hnone i), fun m hm => absurd hm (by omega)⟩

theorem nthDesc_eq {descs : List EfiMemoryDescriptor} (hk : k < descs.length) :
    nthDesc descs k = descs[k] := by
  rw [nthDesc, List.getD_eq_getElem?_getD, List.getElem?_eq_getElem hk, Option.getD_some]

theorem map_nthDesc (descs : List EfiMemoryDescriptor) :
    (List.range' 0 descs.length).map (nthDesc descs) = descs := by
  refine List.ext_getElem (by simp) fun i h₁ h₂ => ?_
  rw [List.getElem_map, List.getElem_range', Nat.zero_add, Nat.one_mul, nthDesc_eq h₂]

theorem byteOf_usableDescs {descs : List EfiMemoryDescriptor} {x : ℕ} :
    ByteOf (nthDesc (usableDescs descs)) (usableDescs descs).length x ↔ UsableByte descs x := by
  constructor
  · rintro ⟨k, hk, hx⟩
    rw [nthDesc_eq hk] at hx
    obtain ⟨hmem, husable⟩ := List.mem_filter.mp (List.getElem_mem hk)
    exact ⟨_, hmem, husable, hx⟩
  · rintro ⟨desc, hmem, husable, hx⟩
    obtain ⟨k, hk, hdesc⟩ := List.mem_iff_getElem.mp (List.mem_filter.mpr ⟨hmem, husable⟩)
    have hnth : nthDesc (usableDescs descs) k = desc := (nthDesc_eq hk).trans hdesc
    exact ⟨k, hk, hnth ▸ hx⟩

theorem EfiMemoryDescriptor.Apart.symm {d d' : EfiMemoryDescriptor} (h : d.Apart d') :
    d'.Apart d := fun x hx' hx => h x hx hx'

theorem disjointDescs_usableDescs {descs : List EfiMemoryDescriptor}
    (hwf : ∀ desc ∈ descs, desc.WellFormed) (hapart : descs.Pairwise EfiMemoryDescriptor.Apart) :
    DisjointDescs (nthDesc (usableDescs descs)) (usableDescs descs).length := by
  have hpair := List.pairwise_iff_getElem.mp (hapart.filter isMemoryDescUsable)
  refine ⟨fun k hk => ?_, fun j hj k hk hjk => ?_⟩
  · rw [nthDesc_eq hk]
    exact hwf _ (List.mem_filter.mp (List.getElem_mem hk)).1
  · rw [nthDesc_eq hj, nthDesc_eq hk]
    rcases Nat.lt_or_gt_of_ne hjk with hlt | hgt
    · exact hpair j k hj hk hlt
    · exact (hpair k j hk hj hgt).symm

/-- **The RAM table**: from an empty one, the areas that `fill_ram_areas` leaves are apart and cover
exactly the usable memory, if and only if every usable descriptor finds its place in the order of
the map. -/
theorem fillRamAreas_covers_iff (map : MemoryMap) (core core' : CoreHeader)
    (hwf : ∀ desc ∈ map.descs, desc.WellFormed)
    (hapart : map.descs.Pairwise EfiMemoryDescriptor.Apart) (hempty : core.ramAreasSize = 0)
    (hfill : fillRamAreas map core = some (.ok (), core')) :
    ((∀ x < 2 ^ 64, core'.InRam x ↔ UsableByte map.descs x) ∧ AreasApart core') ↔
      InOrder map.descs := by
  have hloop := fillRamAreas_eq_ok hfill
  rw [fillDescs_filter, ← map_nthDesc (usableDescs map.descs)] at hloop
  rcases insertDescs_cases (disjointDescs_usableDescs hwf hapart) _ 0 core id (Nat.zero_add _)
    (openedBy_empty hempty) hloop with ⟨hall, hcov⟩ | ⟨⟨m, hm, hnot⟩, y, hy, hyU, hylost⟩
  · refine ⟨fun _ k hk => hall k (Nat.zero_le k) hk, fun _ => ⟨fun x hx => ?_, hcov.apart⟩⟩
    rw [hcov.covers x hx, byteOf_usableDescs]
  · exact ⟨fun h => absurd ((h.1 y hy).mpr (byteOf_usableDescs.mp hyU)) hylost,
      fun hin => absurd (hin m hm) hnot⟩

/-- A memory map of two descriptors of conventional memory, of one page each: first the page at
`0x2000`, then the one at `0x1000`. -/
def descendingMap : MemoryMap where
  sizeKnown := true
  pool := true
  read := true
  bytes i :=
    if i = 0 ∨ i = 40 then 7 else if i = 9 then 0x20 else if i = 49 then 0x10
    else if i = 24 ∨ i = 64 then 1 else 0
  size := 80
  descSize := 40
  descSize_pos := by decide

theorem descendingMap_descs : descendingMap.descs = [⟨7, 0x2000, 1⟩, ⟨7, 0x1000, 1⟩] := by
  decide

theorem descendingMap_wellFormed :
    ∀ desc ∈ descendingMap.descs, desc.WellFormed ∧ EFI_PAGE_SIZE ∣ desc.physicalStart.toNat := by
  rw [descendingMap_descs]
  intro desc hdesc
  simp only [List.mem_cons, List.not_mem_nil, or_false] at hdesc
  rcases hdesc with rfl | rfl <;> exact ⟨⟨by decide, by decide⟩, by decide⟩

theorem descendingMap_apart : descendingMap.descs.Pairwise EfiMemoryDescriptor.Apart := by
  rw [descendingMap_descs]
  refine List.pairwise_pair.mpr fun x hx hx' => ?_
  have h1 : 0x2000 ≤ x := hx.1
  have h2 : x < 0x2000 := hx'.2
  omega

theorem fillRamAreas_descendingMap :
    fillRamAreas descendingMap emptyCore = some (.ok (),
      (emptyCore.inserted ⟨7, 0x2000, 1⟩).inserted ⟨7, 0x1000, 1⟩) := by
  have hdescs := descendingMap_descs
  rw [fillRamAreas, hdescs]
  rfl

/-- On the descending map the theorem says that the order decides. -/
theorem fillRamAreas_covers_iff_descending :
    ((∀ x < 2 ^ 64, ((emptyCore.inserted ⟨7, 0x2000, 1⟩).inserted ⟨7, 0x1000, 1⟩).InRam x ↔
        UsableByte descendingMap.descs x) ∧
      AreasApart ((emptyCore.inserted ⟨7, 0x2000, 1⟩).inserted ⟨7, 0x1000, 1⟩)) ↔
      InOrder descendingMap.descs :=
  fillRamAreas_covers_iff descendingMap emptyCore _
    (fun desc hdesc => (descendingMap_wellFormed desc hdesc).1) descendingMap_apart rfl
    fillRamAreas_descendingMap

/-- **A page is lost**: the page at `0x1000` is put in front of the area at `0x2000`, whose size
stays, so the table covers the first page and not the second. -/
theorem descending_map_loses_page :
    ∃ (map : MemoryMap) (core core' : CoreHeader),
      (∀ desc ∈ map.descs, desc.WellFormed ∧ EFI_PAGE_SIZE ∣ desc.physicalStart.toNat) ∧
      map.descs.Pairwise EfiMemoryDescriptor.Apart ∧ core.ramAreasSize = 0 ∧
      fillRamAreas map core = some (.ok (), core') ∧
      ¬ ((∀ x < 2 ^ 64, core'.InRam x ↔ UsableByte map.descs x) ∧ AreasApart core') := by
  refine ⟨descendingMap, emptyCore, _, descendingMap_wellFormed, descendingMap_apart, rfl,
    fillRamAreas_descendingMap, fun ⟨hcovers, _⟩ => ?_⟩
  have husable : UsableByte descendingMap.descs 0x2000 := by
    rw [descendingMap_descs]
    exact ⟨⟨7, 0x2000, 1⟩, List.mem_cons_self, by decide, by decide, by decide⟩
  obtain ⟨i, hi, hx⟩ := (hcovers 0x2000 (by decide)).mpr husable
  have hcount : ((emptyCore.inserted ⟨7, 0x2000, 1⟩).inserted ⟨7, 0x1000, 1⟩).areaCount = 1 := by
    decide
  obtain rfl : i = 0 := by omega
  have hend : ((emptyCore.inserted ⟨7, 0x2000, 1⟩).inserted ⟨7, 0x1000, 1⟩).areaStart 0 +
      ((emptyCore.inserted ⟨7, 0x2000, 1⟩).inserted ⟨7, 0x1000, 1⟩).areaSize 0 = 0x2000 := by
    decide
  exact absurd hx.2 (by rw [hend]; decide)

end SwitchOs
