import SwitchOs.Uefi.RamAreas
import SwitchOs.Lib.Arc

/-!
# How small the RAM table stays

`insert_desc` merges a descriptor into the first area that it adjoins and looks no further. The
table stays merged, no area ending where another one begins, exactly as long as no descriptor adjoins
two of its areas, one on each side (`insertDescs_merged_iff`).

An area whose start was moved without its size does not end where its last descriptor does, so the
argument is about the addresses of the areas: they stay apart and within the descriptors inserted so
far (`Within`), and the end of such an area lies inside of what it and the descriptor had.
-/

namespace SwitchOs

/-- No area of the table ends where another one begins. -/
def Merged (core : CoreHeader) : Prop :=
  ∀ i < core.areaCount, ∀ j < core.areaCount, i ≠ j →
    (core.ramAreas i).start + (core.ramAreas i).size ≠ (core.ramAreas j).start

/-- One area of the table ends where the descriptor begins, and another one begins where it ends. -/
def Joins (core : CoreHeader) (desc : EfiMemoryDescriptor) : Prop :=
  ∃ i < core.areaCount, ∃ j < core.areaCount, i ≠ j ∧
    (core.ramAreas i).start + (core.ramAreas i).size = desc.physicalStart ∧
    (core.ramAreas j).start = desc.stop

/-- The address `x` belongs to the area, around the end of the address space. -/
def MemArea.HasAddress (a : MemArea) (x : UInt64) : Prop := OnArc a.start a.size x

/-- The address `x` belongs to the descriptor. -/
def EfiMemoryDescriptor.HasAddress (desc : EfiMemoryDescriptor) (x : UInt64) : Prop :=
  OnArc desc.physicalStart desc.size x

/-- The areas of the table have no address in common, and none outside `U`. -/
structure Within (core : CoreHeader) (U : UInt64 → Prop) : Prop where
  inside : ∀ i < core.areaCount, ∀ x, (core.ramAreas i).HasAddress x → U x
  apart : ∀ i < core.areaCount, ∀ j < core.areaCount, i ≠ j →
    ∀ x, (core.ramAreas i).HasAddress x → ¬ (core.ramAreas j).HasAddress x

variable {core core' : CoreHeader} {desc : EfiMemoryDescriptor} {U : UInt64 → Prop} {i : ℕ}

theorem hasAddress_iff (hwf : desc.WellFormed) (x : UInt64) :
    desc.HasAddress x ↔ desc.Contains x.toNat := by
  have hpos := hwf.pos
  have hend := hwf.no_wrap
  have hstart := desc.physicalStart.toNat_lt
  have hx := x.toNat_lt
  have h4096 : (UInt64.ofNat EFI_PAGE_SIZE).toNat = EFI_PAGE_SIZE := rfl
  have hsize : desc.size.toNat = desc.bytes % 2 ^ 64 := by
    rw [EfiMemoryDescriptor.size, UInt64.toNat_mul, h4096]
    rfl
  rw [EfiMemoryDescriptor.HasAddress, onArc_iff, EfiMemoryDescriptor.Contains, hsize]
  omega

/-! ## One insertion -/

/-- What an insertion does to the table: one entry is new, or it gains the descriptor at one end. -/
theorem inserted_entry (hroom : core.areaCount < MAX_RAM_AREAS) (desc : EfiMemoryDescriptor) :
    ∃ n < (core.inserted desc).areaCount, OnlyEntry n core (core.inserted desc) ∧
      ((n < core.areaCount ∧ (core.ramAreas n).start = desc.stop ∧
          (core.inserted desc).ramAreas n = ⟨desc.physicalStart, (core.ramAreas n).size⟩) ∨
        (n < core.areaCount ∧ (core.ramAreas n).start ≠ desc.stop ∧
          (core.ramAreas n).start + (core.ramAreas n).size = desc.physicalStart ∧
          (core.inserted desc).ramAreas n =
            ⟨(core.ramAreas n).start, (core.ramAreas n).size + desc.size⟩) ∨
        ((∀ i < core.areaCount, ¬ Adjoins core desc i) ∧
          (core.inserted desc).ramAreas n = ⟨desc.physicalStart, desc.size⟩)) := by
  rcases inserted_cases core desc with
    ⟨i, hi, -, -, hstart, heq⟩ | ⟨i, hi, -, -, hstart, hend, heq⟩ | ⟨-, hnone, heq⟩
  · rw [heq]
    exact ⟨i, hi, onlyEntry_setRamArea i _, Or.inl ⟨hi, hstart, Function.update_self _ _ _⟩⟩
  · rw [heq]
    exact ⟨i, hi, onlyEntry_setRamArea i _,
      Or.inr (Or.inl ⟨hi, hstart, hend, Function.update_self _ _ _⟩)⟩
  · rw [heq]
    refine ⟨core.areaCount, ?_, onlyEntry_append hroom _,
      Or.inr (Or.inr ⟨hnone, Function.update_self _ _ _⟩)⟩
    rw [areaCount_append hroom]
    exact Nat.lt_succ_self _

/-- An entry that gains nothing but the descriptor keeps the areas apart. -/
theorem Within.replace {n : ℕ} (h : Within core U) (hnew : ∀ x, desc.HasAddress x → ¬ U x)
    (honly : OnlyEntry n core core')
    (hself : ∀ x, (core'.ramAreas n).HasAddress x →
      desc.HasAddress x ∨ n < core.areaCount ∧ (core.ramAreas n).HasAddress x) :
    Within core' fun x => U x ∨ desc.HasAddress x := by
  have hclear : ∀ j < core.areaCount, j ≠ n → ∀ x, (core'.ramAreas n).HasAddress x →
      ¬ (core.ramAreas j).HasAddress x := by
    intro j hj hjn x hx hxj
    rcases hself x hx with hdesc | ⟨hn, hold⟩
    · exact hnew x hdesc (h.inside j hj x hxj)
    · exact h.apart n hn j hj (Ne.symm hjn) x hold hxj
  refine ⟨fun j hj x hx => ?_, fun j hj k hk hjk x hxj hxk => ?_⟩
  · by_cases hjn : j = n
    · rw [hjn] at hx
      rcases hself x hx with hdesc | ⟨hn, hold⟩
      · exact Or.inr hdesc
      · exact Or.inl (h.inside n hn x hold)
    · rw [honly.same j hjn] at hx
      exact Or.inl (h.inside j (honly.old j hj hjn) x hx)
  · by_cases hjn : j = n
    · have hkn : k ≠ n := fun hkn => hjk (hjn.trans hkn.symm)
      rw [hjn] at hxj
      rw [honly.same k hkn] at hxk
      exact hclear k (honly.old k hk hkn) hkn x hxj hxk
    · have hj' := honly.old j hj hjn
      rw [honly.same j hjn] at hxj
      by_cases hkn : k = n
      · rw [hkn] at hxk
        exact hclear j hj' hjn x hxk hxj
      · rw [honly.same k hkn] at hxk
        exact h.apart j hj' k (honly.old k hk hkn) hjk x hxj hxk

section Step

variable (h : Within core U) (hroom : core.areaCount < MAX_RAM_AREAS)
  (hnew : ∀ x, desc.HasAddress x → ¬ U x)

include h hroom hnew in
/-- **An insertion keeps the areas apart** and adds the addresses of the descriptor at most. -/
theorem Within.inserted : Within (core.inserted desc) fun x => U x ∨ desc.HasAddress x := by
  obtain ⟨n, -, honly, hcases⟩ := inserted_entry hroom desc
  refine h.replace hnew honly fun x hx => ?_
  rcases hcases with ⟨hn, hstart, hself⟩ | ⟨hn, -, hend, hself⟩ | ⟨-, hself⟩
  · rw [hself] at hx
    rw [MemArea.HasAddress, hstart]
    exact (OnArc.of_moved hx).imp_right fun hold => ⟨hn, hold⟩
  · rw [hself] at hx
    rw [EfiMemoryDescriptor.HasAddress, ← hend]
    exact (OnArc.of_grown hx).symm.imp_right fun hold => ⟨hn, hold⟩
  · rw [hself] at hx
    exact Or.inl hx

/-- A table stays merged if its new or changed entry touches no other one. -/
theorem Merged.replace {n : ℕ} (hm : Merged core) (honly : OnlyEntry n core core')
    (hfront : ∀ j < core.areaCount, j ≠ n →
      (core.ramAreas j).start + (core.ramAreas j).size ≠ (core'.ramAreas n).start)
    (hback : ∀ j < core.areaCount, j ≠ n →
      (core'.ramAreas n).start + (core'.ramAreas n).size ≠ (core.ramAreas j).start) :
    Merged core' := by
  intro j hj k hk hjk
  by_cases hjn : j = n
  · have hkn : k ≠ n := fun hkn => hjk (hjn.trans hkn.symm)
    rw [hjn, honly.same k hkn]
    exact hback k (honly.old k hk hkn) hkn
  · have hj' := honly.old j hj hjn
    rw [honly.same j hjn]
    by_cases hkn : k = n
    · rw [hkn]
      exact hfront j hj' hjn
    · rw [honly.same k hkn]
      exact hm j hj' k (honly.old k hk hkn) hjk

include h hroom hnew in
/-- **A descriptor that does not join two areas** keeps the table merged. -/
theorem Merged.inserted (hm : Merged core) (hjoins : ¬ Joins core desc) :
    Merged (core.inserted desc) := by
  obtain ⟨n, -, honly, hcases⟩ := inserted_entry hroom desc
  rcases hcases with ⟨hn, hstart, hself⟩ | ⟨hn, -, hend, hself⟩ | ⟨hnone, hself⟩
  · -- entry `n` begins where the descriptor does, and keeps its size
    refine hm.replace honly (fun j hj hjn htouch => ?_) fun j hj hjn htouch => ?_
    · rw [hself] at htouch
      exact hjoins ⟨j, hj, n, hn, hjn, htouch, hstart⟩
    · rw [hself] at htouch
      have hmine : (core.ramAreas j).HasAddress (desc.physicalStart + (core.ramAreas n).size) := by
        simp only at htouch
        rw [htouch]
        exact onArc_start _ _
      rcases onArc_end_moved desc.physicalStart (core.ramAreas n).size desc.size with hdesc | hold
      · exact hnew _ hdesc (h.inside j hj _ hmine)
      · refine h.apart n hn j hj (Ne.symm hjn) _ ?_ hmine
        rw [MemArea.HasAddress, hstart]
        exact hold
  · -- entry `n` ends where the descriptor does
    refine hm.replace honly (fun j hj hjn htouch => ?_) fun j hj hjn htouch => ?_
    · rw [hself] at htouch
      exact hm j hj n hn hjn htouch
    · rw [hself] at htouch
      simp only at htouch
      rw [← UInt64.add_assoc, hend] at htouch
      exact hjoins ⟨n, hn, j, hj, Ne.symm hjn, hend, htouch.symm⟩
  · refine hm.replace honly (fun j hj _ htouch => ?_) fun j hj _ htouch => ?_
    · rw [hself] at htouch
      exact hnone j hj (Or.inr htouch)
    · rw [hself] at htouch
      exact hnone j hj (Or.inl htouch.symm)

include h hroom in
/-- **A descriptor that joins two areas** leaves them apart in the table. -/
theorem not_merged_inserted (hjoins : Joins core desc) : ¬ Merged (core.inserted desc) := by
  obtain ⟨i, hi, j, hj, hij, hends, hbegins⟩ := hjoins
  obtain ⟨n, hn', honly, hcases⟩ := inserted_entry hroom desc
  intro hm
  rcases hcases with ⟨hn, hstart, hself⟩ | ⟨hn, hne, hend, hself⟩ | ⟨hnone, -⟩
  · -- area `i` ends where entry `n` now begins
    by_cases hin : i = n
    · refine h.apart i hi j hj hij (core.ramAreas i).start (onArc_start _ _) ?_
      rw [hin, hstart, ← hbegins]
      exact onArc_start _ _
    · refine hm i (lt_of_lt_of_le hi honly.kept) n hn' hin ?_
      rw [honly.same i hin, hself, hends]
  · -- entry `n` now ends where area `j` begins
    have hjn : j ≠ n := fun hjn => hne (hjn ▸ hbegins)
    refine hm n hn' j (lt_of_lt_of_le hj honly.kept) (Ne.symm hjn) ?_
    rw [honly.same j hjn, hself, hbegins]
    simp only
    rw [← UInt64.add_assoc, hend]
    rfl
  · exact hnone i hi (Or.inr hends)

end Step

/-! ## Sequences of insertions -/

/-- The calls of `insert_desc` for the descriptors of the list, in order, all succeed. -/
def Inserts (core : CoreHeader) (descs : List EfiMemoryDescriptor) (core' : CoreHeader) : Prop :=
  Prog.forEach insertDesc descs core = some (.ok (), core')

/-- The address `x` belongs to a descriptor of the list. -/
def AddressOf (descs : List EfiMemoryDescriptor) (x : UInt64) : Prop :=
  ∃ desc ∈ descs, desc.HasAddress x

variable {descs pre : List EfiMemoryDescriptor}

theorem inserts_snoc : Inserts core (pre ++ [desc]) core' ↔
    ∃ t, Inserts core pre t ∧ t.areaCount < MAX_RAM_AREAS ∧ core' = t.inserted desc := by
  constructor
  · intro h
    rw [Inserts, Prog.forEach_append] at h
    obtain ⟨_, t, hpre, hlast⟩ := Prog.bind_eq_ok h
    rw [Prog.forEach_singleton] at hlast
    exact ⟨t, hpre, insertDesc_eq_ok hlast⟩
  · rintro ⟨t, hpre, hroom, rfl⟩
    rw [Inserts, Prog.forEach_append, Prog.bind_ok hpre, Prog.forEach_singleton,
      insertDesc_room hroom]

/-- The descriptors of a memory map: nonempty ranges of addresses, no two of which meet. -/
structure ApartDescs (descs : List EfiMemoryDescriptor) : Prop where
  wellFormed : ∀ desc ∈ descs, desc.WellFormed
  apart : descs.Pairwise EfiMemoryDescriptor.Apart

theorem ApartDescs.of_prefix (h : ApartDescs descs) (hpre : pre <+: descs) : ApartDescs pre :=
  ⟨fun desc hdesc => h.wellFormed desc (hpre.subset hdesc), h.apart.sublist hpre.sublist⟩

/-- The last descriptor has no address in common with the ones before it. -/
theorem ApartDescs.new (h : ApartDescs (pre ++ [desc])) (x : UInt64) (hx : desc.HasAddress x) :
    ¬ AddressOf pre x := by
  rintro ⟨d, hd, hdx⟩
  rw [hasAddress_iff (h.wellFormed desc (by simp))] at hx
  rw [hasAddress_iff (h.wellFormed d (by simp [hd]))] at hdx
  exact (List.pairwise_append.mp h.apart).2.2 d hd desc (by simp) _ hdx hx

theorem within_empty (hempty : core.ramAreasSize = 0) : Within core (AddressOf []) := by
  have hnone : ∀ i, ¬ i < core.areaCount := by
    intro i hi
    rw [CoreHeader.areaCount, hempty] at hi
    exact absurd hi (Nat.not_lt_zero i)
  exact ⟨fun i hi => absurd hi (hnone i), fun i hi => absurd hi (hnone i)⟩

/-- **Every table that is reached** has areas that are apart and lie within the descriptors. -/
theorem Inserts.within (hempty : core.ramAreasSize = 0) (hdescs : ApartDescs descs) :
    ∀ core', Inserts core descs core' → Within core' (AddressOf descs) := by
  induction descs using List.reverseRecOn with
  | nil =>
    intro core' h
    obtain rfl : core' = core := (congrArg Prod.snd (Option.some.inj h)).symm
    exact within_empty hempty
  | append_singleton pre desc ih =>
    intro core' h
    obtain ⟨t, hpre, hroom, rfl⟩ := inserts_snoc.mp h
    have hwithin := (ih (hdescs.of_prefix (List.prefix_append _ _)) t hpre).inserted hroom hdescs.new
    have hall : AddressOf (pre ++ [desc]) = fun x => AddressOf pre x ∨ desc.HasAddress x := by
      funext x
      simp [AddressOf, or_and_right, exists_or]
    rwa [hall]

/-- Every table reached in the course of the calls is merged. -/
def MergedThroughout (core : CoreHeader) (descs : List EfiMemoryDescriptor) : Prop :=
  ∀ pre core', pre <+: descs → Inserts core pre core' → Merged core'

/-- No call gets a descriptor that joins two areas of the table, as it then is. -/
def NeverJoins (core : CoreHeader) (descs : List EfiMemoryDescriptor) : Prop :=
  ∀ pre desc core', pre ++ [desc] <+: descs → Inserts core pre core' →
    core'.areaCount < MAX_RAM_AREAS → ¬ Joins core' desc

/-- **When the table stays merged**: if and only if no descriptor of the sequence joins two areas of
the table that it is inserted into. -/
theorem insertDescs_merged_iff (hdescs : ApartDescs descs) (hempty : core.ramAreasSize = 0) :
    MergedThroughout core descs ↔ NeverJoins core descs := by
  constructor
  · intro hmerged pre desc t hsnoc hpre hroom hjoins
    have hhead : ApartDescs pre := hdescs.of_prefix ((List.prefix_append _ _).trans hsnoc)
    exact not_merged_inserted (Inserts.within hempty hhead t hpre) hroom hjoins
      (hmerged _ _ hsnoc (inserts_snoc.mpr ⟨t, hpre, hroom, rfl⟩))
  · intro hjoins pre
    induction pre using List.reverseRecOn with
    | nil =>
      intro core' _ h i hi
      obtain rfl : core' = core := (congrArg Prod.snd (Option.some.inj h)).symm
      rw [CoreHeader.areaCount, hempty] at hi
      exact absurd hi (Nat.not_lt_zero i)
    | append_singleton pre desc ih =>
      intro core' hsnoc h
      obtain ⟨t, hpre, hroom, rfl⟩ := inserts_snoc.mp h
      have hall : ApartDescs (pre ++ [desc]) := hdescs.of_prefix hsnoc
      have hhead : pre <+: descs := (List.prefix_append _ _).trans hsnoc
      exact Merged.inserted (Inserts.within hempty (hdescs.of_prefix hhead) t hpre) hroom hall.new
        (ih t hhead hpre) (hjoins pre desc t hsnoc hpre hroom)

/-- Three pages of conventional memory, the one in the middle last. -/
def gapDescs : List EfiMemoryDescriptor := [⟨7, 0x1000, 1⟩, ⟨7, 0x3000, 1⟩, ⟨7, 0x2000, 1⟩]

theorem gapDescs_apart : ApartDescs gapDescs := by
  refine ⟨fun desc hdesc => ?_, ?_⟩
  · simp only [gapDescs, List.mem_cons, List.not_mem_nil, or_false] at hdesc
    rcases hdesc with rfl | rfl | rfl <;> exact ⟨by decide, by decide⟩
  · have hpair : gapDescs.Pairwise fun d d' =>
        d.physicalStart.toNat + d.bytes ≤ d'.physicalStart.toNat ∨
          d'.physicalStart.toNat + d'.bytes ≤ d.physicalStart.toNat := by
      decide
    refine hpair.imp fun {d d'} hle x hx hx' => ?_
    unfold EfiMemoryDescriptor.Contains at hx hx'
    omega

theorem insertDescs_merged_iff_gapDescs :
    MergedThroughout emptyCore gapDescs ↔ NeverJoins emptyCore gapDescs :=
  insertDescs_merged_iff gapDescs_apart rfl

/-- **A gap that is filled last**: the page in the middle goes into the first area, which now ends
where the second one begins. -/
theorem gapDescs_not_merged : ApartDescs gapDescs ∧
    (∀ desc ∈ gapDescs, EFI_PAGE_SIZE ∣ desc.physicalStart.toNat) ∧ emptyCore.ramAreasSize = 0 ∧
    ∃ core', Inserts emptyCore gapDescs core' ∧ ¬ Merged core' := by
  refine ⟨gapDescs_apart, ?_, rfl, _, rfl, fun hmerged => ?_⟩
  · decide
  · exact hmerged 0 (by decide) 1 (by decide) (by decide) (by decide)

end SwitchOs
