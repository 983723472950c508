import SwitchOs.Core.Header

/-!
# The dump header

`struct dump_header` (`core/dump.c`) as the bytes it is: what core writes to the first sectors of
the disk, and the local variable it fills or reads back. A header is a byte store; the fields are
read at their offsets (`magic` 0, `waking_vector` 4, `areas_size` 8, then 64 entries of 24 bytes
from 16 on, the struct padded to 2048 bytes). The padding, and for a local variable whatever lies
behind the struct, keep the bytes they had.

`fillDumpHeader_laidOut` says what `fill_dump_header` leaves: entry `i` is RAM area `i`, at the
sector after everything before it (`sectorOf`), cut to 32 bits.
-/

namespace SwitchOs

def VIRTIO_BLK_SECTOR_SIZE : ℕ := 512

/-- `sizeof(struct dump_header)`. -/
def DUMP_HEADER_SIZE : ℕ := 2048

def DUMP_HEADER_SECTORS_SIZE : ℕ := DUMP_HEADER_SIZE / VIRTIO_BLK_SECTOR_SIZE

/-- `offsetof(struct acpi_facs, rsvd1)`, where the saved waking vector is. -/
def FACS_RSVD1 : ℕ := 40

/-- `struct disk_mem_area`. -/
structure DiskMemArea where
  area : MemArea
  sector : UInt32
  deriving DecidableEq, Repr

/-- `struct dump_header`, as bytes. -/
abbrev DumpHeader := ℕ → UInt8

namespace DumpHeader

def magic (h : DumpHeader) : UInt32 := get32 h 0

def wakingVector (h : DumpHeader) : UInt32 := get32 h 4

def areasSize (h : DumpHeader) : UInt32 := get32 h 8

/-- `offsetof(struct dump_header, areas[i])`. -/
def areaOffset (i : ℕ) : ℕ := 16 + 24 * i

def areas (h : DumpHeader) (i : ℕ) : DiskMemArea :=
  ⟨⟨get64 h (areaOffset i), get64 h (areaOffset i + 8)⟩, get32 h (areaOffset i + 16)⟩

def setMagic (h : DumpHeader) (v : UInt32) : DumpHeader := put32 h 0 v

def setWakingVector (h : DumpHeader) (v : UInt32) : DumpHeader := put32 h 4 v

def setAreasSize (h : DumpHeader) (v : UInt32) : DumpHeader := put32 h 8 v

def setArea (h : DumpHeader) (i : ℕ) (a : DiskMemArea) : DumpHeader :=
  put32 (put64 (put64 h (areaOffset i) a.area.start) (areaOffset i + 8) a.area.size)
    (areaOffset i + 16) a.sector

end DumpHeader

open DumpHeader

/-- `find_original_waking_vector`: the first four bytes of `rsvd1`, unless they are zero. -/
def findOriginalWakingVector (core : CoreHeader) (mem : ℕ → UInt8) : Except Err UInt32 :=
  let wakingVector := get32 mem (core.facs.toNat + FACS_RSVD1)
  if wakingVector = 0 then .error .ERR_INVALID else .ok wakingVector

/-- The loop of `fill_dump_header`, from area `i` on with `n` areas left. -/
def fillDiskAreas (core : CoreHeader) (h : DumpHeader) (nextSector : UInt64) (i : ℕ) :
    ℕ → Except Err DumpHeader
  | 0 => .ok h
  | n + 1 =>
    let area := core.ramAreas i
    if area.size = 0 then .error .ERR_INVALID
    else if area.size % 512 ≠ 0 then .error .ERR_INVALID
    else fillDiskAreas core (h.setArea i ⟨area, nextSector.toUInt32⟩)
      (nextSector + area.size / 512) (i + 1) n

/-- `fill_dump_header`, on a header that holds the bytes `h`. -/
def fillDumpHeader (core : CoreHeader) (mem : ℕ → UInt8) (h : DumpHeader) :
    Except Err DumpHeader := do
  let h := h.setMagic CORE_DISK_DUMP_MAGIC
  let wakingVector ← findOriginalWakingVector core mem
  let h := h.setWakingVector wakingVector
  if core.ramAreasSize.toNat > MAX_RAM_AREAS then .error .ERR_INVALID
  else
    let h := h.setAreasSize core.ramAreasSize
    fillDiskAreas core h (UInt64.ofNat DUMP_HEADER_SECTORS_SIZE) 0 core.ramAreasSize.toNat

/-- `is_dump_header_valid`. -/
def isDumpHeaderValid (core : CoreHeader) (h : DumpHeader) : Bool :=
  if h.magic ≠ CORE_DISK_DUMP_MAGIC then false
  else if h.wakingVector = 0 then false
  else if h.areasSize = 0 then false
  else if (List.range h.areasSize.toNat).any fun i => (h.areas i).area.size == 0 then false
  else if h.areasSize ≠ core.ramAreasSize then false
  else if (List.range h.areasSize.toNat).any fun i =>
    (core.ramAreas i).start != (h.areas i).area.start ||
      (core.ramAreas i).size != (h.areas i).area.size then false
  else true

/-! ## Fields after a write -/

namespace DumpHeader

variable (h : DumpHeader) (v : UInt32) (a : DiskMemArea) {i j : ℕ}

@[simp] theorem magic_setMagic : (h.setMagic v).magic = v := get32_put32 _ _ _

@[simp] theorem wakingVector_setWakingVector : (h.setWakingVector v).wakingVector = v :=
  get32_put32 _ _ _

@[simp] theorem areasSize_setAreasSize : (h.setAreasSize v).areasSize = v := get32_put32 _ _ _

@[simp] theorem magic_setWakingVector : (h.setWakingVector v).magic = h.magic :=
  get32_put32_outside (by omega)

@[simp] theorem areasSize_setWakingVector : (h.setWakingVector v).areasSize = h.areasSize :=
  get32_put32_outside (by omega)

@[simp] theorem areas_setWakingVector : (h.setWakingVector v).areas i = h.areas i := by
  simp only [areas, setWakingVector, areaOffset]
  rw [get64_put32_outside (by omega), get64_put32_outside (by omega),
    get32_put32_outside (by omega)]

@[simp] theorem magic_setAreasSize : (h.setAreasSize v).magic = h.magic :=
  get32_put32_outside (by omega)

@[simp] theorem wakingVector_setAreasSize : (h.setAreasSize v).wakingVector = h.wakingVector :=
  get32_put32_outside (by omega)

/-- The fields in front of the entries do not change when an entry is written. -/
theorem get32_setArea {c : ℕ} (hc : c + 4 ≤ 16) : get32 (h.setArea i a) c = get32 h c := by
  simp only [setArea, areaOffset]
  rw [get32_put32_outside (by omega), get32_put64_outside (by omega),
    get32_put64_outside (by omega)]

@[simp] theorem magic_setArea : (h.setArea i a).magic = h.magic := get32_setArea h a (by omega)

@[simp] theorem wakingVector_setArea : (h.setArea i a).wakingVector = h.wakingVector :=
  get32_setArea h a (by omega)

@[simp] theorem areasSize_setArea : (h.setArea i a).areasSize = h.areasSize :=
  get32_setArea h a (by omega)

@[simp] theorem areas_setArea_self : (h.setArea i a).areas i = a := by
  simp only [areas, setArea]
  rw [get64_put32_outside (by omega), get64_put64_outside (by omega), get64_put64,
    get64_put32_outside (by omega), get64_put64, get32_put32]

theorem areas_setArea_ne (hij : j ≠ i) : (h.setArea i a).areas j = h.areas j := by
  have hoff : areaOffset j + 24 ≤ areaOffset i ∨ areaOffset i + 24 ≤ areaOffset j := by
    simp only [areaOffset]
    omega
  simp only [areas, setArea]
  rw [get64_put32_outside (by omega), get64_put64_outside (by omega),
    get64_put64_outside (by omega), get64_put32_outside (by omega),
    get64_put64_outside (by omega), get64_put64_outside (by omega),
    get32_put32_outside (by omega), get32_put64_outside (by omega),
    get32_put64_outside (by omega)]

/-- The entries of a header lie in its first 2048 bytes. -/
theorem areas_congr {h h' : DumpHeader} (hbytes : ∀ x < DUMP_HEADER_SIZE, h x = h' x)
    (hi : i < MAX_RAM_AREAS) : h.areas i = h'.areas i := by
  have hoff : areaOffset i + 24 ≤ DUMP_HEADER_SIZE := by
    simp only [areaOffset, DUMP_HEADER_SIZE, MAX_RAM_AREAS] at hi ⊢
    omega
  simp only [areas]
  rw [get64_congr (a := areaOffset i) (b := areaOffset i) fun k _ => hbytes _ (by omega),
    get64_congr (a := areaOffset i + 8) (b := areaOffset i + 8) fun k _ => hbytes _ (by omega),
    get32_congr (a := areaOffset i + 16) (b := areaOffset i + 16) fun k _ => hbytes _ (by omega)]

theorem get32_congr_header {h h' : DumpHeader} (hbytes : ∀ x < DUMP_HEADER_SIZE, h x = h' x)
    {c : ℕ} (hc : c + 4 ≤ 16) : get32 h c = get32 h' c :=
  get32_congr fun k _ => hbytes _ (by simp only [DUMP_HEADER_SIZE]; omega)

end DumpHeader

/-! ## The layout that `fill_dump_header` makes -/

/-- The sector after the header and the first `i` areas. -/
def sectorOf (core : CoreHeader) : ℕ → ℕ
  | 0 => DUMP_HEADER_SECTORS_SIZE
  | i + 1 => sectorOf core i + (core.ramAreas i).size.toNat / VIRTIO_BLK_SECTOR_SIZE

/-- Every area has a positive size that is a multiple of the sector size. -/
def AreasAligned (core : CoreHeader) : Prop :=
  ∀ i < core.ramAreasSize.toNat,
    (core.ramAreas i).size ≠ 0 ∧ (core.ramAreas i).size.toNat % VIRTIO_BLK_SECTOR_SIZE = 0

/-- `h` is a header for the RAM areas of `core` with waking vector `v`, entry `i` at `sectorOf i`. -/
structure LaidOut (core : CoreHeader) (v : UInt32) (h : DumpHeader) : Prop where
  magic : h.magic = CORE_DISK_DUMP_MAGIC
  wakingVector : h.wakingVector = v
  areasSize : h.areasSize = core.ramAreasSize
  areas : ∀ i < core.ramAreasSize.toNat,
    h.areas i = ⟨core.ramAreas i, UInt32.ofNat (sectorOf core i)⟩

theorem sectorOf_le (core : CoreHeader) (i : ℕ) : sectorOf core i ≤ 4 + i * 2 ^ 55 := by
  induction i with
  | zero => exact Nat.le_refl 4
  | succ i ih =>
    have hs := (core.ramAreas i).size.toNat_lt
    simp only [sectorOf, VIRTIO_BLK_SECTOR_SIZE]
    omega

/-- The sectors of 64 areas never overflow the 64-bit counter. -/
theorem sectorOf_lt (core : CoreHeader) {i : ℕ} (hi : i ≤ MAX_RAM_AREAS) :
    sectorOf core i < 2 ^ 62 := by
  have h := sectorOf_le core i
  simp only [MAX_RAM_AREAS] at hi
  omega

theorem fillDiskAreas_ok {core : CoreHeader} (haligned : AreasAligned core) :
    ∀ (n i : ℕ) (h : DumpHeader) (next : UInt64), i + n = core.ramAreasSize.toNat →
      core.ramAreasSize.toNat ≤ MAX_RAM_AREAS → next.toNat = sectorOf core i →
      ∃ h', fillDiskAreas core h next i n = .ok h' ∧ h'.magic = h.magic ∧
        h'.wakingVector = h.wakingVector ∧ h'.areasSize = h.areasSize ∧
        (∀ j < i, h'.areas j = h.areas j) ∧
        ∀ j, i ≤ j → j < core.ramAreasSize.toNat →
          h'.areas j = ⟨core.ramAreas j, UInt32.ofNat (sectorOf core j)⟩ := by
  intro n
  induction n with
  | zero =>
    intro i h next hn _ _
    exact ⟨h, rfl, rfl, rfl, rfl, fun _ _ => rfl, fun j h1 h2 => by omega⟩
  | succ n ih =>
    intro i h next hn hmax hnext
    obtain ⟨hpos, hmod⟩ := haligned i (by omega)
    have hmod' : ¬ (core.ramAreas i).size % 512 ≠ 0 := by
      rw [not_not, ← UInt64.toNat_inj]
      simpa [VIRTIO_BLK_SECTOR_SIZE] using hmod
    have hlt := sectorOf_lt core (i := i + 1) (by omega)
    have hsector : next.toUInt32 = UInt32.ofNat (sectorOf core i) := by
      rw [← hnext]
      exact UInt32.toNat_inj.mp (by simp)
    have hnext' : (next + (core.ramAreas i).size / 512).toNat = sectorOf core (i + 1) := by
      simp only [sectorOf, VIRTIO_BLK_SECTOR_SIZE] at hlt ⊢
      rw [UInt64.toNat_add, UInt64.toNat_div, hnext]
      exact Nat.mod_eq_of_lt (by simp; omega)
    obtain ⟨h', hfill, hm, hw, hs, hlow, hhigh⟩ :=
      ih (i + 1) (h.setArea i ⟨core.ramAreas i, next.toUInt32⟩) _ (by omega) hmax hnext'
    refine ⟨h', ?_, by simpa using hm, by simpa using hw, by simpa using hs, ?_, ?_⟩
    · rw [fillDiskAreas]
      simp only [hpos, hmod', if_false]
      exact hfill
    · intro j hj
      rw [hlow j (by omega), areas_setArea_ne _ _ (by omega)]
    · intro j hij hj
      rcases Nat.eq_or_lt_of_le hij with rfl | hlt'
      · rw [hlow i (by omega), areas_setArea_self, hsector]
      · exact hhigh j hlt' hj

/-- **What `fill_dump_header` writes.** With a saved waking vector, at most 64 areas and every area
a positive number of whole sectors, it succeeds with the layout of `LaidOut`. -/
theorem fillDumpHeader_laidOut {core : CoreHeader} {mem : ℕ → UInt8} {v : UInt32} (h : DumpHeader)
    (hv : findOriginalWakingVector core mem = .ok v)
    (hmax : core.ramAreasSize.toNat ≤ MAX_RAM_AREAS) (haligned : AreasAligned core) :
    ∃ h', fillDumpHeader core mem h = .ok h' ∧ LaidOut core v h' := by
  obtain ⟨h', hfill, hm, hw, hs, -, hareas⟩ := fillDiskAreas_ok haligned core.ramAreasSize.toNat 0
    (((h.setMagic CORE_DISK_DUMP_MAGIC).setWakingVector v).setAreasSize core.ramAreasSize)
    (UInt64.ofNat DUMP_HEADER_SECTORS_SIZE) (by omega) hmax rfl
  refine ⟨h', ?_, ⟨by simpa using hm, by simpa using hw, by simpa using hs,
    fun i hi => hareas i (by omega) hi⟩⟩
  simp only [fillDumpHeader, hv, bind, Except.bind]
  rw [if_neg (by omega)]
  exact hfill

theorem findOriginalWakingVector_ne_zero {core : CoreHeader} {mem : ℕ → UInt8} {v : UInt32}
    (hv : findOriginalWakingVector core mem = .ok v) : v ≠ 0 := by
  simp only [findOriginalWakingVector] at hv
  split_ifs at hv with hz
  cases hv
  exact hz

theorem findOriginalWakingVector_eq {core : CoreHeader} {mem : ℕ → UInt8}
    (h : get32 mem (core.facs.toNat + FACS_RSVD1) ≠ 0) :
    findOriginalWakingVector core mem = .ok (get32 mem (core.facs.toNat + FACS_RSVD1)) := by
  rw [findOriginalWakingVector, if_neg h]

/-! ## Validity -/

/-- What `is_dump_header_valid` accepts. -/
theorem isDumpHeaderValid_iff {core : CoreHeader} {h : DumpHeader} :
    isDumpHeaderValid core h = true ↔
      h.magic = CORE_DISK_DUMP_MAGIC ∧ h.wakingVector ≠ 0 ∧ h.areasSize ≠ 0 ∧
        h.areasSize = core.ramAreasSize ∧ ∀ i < core.ramAreasSize.toNat,
          (h.areas i).area.size ≠ 0 ∧ (h.areas i).area = core.ramAreas i := by
  have harea : ∀ i, (h.areas i).area = core.ramAreas i ↔
      (core.ramAreas i).start = (h.areas i).area.start ∧
        (core.ramAreas i).size = (h.areas i).area.size := by
    intro i
    rw [MemArea.mk.injEq]
    exact ⟨fun ⟨h1, h2⟩ => ⟨h1.symm, h2.symm⟩, fun ⟨h1, h2⟩ => ⟨h1.symm, h2.symm⟩⟩
  simp only [isDumpHeaderValid, harea]
  split_ifs with h1 h2 h3 h4 h5 h6
  · simp [h1]
  · simp [h2]
  · simp [h3]
  · refine ⟨nofun, fun ⟨_, _, _, hs, hall⟩ => ?_⟩
    simp only [List.any_eq_true, List.mem_range, beq_iff_eq] at h4
    obtain ⟨i, hi, hz⟩ := h4
    exact absurd hz (hall i (hs ▸ hi)).1
  · simp [h5]
  · refine ⟨nofun, fun ⟨_, _, _, hs, hall⟩ => ?_⟩
    simp only [List.any_eq_true, List.mem_range, Bool.or_eq_true, bne_iff_ne] at h6
    obtain ⟨i, hi, hne⟩ := h6
    obtain ⟨hstart, hsize⟩ := (hall i (hs ▸ hi)).2
    exact hne.elim (fun h => h hstart) fun h => h hsize
  · simp only [List.any_eq_true, List.mem_range, beq_iff_eq, not_exists, not_and,
      Bool.or_eq_true, bne_iff_ne, not_or, not_not] at h1 h4 h5 h6
    refine ⟨fun _ => ⟨h1, h2, h3, h5, fun i hi => ⟨h4 i (h5 ▸ hi), h6 i (h5 ▸ hi)⟩⟩, fun _ => rfl⟩

/-- Validity only looks at the bytes of the struct. -/
theorem isDumpHeaderValid_congr {core : CoreHeader} {h h' : DumpHeader}
    (hmax : core.ramAreasSize.toNat ≤ MAX_RAM_AREAS)
    (hbytes : ∀ x < DUMP_HEADER_SIZE, h x = h' x) :
    isDumpHeaderValid core h = isDumpHeaderValid core h' := by
  rw [Bool.eq_iff_iff, isDumpHeaderValid_iff, isDumpHeaderValid_iff]
  have hm : h.magic = h'.magic := get32_congr_header hbytes (by omega)
  have hw : h.wakingVector = h'.wakingVector := get32_congr_header hbytes (by omega)
  have hs : h.areasSize = h'.areasSize := get32_congr_header hbytes (by omega)
  have ha : ∀ i < core.ramAreasSize.toNat, h.areas i = h'.areas i := fun i hi =>
    areas_congr hbytes (by omega)
  rw [hm, hw, hs]
  refine and_congr_right fun _ => and_congr_right fun _ => and_congr_right fun _ =>
    and_congr_right fun _ => forall₂_congr fun i hi => ?_
  rw [ha i hi]

namespace LaidOut

variable {core : CoreHeader} {v : UInt32} {h h' : DumpHeader}

theorem congr (hl : LaidOut core v h) (hmax : core.ramAreasSize.toNat ≤ MAX_RAM_AREAS)
    (hbytes : ∀ x < DUMP_HEADER_SIZE, h' x = h x) : LaidOut core v h' where
  magic := (get32_congr_header hbytes (by omega)).trans hl.magic
  wakingVector := (get32_congr_header hbytes (by omega)).trans hl.wakingVector
  areasSize := (get32_congr_header hbytes (by omega)).trans hl.areasSize
  areas := fun i hi => (areas_congr hbytes (by omega)).trans (hl.areas i hi)

theorem setWakingVector (hl : LaidOut core v h) (w : UInt32) :
    LaidOut core w (h.setWakingVector w) where
  magic := by rw [magic_setWakingVector, hl.magic]
  wakingVector := wakingVector_setWakingVector _ _
  areasSize := by rw [areasSize_setWakingVector, hl.areasSize]
  areas := fun i hi => by rw [areas_setWakingVector, hl.areas i hi]

theorem valid (hl : LaidOut core v h) (hv : v ≠ 0) (hpos : core.ramAreasSize ≠ 0)
    (haligned : AreasAligned core) : isDumpHeaderValid core h = true :=
  isDumpHeaderValid_iff.mpr ⟨hl.magic, by rw [hl.wakingVector]; exact hv,
    by rw [hl.areasSize]; exact hpos, hl.areasSize, fun i hi => by
      rw [hl.areas i hi]
      exact ⟨(haligned i hi).1, rfl⟩⟩

end LaidOut

/-! ## What is not filled in -/

section Uninitialised

variable {core : CoreHeader} {mem mem' : ℕ → UInt8} {h h' r : DumpHeader} {x : ℕ}

theorem setArea_eq_at {i : ℕ} {a : DiskMemArea} (hx : h x = h' x) :
    h.setArea i a x = h'.setArea i a x := by
  simp only [DumpHeader.setArea, put32, put64, putLE, blit, hx]

/-- Areas are filled in alike, whatever the header held. -/
theorem fillDiskAreas_congr : ∀ (n i : ℕ) (h h' : DumpHeader) (next : UInt64) {r : DumpHeader},
    fillDiskAreas core h next i n = .ok r →
    ∃ r', fillDiskAreas core h' next i n = .ok r' ∧ ∀ x, h x = h' x → r x = r' x := by
  intro n
  induction n with
  | zero =>
    intro i h h' next r hfill
    obtain rfl : h = r := Except.ok.inj hfill
    exact ⟨h', rfl, fun _ hx => hx⟩
  | succ n ih =>
    intro i h h' next r hfill
    rw [fillDiskAreas] at hfill ⊢
    split at hfill
    case isTrue => cases hfill
    case isFalse hpos =>
      split at hfill
      case isTrue => cases hfill
      case isFalse hmod =>
        rw [if_neg hpos, if_neg hmod]
        obtain ⟨r', hfill', hr⟩ := ih _ _ (h'.setArea i ⟨core.ramAreas i, next.toUInt32⟩) _ hfill
        exact ⟨r', hfill', fun x hx => hr x (setArea_eq_at hx)⟩

/-- **`fill_dump_header` on two headers** fills in the same fields: where the headers were equal they
stay equal. -/
theorem fillDumpHeader_congr (h' : DumpHeader)
    (hv : findOriginalWakingVector core mem = findOriginalWakingVector core mem')
    (hfill : fillDumpHeader core mem h = .ok r) :
    ∃ r', fillDumpHeader core mem' h' = .ok r' ∧ ∀ x, h x = h' x → r x = r' x := by
  simp only [fillDumpHeader, ← hv, bind, Except.bind] at hfill ⊢
  split at hfill
  case h_1 => cases hfill
  case h_2 v _ =>
    split at hfill
    case isTrue => cases hfill
    case isFalse hmax =>
      simp only [if_neg hmax]
      obtain ⟨r', hfill', hr⟩ := fillDiskAreas_congr _ _ _
        (((h'.setMagic CORE_DISK_DUMP_MAGIC).setWakingVector v).setAreasSize core.ramAreasSize) _ hfill
      refine ⟨r', hfill', fun x hx => hr x ?_⟩
      simp only [setMagic, DumpHeader.setWakingVector, setAreasSize, put32, putLE, blit, hx]

/-- Without a saved vector it fails. -/
theorem fillDumpHeader_error {e : Err} (h : DumpHeader)
    (hv : findOriginalWakingVector core mem = .error e) : fillDumpHeader core mem h = .error e := by
  rw [fillDumpHeader, hv]
  rfl

end Uninitialised
end SwitchOs
