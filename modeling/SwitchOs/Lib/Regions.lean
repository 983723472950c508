import SwitchOs.Lib.Cells
import Mathlib.Data.List.Pairwise

/-!
# Memory mapped region by region

A list of regions maps a range of physical memory to a range of virtual addresses each. `toVirtual` and
`toPhysical` go to and fro, and are inverse inside a region (`toPhysical_of_mem`) if no virtual address
is mapped twice. `loadLE` and `storeLE` are accesses through the map, byte by byte: they fault where a
byte is not mapped, and agree with plain accesses where the bytes lie in one region.
-/

namespace SwitchOs

/-- A range of physical memory, and where it is mapped to. -/
structure Region where
  physicalStart : ℕ
  virtualStart : ℕ
  length : ℕ
  deriving DecidableEq, Repr

namespace Region

/-- The physical address `p` lies in the region. -/
def Holds (r : Region) (p : ℕ) : Prop := r.physicalStart ≤ p ∧ p < r.physicalStart + r.length

instance (r : Region) (p : ℕ) : Decidable (r.Holds p) :=
  inferInstanceAs (Decidable (r.physicalStart ≤ p ∧ p < r.physicalStart + r.length))

/-- The virtual address `v` belongs to the region. -/
def Maps (r : Region) (v : ℕ) : Prop := r.virtualStart ≤ v ∧ v < r.virtualStart + r.length

instance (r : Region) (v : ℕ) : Decidable (r.Maps v) :=
  inferInstanceAs (Decidable (r.virtualStart ≤ v ∧ v < r.virtualStart + r.length))

end Region

/-- The virtual address of a physical one. -/
def toVirtual (rs : List Region) (p : ℕ) : Option ℕ :=
  (rs.find? fun r => r.Holds p).map fun r => r.virtualStart + (p - r.physicalStart)

/-- The physical address behind a virtual one. -/
def toPhysical (rs : List Region) (v : ℕ) : Option ℕ :=
  (rs.find? fun r => r.Maps v).map fun r => r.physicalStart + (v - r.virtualStart)

/-- No virtual address is mapped twice. -/
def Separate (rs : List Region) : Prop :=
  rs.Pairwise fun r r' => ∀ v, r.Maps v → ¬ r'.Maps v

variable {rs : List Region} {r : Region} {p v n : ℕ}

theorem toVirtual_eq_some (h : toVirtual rs p = some v) :
    ∃ r ∈ rs, r.Holds p ∧ v = r.virtualStart + (p - r.physicalStart) := by
  rw [toVirtual, Option.map_eq_some_iff] at h
  obtain ⟨r, hfind, rfl⟩ := h
  have hholds := List.find?_some hfind
  exact ⟨r, List.mem_of_find?_eq_some hfind, by simpa using hholds, rfl⟩

/-- What lies in a region has a virtual address. -/
theorem exists_toVirtual (hr : r ∈ rs) (hp : r.Holds p) : ∃ v, toVirtual rs p = some v := by
  have hfound : (rs.find? fun r => r.Holds p).isSome := by
    rw [List.find?_isSome]
    exact ⟨r, hr, decide_eq_true hp⟩
  obtain ⟨r', hr'⟩ := Option.isSome_iff_exists.mp hfound
  exact ⟨_, by rw [toVirtual, hr', Option.map_some]⟩

/-- The region that a virtual address is found in. -/
theorem find?_maps (hsep : Separate rs) (hr : r ∈ rs) (hv : r.Maps v) :
    (rs.find? fun r => r.Maps v) = some r := by
  induction rs with
  | nil => cases hr
  | cons r' rs ih =>
    obtain ⟨hhead, htail⟩ := List.pairwise_cons.mp hsep
    rcases List.mem_cons.mp hr with rfl | hmem
    · exact List.find?_cons_of_pos (decide_eq_true hv)
    · have hne : ¬ r'.Maps v := fun h => hhead r hmem v h hv
      rw [List.find?_cons_of_neg (by simpa using hne)]
      exact ih htail hmem

/-- The way back from the virtual addresses of a region. -/
theorem toPhysical_of_mem (hsep : Separate rs) (hr : r ∈ rs) {i : ℕ} (hi : i < r.length) :
    toPhysical rs (r.virtualStart + i) = some (r.physicalStart + i) := by
  rw [toPhysical, find?_maps hsep hr ⟨by omega, by omega⟩, Option.map_some, Nat.add_sub_cancel_left]

/-! ## Accesses -/

/-- The number in the `n` bytes from the virtual address `v` on. -/
def loadLE (rs : List Region) (mem : ℕ → UInt8) (v : ℕ) : ℕ → Option ℕ
  | 0 => some 0
  | n + 1 => do
    let p ← toPhysical rs v
    let rest ← loadLE rs mem (v + 1) n
    some ((mem p).toNat + 256 * rest)

/-- The number `x` stored in the `n` bytes from the virtual address `v` on. -/
def storeLE (rs : List Region) (mem : ℕ → UInt8) (v : ℕ) : ℕ → ℕ → Option (ℕ → UInt8)
  | 0, _ => some mem
  | n + 1, x => do
    let p ← toPhysical rs v
    storeLE rs (setCell mem p (UInt8.ofNat x)) (v + 1) n (x / 256)

/-- The `n` bytes from `v` on are those from `p` on. -/
def Maps (rs : List Region) (v p n : ℕ) : Prop := ∀ i < n, toPhysical rs (v + i) = some (p + i)

instance (rs : List Region) (v p n : ℕ) : Decidable (Maps rs v p n) :=
  inferInstanceAs (Decidable (∀ i < n, toPhysical rs (v + i) = some (p + i)))

theorem Maps.succ (h : Maps rs v p (n + 1)) :
    toPhysical rs v = some p ∧ Maps rs (v + 1) (p + 1) n := by
  refine ⟨h 0 (Nat.succ_pos n), fun i hi => ?_⟩
  rw [Nat.add_assoc, Nat.add_assoc, Nat.add_comm 1]
  exact h (i + 1) (by omega)

theorem Maps.drop {k : ℕ} (h : Maps rs v p (k + n)) : Maps rs (v + k) (p + k) n := fun i hi => by
  rw [Nat.add_assoc, Nat.add_assoc]
  exact h (k + i) (by omega)

/-- From an address of a region on as much is mapped as lies in the region. -/
theorem maps_of_mem (hsep : Separate rs) (hr : r ∈ rs) (hp : r.Holds p)
    (hend : p + n ≤ r.physicalStart + r.length) :
    Maps rs (r.virtualStart + (p - r.physicalStart)) p n := by
  obtain ⟨hstart, -⟩ := hp
  intro i hi
  rw [Nat.add_assoc, toPhysical_of_mem hsep hr (by omega)]
  congr 1
  omega

theorem loadLE_eq (mem : ℕ → UInt8) (h : Maps rs v p n) : loadLE rs mem v n = some (getLE mem p n) := by
  induction n generalizing v p with
  | zero => rfl
  | succ n ih =>
    obtain ⟨hfirst, hrest⟩ := h.succ
    rw [loadLE, hfirst, ih hrest]
    rfl

theorem putLE_succ (mem : ℕ → UInt8) (p n x : ℕ) :
    putLE mem p (n + 1) x = putLE (setCell mem p (UInt8.ofNat x)) (p + 1) n (x / 256) := by
  funext y
  rw [putLE, putLE]
  by_cases hbefore : y < p
  · rw [blit_outside (Or.inl hbefore), blit_outside (Or.inl (by omega)), setCell_ne _ _ (by omega)]
  by_cases hbehind : p + (n + 1) ≤ y
  · rw [blit_outside (Or.inr hbehind), blit_outside (Or.inr (by omega)), setCell_ne _ _ (by omega)]
  obtain ⟨i, rfl⟩ := Nat.exists_eq_add_of_le (Nat.le_of_not_lt hbefore)
  rw [blit_add (by omega), Nat.zero_add]
  cases i with
  | zero =>
    rw [blit_outside (Or.inl (by omega)), Nat.add_zero, setCell_self, pow_zero, Nat.div_one]
  | succ i =>
    rw [show p + (i + 1) = p + 1 + i by omega, blit_add (by omega), Nat.zero_add,
      Nat.div_div_eq_div_mul, ← pow_succ']

theorem storeLE_eq (mem : ℕ → UInt8) (x : ℕ) (h : Maps rs v p n) :
    storeLE rs mem v n x = some (putLE mem p n x) := by
  induction n generalizing mem v p x with
  | zero =>
    rw [storeLE, putLE, blit_zero]
  | succ n ih =>
    obtain ⟨hfirst, hrest⟩ := h.succ
    rw [storeLE, hfirst, putLE_succ]
    exact ih _ _ hrest

/-! ### Words of 32 bits -/

/-- The `uint32_t` at the virtual address `v`. -/
def load32 (rs : List Region) (mem : ℕ → UInt8) (v : ℕ) : Option UInt32 :=
  (loadLE rs mem v 4).map UInt32.ofNat

def store32 (rs : List Region) (mem : ℕ → UInt8) (v : ℕ) (x : UInt32) : Option (ℕ → UInt8) :=
  storeLE rs mem v 4 x.toNat

theorem load32_eq (mem : ℕ → UInt8) (h : Maps rs v p 4) : load32 rs mem v = some (get32 mem p) := by
  rw [load32, loadLE_eq mem h]
  rfl

theorem store32_eq (mem : ℕ → UInt8) (x : UInt32) (h : Maps rs v p 4) :
    store32 rs mem v x = some (put32 mem p x) :=
  storeLE_eq mem x.toNat h

end SwitchOs
