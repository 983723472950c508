import Mathlib.Data.List.Range
import Mathlib.Tactic.Common
import Mathlib.Tactic.Ring

/-!
# Stores of numbered cells

A store `ℕ → α` gives every cell number its content: a byte-addressed memory, a disk, a buffer.

* `blit dst a src b n` copies `n` cells of `src` from `b` on over those of `dst` from `a` on, all
  at once; `copyCells` is the same copy made cell by cell inside one store, as a `memcpy` loop
  makes it, and `copyCells_eq_blit` says when the two agree.
* `window σ a n` is the list of the `n` cells from `a` on.
* `getLE`, `putLE` read and write a number as little-endian bytes.
* `byteSum σ a n` is the sum of `n` bytes, as a byte.
-/

namespace SwitchOs

variable {α : Type}

/-- `dst` with its `n` cells from `a` on replaced by those of `src` from `b` on. -/
def blit (dst : ℕ → α) (a : ℕ) (src : ℕ → α) (b n : ℕ) : ℕ → α :=
  fun x => if a ≤ x ∧ x < a + n then src (b + (x - a)) else dst x

theorem blit_add {dst src : ℕ → α} {a b n i : ℕ} (hi : i < n) :
    blit dst a src b n (a + i) = src (b + i) := by
  rw [blit, if_pos ⟨by omega, by omega⟩, Nat.add_sub_cancel_left]

theorem blit_outside {dst src : ℕ → α} {a b n x : ℕ} (h : x < a ∨ a + n ≤ x) :
    blit dst a src b n x = dst x := by
  rw [blit, if_neg (by omega)]

/-- A copy only depends on the cells that are copied. -/
theorem blit_congr {dst src src' : ℕ → α} {a b n : ℕ} (h : ∀ i < n, src (b + i) = src' (b + i)) :
    blit dst a src b n = blit dst a src' b n := by
  funext x
  by_cases hx : a ≤ x ∧ x < a + n
  · obtain ⟨i, rfl⟩ := Nat.exists_eq_add_of_le hx.1
    rw [blit_add (by omega), blit_add (by omega), h i (by omega)]
  · rw [blit_outside (by omega), blit_outside (by omega)]

@[simp] theorem blit_zero (dst src : ℕ → α) (a b : ℕ) : blit dst a src b 0 = dst := by
  funext x
  exact blit_outside (by omega)

/-! ## Copying inside one store, cell by cell -/

/-- `σ` with the cell `x` replaced. -/
def setCell (σ : ℕ → α) (x : ℕ) (v : α) : ℕ → α := fun y => if y = x then v else σ y

theorem setCell_self (σ : ℕ → α) (x : ℕ) (v : α) : setCell σ x v x = v := if_pos rfl

theorem setCell_ne (σ : ℕ → α) {x y : ℕ} (v : α) (h : y ≠ x) : setCell σ x v y = σ y := if_neg h

/-- `n` cells from `src` on copied to `dst` on, lowest first, inside one store. -/
def copyCells (σ : ℕ → α) (dst src : ℕ) : ℕ → ℕ → α
  | 0 => σ
  | n + 1 =>
    let σ' := copyCells σ dst src n
    setCell σ' (dst + n) (σ' (src + n))

theorem copyCells_eq_blit (σ : ℕ → α) (dst src : ℕ) :
    ∀ n, dst + n ≤ src ∨ src + n ≤ dst → copyCells σ dst src n = blit σ dst σ src n
  | 0, _ => (blit_zero _ _ _ _).symm
  | n + 1, h => by
    have ih := copyCells_eq_blit σ dst src n (by omega)
    have hsrc : blit σ dst σ src n (src + n) = σ (src + n) := blit_outside (by omega)
    funext x
    simp only [copyCells, ih, hsrc, setCell]
    by_cases hx : x = dst + n
    · subst hx
      rw [if_pos rfl, blit_add (by omega)]
    · rw [if_neg hx]
      by_cases hin : dst ≤ x ∧ x < dst + n
      · obtain ⟨i, rfl⟩ := Nat.exists_eq_add_of_le hin.1
        rw [blit_add (by omega), blit_add (by omega)]
      · rw [blit_outside (by omega), blit_outside (by omega)]

/-- A copy writes to nothing but its target. -/
theorem copyCells_outside (σ : ℕ → α) (dst src : ℕ) {x : ℕ} :
    ∀ {n : ℕ}, x < dst ∨ dst + n ≤ x → copyCells σ dst src n x = σ x
  | 0, _ => rfl
  | n + 1, h => by
    rw [copyCells]
    exact (setCell_ne _ _ (by omega)).trans (copyCells_outside σ dst src (by omega))

/-- Stores that agree on some cells, those copied among them, agree on these after the copy. -/
theorem copyCells_congr {σ τ : ℕ → α} {S : ℕ → Prop} (h : ∀ x, S x → σ x = τ x) (dst src : ℕ) :
    ∀ {n : ℕ}, (∀ i < n, S (src + i)) → ∀ x, S x → copyCells σ dst src n x = copyCells τ dst src n x
  | 0, _ => h
  | n + 1, hsrc => by
    have ih := copyCells_congr h dst src (n := n) fun i hi => hsrc i (by omega)
    intro x hx
    rw [copyCells, copyCells]
    by_cases hcell : x = dst + n
    · subst hcell
      rw [setCell_self, setCell_self]
      exact ih _ (hsrc n (by omega))
    · rw [setCell_ne _ _ hcell, setCell_ne _ _ hcell]
      exact ih x hx

/-! ## Windows -/

/-- The `n` cells of `σ` from `a` on. -/
def window (σ : ℕ → α) (a n : ℕ) : List α := (List.range n).map fun i => σ (a + i)

@[simp] theorem length_window (σ : ℕ → α) (a n : ℕ) : (window σ a n).length = n := by
  simp [window]

theorem window_eq_window {σ τ : ℕ → α} {a b n : ℕ} :
    window σ a n = window τ b n ↔ ∀ i < n, σ (a + i) = τ (b + i) := by
  simp [window, List.map_inj_left]

theorem window_blit (dst src : ℕ → α) (a b n : ℕ) :
    window (blit dst a src b n) a n = window src b n :=
  window_eq_window.mpr fun _ hi => blit_add hi

theorem window_blit_outside {dst src : ℕ → α} {a b n c m : ℕ} (h : c + m ≤ a ∨ a + n ≤ c) :
    window (blit dst a src b n) c m = window dst c m :=
  window_eq_window.mpr fun _ _ => blit_outside (by omega)

theorem window_add (σ : ℕ → α) (a m n : ℕ) :
    window σ a (m + n) = window σ a m ++ window σ (a + m) n := by
  rw [window, List.range_add, List.map_append, List.map_map, window, window]
  congr 1
  exact List.map_congr_left fun i _ => congrArg σ (Nat.add_assoc a m i).symm

theorem window_eq_list {σ : ℕ → α} {a : ℕ} {l : List α} (d : α)
    (h : ∀ i < l.length, σ (a + i) = l.getD i d) : window σ a l.length = l := by
  refine List.ext_getElem (length_window _ _ _) fun i hi hi' => ?_
  simp only [window, List.getElem_map, List.getElem_range]
  rw [h i hi', ← List.getElem_eq_getD]

/-! ## Little-endian numbers -/

/-- The number that the `n` bytes from `a` on hold, lowest byte first. -/
def getLE (σ : ℕ → UInt8) (a : ℕ) : ℕ → ℕ
  | 0 => 0
  | n + 1 => (σ a).toNat + 256 * getLE σ (a + 1) n

/-- `σ` with the `n` bytes from `a` on holding the low `n` bytes of `v`. -/
def putLE (σ : ℕ → UInt8) (a n v : ℕ) : ℕ → UInt8 :=
  blit σ a (fun i => UInt8.ofNat (v / 256 ^ i)) 0 n

theorem getLE_congr {σ τ : ℕ → UInt8} :
    ∀ {n a b : ℕ}, (∀ i < n, σ (a + i) = τ (b + i)) → getLE σ a n = getLE τ b n
  | 0, _, _, _ => rfl
  | n + 1, a, b, h => by
    have ih : getLE σ (a + 1) n = getLE τ (b + 1) n := getLE_congr fun i hi => by
      simpa [Nat.add_assoc, Nat.add_comm 1] using h (i + 1) (by omega)
    have h0 := h 0 (by omega)
    simp only [Nat.add_zero] at h0
    rw [getLE, getLE, ih, h0]

/-- The number read from bytes that are the digits of `v` is the low part of `v`. -/
theorem getLE_digits {σ : ℕ → UInt8} {v : ℕ} :
    ∀ (n a k : ℕ), (∀ i < n, σ (a + i) = UInt8.ofNat (v / 256 ^ (k + i))) →
      getLE σ a n = v / 256 ^ k % 256 ^ n
  | 0, _, _, _ => by simp [getLE, Nat.mod_one]
  | n + 1, a, k, h => by
    have ih := getLE_digits (σ := σ) (v := v) n (a + 1) (k + 1) fun i hi => by
      simpa [Nat.add_assoc, Nat.add_comm 1] using h (i + 1) (by omega)
    have h0 : σ a = UInt8.ofNat (v / 256 ^ k) := by simpa using h 0 (by omega)
    rw [getLE, ih, h0, pow_succ 256 n, mul_comm (256 ^ n) 256, Nat.mod_mul, pow_succ 256 k,
      Nat.div_div_eq_div_mul]
    simp [UInt8.toNat_ofNat']

theorem getLE_putLE (σ : ℕ → UInt8) (a n v : ℕ) : getLE (putLE σ a n v) a n = v % 256 ^ n := by
  have h := getLE_digits (σ := putLE σ a n v) (v := v) n a 0 fun i hi => by
    rw [putLE, blit_add hi]
  simpa using h

theorem getLE_lt (σ : ℕ → UInt8) : ∀ n a, getLE σ a n < 256 ^ n
  | 0, _ => by simp [getLE]
  | n + 1, a => by
    have ih := getLE_lt σ n (a + 1)
    have hb := (σ a).toNat_lt
    rw [getLE, pow_succ]
    omega

/-- The byte `x` of a store after a little-endian write elsewhere. -/
theorem putLE_outside {σ : ℕ → UInt8} {a n v x : ℕ} (h : x < a ∨ a + n ≤ x) :
    putLE σ a n v x = σ x :=
  blit_outside h

/-- Equal numbers have equal bytes. -/
theorem getLE_inj {σ τ : ℕ → UInt8} : ∀ {n a b : ℕ}, getLE σ a n = getLE τ b n →
    ∀ i < n, σ (a + i) = τ (b + i) := by
  intro n
  induction n with
  | zero => nofun
  | succ n ih =>
    intro a b h i hi
    rw [getLE, getLE] at h
    have hσ := (σ a).toNat_lt
    have hτ := (τ b).toNat_lt
    cases i with
    | zero =>
      refine UInt8.toNat_inj.mp ?_
      rw [Nat.add_zero, Nat.add_zero]
      omega
    | succ i =>
      have hrest := ih (a := a + 1) (b := b + 1) (by omega) i (by omega)
      rwa [Nat.add_assoc, Nat.add_assoc, Nat.add_comm 1] at hrest

/-! ### Fixed-width fields -/

/-- The `uint16_t` at `a`. -/
def get16 (σ : ℕ → UInt8) (a : ℕ) : UInt16 := UInt16.ofNat (getLE σ a 2)

/-- The `uint32_t` at `a`. -/
def get32 (σ : ℕ → UInt8) (a : ℕ) : UInt32 := UInt32.ofNat (getLE σ a 4)

/-- The `uint64_t` at `a`. -/
def get64 (σ : ℕ → UInt8) (a : ℕ) : UInt64 := UInt64.ofNat (getLE σ a 8)

def put16 (σ : ℕ → UInt8) (a : ℕ) (v : UInt16) : ℕ → UInt8 := putLE σ a 2 v.toNat

def put32 (σ : ℕ → UInt8) (a : ℕ) (v : UInt32) : ℕ → UInt8 := putLE σ a 4 v.toNat

def put64 (σ : ℕ → UInt8) (a : ℕ) (v : UInt64) : ℕ → UInt8 := putLE σ a 8 v.toNat

@[simp] theorem get32_put32 (σ : ℕ → UInt8) (a : ℕ) (v : UInt32) : get32 (put32 σ a v) a = v := by
  have hv := v.toNat_lt
  rw [get32, put32, getLE_putLE, Nat.mod_eq_of_lt (by omega), UInt32.ofNat_toNat]

@[simp] theorem get64_put64 (σ : ℕ → UInt8) (a : ℕ) (v : UInt64) : get64 (put64 σ a v) a = v := by
  have hv := v.toNat_lt
  rw [get64, put64, getLE_putLE, Nat.mod_eq_of_lt (by omega), UInt64.ofNat_toNat]

theorem get16_congr {σ τ : ℕ → UInt8} {a b : ℕ} (h : ∀ i < 2, σ (a + i) = τ (b + i)) :
    get16 σ a = get16 τ b := by
  rw [get16, get16, getLE_congr h]

theorem get32_congr {σ τ : ℕ → UInt8} {a b : ℕ} (h : ∀ i < 4, σ (a + i) = τ (b + i)) :
    get32 σ a = get32 τ b := by
  rw [get32, get32, getLE_congr h]

theorem get32_inj {σ τ : ℕ → UInt8} {a b : ℕ} (h : get32 σ a = get32 τ b) :
    ∀ i < 4, σ (a + i) = τ (b + i) := by
  have hσ := getLE_lt σ 4 a
  have hτ := getLE_lt τ 4 b
  refine getLE_inj ?_
  have hnat := congrArg UInt32.toNat h
  rwa [get32, get32, UInt32.toNat_ofNat_of_lt' hσ, UInt32.toNat_ofNat_of_lt' hτ] at hnat

theorem get64_congr {σ τ : ℕ → UInt8} {a b : ℕ} (h : ∀ i < 8, σ (a + i) = τ (b + i)) :
    get64 σ a = get64 τ b := by
  rw [get64, get64, getLE_congr h]

theorem put32_outside {σ : ℕ → UInt8} {a x : ℕ} {v : UInt32} (h : x < a ∨ a + 4 ≤ x) :
    put32 σ a v x = σ x :=
  putLE_outside h

theorem put64_outside {σ : ℕ → UInt8} {a x : ℕ} {v : UInt64} (h : x < a ∨ a + 8 ≤ x) :
    put64 σ a v x = σ x :=
  putLE_outside h

theorem get32_put32_outside {σ : ℕ → UInt8} {a c : ℕ} {v : UInt32} (h : c + 4 ≤ a ∨ a + 4 ≤ c) :
    get32 (put32 σ a v) c = get32 σ c :=
  get32_congr fun _ _ => put32_outside (by omega)

theorem get32_put64_outside {σ : ℕ → UInt8} {a c : ℕ} {v : UInt64} (h : c + 4 ≤ a ∨ a + 8 ≤ c) :
    get32 (put64 σ a v) c = get32 σ c :=
  get32_congr fun _ _ => put64_outside (by omega)

theorem get64_put32_outside {σ : ℕ → UInt8} {a c : ℕ} {v : UInt32} (h : c + 8 ≤ a ∨ a + 4 ≤ c) :
    get64 (put32 σ a v) c = get64 σ c :=
  get64_congr fun _ _ => put32_outside (by omega)

theorem get64_put64_outside {σ : ℕ → UInt8} {a c : ℕ} {v : UInt64} (h : c + 8 ≤ a ∨ a + 8 ≤ c) :
    get64 (put64 σ a v) c = get64 σ c :=
  get64_congr fun _ _ => put64_outside (by omega)

/-! ## Sums of bytes -/

/-- The sum of the `n` bytes from `a` on, modulo 256. -/
def byteSum (σ : ℕ → UInt8) (a n : ℕ) : UInt8 :=
  (List.range n).foldl (fun sum i => sum + σ (a + i)) 0

theorem byteSum_succ (σ : ℕ → UInt8) (a n : ℕ) :
    byteSum σ a (n + 1) = byteSum σ a n + σ (a + n) := by
  rw [byteSum, List.range_succ, List.foldl_append]
  rfl

theorem byteSum_congr {σ τ : ℕ → UInt8} {a b n : ℕ} (h : ∀ i < n, σ (a + i) = τ (b + i)) :
    byteSum σ a n = byteSum τ b n := by
  induction n with
  | zero => rfl
  | succ n ih =>
    rw [byteSum_succ, byteSum_succ, ih fun i hi => h i (by omega), h n (by omega)]

/-- A byte of the range counts for what it is. -/
theorem byteSum_setCell (σ : ℕ → UInt8) (v : UInt8) {a n x : ℕ} (hx : x < n) :
    byteSum (setCell σ (a + x) v) a n = byteSum (setCell σ (a + x) 0) a n + v := by
  induction n with
  | zero => omega
  | succ n ih =>
    rw [byteSum_succ, byteSum_succ]
    rcases Nat.lt_or_eq_of_le (Nat.le_of_lt_succ hx) with hlt | rfl
    · rw [ih hlt, setCell_ne _ _ (by omega), setCell_ne _ _ (by omega), UInt8.add_assoc,
        UInt8.add_assoc, UInt8.add_comm v]
    · rw [setCell_self, setCell_self, UInt8.add_zero]
      congr 1
      refine byteSum_congr fun i hi => ?_
      rw [setCell_ne _ _ (by omega), setCell_ne _ _ (by omega)]

end SwitchOs
