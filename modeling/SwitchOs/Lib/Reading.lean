import Mathlib.Data.List.Range
import Mathlib.Tactic.Common

/-!
# Computations that read cells

A `Reading ι ν α` ends with an `α` and looks at cells on the way: each look asks for the content, a
`ν`, of a cell, named by an `ι`, and what comes next depends on the answer. Over given cells it has a
result (`run`) and a list of the cells that it looked at (`reads`). The bounds of the cells do not
matter to either, so a look past the end of a buffer shows in `reads`.

* `run_bind`, `reads_bind`: one computation after another;
* `lookAll`: every element of a list is looked at, as a copy does it;
* `anyLook`: a loop that returns at the first cell with some property. It looks at the elements
  up to that one (`upToFirst`).
-/

namespace SwitchOs

/-- A computation that looks at cells. -/
inductive Reading (ι ν α : Type) where
  | done (a : α)
  | ask (i : ι) (next : ν → Reading ι ν α)

namespace Reading

variable {ι ν α β γ : Type}

def bind : Reading ι ν α → (α → Reading ι ν β) → Reading ι ν β
  | done a, f => f a
  | ask i next, f => ask i fun v => bind (next v) f

instance : Monad (Reading ι ν) where
  pure := done
  bind := bind

/-- The content of the cell `i`. -/
def look (i : ι) : Reading ι ν ν := ask i done

/-- The result over the given cells. -/
def run (cells : ι → ν) : Reading ι ν α → α
  | done a => a
  | ask i next => run cells (next (cells i))

/-- The cells that are looked at, in order. -/
def reads (cells : ι → ν) : Reading ι ν α → List ι
  | done _ => []
  | ask i next => i :: reads cells (next (cells i))

variable {cells : ι → ν}

@[simp] theorem run_pure (a : α) : (pure a : Reading ι ν α).run cells = a := rfl

@[simp] theorem reads_pure (a : α) : (pure a : Reading ι ν α).reads cells = [] := rfl

@[simp] theorem run_look (i : ι) : (look i).run cells = cells i := rfl

@[simp] theorem reads_look (i : ι) : (look i).reads cells = [i] := rfl

@[simp] theorem run_bind (x : Reading ι ν α) (f : α → Reading ι ν β) :
    (x >>= f).run cells = (f (x.run cells)).run cells := by
  induction x with
  | done a => rfl
  | ask i next ih => exact ih (cells i)

@[simp] theorem reads_bind (x : Reading ι ν α) (f : α → Reading ι ν β) :
    (x >>= f).reads cells = x.reads cells ++ (f (x.run cells)).reads cells := by
  induction x with
  | done a => rfl
  | ask i next ih => exact congrArg (i :: ·) (ih (cells i))

@[simp] theorem run_ite (c : Prop) [Decidable c] (x y : Reading ι ν α) :
    (if c then x else y).run cells = if c then x.run cells else y.run cells :=
  apply_ite (run cells) c x y

@[simp] theorem reads_ite (c : Prop) [Decidable c] (x y : Reading ι ν α) :
    (if c then x else y).reads cells = if c then x.reads cells else y.reads cells :=
  apply_ite (reads cells) c x y

/-! ## Loops -/

/-- Look at every element. -/
def lookAll : List ι → Reading ι ν (List ν)
  | [] => pure []
  | i :: is => do
    let v ← look i
    let vs ← lookAll is
    pure (v :: vs)

@[simp] theorem run_lookAll (is : List ι) : (lookAll is).run cells = is.map cells := by
  induction is with
  | nil => rfl
  | cons i is ih => simp [lookAll, ih]

@[simp] theorem reads_lookAll (is : List ι) : (lookAll is).reads cells = is := by
  induction is with
  | nil => rfl
  | cons i is ih => simp [lookAll, ih]

/-- Whether some element has the property, which is asked of one element after the other until one
has it. -/
def anyLook (p : γ → Reading ι ν Bool) : List γ → Reading ι ν Bool
  | [] => pure false
  | c :: cs => do
    if ← p c then
      pure true
    else
      anyLook p cs

/-- The elements up to the first with the property. -/
def upToFirst (p : γ → Bool) : List γ → List γ
  | [] => []
  | c :: cs => if p c then [c] else c :: upToFirst p cs

@[simp] theorem run_anyLook (p : γ → Reading ι ν Bool) (cs : List γ) :
    (anyLook p cs).run cells = cs.any fun c => (p c).run cells := by
  induction cs with
  | nil => rfl
  | cons c cs ih =>
    rw [anyLook, run_bind, run_ite, run_pure, ih, List.any_cons]
    cases (p c).run cells <;> rfl

@[simp] theorem reads_anyLook (p : γ → Reading ι ν Bool) (cs : List γ) :
    (anyLook p cs).reads cells =
      (upToFirst (fun c => (p c).run cells) cs).flatMap fun c => (p c).reads cells := by
  induction cs with
  | nil => rfl
  | cons c cs ih =>
    rw [anyLook, reads_bind, reads_ite, reads_pure, ih, upToFirst]
    by_cases hc : (p c).run cells = true
    · simp only [if_pos hc, List.append_nil, List.flatMap_cons, List.flatMap_nil]
    · simp only [if_neg hc, List.flatMap_cons]

theorem mem_upToFirst_range' {p : ℕ → Bool} {i : ℕ} (n : ℕ) : ∀ k,
    i ∈ upToFirst p (List.range' k n) ↔ k ≤ i ∧ i < k + n ∧ ∀ j, k ≤ j → j < i → p j = false := by
  induction n with
  | zero =>
    intro k
    simp only [List.range'_zero, upToFirst, List.not_mem_nil, false_iff]
    omega
  | succ n ih =>
    intro k
    rw [List.range'_succ, upToFirst]
    by_cases hk : p k = true
    · rw [if_pos hk, List.mem_singleton]
      constructor
      · rintro rfl
        exact ⟨le_refl i, by omega, fun j hj hj' => absurd hj' (by omega)⟩
      · rintro ⟨hle, -, hall⟩
        by_contra hne
        rw [hall k (le_refl k) (by omega)] at hk
        cases hk
    · rw [if_neg hk, List.mem_cons, ih]
      constructor
      · rintro (rfl | ⟨hle, hlt, hall⟩)
        · exact ⟨le_refl i, by omega, fun j hj hj' => absurd hj' (by omega)⟩
        · refine ⟨by omega, by omega, fun j hj hj' => ?_⟩
          rcases Nat.eq_or_lt_of_le hj with rfl | hlt'
          · exact eq_false_of_ne_true hk
          · exact hall j hlt' hj'
      · rintro ⟨hle, hlt, hall⟩
        rcases Nat.eq_or_lt_of_le hle with rfl | hlt'
        · exact Or.inl rfl
        · exact Or.inr ⟨hlt', by omega, fun j hj => hall j (by omega)⟩

/-- A search of the first `m` indices stays below `n` if and only if there are no more than `n` of
them, or it ends at one below `n`. -/
theorem upToFirst_range_lt_iff (p : ℕ → Bool) (n m : ℕ) :
    (∀ i ∈ upToFirst p (List.range m), i < n) ↔ m ≤ n ∨ ∃ i < n, p i = true := by
  simp only [List.range_eq_range', mem_upToFirst_range', Nat.zero_le, true_and, Nat.zero_add,
    forall_const]
  constructor
  · intro h
    by_contra hcon
    obtain ⟨hm, hnone⟩ := not_or.mp hcon
    have hlt := h n ⟨by omega, fun j hj => eq_false_of_ne_true fun hp => hnone ⟨j, hj, hp⟩⟩
    exact absurd hlt (lt_irrefl n)
  · rintro (hm | ⟨j, hj, hp⟩) i ⟨hi, hall⟩
    · omega
    · by_contra hge
      rw [hall j (by omega)] at hp
      cases hp

end Reading

end SwitchOs
