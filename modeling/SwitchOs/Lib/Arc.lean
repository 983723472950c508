import Mathlib.Algebra.Group.Nat.Defs
import Mathlib.Tactic.Common

/-!
# Arcs of the circle of 64-bit words

The words from a start on, `size` of them, around the end of the words: sums of a start and a size
wrap, and so do the arcs. `OnArc` needs no side condition, since a size of zero stands for all the
words. An arc whose start is moved to the front, or whose size grows, stays within the old arc and
the one that was added.
-/

namespace SwitchOs

/-- The word `x` is one of the `size` words from `start` on, or any word if `size` is zero. -/
def OnArc (start size x : UInt64) : Prop := x - start ≤ size - 1

section Arc

variable {start size more x : UInt64}

theorem onArc_iff : OnArc start size x ↔
    (2 ^ 64 - start.toNat + x.toNat) % 2 ^ 64 ≤ (2 ^ 64 - 1 + size.toNat) % 2 ^ 64 := by
  have h1 : (1 : UInt64).toNat = 1 := rfl
  rw [OnArc, UInt64.le_iff_toNat_le, UInt64.toNat_sub, UInt64.toNat_sub, h1]

/-- An arc has its start. -/
theorem onArc_start (start size : UInt64) : OnArc start size start := by
  have hstart := start.toNat_lt
  rw [onArc_iff]
  omega

/-- An arc whose start moves back over another one loses words at its end, and gains only the words
of the other. -/
theorem OnArc.of_moved (h : OnArc start size x) :
    OnArc start more x ∨ OnArc (start + more) size x := by
  have hstart := start.toNat_lt
  have hx := x.toNat_lt
  have hsize := size.toNat_lt
  have hmore := more.toNat_lt
  rw [onArc_iff] at h ⊢
  rw [onArc_iff, UInt64.toNat_add]
  omega

/-- An arc that grows by a size gains only the words of the arc behind it. -/
theorem OnArc.of_grown (h : OnArc start (size + more) x) :
    OnArc start size x ∨ OnArc (start + size) more x := by
  have hstart := start.toNat_lt
  have hx := x.toNat_lt
  have hsize := size.toNat_lt
  have hmore := more.toNat_lt
  rw [onArc_iff, UInt64.toNat_add] at h
  rw [onArc_iff, onArc_iff, UInt64.toNat_add]
  omega

/-- The end of an arc whose start was moved back over another one lies within the two. -/
theorem onArc_end_moved (start size more : UInt64) :
    OnArc start more (start + size) ∨ OnArc (start + more) size (start + size) := by
  have hstart := start.toNat_lt
  have hsize := size.toNat_lt
  have hmore := more.toNat_lt
  rw [onArc_iff, onArc_iff, UInt64.toNat_add, UInt64.toNat_add]
  omega

end Arc

end SwitchOs
