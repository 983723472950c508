import Mathlib.Tactic.Common

/-!
# Registers with read-only bits

A register keeps the bits that its mask does not name when it is written: `maskedWrite`. Its value is
saved under one mask and written back under another; `maskedWrite_saved` says what then stands in it,
and `maskedWrite_saved_self` that it is the old value where the two masks are the same.
-/

namespace SwitchOs

variable {w : ℕ}

/-- A register that holds `old` and lets the bits of `mask` be written, after `v` is written. -/
def maskedWrite (mask old v : BitVec w) : BitVec w := (v &&& mask) ||| (old &&& ~~~mask)

/-- What stands in a register that held `reg`, lost it to `lost` but for its read-only bits, and gets
back what was saved under the mask `save`. -/
theorem maskedWrite_saved {mask save reg lost : BitVec w}
    (hlost : lost &&& ~~~mask = reg &&& ~~~mask) :
    maskedWrite mask lost (reg &&& save) = (reg &&& save &&& mask) ||| (reg &&& ~~~mask) := by
  rw [maskedWrite, hlost]

theorem maskedWrite_saved_self {mask reg lost : BitVec w}
    (hlost : lost &&& ~~~mask = reg &&& ~~~mask) :
    maskedWrite mask lost (reg &&& mask) = reg := by
  rw [maskedWrite_saved hlost]
  refine BitVec.eq_of_getElem_eq fun i hi => ?_
  cases hm : mask[i] <;> simp [hm]

/-- A register without read-only bits holds what is written. -/
theorem maskedWrite_allOnes (old v : BitVec w) : maskedWrite (BitVec.allOnes w) old v = v := by
  simp [maskedWrite]

/-- A value survives a mask exactly if it has no bit outside it. -/
theorem and_eq_self_iff {mask v : BitVec w} : v &&& mask = v ↔ v &&& ~~~mask = 0 := by
  constructor
  · intro h
    rw [← h, BitVec.and_assoc]
    refine BitVec.eq_of_getElem_eq fun i hi => ?_
    simp
  · intro h
    refine BitVec.eq_of_getElem_eq fun i hi => ?_
    have hi' : (v &&& ~~~mask)[i] = false := by simp [h]
    rw [BitVec.getElem_and, BitVec.getElem_not] at hi'
    rw [BitVec.getElem_and]
    cases hm : mask[i]
    · rw [hm, Bool.not_false, Bool.and_true] at hi'
      rw [hi', Bool.false_and]
    · rw [Bool.and_true]

end SwitchOs
