import SwitchOs.Core.Header

/-!
# UEFI types

What the UEFI application and the hooks share: status codes, GUIDs and pages.
-/

namespace SwitchOs

/-! ## Status codes -/

def EFI_SUCCESS : UInt64 := 0

/-- The number of an `err_t`. -/
def Err.toUInt64 : Err → UInt64
  | ERR_INVALID => 1

/-- `EFIERR`. -/
def efierr (e : Err) : UInt64 := 0x8000000000000000 ||| e.toUInt64

/-! ## GUIDs -/

/-- `EFI_GUID`. -/
structure Guid where
  data1 : UInt32
  data2 : UInt16
  data3 : UInt16
  data4 : List UInt8
  deriving DecidableEq, Repr

/-! ## Pages -/

/-- `ALIGN_UP`, for a power of two. -/
def alignUp (x alignTo : ℕ) : ℕ := (x + (alignTo - 1)) / alignTo * alignTo

def PAGE_SIZE : ℕ := 4096

theorem le_alignUp (x : ℕ) {alignTo : ℕ} (hpos : 0 < alignTo) : x ≤ alignUp x alignTo := by
  have hdiv := Nat.div_add_mod (x + (alignTo - 1)) alignTo
  have hmod := Nat.mod_lt (x + (alignTo - 1)) hpos
  rw [alignUp, Nat.mul_comm]
  omega

end SwitchOs
