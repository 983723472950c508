import SwitchOs.Core.Header
import SwitchOs.Lib.Reading
import Mathlib.Tactic.Ring

/-!
# PkgLength objects

`uefi/acpi/patch/pkg_length.c`: the variable-length code in which AML writes the lengths of its
packages. A length up to 63 is one byte. A longer one is a lead byte, with the number of the bytes
that follow in its two upper bits and the low nibble of the length in its lower four, and the rest of
the length in the bytes that follow, low byte first.

`build_pkg_length` writes the lead byte of a longer length twice, the second time without the nibble,
and returns the length that its loop has shifted out. `pkgLength_roundTrip_iff` says that decoding
undoes encoding for the one-byte lengths only, `parse_buildPkgLength` what it does to the others.
-/

namespace SwitchOs

def MAX_PKG_LENGTH_ENCODED_SIZE : ℕ := 4

def MAX_PKG_LENGTH_SIZE : UInt64 := 0x10000000

/-- `struct acpi_pkg_length`. -/
structure AcpiPkgLength where
  size : UInt64
  encodedSize : ℕ
  aml : ℕ → UInt8

/-- `pkg_length_out->aml[i] = byte`. -/
def AcpiPkgLength.setByte (pkg : AcpiPkgLength) (i : ℕ) (byte : UInt8) : AcpiPkgLength :=
  { pkg with aml := Function.update pkg.aml i byte }

/-- The loop of `build_pkg_length`, once `byteCount` bytes are written and `room` more may be. It
returns what it leaves of the size, and the number of bytes. -/
def buildByteData : ℕ → UInt64 → ℕ → Prog Err AcpiPkgLength (UInt64 × ℕ)
  | 0, size, byteCount =>
    if size ≠ 0 then Prog.throw .ERR_INVALID else pure (size, byteCount)
  | room + 1, size, byteCount =>
    if size ≠ 0 then do
      Prog.modify fun pkg => pkg.setByte byteCount (size &&& 0xff).toUInt8
      buildByteData room (size >>> 8) (byteCount + 1)
    else pure (size, byteCount)

/-- `build_pkg_length`, on the struct behind `pkg_length_out`. -/
def buildPkgLength (size : UInt64) : Prog Err AcpiPkgLength Unit := do
  check (decide (size ≤ MAX_PKG_LENGTH_SIZE))
  if size ≤ 63 then
    Prog.modify fun pkg => { pkg.setByte 0 size.toUInt8 with encodedSize := 1 }
    Prog.modify fun pkg => { pkg with size := size }
  else
    Prog.modify fun pkg => pkg.setByte 0 (size &&& 0b1111).toUInt8
    let (size, byteCount) ← buildByteData (MAX_PKG_LENGTH_ENCODED_SIZE - 1) (size >>> 4) 1
    -- the number of bytes that follow goes over the nibble
    Prog.modify fun pkg => { pkg.setByte 0 (UInt8.ofNat (byteCount - 1) <<< 6) with
      encodedSize := byteCount }
    Prog.modify fun pkg => { pkg with size := size }

/-- The loop of `parse_pkg_length` over the bytes behind the lead byte. -/
def joinByteData (aml : ℕ → UInt8) (nybble : UInt64) (bytedataCount : ℕ) : UInt64 :=
  (List.range bytedataCount).foldl
    (fun size i => size ||| ((aml (i + 1)).toUInt64 <<< UInt64.ofNat (8 * i + 4))) nybble

/-- `parse_pkg_length`, on the struct behind `pkg_length_out`. -/
def parsePkgLength (aml : ℕ → UInt8) (amlSize : ℕ) : Prog Err AcpiPkgLength Unit := do
  check (decide (amlSize > 0))
  let pkgLeadByte := aml 0
  if pkgLeadByte ≤ 63 then
    Prog.modify fun pkg => { pkg with encodedSize := 1, size := pkgLeadByte.toUInt64 }
  else
    check (pkgLeadByte &&& 0b110000 == 0)
    let pkgLengthNybble := pkgLeadByte &&& 0b1111
    let bytedataCount := (pkgLeadByte &&& 0b11000000) >>> 6
    check (decide (bytedataCount ≤ 3))
    check (decide (bytedataCount.toNat ≤ amlSize))
    Prog.modify fun pkg => { pkg with
      encodedSize := bytedataCount.toNat + 1
      size := joinByteData aml pkgLengthNybble.toUInt64 bytedataCount.toNat }
  Prog.modify fun pkg => { pkg with aml := fun i => if i < pkg.encodedSize then aml i else 0 }

/-! ## What is built -/

variable {size left : UInt64} {room byteCount count : ℕ} {pkg built parsed : AcpiPkgLength}

theorem toNat_shiftRight_4 (size : UInt64) : (size >>> 4).toNat = size.toNat / 16 := by
  have h4 : (4 : UInt64).toNat % 64 = 4 := rfl
  rw [UInt64.toNat_shiftRight, h4, Nat.shiftRight_eq_div_pow]

theorem toNat_shiftRight_8 (size : UInt64) : (size >>> 8).toNat = size.toNat / 256 := by
  have h8 : (8 : UInt64).toNat % 64 = 8 := rfl
  rw [UInt64.toNat_shiftRight, h8, Nat.shiftRight_eq_div_pow]

theorem toNat_lowByte (size : UInt64) : (size &&& 0xff).toUInt8.toNat = size.toNat % 256 := by
  have hff : (0xff : UInt64).toNat = 2 ^ 8 - 1 := rfl
  rw [UInt64.toNat_toUInt8, UInt64.toNat_and, hff, Nat.and_two_pow_sub_one_eq_mod]
  omega

/-- The loop ends once nothing is left of the size. -/
theorem buildByteData_end {size : UInt64} {byteCount : ℕ} {pkg : AcpiPkgLength}
    (hsize : ¬ size ≠ 0)
    (h : (pure (size, byteCount) : Prog Err AcpiPkgLength (UInt64 × ℕ)) pkg =
      some (.ok (left, count), built)) :
    left = 0 ∧ count = byteCount ∧ size.toNat < 1 ∧ built = pkg := by
  obtain rfl : size = 0 := not_not.mp hsize
  have hpair := Option.some.inj h
  have hres := Except.ok.inj (congrArg Prod.fst hpair)
  exact ⟨(congrArg Prod.fst hres).symm, (congrArg Prod.snd hres).symm, by decide,
    (congrArg Prod.snd hpair).symm⟩

/-- What the loop leaves when it ends: nothing of the size, and its bytes in order. -/
theorem buildByteData_ok (room : ℕ) : ∀ (size : UInt64) (byteCount : ℕ) (pkg : AcpiPkgLength),
    buildByteData room size byteCount pkg = some (.ok (left, count), built) →
      left = 0 ∧ ∃ k ≤ room, count = byteCount + k ∧ size.toNat < 256 ^ k ∧ (size ≠ 0 → 0 < k) ∧
        (∀ i < byteCount, built.aml i = pkg.aml i) ∧
        ∀ j < k, (built.aml (byteCount + j)).toNat = size.toNat / 256 ^ j % 256 := by
  induction room with
  | zero =>
    intro size byteCount pkg h
    rw [buildByteData] at h
    split at h
    case isTrue => cases h
    case isFalse hsize =>
      obtain ⟨rfl, rfl, hlt, rfl⟩ := buildByteData_end hsize h
      exact ⟨rfl, 0, le_refl _, rfl, hlt, fun hne => absurd hne hsize, fun _ _ => rfl, nofun⟩
  | succ room ih =>
    intro size byteCount pkg h
    rw [buildByteData] at h
    split at h
    case isFalse hsize =>
      obtain ⟨rfl, rfl, hlt, rfl⟩ := buildByteData_end hsize h
      exact ⟨rfl, 0, by omega, rfl, hlt, fun hne => absurd hne hsize, fun _ _ => rfl, nofun⟩
    case isTrue hsize =>
      rw [Prog.bind_modify_apply] at h
      obtain ⟨hleft, k, hk, hcount, hlt, -, hkeep, hbytes⟩ := ih _ _ _ h
      rw [toNat_shiftRight_8] at hlt hbytes
      refine ⟨hleft, k + 1, by omega, by omega, ?_, fun _ => by omega, ?_, ?_⟩
      · rw [Nat.pow_succ]
        omega
      · intro i hi
        rw [hkeep i (by omega)]
        exact Function.update_of_ne (by omega) _ _
      · intro j hj
        cases j with
        | zero =>
          rw [Nat.add_zero, hkeep byteCount (by omega)]
          simp only [AcpiPkgLength.setByte, Function.update_self, Nat.pow_zero, Nat.div_one]
          exact toNat_lowByte size
        | succ j =>
          rw [show byteCount + (j + 1) = byteCount + 1 + j by omega, hbytes j (by omega),
            Nat.div_div_eq_div_mul, Nat.pow_succ, Nat.mul_comm]

/-- What `build_pkg_length` leaves for a length of more than one byte: a lead byte that holds
nothing but the number of the bytes behind it, the bytes of the rest of the length, and no size. -/
theorem buildPkgLength_long (hsize : ¬ size ≤ 63)
    (h : buildPkgLength size pkg = some (.ok (), built)) :
    built.size = 0 ∧ ∃ k, 0 < k ∧ k ≤ 3 ∧ built.encodedSize = k + 1 ∧
      built.aml 0 = UInt8.ofNat k <<< 6 ∧ size.toNat / 16 < 256 ^ k ∧
      ∀ j < k, (built.aml (j + 1)).toNat = size.toNat / 16 / 256 ^ j % 256 := by
  rw [buildPkgLength] at h
  obtain ⟨_, t, -, h⟩ := Prog.bind_eq_ok h
  rw [if_neg hsize, Prog.bind_modify_apply] at h
  obtain ⟨⟨left, count⟩, u, hloop, h⟩ := Prog.bind_eq_ok h
  obtain ⟨hleft, k, hk, hcount, hlt, hpos, -, hbytes⟩ := buildByteData_ok _ _ _ _ hloop
  rw [toNat_shiftRight_4] at hlt hbytes
  have hne : size >>> 4 ≠ 0 := by
    intro hzero
    have h0 := congrArg UInt64.toNat hzero
    rw [toNat_shiftRight_4] at h0
    rw [UInt64.le_iff_toNat_le] at hsize
    have h63 : (63 : UInt64).toNat = 63 := rfl
    have hz : (0 : UInt64).toNat = 0 := rfl
    omega
  simp only at h
  rw [Prog.bind_modify_apply, Prog.modify_apply] at h
  obtain rfl := congrArg Prod.snd (Option.some.inj h)
  subst hleft
  refine ⟨rfl, k, hpos hne, hk, by simp only; omega, ?_, hlt, fun j hj => ?_⟩
  · simp only [AcpiPkgLength.setByte, Function.update_self]
    rw [show count - 1 = k by omega]
  · simp only [AcpiPkgLength.setByte]
    rw [Function.update_of_ne (by omega), Nat.add_comm j 1]
    exact hbytes j hj

/-- What `build_pkg_length` leaves for a length of one byte. -/
theorem buildPkgLength_short (hsize : size ≤ 63)
    (h : buildPkgLength size pkg = some (.ok (), built)) :
    built = { pkg.setByte 0 size.toUInt8 with encodedSize := 1, size := size } := by
  rw [buildPkgLength] at h
  obtain ⟨_, t, hcheck, hrun⟩ := Prog.bind_eq_ok h
  obtain ⟨-, rfl⟩ := Prog.check_eq_ok hcheck
  rw [if_pos hsize, Prog.bind_modify_apply, Prog.modify_apply] at hrun
  exact (congrArg Prod.snd (Option.some.inj hrun)).symm

/-! ## What is parsed -/

/-- One byte more is put in front of the others. -/
theorem joinByteData_succ (aml : ℕ → UInt8) (nybble : UInt64) {k : ℕ} (hk : k < 7) :
    (joinByteData aml nybble (k + 1)).toNat =
        (joinByteData aml nybble k).toNat ||| (aml (k + 1)).toNat * 2 ^ (8 * k + 4) ∧
      (aml (k + 1)).toNat * 2 ^ (8 * k + 4) < 2 ^ (8 * k + 12) := by
  have hshift : (UInt64.ofNat (8 * k + 4)).toNat % 64 = 8 * k + 4 := by
    rw [UInt64.toNat_ofNat']
    omega
  have hfit : (aml (k + 1)).toNat * 2 ^ (8 * k + 4) < 2 ^ (8 * k + 12) := by
    calc (aml (k + 1)).toNat * 2 ^ (8 * k + 4)
        < 2 ^ 8 * 2 ^ (8 * k + 4) :=
          Nat.mul_lt_mul_of_pos_right (aml (k + 1)).toNat_lt (Nat.two_pow_pos _)
      _ = 2 ^ (8 * k + 12) := by rw [← Nat.pow_add]; congr 1; omega
  have hword : (2 : ℕ) ^ (8 * k + 12) ≤ 2 ^ 64 := Nat.pow_le_pow_right (by decide) (by omega)
  have hnext : joinByteData aml nybble (k + 1) = joinByteData aml nybble k |||
      ((aml (k + 1)).toUInt64 <<< UInt64.ofNat (8 * k + 4)) := by
    rw [joinByteData, List.range_succ, List.foldl_append]
    rfl
  refine ⟨?_, hfit⟩
  rw [hnext, UInt64.toNat_or, UInt64.toNat_shiftLeft, hshift, UInt8.toNat_toUInt64,
    Nat.shiftLeft_eq, Nat.mod_eq_of_lt (lt_of_lt_of_le hfit hword)]

/-- The bytes behind the lead byte, put together again. -/
theorem joinByteData_eq {aml : ℕ → UInt8} {nybble : UInt64} (hnybble : nybble.toNat < 16) (n : ℕ) :
    ∀ k ≤ 7, (∀ j < k, (aml (j + 1)).toNat = n / 256 ^ j % 256) →
      (joinByteData aml nybble k).toNat = nybble.toNat + 16 * (n % 256 ^ k) := by
  intro k
  induction k with
  | zero =>
    intro _ _
    simp [joinByteData, Nat.mod_one]
  | succ k ih =>
    intro hk hbytes
    have hlast := ih (by omega) fun j hj => hbytes j (by omega)
    have hpow : (2 : ℕ) ^ (8 * k + 4) = 16 * 256 ^ k := by
      rw [Nat.pow_add, Nat.pow_mul, Nat.mul_comm]
    have hlt := Nat.mod_lt n (show 0 < 256 ^ k from Nat.pow_pos (by decide))
    rw [(joinByteData_succ aml nybble hk).1, hlast, Nat.or_comm, Nat.mul_comm,
      ← Nat.two_pow_add_eq_or_of_lt (by omega), hpow, hbytes k (by omega), Nat.pow_succ,
      Nat.mod_mul]
    ring

/-- `parse_pkg_length` on a single byte. -/
theorem parsePkgLength_short {aml : ℕ → UInt8} {amlSize : ℕ} (hpos : amlSize > 0)
    (hlead : aml 0 ≤ 63) :
    parsePkgLength aml amlSize pkg = some (.ok (), ⟨(aml 0).toUInt64, 1,
      fun i => if i < 1 then aml i else 0⟩) := by
  rw [parsePkgLength, check, Prog.bind_check_true (decide_eq_true hpos)]
  simp only [if_pos hlead]
  rfl

/-- `parse_pkg_length` on a lead byte that announces `k` bytes and holds no nibble. -/
theorem parsePkgLength_long {aml : ℕ → UInt8} {k amlSize : ℕ} (hpos : 0 < k) (hk : k ≤ 3)
    (hlead : aml 0 = UInt8.ofNat k <<< 6) (hsize : k < amlSize) :
    parsePkgLength aml amlSize pkg = some (.ok (), ⟨joinByteData aml 0 k, k + 1,
      fun i => if i < k + 1 then aml i else 0⟩) := by
  have hcount : (UInt8.ofNat k <<< 6 &&& 0b11000000) >>> 6 = UInt8.ofNat k ∧
      ¬ UInt8.ofNat k <<< 6 ≤ 63 ∧ UInt8.ofNat k <<< 6 &&& 0b110000 = 0 ∧
      (UInt8.ofNat k <<< 6 &&& 0b1111).toUInt64 = 0 ∧ UInt8.ofNat k ≤ 3 ∧
      (UInt8.ofNat k).toNat = k := by
    have hcases : k = 1 ∨ k = 2 ∨ k = 3 := by omega
    rcases hcases with rfl | rfl | rfl <;> decide
  obtain ⟨hbytes, hlong, hreserved, hnybble, hmax, htoNat⟩ := hcount
  rw [parsePkgLength, check, Prog.bind_check_true (decide_eq_true (by omega))]
  simp only [hlead, if_neg hlong, hbytes, hnybble, htoNat]
  rw [check, Prog.bind_check_true (beq_iff_eq.mpr hreserved), check,
    Prog.bind_check_true (decide_eq_true hmax), check,
    Prog.bind_check_true (decide_eq_true (by omega)), Prog.bind_modify_apply, Prog.modify_apply]

/-! ## Round trips -/

/-- The result's size is the given one, and decoding its bytes gives the same size, the same number
of bytes and the same bytes. -/
def RoundTrips (size : UInt64) (built pkg : AcpiPkgLength) : Prop :=
  built.size = size ∧ ∃ parsed, parsePkgLength built.aml built.encodedSize pkg =
    some (.ok (), parsed) ∧ parsed.size = size ∧ parsed.encodedSize = built.encodedSize ∧
      ∀ i < built.encodedSize, parsed.aml i = built.aml i

/-- **Decoding undoes encoding** for the lengths of one byte, and for no others. -/
theorem pkgLength_roundTrip_iff (pkg' : AcpiPkgLength)
    (h : buildPkgLength size pkg = some (.ok (), built)) :
    RoundTrips size built pkg' ↔ size ≤ 63 := by
  constructor
  · rintro ⟨hsize, -⟩
    by_contra hlong
    obtain ⟨hzero, -⟩ := buildPkgLength_long hlong h
    rw [← hsize, hzero] at hlong
    exact hlong (by decide)
  · intro hsize
    obtain rfl := buildPkgLength_short hsize h
    have hle : size.toNat ≤ 63 := by rwa [UInt64.le_iff_toNat_le] at hsize
    have hbyte : size.toUInt8.toNat = size.toNat := by
      rw [UInt64.toNat_toUInt8]
      omega
    have hlead : size.toUInt8 ≤ 63 := by
      rw [UInt8.le_iff_toNat_le, hbyte]
      exact hle
    refine ⟨rfl, _, parsePkgLength_short Nat.one_pos ?_, ?_, rfl, fun i hi => if_pos hi⟩
    · simpa only [AcpiPkgLength.setByte, Function.update_self] using hlead
    · simp only [AcpiPkgLength.setByte, Function.update_self]
      refine UInt64.toNat_inj.mp ?_
      rw [UInt8.toNat_toUInt64, hbyte]

theorem pkgLength_roundTrip_iff_5 : ∃ built, buildPkgLength 5 ⟨0, 0, fun _ => 0⟩ =
    some (.ok (), built) ∧ (RoundTrips 5 built built ↔ (5 : UInt64) ≤ 63) :=
  ⟨_, rfl, pkgLength_roundTrip_iff _ rfl⟩

/-- A method body of 100 bytes: its length is encoded as `40 06`, with a size of zero. -/
theorem longLength_lost : ∃ built, buildPkgLength 100 ⟨0, 0, fun _ => 0⟩ = some (.ok (), built) ∧
    ¬ RoundTrips 100 built built := by
  refine ⟨_, rfl, fun h => ?_⟩
  have hsize : (0 : UInt64) = 100 := h.1
  exact absurd hsize (by decide)

/-- **What the bytes of a long length say**: the length without its low nibble. -/
theorem parse_buildPkgLength (pkg' : AcpiPkgLength) (hsize : ¬ size ≤ 63)
    (h : buildPkgLength size pkg = some (.ok (), built)) :
    ∃ parsed, parsePkgLength built.aml built.encodedSize pkg' = some (.ok (), parsed) ∧
      parsed.size.toNat = size.toNat / 16 * 16 := by
  obtain ⟨-, k, hpos, hk, hencoded, hlead, hlt, hbytes⟩ := buildPkgLength_long hsize h
  refine ⟨_, parsePkgLength_long hpos hk hlead (by omega), ?_⟩
  have hjoin := joinByteData_eq (show (0 : UInt64).toNat < 16 by decide) (size.toNat / 16) k
    (by omega) hbytes
  rw [Nat.mod_eq_of_lt hlt] at hjoin
  have hzero : (0 : UInt64).toNat = 0 := rfl
  simp only
  omega

/-! ## What is read -/

section Reads

variable {aml : ℕ → UInt8} {amlSize : ℕ}

/-- The number of bytes that a lead byte above 63 announces. -/
def byteDataCount (pkgLeadByte : UInt8) : ℕ := ((pkgLeadByte &&& 0b11000000) >>> 6).toNat

/-- The PkgLength that a lead byte up to 63 is. -/
def shortPkgLength (aml : ℕ → UInt8) : AcpiPkgLength :=
  ⟨(aml 0).toUInt64, 1, fun i => if i < 1 then aml i else 0⟩

/-- The PkgLength that a lead byte above 63 begins. -/
def longPkgLength (aml : ℕ → UInt8) : AcpiPkgLength :=
  ⟨joinByteData aml (aml 0 &&& 0b1111).toUInt64 (byteDataCount (aml 0)), byteDataCount (aml 0) + 1,
    fun i => if i < byteDataCount (aml 0) + 1 then aml i else 0⟩

/-- The PkgLength that `parse_pkg_length` makes of the bytes, if it accepts them. -/
def parsedPkgLength (aml : ℕ → UInt8) (amlSize : ℕ) : Option AcpiPkgLength :=
  if amlSize = 0 then none
  else if aml 0 ≤ 63 then some (shortPkgLength aml)
  else if aml 0 &&& 0b110000 = 0 ∧ byteDataCount (aml 0) ≤ amlSize then some (longPkgLength aml)
  else none

/-- The loop of `parse_pkg_length`, as a computation that looks at the bytes. -/
def readByteData (size : UInt64) : List ℕ → Reading ℕ UInt8 UInt64
  | [] => pure size
  | i :: is => do
    let byte ← Reading.look (i + 1)
    readByteData (size ||| (byte.toUInt64 <<< UInt64.ofNat (8 * i + 4))) is

/-- The `memcpy` at the end of `parse_pkg_length`. -/
def copyPkgLength (pkg : AcpiPkgLength) :
    Reading ℕ UInt8 (Except Err Unit × AcpiPkgLength) := do
  let bytes ← Reading.lookAll (List.range pkg.encodedSize)
  pure (.ok (), { pkg with aml := fun i => bytes.getD i 0 })

/-- `parse_pkg_length`, as a computation that looks at the bytes: the result, and the struct. -/
def readPkgLength (amlSize : ℕ) (pkg : AcpiPkgLength) :
    Reading ℕ UInt8 (Except Err Unit × AcpiPkgLength) :=
  if amlSize > 0 then do
    let pkgLeadByte ← Reading.look 0
    if pkgLeadByte ≤ 63 then
      copyPkgLength { pkg with encodedSize := 1, size := pkgLeadByte.toUInt64 }
    else if pkgLeadByte &&& 0b110000 == 0 then
      let pkgLengthNybble := pkgLeadByte &&& 0b1111
      let bytedataCount := (pkgLeadByte &&& 0b11000000) >>> 6
      if bytedataCount ≤ 3 then
        if bytedataCount.toNat ≤ amlSize then do
          let size ← readByteData pkgLengthNybble.toUInt64 (List.range bytedataCount.toNat)
          copyPkgLength { pkg with encodedSize := bytedataCount.toNat + 1, size := size }
        else pure (.error .ERR_INVALID, pkg)
      else pure (.error .ERR_INVALID, pkg)
    else pure (.error .ERR_INVALID, pkg)
  else pure (.error .ERR_INVALID, pkg)

theorem run_readByteData (size : UInt64) (is : List ℕ) : (readByteData size is).run aml =
    is.foldl (fun size i => size ||| ((aml (i + 1)).toUInt64 <<< UInt64.ofNat (8 * i + 4))) size := by
  induction is generalizing size with
  | nil => rfl
  | cons i is ih =>
    rw [readByteData, Reading.run_bind, Reading.run_look, ih, List.foldl_cons]

theorem reads_readByteData (size : UInt64) (is : List ℕ) :
    (readByteData size is).reads aml = is.map (· + 1) := by
  induction is generalizing size with
  | nil => rfl
  | cons i is ih =>
    rw [readByteData, Reading.reads_bind, Reading.reads_look, ih]
    rfl

theorem run_copyPkgLength (pkg : AcpiPkgLength) : (copyPkgLength pkg).run aml =
    (.ok (), { pkg with aml := fun i => if i < pkg.encodedSize then aml i else 0 }) := by
  rw [copyPkgLength, Reading.run_bind, Reading.run_lookAll, Reading.run_pure]
  congr 2
  funext i
  by_cases hi : i < pkg.encodedSize
  · simp [hi]
  · simp [hi]

theorem reads_copyPkgLength (pkg : AcpiPkgLength) :
    (copyPkgLength pkg).reads aml = List.range pkg.encodedSize := by
  rw [copyPkgLength, Reading.reads_bind, Reading.reads_lookAll, Reading.reads_pure,
    List.append_nil]

/-- The reading is that of `parse_pkg_length`. -/
theorem run_readPkgLength (aml : ℕ → UInt8) (amlSize : ℕ) (pkg : AcpiPkgLength) :
    parsePkgLength aml amlSize pkg = some ((readPkgLength amlSize pkg).run aml) := by
  rw [parsePkgLength, readPkgLength]
  by_cases hpos : amlSize > 0
  case neg =>
    rw [if_neg hpos, check, Prog.bind_check_false (decide_eq_false hpos)]
    rfl
  rw [if_pos hpos, check, Prog.bind_check_true (decide_eq_true hpos), Reading.run_bind,
    Reading.run_look, Reading.run_ite]
  by_cases hlead : aml 0 ≤ 63
  · simp only [if_pos hlead, run_copyPkgLength]
    rfl
  · simp only [if_neg hlead, Reading.run_ite]
    by_cases hreserved : (aml 0 &&& 0b110000 == 0) = true
    case neg =>
      rw [if_neg hreserved, check, Prog.bind_check_false (eq_false_of_ne_true hreserved)]
      rfl
    rw [if_pos hreserved, check, Prog.bind_check_true hreserved]
    by_cases hcount : (aml 0 &&& 0b11000000) >>> 6 ≤ 3
    case neg =>
      rw [if_neg hcount, check, Prog.bind_check_false (decide_eq_false hcount)]
      rfl
    rw [if_pos hcount, check, Prog.bind_check_true (decide_eq_true hcount)]
    by_cases hsize : ((aml 0 &&& 0b11000000) >>> 6).toNat ≤ amlSize
    case neg =>
      rw [if_neg hsize, check, Prog.bind_check_false (decide_eq_false hsize)]
      rfl
    rw [if_pos hsize, check, Prog.bind_check_true (decide_eq_true hsize), Reading.run_bind,
      run_readByteData, run_copyPkgLength]
    rfl

theorem byteDataCount_le (pkgLeadByte : UInt8) : byteDataCount pkgLeadByte ≤ 3 := by
  have hbyte := pkgLeadByte.toNat_lt
  have h6 : (6 : UInt8).toNat % 8 = 6 := rfl
  have hand : (pkgLeadByte &&& 0b11000000).toNat ≤ pkgLeadByte.toNat := by
    rw [UInt8.toNat_and]
    exact Nat.and_le_left
  rw [byteDataCount, UInt8.toNat_shiftRight, h6, Nat.shiftRight_eq_div_pow]
  omega

/-- The lead byte announces as many bytes as there are bytes, itself included. -/
def Truncated (aml : ℕ → UInt8) (amlSize : ℕ) : Prop :=
  amlSize > 0 ∧ ¬ aml 0 ≤ 63 ∧ aml 0 &&& 0b110000 = 0 ∧ byteDataCount (aml 0) = amlSize

instance (aml : ℕ → UInt8) (amlSize : ℕ) : Decidable (Truncated aml amlSize) :=
  inferInstanceAs (Decidable (_ ∧ _ ∧ _ ∧ _))

/-- `parse_pkg_length` looks at the bytes of its buffer only, and what it accepts fits in there. -/
structure StaysInside (aml : ℕ → UInt8) (amlSize : ℕ) (pkg : AcpiPkgLength) : Prop where
  reads : ∀ i ∈ (readPkgLength amlSize pkg).reads aml, i < amlSize
  encodedSize : ∀ parsed, parsePkgLength aml amlSize pkg = some (.ok (), parsed) →
    parsed.encodedSize ≤ amlSize ∧ parsed.encodedSize ≤ MAX_PKG_LENGTH_ENCODED_SIZE
  size : ∀ parsed, parsePkgLength aml amlSize pkg = some (.ok (), parsed) →
    parsed.size.toNat < 2 ^ 28

theorem joinByteData_lt {nybble : UInt64} (hnybble : nybble.toNat < 16) (k : ℕ) (hk : k ≤ 3) :
    (joinByteData aml nybble k).toNat < 2 ^ 28 := by
  induction k with
  | zero => exact lt_trans hnybble (by decide)
  | succ k ih =>
    obtain ⟨hnext, hfit⟩ := joinByteData_succ aml nybble (show k < 7 by omega)
    rw [hnext]
    refine Nat.or_lt_two_pow (ih (by omega)) (lt_of_lt_of_le hfit ?_)
    exact Nat.pow_le_pow_right (by decide) (by omega)

/-- The cases of `parse_pkg_length`: the result and the struct, and the bytes that it looks at. -/
inductive ParseCase (aml : ℕ → UInt8) (amlSize : ℕ) (pkg : AcpiPkgLength) :
    Except Err Unit × AcpiPkgLength → List ℕ → Prop
  | empty : amlSize = 0 → ParseCase aml amlSize pkg (.error .ERR_INVALID, pkg) []
  | short : amlSize > 0 → aml 0 ≤ 63 →
      ParseCase aml amlSize pkg (.ok (), shortPkgLength aml) ([0] ++ List.range 1)
  | refused : amlSize > 0 → ¬ aml 0 ≤ 63 →
      ¬ (aml 0 &&& 0b110000 = 0 ∧ byteDataCount (aml 0) ≤ amlSize) →
      ParseCase aml amlSize pkg (.error .ERR_INVALID, pkg) [0]
  | long : amlSize > 0 → ¬ aml 0 ≤ 63 →
      aml 0 &&& 0b110000 = 0 ∧ byteDataCount (aml 0) ≤ amlSize →
      ParseCase aml amlSize pkg (.ok (), longPkgLength aml)
        ([0] ++ ((List.range (byteDataCount (aml 0))).map (· + 1) ++
          List.range (byteDataCount (aml 0) + 1)))

theorem readPkgLength_cases (aml : ℕ → UInt8) (amlSize : ℕ) (pkg : AcpiPkgLength) :
    ParseCase aml amlSize pkg ((readPkgLength amlSize pkg).run aml)
      ((readPkgLength amlSize pkg).reads aml) := by
  rw [readPkgLength]
  by_cases hpos : amlSize > 0
  case neg =>
    rw [if_neg hpos]
    exact .empty (by omega)
  rw [if_pos hpos, Reading.run_bind, Reading.reads_bind, Reading.run_look, Reading.reads_look]
  by_cases hlead : aml 0 ≤ 63
  case pos =>
    rw [if_pos hlead, run_copyPkgLength, reads_copyPkgLength]
    exact .short hpos hlead
  rw [if_neg hlead]
  by_cases hreserved : (aml 0 &&& 0b110000 == 0) = true
  case neg =>
    rw [if_neg hreserved]
    exact .refused hpos hlead fun h => hreserved (beq_iff_eq.mpr h.1)
  have hcount : (aml 0 &&& 0b11000000) >>> 6 ≤ 3 := by
    rw [UInt8.le_iff_toNat_le]
    exact byteDataCount_le (aml 0)
  simp only [if_pos hreserved, if_pos hcount]
  by_cases hsize : ((aml 0 &&& 0b11000000) >>> 6).toNat ≤ amlSize
  case neg =>
    rw [if_neg hsize]
    exact .refused hpos hlead fun h => hsize h.2
  rw [if_pos hsize, Reading.run_bind, Reading.reads_bind, run_readByteData, reads_readByteData,
    run_copyPkgLength, reads_copyPkgLength]
  exact .long hpos hlead ⟨beq_iff_eq.mp hreserved, hsize⟩

/-- What `parse_pkg_length` leaves does not depend on what was there before. -/
theorem parsePkgLength_apply (aml : ℕ → UInt8) (amlSize : ℕ) (pkg : AcpiPkgLength) :
    parsePkgLength aml amlSize pkg =
      match parsedPkgLength aml amlSize with
      | some parsed => some (.ok (), parsed)
      | none => some (.error .ERR_INVALID, pkg) := by
  have hcase := readPkgLength_cases aml amlSize pkg
  rw [run_readPkgLength, parsedPkgLength]
  generalize (readPkgLength amlSize pkg).run aml = x at hcase ⊢
  generalize (readPkgLength amlSize pkg).reads aml = reads at hcase
  cases hcase with
  | empty hsize => rw [if_pos hsize]
  | short hpos hlead => rw [if_neg (by omega), if_pos hlead]
  | refused hpos hlead hrest => rw [if_neg (by omega), if_neg hlead, if_neg hrest]
  | long hpos hlead hrest => rw [if_neg (by omega), if_neg hlead, if_pos hrest]

theorem parsePkgLength_eq_ok {aml : ℕ → UInt8} {amlSize : ℕ} {pkg parsed : AcpiPkgLength} :
    parsePkgLength aml amlSize pkg = some (.ok (), parsed) ↔
      parsedPkgLength aml amlSize = some parsed := by
  rw [parsePkgLength_apply]
  cases parsedPkgLength aml amlSize <;> simp

theorem longPkgLength_size_lt (aml : ℕ → UInt8) : (longPkgLength aml).size.toNat < 2 ^ 28 := by
  refine joinByteData_lt ?_ _ (byteDataCount_le _)
  have h15 : (0b1111 : UInt8).toNat = 2 ^ 4 - 1 := rfl
  rw [UInt8.toNat_toUInt64, UInt8.toNat_and, h15, Nat.and_two_pow_sub_one_eq_mod]
  omega

/-- Where the length is not cut off, no byte behind the buffer is read. -/
theorem readPkgLength_reads_lt {aml : ℕ → UInt8} {amlSize : ℕ} (pkg : AcpiPkgLength)
    (htrunc : ¬ Truncated aml amlSize) :
    ∀ i ∈ (readPkgLength amlSize pkg).reads aml, i < amlSize := by
  have hcase := readPkgLength_cases aml amlSize pkg
  generalize (readPkgLength amlSize pkg).run aml = x at hcase
  generalize (readPkgLength amlSize pkg).reads aml = reads at hcase ⊢
  cases hcase with
  | empty => exact nofun
  | short hpos hlead =>
    intro i hi
    simp only [List.mem_append, List.mem_singleton, List.mem_range] at hi
    omega
  | refused hpos =>
    intro i hi
    rw [List.mem_singleton] at hi
    omega
  | long hpos hlead hrest =>
    have hne : byteDataCount (aml 0) ≠ amlSize := fun h => htrunc ⟨hpos, hlead, hrest.1, h⟩
    intro i hi
    simp only [List.mem_append, List.mem_singleton, List.mem_range, List.mem_map] at hi
    rcases hi with rfl | ⟨j, hj, rfl⟩ | hi
    · omega
    · omega
    · omega

/-- **When parsing stays inside its buffer**: unless the lead byte announces as many bytes as the
buffer has, itself included. -/
theorem parsePkgLength_staysInside_iff (aml : ℕ → UInt8) (amlSize : ℕ) (pkg : AcpiPkgLength) :
    StaysInside aml amlSize pkg ↔ ¬ Truncated aml amlSize := by
  have hcount := byteDataCount_le (aml 0)
  constructor
  · rintro h ⟨hpos, hlead, hreserved, htrunc⟩
    have hok : parsePkgLength aml amlSize pkg = some (.ok (), longPkgLength aml) := by
      rw [parsePkgLength_eq_ok, parsedPkgLength, if_neg (by omega), if_neg hlead,
        if_pos ⟨hreserved, by omega⟩]
    have hfits := (h.encodedSize _ hok).1
    simp only [longPkgLength] at hfits
    omega
  · intro htrunc
    refine ⟨readPkgLength_reads_lt pkg htrunc, fun parsed hok => ?_, fun parsed hok => ?_⟩
    · rw [parsePkgLength_eq_ok, parsedPkgLength] at hok
      split_ifs at hok with hzero hlead hrest
      · obtain rfl := Option.some.inj hok
        simp only [shortPkgLength, MAX_PKG_LENGTH_ENCODED_SIZE]
        omega
      · obtain rfl := Option.some.inj hok
        have hne : byteDataCount (aml 0) ≠ amlSize :=
          fun h => htrunc ⟨Nat.pos_of_ne_zero hzero, hlead, hrest.1, h⟩
        simp only [longPkgLength, MAX_PKG_LENGTH_ENCODED_SIZE]
        omega
    · rw [parsePkgLength_eq_ok, parsedPkgLength] at hok
      split_ifs at hok with hzero hlead hrest
      · obtain rfl := Option.some.inj hok
        have hbyte := (aml 0).toNat_lt
        simp only [shortPkgLength, UInt8.toNat_toUInt64]
        omega
      · obtain rfl := Option.some.inj hok
        exact longPkgLength_size_lt aml

/-- **A length that runs past its buffer is accepted**: the byte `40` announces a byte behind it. -/
theorem parsePkgLength_overrun :
    parsePkgLength (fun _ => 0x40) 1 ⟨0, 0, fun _ => 0⟩ =
        some (.ok (), longPkgLength fun _ => 0x40) ∧
      ¬ StaysInside (fun _ => 0x40) 1 ⟨0, 0, fun _ => 0⟩ :=
  ⟨parsePkgLength_eq_ok.mpr rfl, fun h => absurd (h.reads 1 (by decide)) (by decide)⟩

end Reads

end SwitchOs
