import SwitchOs.Pci.Lookup

/-!
# Accesses to the configuration space

`shared/src/pci/pci_utils.c`: an access writes the address of a function and an offset to one port of
the host bridge, and goes through the other one, always the same whatever the offset is. `Bridge` is
what the bridge makes of the two ports. One that keeps the low bits of the address gives the plain
memory of `PciSpace`; one that takes the byte lane from the port does so only for the offsets that are
multiples of four (`behavesPlain_iff`).
-/

namespace SwitchOs

/-! ## The host bridge -/

/-- The configuration spaces behind the bridge, and the register at `0xCF8`. -/
structure PortState where
  config : PciDevAddr → ℕ → UInt8
  address : UInt32

/-- Which byte of the space the address register and the number of the data port select. -/
def Bridge : Type := UInt32 → ℕ → ℕ

/-- The bridge ignores the low two bits of the register, and takes the byte lane from the port. -/
def dwordBridge : Bridge := fun address port => address.toNat % 256 / 4 * 4 + port % 4

/-- The bridge keeps all the bits of the register. -/
def keepingBridge : Bridge := fun address port => address.toNat % 256 ||| port % 4

/-- The function that the register selects. -/
def selectedAddr (address : UInt32) : PciDevAddr :=
  ⟨(address >>> 16).toUInt8, ((address >>> 11) &&& 0x1f).toUInt8, ((address >>> 8) &&& 0x7).toUInt8⟩

/-- The register has its enable bit. -/
def Enabled (address : UInt32) : Prop := address &&& 0x80000000 ≠ 0

instance (address : UInt32) : Decidable (Enabled address) :=
  inferInstanceAs (Decidable (address &&& 0x80000000 ≠ 0))

namespace PortState

/-- `out32(0xCF8, address)`. -/
def outAddress (address : UInt32) (s : PortState) : PortState := { s with address := address }

/-- `in##num(port)`: all ones where nothing is enabled. -/
def inData (B : Bridge) (num port : ℕ) (s : PortState) : BitVec num :=
  if Enabled s.address then
    BitVec.ofNat num (getLE (s.config (selectedAddr s.address)) (B s.address port) (num / 8))
  else BitVec.allOnes num

/-- `out##num(port, value)`. -/
def outData (B : Bridge) (num port : ℕ) (value : BitVec num) (s : PortState) : PortState :=
  if Enabled s.address then
    let space := s.config (selectedAddr s.address)
    { s with
      config := Function.update s.config (selectedAddr s.address)
        (putLE space (B s.address port) (num / 8) value.toNat) }
  else s

end PortState

/-! ## `DEFINE_PCI_OP` -/

/-- `PCI_CONF_ADDR`. -/
def pciConfAddr (addr : PciDevAddr) (offset : UInt32) : UInt32 :=
  (0x80000000 : UInt32) ||| (addr.bus.toUInt32 <<< 16) ||| (addr.device.toUInt32 <<< 11) |||
    (addr.function.toUInt32 <<< 8) ||| offset

namespace Port

/-- `pci_read_##num`. -/
def pciRead (B : Bridge) (num : ℕ) (addr : PciDevAddr) (offset : UInt32) (s : PortState) :
    BitVec num × PortState :=
  let s := s.outAddress (pciConfAddr addr offset)
  (s.inData B num 0xCFC, s)

/-- `pci_write_##num`. -/
def pciWrite (B : Bridge) (num : ℕ) (addr : PciDevAddr) (offset : UInt32) (value : BitVec num)
    (s : PortState) : PortState :=
  (s.outAddress (pciConfAddr addr offset)).outData B num 0xCFC value

end Port

/-! ## The address register -/

section ConfAddr

variable {addr : PciDevAddr} {offset : UInt32}

/-- Below `0x800` the offset reaches no further than the bits of the function. -/
theorem PciDevAddr.Valid.selected (hvalid : addr.Valid) {n : ℕ} (hn : n < 2 ^ 11) :
    (addr.selected n).Valid := by
  obtain ⟨hdevice, hfunction⟩ := hvalid
  refine ⟨hdevice, ?_⟩
  have hpage : (UInt8.ofNat (n / 256)).toNat = n / 256 :=
    UInt8.toNat_ofNat_of_lt' (by show _ < 256; omega)
  rw [PciDevAddr.selected, UInt8.toNat_or, hpage, show PCI_MAX_FUNCTION = 2 ^ 3 from rfl]
  exact Nat.or_lt_two_pow hfunction (by omega)

/-- The fields of the address do not overlap, but for what an offset has above its low byte. -/
theorem toNat_pciConfAddr (hvalid : addr.Valid) (hoffset : offset.toNat < 2 ^ 11) :
    (pciConfAddr addr offset).toNat = 2 ^ 31 + addr.bus.toNat * 2 ^ 16 +
      addr.device.toNat * 2 ^ 11 + (addr.selected offset.toNat).function.toNat * 2 ^ 8 +
        offset.toNat % 256 := by
  obtain ⟨-, hselected⟩ := hvalid.selected hoffset
  obtain ⟨hdevice, hfunction⟩ := hvalid
  have hbus := addr.bus.toNat_lt
  have hpage : (UInt8.ofNat (offset.toNat / 256)).toNat = offset.toNat / 256 :=
    UInt8.toNat_ofNat_of_lt' (by show _ < 256; omega)
  simp only [PciDevAddr.selected, UInt8.toNat_or, hpage] at hselected ⊢
  simp only [PCI_MAX_DEVICE, PCI_MAX_FUNCTION] at hdevice hfunction hselected
  have hor : ∀ {k a b : ℕ}, b < 2 ^ k → 2 ^ k * a ||| b = 2 ^ k * a + b :=
    fun hb => (Nat.two_pow_add_eq_or_of_lt hb _).symm
  have hfields : (pciConfAddr addr offset).toNat = 2 ^ 31 ||| 2 ^ 16 * addr.bus.toNat |||
      2 ^ 11 * addr.device.toNat ||| 2 ^ 8 * addr.function.toNat ||| offset.toNat := by
    simp only [pciConfAddr, UInt32.toNat_or, UInt32.toNat_shiftLeft, UInt8.toNat_toUInt32,
      Nat.shiftLeft_eq, UInt32.reduceToNat, Nat.reduceMod, Nat.mul_comm]
    rw [Nat.mod_eq_of_lt (by omega), Nat.mod_eq_of_lt (by omega), Nat.mod_eq_of_lt (by omega)]
    rfl
  -- the offset has its bits above the low byte where the function has its own
  have hoff : 2 ^ 8 * addr.function.toNat ||| offset.toNat =
      2 ^ 8 * (addr.function.toNat ||| offset.toNat / 256) ||| offset.toNat % 256 := by
    have hsplit : offset.toNat = 2 ^ 8 * (offset.toNat / 256) ||| offset.toNat % 256 := by
      rw [hor (k := 8) (by omega)]
      omega
    have hshift : ∀ n : ℕ, 2 ^ 8 * n = n <<< 8 := fun n => by rw [Nat.shiftLeft_eq, Nat.mul_comm]
    conv_lhs => rw [hsplit]
    rw [← Nat.or_assoc, hshift, hshift, hshift, Nat.shiftLeft_or_distrib]
  rw [hfields, Nat.or_assoc _ _ offset.toNat, hoff, ← Nat.or_assoc]
  calc 2 ^ 31 ||| 2 ^ 16 * addr.bus.toNat ||| 2 ^ 11 * addr.device.toNat |||
        2 ^ 8 * (addr.function.toNat ||| offset.toNat / 256) ||| offset.toNat % 256
      = 2 ^ 16 * (2 ^ 15 + addr.bus.toNat) ||| 2 ^ 11 * addr.device.toNat |||
        2 ^ 8 * (addr.function.toNat ||| offset.toNat / 256) ||| offset.toNat % 256 := by
        rw [show 2 ^ 31 = 2 ^ 31 * 1 from rfl, hor (by omega)]
        congr 3
        omega
    _ = 2 ^ 11 * (2 ^ 20 + 2 ^ 5 * addr.bus.toNat + addr.device.toNat) |||
        2 ^ 8 * (addr.function.toNat ||| offset.toNat / 256) ||| offset.toNat % 256 := by
        rw [hor (by omega)]
        congr 2
        omega
    _ = 2 ^ 8 * (2 ^ 23 + 2 ^ 8 * addr.bus.toNat + 2 ^ 3 * addr.device.toNat +
        (addr.function.toNat ||| offset.toNat / 256)) ||| offset.toNat % 256 := by
        rw [hor (by omega)]
        congr 1
        omega
    _ = _ := by
        rw [hor (by omega)]
        omega

/-- The register selects the function of the access. -/
theorem selectedAddr_pciConfAddr (hvalid : addr.Valid) (hoffset : offset.toNat < 2 ^ 11) :
    selectedAddr (pciConfAddr addr offset) = addr.selected offset.toNat := by
  have hreg := toNat_pciConfAddr hvalid hoffset
  obtain ⟨hdevice, hfunction⟩ := hvalid.selected hoffset
  have hbus := (addr.selected offset.toNat).bus.toNat_lt
  have hbus' : (addr.selected offset.toNat).bus = addr.bus := rfl
  have hdevice' : (addr.selected offset.toNat).device = addr.device := rfl
  rw [← hbus', ← hdevice'] at hreg
  clear hbus' hdevice'
  generalize addr.selected offset.toNat = target at hreg hbus hdevice hfunction ⊢
  simp only [PCI_MAX_DEVICE, PCI_MAX_FUNCTION] at hdevice hfunction
  obtain ⟨bus, device, function⟩ := target
  simp only at hreg hbus hdevice hfunction
  have h31 : (31 : ℕ) = 2 ^ 5 - 1 := rfl
  have h7 : (7 : ℕ) = 2 ^ 3 - 1 := rfl
  rw [selectedAddr, PciDevAddr.mk.injEq, ← UInt8.toNat_inj, ← UInt8.toNat_inj, ← UInt8.toNat_inj]
  simp only [UInt32.toNat_toUInt8, UInt32.toNat_and, UInt32.toNat_shiftRight, hreg,
    Nat.shiftRight_eq_div_pow, UInt32.reduceToNat, Nat.reduceMod, h31, h7,
    Nat.and_two_pow_sub_one_eq_mod]
  omega

theorem enabled_pciConfAddr (hvalid : addr.Valid) (hoffset : offset.toNat < 2 ^ 11) :
    Enabled (pciConfAddr addr offset) := by
  intro hzero
  have hbit : (pciConfAddr addr offset &&& 0x80000000).toNat.testBit 31 = false := by
    rw [hzero]
    rfl
  have hreg := toNat_pciConfAddr hvalid hoffset
  obtain ⟨-, hfunction⟩ := hvalid.selected hoffset
  obtain ⟨hdevice, -⟩ := hvalid
  have hbus := addr.bus.toNat_lt
  simp only [PCI_MAX_DEVICE, PCI_MAX_FUNCTION] at hdevice hfunction
  rw [UInt32.toNat_and, Nat.testBit_and, hreg, Nat.testBit_eq_decide_div_mod_eq,
    show (0x80000000 : UInt32).toNat.testBit 31 = true from rfl, Bool.and_true,
    decide_eq_false_iff_not] at hbit
  omega

end ConfAddr

/-! ## Plain memory -/

/-- The widths of the accesses. -/
inductive Width where
  | w8
  | w16
  | w32
  deriving DecidableEq, Repr

/-- In bits. -/
def Width.num : Width → ℕ
  | w8 => 8
  | w16 => 16
  | w32 => 32

/-- Where an access goes. -/
structure Place where
  addr : PciDevAddr
  width : Width
  offset : UInt32
  deriving DecidableEq, Repr

/-- A function that can exist, and an offset in its space that is a multiple of the width. -/
structure Place.Aligned (q : Place) : Prop where
  addr : q.addr.Valid
  offset : q.offset.toNat < 256
  aligned : q.offset.toNat % (q.width.num / 8) = 0

section Aligned

variable {q : Place}

theorem Place.Aligned.offset_lt (hq : q.Aligned) : q.offset.toNat < 2 ^ 11 :=
  hq.offset.trans (by decide)

theorem Place.Aligned.selectedAddr (hq : q.Aligned) :
    SwitchOs.selectedAddr (pciConfAddr q.addr q.offset) = q.addr := by
  rw [selectedAddr_pciConfAddr hq.addr hq.offset_lt, PciDevAddr.selected_of_lt hq.offset]

end Aligned

/-- A read, or a write of a value. -/
inductive PciAccess where
  | read (q : Place)
  | write (q : Place) (value : BitVec q.width.num)

def PciAccess.place : PciAccess → Place
  | read q => q
  | write q _ => q

/-- The spaces of all functions, as memory. -/
abbrev Spaces : Type := PciDevAddr → ℕ → UInt8

/-- What a read of plain memory gives. -/
def plainRead (config : Spaces) (q : Place) : BitVec q.width.num :=
  BitVec.ofNat q.width.num (getLE (config q.addr) q.offset.toNat (q.width.num / 8))

/-- A write of plain memory: the bytes of the value, lowest first, and no others. -/
def plainWrite (config : Spaces) (q : Place) (value : BitVec q.width.num) : Spaces :=
  Function.update config q.addr
    (putLE (config q.addr) q.offset.toNat (q.width.num / 8) value.toNat)

/-- The values read by a sequence of accesses to plain memory, and what it leaves there. -/
def plainRun : List PciAccess → Spaces → List ℕ × Spaces
  | [], config => ([], config)
  | .read q :: as, config =>
    let r := plainRun as config
    ((plainRead config q).toNat :: r.1, r.2)
  | .write q value :: as, config => plainRun as (plainWrite config q value)

/-- The values read by the same sequence through the ports, and what it leaves. -/
def portRun (B : Bridge) : List PciAccess → PortState → List ℕ × PortState
  | [], s => ([], s)
  | .read q :: as, s =>
    let r := Port.pciRead B q.width.num q.addr q.offset s
    let rest := portRun B as r.2
    (r.1.toNat :: rest.1, rest.2)
  | .write q value :: as, s =>
    portRun B as (Port.pciWrite B q.width.num q.addr q.offset value s)

/-- Every sequence of accesses to these places behaves like one to plain memory. -/
def BehavesPlain (B : Bridge) (places : Set Place) : Prop :=
  ∀ as : List PciAccess, (∀ a ∈ as, a.place ∈ places) → ∀ s : PortState,
    (portRun B as s).1 = (plainRun as s.config).1 ∧
      (portRun B as s).2.config = (plainRun as s.config).2

section Run

variable {B : Bridge} {q : Place} {places : Set Place}

/-- Both ports of an access, for a place that can exist. -/
theorem pciRead_eq (hq : q.Aligned) (s : PortState) :
    Port.pciRead B q.width.num q.addr q.offset s =
      (BitVec.ofNat q.width.num (getLE (s.config q.addr)
        (B (pciConfAddr q.addr q.offset) 0xCFC) (q.width.num / 8)),
        { s with address := pciConfAddr q.addr q.offset }) := by
  have hselected := hq.selectedAddr
  simp only [Port.pciRead, PortState.outAddress, PortState.inData,
    if_pos (enabled_pciConfAddr hq.addr hq.offset_lt), hselected]

theorem pciWrite_eq (hq : q.Aligned) (value : BitVec q.width.num) (s : PortState) :
    Port.pciWrite B q.width.num q.addr q.offset value s =
      ⟨Function.update s.config q.addr (putLE (s.config q.addr)
        (B (pciConfAddr q.addr q.offset) 0xCFC) (q.width.num / 8) value.toNat),
        pciConfAddr q.addr q.offset⟩ := by
  have hselected := hq.selectedAddr
  simp only [Port.pciWrite, PortState.outAddress, PortState.outData,
    if_pos (enabled_pciConfAddr hq.addr hq.offset_lt), hselected]

/-- If the bridge selects the byte at the offset for each of the places, any sequence of accesses to
them is one to plain memory. -/
theorem behavesPlain_of_selects
    (h : ∀ q ∈ places, q.Aligned ∧ B (pciConfAddr q.addr q.offset) 0xCFC = q.offset.toNat) :
    BehavesPlain B places := by
  intro as
  induction as with
  | nil => exact fun _ s => ⟨rfl, rfl⟩
  | cons a as ih =>
    intro hplaces s
    have ih' := ih fun a ha => hplaces a (List.mem_cons_of_mem _ ha)
    obtain ⟨hq, hselects⟩ := h a.place (hplaces a List.mem_cons_self)
    cases a with
    | read q =>
      simp only [PciAccess.place] at hq hselects
      obtain ⟨hvalues, hconfig⟩ := ih' { s with address := pciConfAddr q.addr q.offset }
      simp only [portRun, plainRun, pciRead_eq hq, hselects]
      exact ⟨congrArg (_ :: ·) hvalues, hconfig⟩
    | write q value =>
      simp only [PciAccess.place] at hq hselects
      simp only [portRun, plainRun, pciWrite_eq hq, hselects]
      exact ih' _

end Run

/-! ## The two bridges -/

theorem dwordBridge_pciConfAddr {addr : PciDevAddr} {offset : UInt32} (hvalid : addr.Valid)
    (hoffset : offset.toNat < 256) :
    dwordBridge (pciConfAddr addr offset) 0xCFC = offset.toNat / 4 * 4 := by
  rw [dwordBridge, toNat_pciConfAddr hvalid (by omega)]
  omega

theorem keepingBridge_pciConfAddr {addr : PciDevAddr} {offset : UInt32} (hvalid : addr.Valid)
    (hoffset : offset.toNat < 2 ^ 11) :
    keepingBridge (pciConfAddr addr offset) 0xCFC = offset.toNat % 256 := by
  rw [keepingBridge, toNat_pciConfAddr hvalid hoffset, Nat.or_zero]
  omega

/-- Through a bridge that keeps the low bits, all accesses are to plain memory. -/
theorem keepingBridge_behavesPlain : BehavesPlain keepingBridge { q | q.Aligned } := by
  refine behavesPlain_of_selects fun q hq => ⟨hq, ?_⟩
  rw [keepingBridge_pciConfAddr hq.addr hq.offset_lt, Nat.mod_eq_of_lt hq.offset]

section PciSpace

variable (s : PciSpace) {addr : PciDevAddr} {offset : UInt32} {address : UInt32}

/-- The reads of `PciSpace` are those through such a bridge, also at the offsets behind the space. -/
theorem pciRead_pciSpace (hvalid : addr.Valid) (hoffset : offset.toNat < 2 ^ 11) :
    (Port.pciRead keepingBridge 8 addr offset ⟨s.config, address⟩).1 =
        (pciRead8 s addr offset.toNat).toBitVec ∧
      (Port.pciRead keepingBridge 16 addr offset ⟨s.config, address⟩).1 =
        (pciRead16 s addr offset.toNat).toBitVec ∧
      (Port.pciRead keepingBridge 32 addr offset ⟨s.config, address⟩).1 =
        (pciRead32 s addr offset.toNat).toBitVec := by
  simp only [Port.pciRead, PortState.outAddress, PortState.inData,
    if_pos (enabled_pciConfAddr hvalid hoffset), selectedAddr_pciConfAddr hvalid hoffset,
    keepingBridge_pciConfAddr hvalid hoffset]
  refine ⟨?_, ?_, ?_⟩ <;> apply BitVec.eq_of_toNat_eq
  · simp [getLE, pciRead8]
  · simp [pciRead16, get16]
  · simp [pciRead32, get32]

/-- So are its writes, where all the bits can be written. -/
theorem pciWrite_pciSpace (hvalid : addr.Valid) (hoffset : offset.toNat < 2 ^ 11)
    (hwritable : s.writable (addr.selected offset.toNat) (offset.toNat % 256) = 0xffffffff)
    (value : UInt32) (value16 : UInt16) :
    (Port.pciWrite keepingBridge 32 addr offset value.toBitVec ⟨s.config, address⟩).config =
        (pciWrite32 addr offset.toNat value s).config ∧
      (Port.pciWrite keepingBridge 16 addr offset value16.toBitVec ⟨s.config, address⟩).config =
        (pciWrite16 addr offset.toNat value16 s).config := by
  have h32 : (0xffffffff : UInt32).toBitVec = BitVec.allOnes 32 := rfl
  have h16 : (0xffffffff : UInt32).toUInt16.toBitVec = BitVec.allOnes 16 := rfl
  simp only [Port.pciWrite, PortState.outAddress, PortState.outData,
    if_pos (enabled_pciConfAddr hvalid hoffset), selectedAddr_pciConfAddr hvalid hoffset,
    keepingBridge_pciConfAddr hvalid hoffset, pciWrite32, pciWrite16, hwritable, h32, h16,
    maskedWrite_allOnes]
  constructor
  · simp [put32]
  · simp [put16]

end PciSpace

/-- One read of plain memory, and the same read through the ports. -/
theorem read_eq_of_behavesPlain {B : Bridge} {places : Set Place} (h : BehavesPlain B places)
    {q : Place} (hmem : q ∈ places) (hq : q.Aligned) (config : Spaces) :
    getLE (config q.addr) (B (pciConfAddr q.addr q.offset) 0xCFC) (q.width.num / 8) %
        2 ^ q.width.num =
      getLE (config q.addr) q.offset.toNat (q.width.num / 8) % 2 ^ q.width.num := by
  have hrun := (h [.read q] (by simpa [PciAccess.place] using hmem) ⟨config, 0⟩).1
  simp only [portRun, plainRun, pciRead_eq hq, plainRead, BitVec.toNat_ofNat] at hrun
  exact List.head_eq_of_cons_eq hrun

/-- Behind a bridge that takes the lane from the port, a sub-dword place that is not at the start of a
dword reads other bytes. -/
theorem offset_of_behavesPlain {places : Set Place} (h : BehavesPlain dwordBridge places)
    {q : Place} (hmem : q ∈ places) (hq : q.Aligned) : q.offset.toNat % 4 = 0 := by
  by_contra hne
  -- a space with a 1 at the offset, and zeroes below it
  have hread := read_eq_of_behavesPlain h hmem hq fun _ x => if x = q.offset.toNat then 1 else 0
  rw [dwordBridge_pciConfAddr hq.addr hq.offset] at hread
  have haligned := hq.aligned
  cases hwidth : q.width with
  | w8 =>
    rw [hwidth] at hread
    simp only [Width.num, getLE] at hread
    rw [if_neg (by omega)] at hread
    simp at hread
  | w16 =>
    rw [hwidth] at hread haligned
    simp only [Width.num] at haligned
    simp only [Width.num, getLE] at hread
    rw [if_neg (by omega), if_neg (by omega)] at hread
    simp at hread
  | w32 =>
    rw [hwidth] at haligned
    simp only [Width.num] at haligned
    omega

/-- Behind a bridge that takes the byte lane from the port, the accesses to a set of places behave like
accesses to plain memory exactly if each of the places is at a multiple of four. -/
theorem behavesPlain_iff {places : Set Place} (haligned : ∀ q ∈ places, q.Aligned) :
    BehavesPlain dwordBridge places ↔ ∀ q ∈ places, q.offset.toNat % 4 = 0 := by
  constructor
  · exact fun h q hmem => offset_of_behavesPlain h hmem (haligned q hmem)
  · intro h
    refine behavesPlain_of_selects fun q hmem => ⟨haligned q hmem, ?_⟩
    have hfour := h q hmem
    rw [dwordBridge_pciConfAddr (haligned q hmem).addr (haligned q hmem).offset]
    omega

/-- The base address registers of a function are at multiples of four. -/
theorem behavesPlain_iff_bars : BehavesPlain dwordBridge
    { q | q.addr = ⟨0, 3, 0⟩ ∧ q.width = .w32 ∧ (q.offset = 0x10 ∨ q.offset = 0x14) } := by
  refine (behavesPlain_iff ?_).mpr ?_
  · rintro ⟨addr, width, offset⟩ ⟨rfl, rfl, rfl | rfl⟩ <;>
      exact ⟨⟨by decide, by decide⟩, by decide, by decide⟩
  · rintro q ⟨-, -, hoffset | hoffset⟩ <;> rw [hoffset] <;> rfl

/-- The device id, which `init_pci_dev` reads, is not. -/
theorem deviceId_not_plain :
    (⟨⟨0, 3, 0⟩, .w16, 2⟩ : Place).Aligned ∧
      ¬ BehavesPlain dwordBridge { q | q = ⟨⟨0, 3, 0⟩, .w16, 2⟩ } := by
  have haligned : (⟨⟨0, 3, 0⟩, .w16, 2⟩ : Place).Aligned :=
    ⟨⟨by decide, by decide⟩, by decide, by decide⟩
  exact ⟨haligned, fun h => absurd (offset_of_behavesPlain h rfl haligned) (by decide)⟩

end SwitchOs
