import SwitchOs.Pci.Config

/-!
# Saving and restoring the disk's BARs

The UEFI application saves the six base address registers of the disk in the core header
(`fill_disk_pci` of `uefi/core_header_utils.c`), and core writes them back after the disk has lost
power (`init_virtio_blk_dev` of `core/drivers/virtio/virtio_blk.c`).

The save reads every register as a BAR of its own and masks the low bits that a BAR of its type would
have. The upper half of a 64-bit BAR has no such bits, and loses its low bits: `bars_restored_iff` says
that every implemented BAR comes back as it was if and only if the low nibble of every upper half is
zero.
-/

namespace SwitchOs

def DISK_PCI_VENDOR_ID : UInt16 := 0x1AF4
def DISK_PCI_DEVICE_ID : UInt16 := 0x1001

def gDiskPciId : PciDevId := ⟨DISK_PCI_VENDOR_ID, DISK_PCI_DEVICE_ID⟩

def VIRTIO_BLK_VENDOR_ID : UInt16 := 0x1AF4
def VIRTIO_BLK_DEVICE_ID : UInt16 := 0x1001

/-- `g_core_header->disk_pci.addr`. -/
def CoreHeader.diskAddr (core : CoreHeader) : PciDevAddr :=
  ⟨core.diskPci.bus, core.diskPci.device, core.diskPci.function⟩

/-- `g_core_header->disk_pci.addr = addr`. -/
def CoreHeader.setDiskAddr (core : CoreHeader) (addr : PciDevAddr) : CoreHeader :=
  { core with diskPci := ⟨addr.bus, addr.device, addr.function, core.diskPci.bars⟩ }

/-- `g_core_header->disk_pci.bars[i] = bar`. -/
def CoreHeader.setDiskBar (core : CoreHeader) (i : ℕ) (bar : UInt32) : CoreHeader :=
  { core with diskPci := { core.diskPci with bars := Function.update core.diskPci.bars i bar } }

/-- `fill_disk_pci`. -/
def fillDiskPci (s : PciSpace) : Prog Err CoreHeader Unit := do
  let dev ← Prog.lift (lookupPciDev s gDiskPciId)
  Prog.modify fun core => core.setDiskAddr dev.addr
  Prog.forEach (fun i => do
    let bar ← Prog.lift (pciGetBar s dev.addr i)
    Prog.modify fun core => core.setDiskBar i bar.addr.toUInt32) (List.range 6)

/-- `init_virtio_blk_dev` up to its check of the header type: what comes after it does not write to a
base address register. -/
def initVirtioBlkDevBars (core : CoreHeader) : Prog Err PciSpace PciDev := do
  let s ← Prog.get
  let dev ← Prog.lift (initPciDev s core.diskAddr)
  check (dev.vendorId == VIRTIO_BLK_VENDOR_ID && dev.deviceId == VIRTIO_BLK_DEVICE_ID)
  Prog.forEach (fun i => Prog.modify
    (pciWrite32 core.diskAddr (PCI_BASE_ADDRESS_0 + 4 * i) (core.diskPci.bars i)))
    (List.range PCI_BASE_ADDRESS_NUM)
  check (dev.headerType == PCI_HEADER_TYPE_NORMAL)
  pure dev

/-! ## The device's registers -/

/-- What a base address register of the device is: not implemented, an I/O BAR, a 32-bit memory BAR,
the lower half of a 64-bit memory BAR, or the upper half of the one before it. -/
inductive BarKind where
  | none
  | io
  | memory (prefetchable : Bool)
  | memory64 (prefetchable : Bool)
  | upper
  deriving DecidableEq, Repr

namespace BarKind

/-- The bits of the register in which an address can stand. -/
def mask : BarKind → UInt32
  | none => 0
  | io => 0xfffffffc
  | memory _ => 0xfffffff0
  | memory64 _ => 0xfffffff0
  | upper => 0xffffffff

/-- The read-only bits, which say what type the BAR has. -/
def typeBits : BarKind → UInt32
  | none => 0
  | io => 1
  | memory prefetchable => if prefetchable then 8 else 0
  | memory64 prefetchable => if prefetchable then 0xc else 4
  | upper => 0

/-- The register begins a BAR. -/
def Implemented (kind : BarKind) : Prop := kind ≠ none ∧ kind ≠ upper

end BarKind

/-- The upper halves are the registers behind the lower ones. -/
structure BarLayout (kinds : ℕ → BarKind) : Prop where
  upper_iff : ∀ i, kinds (i + 1) = .upper ↔ ∃ p, kinds i = .memory64 p
  first : kinds 0 ≠ .upper
  last : ∀ p, kinds 5 ≠ .memory64 p

/-- The registers of the function are of these kinds. The bits that can be written are those above the
size of each BAR, some of the ones in which an address can stand; the others are the type bits of the
register, and zeroes. -/
structure HasBars (s : PciSpace) (addr : PciDevAddr) (kinds : ℕ → BarKind) (masks : ℕ → UInt32) :
    Prop where
  writable : ∀ i < 6, s.writable addr (PCI_BASE_ADDRESS_0 + i * 4) = masks i
  inside : ∀ i < 6, masks i &&& (kinds i).mask = masks i
  aligned : ∀ i < 6, barReg s addr i &&& ~~~masks i = (kinds i).typeBits

variable {s s' : PciSpace} {addr : PciDevAddr} {core core' : CoreHeader} {kinds : ℕ → BarKind}
  {masks : ℕ → UInt32} {bar : PciBar} {mask reg lost : UInt32} {i j : ℕ}

theorem and_not_mask {kindMask : UInt32} (h : mask &&& kindMask = mask) :
    ~~~mask &&& ~~~kindMask = ~~~kindMask := by
  refine UInt32.toBitVec_inj.mp ?_
  have h' := congrArg UInt32.toBitVec h
  simp only [UInt32.toBitVec_and, UInt32.toBitVec_not] at h' ⊢
  rw [← h', BitVec.not_and]
  refine BitVec.eq_of_getElem_eq fun i hi => ?_
  cases hm : mask.toBitVec[i] <;> cases hk : kindMask.toBitVec[i] <;> simp [hm, hk]

/-- The bits in which no address can stand are the type bits. -/
theorem HasBars.typeBits (h : HasBars s addr kinds masks) (hi : i < 6) :
    barReg s addr i &&& ~~~(kinds i).mask = (kinds i).typeBits := by
  rw [← and_not_mask (h.inside i hi), ← UInt32.and_assoc, h.aligned i hi]
  cases kinds i with
  | none => rfl
  | io => rfl
  | memory p => cases p <;> rfl
  | memory64 p => cases p <;> rfl
  | upper => rfl

/-- The bits that `pci_get_bar` keeps of a register, in its low 32 bits. -/
def saveMask (reg : UInt32) : UInt32 :=
  if reg &&& PCI_BASE_ADDRESS_SPACE = PCI_BASE_ADDRESS_SPACE_IO then 0xfffffffc else 0xfffffff0

/-- The type bits decide every bit under the read-only ones. -/
theorem and_of_readOnly {mask bits c : UInt32} (h : reg &&& ~~~mask = bits)
    (hc : ~~~mask &&& c = c) : reg &&& c = bits &&& c := by
  rw [← h, UInt32.and_assoc, hc]

theorem space_cases (reg : UInt32) :
    reg &&& PCI_BASE_ADDRESS_SPACE = PCI_BASE_ADDRESS_SPACE_IO ∨
      reg &&& PCI_BASE_ADDRESS_SPACE = PCI_BASE_ADDRESS_SPACE_MEMORY := by
  have hand : (reg &&& PCI_BASE_ADDRESS_SPACE).toNat = reg.toNat % 2 := by
    rw [UInt32.toNat_and]
    exact Nat.and_one_is_mod _
  rcases Nat.mod_two_eq_zero_or_one reg.toNat with h | h
  · exact Or.inr (UInt32.toNat_inj.mp (hand.trans h))
  · exact Or.inl (UInt32.toNat_inj.mp (hand.trans h))

/-- The low half of a sum with an upper half. -/
theorem toUInt32_add_shift (a : UInt64) (b : UInt32) :
    (a + (b.toUInt64 <<< 32)).toUInt32 = a.toUInt32 := by
  refine UInt32.toNat_inj.mp ?_
  have h32 : (32 : UInt64).toNat % 64 = 32 := rfl
  rw [UInt64.toNat_toUInt32, UInt64.toNat_toUInt32, UInt64.toNat_add, UInt64.toNat_shiftLeft, h32,
    Nat.shiftLeft_eq]
  omega

theorem shift_inj {b b' : UInt32} (h : b.toUInt64 <<< (32 : UInt64) = b'.toUInt64 <<< 32) :
    b = b' := by
  have h32 : (32 : UInt64).toNat % 64 = 32 := rfl
  have hnat := congrArg UInt64.toNat h
  rw [UInt64.toNat_shiftLeft, UInt64.toNat_shiftLeft, h32, Nat.shiftLeft_eq, Nat.shiftLeft_eq,
    UInt32.toNat_toUInt64, UInt32.toNat_toUInt64] at hnat
  have hlt := b.toNat_lt
  have hlt' := b'.toNat_lt
  exact UInt32.toNat_inj.mp (by omega)

/-- **What is saved of a register**: the bits under its mask. -/
theorem pciGetBar_low (h : pciGetBar s addr i = .ok bar) :
    bar.addr.toUInt32 = barReg s addr i &&& saveMask (barReg s addr i) := by
  have hiomask : PCI_BASE_ADDRESS_IO_MASK.toUInt32 = 0xfffffffc := by decide
  have hmemmask : PCI_BASE_ADDRESS_MEM_MASK.toUInt32 = 0xfffffff0 := by decide
  simp only [pciGetBar] at h
  rw [saveMask]
  split_ifs at h with h1 h2 hio hmem h64 hnext
  · have haddr := congrArg PciBar.addr (Except.ok.inj h)
    rw [← haddr, if_pos hio, UInt64.toUInt32_and, UInt32.toUInt32_toUInt64, hiomask]
  · have haddr := congrArg PciBar.addr (Except.ok.inj h)
    rw [← haddr, if_neg hio, toUInt32_add_shift, UInt64.toUInt32_and, UInt32.toUInt32_toUInt64,
      hmemmask]
  · have haddr := congrArg PciBar.addr (Except.ok.inj h)
    rw [← haddr, if_neg hio, UInt64.toUInt32_and, UInt32.toUInt32_toUInt64, hmemmask]

/-- What `pci_get_bar` returns depends on the register, and on the next one for a 64-bit BAR. -/
theorem pciGetBar_congr (hreg : barReg s' addr i = barReg s addr i)
    (hnext : barReg s addr i &&& PCI_BASE_ADDRESS_MEM_TYPE_MASK = PCI_BASE_ADDRESS_MEM_TYPE_64 →
      barReg s addr i &&& PCI_BASE_ADDRESS_SPACE = PCI_BASE_ADDRESS_SPACE_MEMORY →
      barReg s' addr (i + 1) = barReg s addr (i + 1)) :
    pciGetBar s' addr i = pciGetBar s addr i := by
  simp only [pciGetBar, hreg]
  by_cases hmem : barReg s addr i &&& PCI_BASE_ADDRESS_SPACE = PCI_BASE_ADDRESS_SPACE_MEMORY
  · by_cases h64 : barReg s addr i &&& PCI_BASE_ADDRESS_MEM_TYPE_MASK = PCI_BASE_ADDRESS_MEM_TYPE_64
    · simp only [hnext h64 hmem]
    · simp only [if_neg h64]
  · simp only [if_neg hmem]

/-- A 64-bit BAR, from its two registers. -/
theorem pciGetBar_memory64 (hi : i + 1 < PCI_BASE_ADDRESS_NUM)
    (hvalid : barReg s addr i ≠ PCI_BASE_ADDRESS_INVALID)
    (hmem : barReg s addr i &&& PCI_BASE_ADDRESS_SPACE = PCI_BASE_ADDRESS_SPACE_MEMORY)
    (h64 : barReg s addr i &&& PCI_BASE_ADDRESS_MEM_TYPE_MASK = PCI_BASE_ADDRESS_MEM_TYPE_64) :
    pciGetBar s addr i = .ok ⟨((barReg s addr i).toUInt64 &&& PCI_BASE_ADDRESS_MEM_MASK) +
      ((barReg s addr (i + 1)).toUInt64 <<< 32), .PCI_BAR_MEMORY⟩ := by
  have hio : barReg s addr i &&& PCI_BASE_ADDRESS_SPACE ≠ PCI_BASE_ADDRESS_SPACE_IO := by
    rw [hmem]
    decide
  have hi' : i < PCI_BASE_ADDRESS_NUM := by omega
  simp only [pciGetBar]
  rw [if_neg (not_not.mpr hi'), if_neg hvalid, if_neg hio, if_pos hmem, if_pos h64, if_pos hi]

/-- With the same lower half, a 64-bit BAR is the same if and only if its upper half is. -/
theorem pciGetBar_memory64_eq_iff (hi : i + 1 < PCI_BASE_ADDRESS_NUM)
    (hvalid : barReg s addr i ≠ PCI_BASE_ADDRESS_INVALID)
    (hmem : barReg s addr i &&& PCI_BASE_ADDRESS_SPACE = PCI_BASE_ADDRESS_SPACE_MEMORY)
    (h64 : barReg s addr i &&& PCI_BASE_ADDRESS_MEM_TYPE_MASK = PCI_BASE_ADDRESS_MEM_TYPE_64)
    (hreg : barReg s' addr i = barReg s addr i) :
    pciGetBar s' addr i = pciGetBar s addr i ↔
      barReg s' addr (i + 1) = barReg s addr (i + 1) := by
  rw [pciGetBar_memory64 hi hvalid hmem h64, pciGetBar_memory64 hi (by rwa [hreg])
    (by rwa [hreg]) (by rwa [hreg]), hreg]
  constructor
  · intro h
    have haddr := congrArg PciBar.addr (Except.ok.inj h)
    exact shift_inj (UInt64.add_right_inj _ |>.mp haddr)
  · intro h
    rw [h]

/-- The read-only bits of a register tell the 64-bit BARs from the others. -/
theorem isMemory64_iff {kind : BarKind} (hkind : kind.Implemented)
    (haligned : reg &&& ~~~kind.mask = kind.typeBits) :
    (reg &&& PCI_BASE_ADDRESS_SPACE = PCI_BASE_ADDRESS_SPACE_MEMORY ∧
      reg &&& PCI_BASE_ADDRESS_MEM_TYPE_MASK = PCI_BASE_ADDRESS_MEM_TYPE_64) ↔
      ∃ p, kind = .memory64 p := by
  cases kind with
  | none => exact absurd rfl hkind.1
  | upper => exact absurd rfl hkind.2
  | io =>
    have hspace := and_of_readOnly (c := PCI_BASE_ADDRESS_SPACE) haligned (by decide)
    exact iff_of_false (fun h => absurd (hspace.symm.trans h.1) (by decide)) (by simp)
  | memory p =>
    have hbits := and_of_readOnly (c := PCI_BASE_ADDRESS_MEM_TYPE_MASK) haligned
      (by cases p <;> decide)
    exact iff_of_false (fun h => absurd (hbits.symm.trans h.2) (by cases p <;> decide)) (by simp)
  | memory64 p =>
    exact iff_of_true
      ⟨(and_of_readOnly haligned (by cases p <;> decide)).trans (by cases p <;> decide),
        (and_of_readOnly haligned (by cases p <;> decide)).trans (by cases p <;> decide)⟩ ⟨p, rfl⟩

theorem pciGetBar_ok_valid (h : pciGetBar s addr i = .ok bar) :
    barReg s addr i ≠ PCI_BASE_ADDRESS_INVALID := by
  intro hinvalid
  simp only [pciGetBar, hinvalid, if_true] at h
  split_ifs at h

/-! ## One register through a suspend -/

/-- What stands in a register with these writable bits that held `reg` when it was saved, and `lost`
when it was written back. -/
def restoredReg (mask reg lost : UInt32) : UInt32 :=
  ⟨maskedWrite mask.toBitVec lost.toBitVec (reg &&& saveMask reg).toBitVec⟩

/-- The save mask of a register that begins a BAR is the mask of its kind. -/
theorem saveMask_eq {kind : BarKind} (hkind : kind.Implemented)
    (hreg : reg &&& ~~~kind.mask = kind.typeBits) : saveMask reg = kind.mask := by
  rw [saveMask]
  cases kind with
  | none => exact absurd rfl hkind.1
  | upper => exact absurd rfl hkind.2
  | io =>
    have hspace := and_of_readOnly (c := PCI_BASE_ADDRESS_SPACE) hreg (by decide)
    exact if_pos (hspace.trans (by decide))
  | memory p =>
    have hspace := and_of_readOnly (c := PCI_BASE_ADDRESS_SPACE) hreg (by cases p <;> decide)
    exact if_neg fun h => absurd (hspace.symm.trans h) (by cases p <;> decide)
  | memory64 p =>
    have hspace := and_of_readOnly (c := PCI_BASE_ADDRESS_SPACE) hreg (by cases p <;> decide)
    exact if_neg fun h => absurd (hspace.symm.trans h) (by cases p <;> decide)

/-- A register that was zero but for its type bits where it cannot be written. -/
theorem restoredReg_eq_and (hlost : lost &&& ~~~mask = reg &&& ~~~mask) :
    restoredReg mask reg lost = (reg &&& saveMask reg &&& mask) ||| (reg &&& ~~~mask) := by
  refine UInt32.toBitVec_inj.mp ?_
  have hbits : lost.toBitVec &&& ~~~mask.toBitVec = reg.toBitVec &&& ~~~mask.toBitVec :=
    congrArg UInt32.toBitVec hlost
  rw [restoredReg, UInt32.toBitVec_and, maskedWrite_saved hbits]
  rfl

theorem and_or_and_not (v mask : UInt32) : (v &&& mask) ||| (v &&& ~~~mask) = v := by
  refine UInt32.toBitVec_inj.mp ?_
  simp only [UInt32.toBitVec_or, UInt32.toBitVec_and, UInt32.toBitVec_not]
  refine BitVec.eq_of_getElem_eq fun i hi => ?_
  cases hm : mask.toBitVec[i] <;> simp [hm]

/-- **A register that begins a BAR** comes back as it was. -/
theorem restoredReg_eq {kind : BarKind} (hkind : kind.Implemented)
    (hinside : mask &&& kind.mask = mask) (htype : reg &&& ~~~kind.mask = kind.typeBits)
    (hlost : lost &&& ~~~mask = reg &&& ~~~mask) : restoredReg mask reg lost = reg := by
  rw [restoredReg_eq_and hlost, saveMask_eq hkind htype, UInt32.and_assoc,
    UInt32.and_comm kind.mask, hinside, and_or_and_not]

/-- **A register that is not implemented** is zero before and after. -/
theorem restoredReg_none (hinside : mask &&& BarKind.none.mask = mask)
    (hreg : reg &&& ~~~mask = BarKind.none.typeBits)
    (hlost : lost &&& ~~~mask = BarKind.none.typeBits) : restoredReg mask reg lost = reg := by
  have hmask : mask = 0 := by
    rw [← hinside]
    exact UInt32.and_zero
  rw [restoredReg_eq_and (hlost.trans hreg.symm), hmask, UInt32.and_zero, UInt32.zero_or]
  exact UInt32.and_neg_one

/-- **An upper half** comes back without the bits that the save masked. -/
theorem restoredReg_upper (hreg : reg &&& ~~~mask = 0) (hlost : lost &&& ~~~mask = 0) :
    restoredReg mask reg lost = reg &&& saveMask reg := by
  have hself : reg &&& mask = reg := by
    have h := and_or_and_not reg mask
    rwa [hreg, UInt32.or_zero] at h
  rw [restoredReg_eq_and (hlost.trans hreg.symm), hreg, UInt32.or_zero, UInt32.and_assoc,
    UInt32.and_comm (saveMask reg), ← UInt32.and_assoc, hself]

theorem and_mask_eq_self_iff {mask v : UInt32} : v &&& mask = v ↔ v &&& ~~~mask = 0 := by
  rw [← UInt32.toBitVec_inj, ← UInt32.toBitVec_inj, UInt32.toBitVec_and, UInt32.toBitVec_and,
    UInt32.toBitVec_not]
  exact SwitchOs.and_eq_self_iff

/-- An upper half survives the save exactly if its low nibble is zero. -/
theorem and_saveMask_eq_self_iff : reg &&& saveMask reg = reg ↔ reg &&& 0xf = 0 := by
  rw [saveMask]
  rcases space_cases reg with hio | hmem
  · -- it looks like an I/O BAR, and its lowest bit is masked
    have hset : ∀ c : UInt32, c &&& PCI_BASE_ADDRESS_SPACE = PCI_BASE_ADDRESS_SPACE →
        reg &&& c ≠ 0 := by
      intro c hc hzero
      have hand := congrArg (· &&& PCI_BASE_ADDRESS_SPACE) hzero
      simp only [UInt32.and_assoc, hc, hio] at hand
      exact absurd hand (by decide)
    have hmask : ~~~(0xfffffffc : UInt32) = 3 := by decide
    rw [if_pos hio, and_mask_eq_self_iff, hmask]
    exact ⟨fun h => absurd h (hset 3 (by decide)), fun h => absurd h (hset 0xf (by decide))⟩
  · have hio : reg &&& PCI_BASE_ADDRESS_SPACE ≠ PCI_BASE_ADDRESS_SPACE_IO := by
      rw [hmem]
      decide
    have hmask : ~~~(0xfffffff0 : UInt32) = 0xf := by decide
    rw [if_neg hio, and_mask_eq_self_iff, hmask]

/-! ## The loops -/

/-- The registers lie in the space of the function. -/
theorem barReg_eq (s : PciSpace) (addr : PciDevAddr) (hi : i < 6) :
    barReg s addr i = get32 (s.config addr) (PCI_BASE_ADDRESS_0 + i * 4) :=
  pciRead32_of_lt s (by simp only [PCI_BASE_ADDRESS_0]; omega)

theorem pciWrite32_bar (v : UInt32) (s : PciSpace) (hi : i < 6) :
    pciWrite32 addr (PCI_BASE_ADDRESS_0 + 4 * i) v s =
      { s with config := Function.update s.config addr (put32 (s.config addr)
          (PCI_BASE_ADDRESS_0 + i * 4)
          ⟨maskedWrite (s.writable addr (PCI_BASE_ADDRESS_0 + i * 4)).toBitVec
            (barReg s addr i).toBitVec v.toBitVec⟩) } := by
  rw [Nat.mul_comm 4 i, pciWrite32_of_lt v s (by simp only [PCI_BASE_ADDRESS_0]; omega),
    barReg_eq s addr hi]

theorem barReg_pciWrite32_self (v : UInt32) (s : PciSpace) (hi : i < 6) :
    barReg (pciWrite32 addr (PCI_BASE_ADDRESS_0 + 4 * i) v s) addr i =
      ⟨maskedWrite (s.writable addr (PCI_BASE_ADDRESS_0 + i * 4)).toBitVec
        (barReg s addr i).toBitVec v.toBitVec⟩ := by
  rw [pciWrite32_bar v s hi, barReg_eq _ addr hi]
  simp only [Function.update_self, get32_put32]

theorem barReg_pciWrite32_ne (hij : i ≠ j) (v : UInt32) (s : PciSpace) (hi : i < 6) (hj : j < 6) :
    barReg (pciWrite32 addr (PCI_BASE_ADDRESS_0 + 4 * i) v s) addr j = barReg s addr j := by
  rw [pciWrite32_bar v s hi, barReg_eq _ addr hj, barReg_eq s addr hj]
  simp only [Function.update_self]
  exact get32_put32_outside (by omega)

/-- What `fill_disk_pci` saves. -/
theorem fillDiskPci_eq_ok (h : fillDiskPci s core = some (.ok (), core')) :
    (∃ dev, lookupPciDev s gDiskPciId = .ok dev ∧ core'.diskAddr = dev.addr) ∧
      ∀ i < 6, ∃ bar, pciGetBar s core'.diskAddr i = .ok bar ∧
        core'.diskPci.bars i = bar.addr.toUInt32 := by
  rw [fillDiskPci] at h
  cases hlookup : lookupPciDev s gDiskPciId with
  | error e =>
    rw [hlookup, Prog.lift_error_apply] at h
    cases h
  | ok dev =>
    rw [hlookup, Prog.lift_ok_apply, Prog.bind_modify_apply] at h
    have hloop := Prog.forEach_range_eq_ok (fun i (t : CoreHeader) => t.diskAddr = dev.addr ∧
        ∀ j < i, ∃ bar, pciGetBar s dev.addr j = .ok bar ∧ t.diskPci.bars j = bar.addr.toUInt32)
      ⟨rfl, fun j hj => absurd hj (Nat.not_lt_zero j)⟩ h ?_
    · exact ⟨⟨dev, rfl, hloop.1⟩, hloop.1.symm ▸ hloop.2⟩
    · rintro i - t t' ⟨haddr, hbars⟩ hbody
      cases hbar : pciGetBar s dev.addr i with
      | error e =>
        rw [hbar, Prog.lift_error_apply] at hbody
        cases hbody
      | ok bar =>
        rw [hbar, Prog.lift_ok_apply] at hbody
        obtain rfl : t' = t.setDiskBar i bar.addr.toUInt32 :=
          (congrArg Prod.snd (Option.some.inj hbody)).symm
        refine ⟨haddr, fun j hj => ?_⟩
        by_cases hji : j = i
        · subst hji
          exact ⟨bar, hbar, Function.update_self _ _ _⟩
        · obtain ⟨bar', hbar', hsaved⟩ := hbars j (by omega)
          exact ⟨bar', hbar', (Function.update_of_ne hji _ _).trans hsaved⟩

/-- What the loop of `init_virtio_blk_dev` writes back. -/
theorem restoreLoop_ok (core : CoreHeader) (s : PciSpace) :
    ∃ s', Prog.forEach (fun i => Prog.modify
        (pciWrite32 core.diskAddr (PCI_BASE_ADDRESS_0 + 4 * i) (core.diskPci.bars i)))
        (List.range PCI_BASE_ADDRESS_NUM) s = some ((.ok () : Except Err Unit), s') ∧
      ∀ i < 6, barReg s' core.diskAddr i =
        ⟨maskedWrite (s.writable core.diskAddr (PCI_BASE_ADDRESS_0 + i * 4)).toBitVec
          (barReg s core.diskAddr i).toBitVec (core.diskPci.bars i).toBitVec⟩ := by
  obtain ⟨s', hrun, -, hdone, -⟩ := Prog.forEach_range_ok (ε := Err)
    (f := fun i => Prog.modify
      (pciWrite32 core.diskAddr (PCI_BASE_ADDRESS_0 + 4 * i) (core.diskPci.bars i)))
    (fun i (t : PciSpace) => t.writable = s.writable ∧
      (∀ j < i, barReg t core.diskAddr j =
        ⟨maskedWrite (s.writable core.diskAddr (PCI_BASE_ADDRESS_0 + j * 4)).toBitVec
          (barReg s core.diskAddr j).toBitVec (core.diskPci.bars j).toBitVec⟩) ∧
      ∀ j < 6, i ≤ j → barReg t core.diskAddr j = barReg s core.diskAddr j)
    PCI_BASE_ADDRESS_NUM s ⟨rfl, fun j hj => absurd hj (Nat.not_lt_zero j), fun _ _ _ => rfl⟩ (by
      rintro i (hi : i < 6) t ⟨hwritable, hdone, hrest⟩
      refine ⟨_, rfl, hwritable, fun j hj => ?_, fun j hj hij => ?_⟩
      · by_cases hij : i = j
        · subst hij
          rw [barReg_pciWrite32_self _ _ hi, hwritable, hrest i hi (le_refl i)]
        · rw [barReg_pciWrite32_ne hij _ _ hi (by omega), hdone j (by omega)]
      · rw [barReg_pciWrite32_ne (by omega) _ _ hi hj, hrest j hj (by omega)])
  exact ⟨s', hrun, hdone⟩

/-- The identity of a function lies before its base address registers. -/
theorem initPciDev_congr {addr : PciDevAddr}
    (h : ∀ x < PCI_BASE_ADDRESS_0, s'.config addr x = s.config addr x) :
    initPciDev s' addr = initPciDev s addr := by
  have hheader : pciRead8 s' addr PCI_HEADER_TYPE = pciRead8 s addr PCI_HEADER_TYPE := by
    rw [pciRead8_of_lt s' (by decide), pciRead8_of_lt s (by decide)]
    exact h _ (by decide)
  have hread16 : ∀ offset, offset + 1 < PCI_BASE_ADDRESS_0 →
      pciRead16 s' addr offset = pciRead16 s addr offset := by
    intro offset hlt
    simp only [PCI_BASE_ADDRESS_0] at hlt h
    rw [pciRead16_of_lt s' (by omega), pciRead16_of_lt s (by omega)]
    exact get16_congr fun i hi => h _ (by omega)
  have hvendor : pciRead16 s' addr PCI_VENDOR_ID = pciRead16 s addr PCI_VENDOR_ID :=
    hread16 _ (by decide)
  have hdevice : pciRead16 s' addr PCI_DEVICE_ID = pciRead16 s addr PCI_DEVICE_ID :=
    hread16 _ (by decide)
  simp only [initPciDev, hheader, hvendor, hdevice]

/-! ## Through a suspend -/

/-- **The registers through a suspend**: saved by `fill_disk_pci`, lost, and written back by
`init_virtio_blk_dev`. -/
theorem restored_regs (hfill : fillDiskPci s core = some (.ok (), core'))
    (hlost : HasBars s' core'.diskAddr kinds masks)
    (hid : ∀ x < PCI_BASE_ADDRESS_0,
      s'.config core'.diskAddr x = s.config core'.diskAddr x) :
    ∃ r s'', initVirtioBlkDevBars core' s' = some (r, s'') ∧
      ∀ i < 6, barReg s'' core'.diskAddr i =
        restoredReg (masks i) (barReg s core'.diskAddr i) (barReg s' core'.diskAddr i) := by
  obtain ⟨⟨dev, hlookup, haddr⟩, hsaved⟩ := fillDiskPci_eq_ok hfill
  obtain ⟨hinit, hvendor, hdevice⟩ := lookupPciDev_ok hlookup
  have hinit' : initPciDev s' core'.diskAddr = .ok dev := by
    rw [initPciDev_congr hid, haddr, hinit]
  have hids : (dev.vendorId == VIRTIO_BLK_VENDOR_ID && dev.deviceId == VIRTIO_BLK_DEVICE_ID) =
      true := by
    rw [hvendor, hdevice]
    decide
  obtain ⟨s'', hloop, hregs⟩ := restoreLoop_ok core' s'
  have hrun : ∃ r, initVirtioBlkDevBars core' s' = some (r, s'') := by
    rw [initVirtioBlkDevBars, Prog.bind_get_apply, hinit', Prog.lift_ok_apply, check,
      Prog.bind_check_true hids, Prog.bind_ok hloop]
    cases hnormal : dev.headerType == PCI_HEADER_TYPE_NORMAL with
    | true => exact ⟨_, Prog.bind_check_true rfl _ _ _⟩
    | false => exact ⟨_, Prog.bind_check_false rfl _ _ _⟩
  obtain ⟨r, hrun⟩ := hrun
  refine ⟨r, s'', hrun, fun i hi => ?_⟩
  obtain ⟨bar, hbar, hsave⟩ := hsaved i hi
  rw [hregs i hi, hlost.writable i hi, hsave, pciGetBar_low hbar, restoredReg]

/-- A register that is no upper half comes back as it was, whatever has been lost. -/
theorem HasBars.restoredReg_same (hbars : HasBars s addr kinds masks)
    (hlost : HasBars s' addr kinds masks) (hi : i < 6) (hkind : kinds i ≠ .upper) :
    restoredReg (masks i) (barReg s addr i) (barReg s' addr i) = barReg s addr i := by
  by_cases hnone : kinds i = .none
  · have haligned := hbars.aligned i hi
    have haligned' := hlost.aligned i hi
    have hinside := hbars.inside i hi
    rw [hnone] at haligned haligned' hinside
    exact restoredReg_none hinside haligned haligned'
  · exact restoredReg_eq ⟨hnone, hkind⟩ (hbars.inside i hi) (hbars.typeBits hi)
      ((hlost.aligned i hi).trans (hbars.aligned i hi).symm)

/-- An upper half comes back as it was if no bit of it has been masked. -/
theorem HasBars.restoredReg_upper_iff (hbars : HasBars s addr kinds masks)
    (hlost : HasBars s' addr kinds masks) (hi : i < 6) (hkind : kinds i = .upper) :
    restoredReg (masks i) (barReg s addr i) (barReg s' addr i) = barReg s addr i ↔
      barReg s addr i &&& 0xf = 0 := by
  have haligned := hbars.aligned i hi
  have haligned' := hlost.aligned i hi
  rw [hkind] at haligned haligned'
  rw [restoredReg_upper haligned haligned', and_saveMask_eq_self_iff]

/-- **The BARs through a suspend**: every BAR that the device implements has the type and the address
it had before, if and only if the low nibble of every upper half is zero. -/
theorem bars_restored_iff (s s' : PciSpace) (core core' : CoreHeader) (kinds : ℕ → BarKind)
    (masks : ℕ → UInt32) (hlayout : BarLayout kinds)
    (hfill : fillDiskPci s core = some (.ok (), core'))
    (hbars : HasBars s core'.diskAddr kinds masks) (hlost : HasBars s' core'.diskAddr kinds masks)
    (hid : ∀ x < PCI_BASE_ADDRESS_0, s'.config core'.diskAddr x = s.config core'.diskAddr x) :
    ∃ r s'', initVirtioBlkDevBars core' s' = some (r, s'') ∧
      ((∀ i < 6, (kinds i).Implemented →
          pciGetBar s'' core'.diskAddr i = pciGetBar s core'.diskAddr i) ↔
        ∀ i < 6, kinds i = .upper → barReg s core'.diskAddr i &&& 0xf = 0) := by
  obtain ⟨r, s'', hrun, hregs⟩ := restored_regs hfill hlost hid
  obtain ⟨-, hsaved⟩ := fillDiskPci_eq_ok hfill
  have hsame : ∀ i < 6, kinds i ≠ .upper →
      barReg s'' core'.diskAddr i = barReg s core'.diskAddr i :=
    fun i hi hkind => (hregs i hi).trans (hbars.restoredReg_same hlost hi hkind)
  have hupper : ∀ i < 6, kinds i = .upper →
      (barReg s'' core'.diskAddr i = barReg s core'.diskAddr i ↔
        barReg s core'.diskAddr i &&& 0xf = 0) := by
    intro i hi hkind
    rw [hregs i hi, hbars.restoredReg_upper_iff hlost hi hkind]
  -- the two registers of a 64-bit BAR at `i`
  have h64 : ∀ i p, i + 1 < 6 → kinds i = .memory64 p →
      (pciGetBar s'' core'.diskAddr i = pciGetBar s core'.diskAddr i ↔
        barReg s core'.diskAddr (i + 1) &&& 0xf = 0) := by
    intro i p hi hkind
    obtain ⟨hmem, htype⟩ := (isMemory64_iff (by simp [hkind, BarKind.Implemented])
      (hbars.typeBits (by omega))).mpr ⟨p, hkind⟩
    obtain ⟨bar, hbar, -⟩ := hsaved i (by omega)
    rw [pciGetBar_memory64_eq_iff hi (pciGetBar_ok_valid hbar) hmem htype
      (hsame i (by omega) (by simp [hkind])),
      ← hupper (i + 1) hi ((hlayout.upper_iff i).mpr ⟨p, hkind⟩)]
  refine ⟨r, s'', hrun, fun hall i hi hkind => ?_, fun hnibble i hi hkind => ?_⟩
  · -- an upper half belongs to the BAR before it
    cases i with
    | zero => exact absurd hkind hlayout.first
    | succ i =>
      obtain ⟨p, hlower⟩ := (hlayout.upper_iff i).mp hkind
      exact (h64 i p hi hlower).mp (hall i (by omega) (by simp [hlower, BarKind.Implemented]))
  · by_cases hlower : ∃ p, kinds i = .memory64 p
    · obtain ⟨p, hlower⟩ := hlower
      have hlast : i ≠ 5 := fun h => hlayout.last p (h ▸ hlower)
      refine (h64 i p (by omega) hlower).mpr (hnibble (i + 1) (by omega) ?_)
      exact (hlayout.upper_iff i).mpr ⟨p, hlower⟩
    · refine pciGetBar_congr (hsame i hi hkind.2) fun htype hmem => ?_
      exact absurd ((isMemory64_iff hkind (hbars.typeBits hi)).mp ⟨hmem, htype⟩) hlower

/-- The registers of a disk: an I/O BAR, a 32-bit memory BAR and a 64-bit one. -/
def sampleKinds : ℕ → BarKind
  | 0 => .io
  | 1 => .memory false
  | 4 => .memory64 true
  | 5 => .upper
  | _ => .none

/-- Of 128 bytes, of a page, and of four pages. -/
def sampleMasks : ℕ → UInt32
  | 0 => 0xffffff80
  | 1 => 0xfffff000
  | 4 => 0xffffc000
  | 5 => 0xffffffff
  | _ => 0

/-- A bus with one function, the disk, whose base address registers hold these bytes. -/
def diskSpace (bars : List UInt8) : PciSpace where
  config addr x :=
    if addr = ⟨0, 0, 0⟩ then
      ([0xf4, 0x1a, 0x01, 0x10, 0, 0, 0, 0, 0, 0, 0, 0, 0, 0, 0, 0] ++ bars).getD x 0
    else 0xff
  writable _ offset := sampleMasks ((offset - PCI_BASE_ADDRESS_0) / 4)

/-- The disk as the firmware leaves it: the 64-bit BAR is at `0x800004000`. -/
def firmwareSpace : PciSpace := diskSpace
  [0x01, 0xc0, 0, 0, 0, 0x10, 0xbd, 0xfe, 0, 0, 0, 0, 0, 0, 0, 0, 0x0c, 0x40, 0, 0, 8, 0, 0, 0]

/-- The disk after it has lost power: only the type bits are left. -/
def lostSpace : PciSpace := diskSpace
  [0x01, 0, 0, 0, 0, 0, 0, 0, 0, 0, 0, 0, 0, 0, 0, 0, 0x0c, 0, 0, 0, 0, 0, 0, 0]

/-- The core header with the disk saved. -/
def savedCore : CoreHeader :=
  (((((((emptyCore.setDiskAddr ⟨0, 0, 0⟩).setDiskBar 0 0xc000).setDiskBar 1 0xfebd1000).setDiskBar
    2 0).setDiskBar 3 0).setDiskBar 4 0x4000).setDiskBar 5 0)

theorem sampleKinds_layout : BarLayout sampleKinds := by
  refine ⟨fun i => ?_, by decide, fun p => by simp [sampleKinds]⟩
  match i with
  | 0 | 1 | 2 | 3 | 4 | 5 => simp [sampleKinds]
  | i + 6 => simp [sampleKinds]

theorem fillDiskPci_firmwareSpace :
    fillDiskPci firmwareSpace emptyCore = some (.ok (), savedCore) := rfl

theorem firmwareSpace_hasBars :
    HasBars firmwareSpace savedCore.diskAddr sampleKinds sampleMasks :=
  ⟨by decide, by decide, by decide⟩

theorem lostSpace_hasBars : HasBars lostSpace savedCore.diskAddr sampleKinds sampleMasks :=
  ⟨by decide, by decide, by decide⟩

theorem lostSpace_id : ∀ x < PCI_BASE_ADDRESS_0,
    lostSpace.config savedCore.diskAddr x = firmwareSpace.config savedCore.diskAddr x := by
  decide

/-- The theorem on a disk whose 64-bit BAR lies above 32 GiB. -/
theorem bars_restored_iff_sample :
    ∃ r s'', initVirtioBlkDevBars savedCore lostSpace = some (r, s'') ∧
      ((∀ i < 6, (sampleKinds i).Implemented →
          pciGetBar s'' savedCore.diskAddr i = pciGetBar firmwareSpace savedCore.diskAddr i) ↔
        ∀ i < 6, sampleKinds i = .upper → barReg firmwareSpace savedCore.diskAddr i &&& 0xf = 0) :=
  bars_restored_iff firmwareSpace lostSpace emptyCore savedCore sampleKinds sampleMasks
    sampleKinds_layout fillDiskPci_firmwareSpace firmwareSpace_hasBars lostSpace_hasBars lostSpace_id

/-- **A 64-bit BAR comes back elsewhere**: the upper half of `0x800004000` is saved as zero, and the
disk comes back at `0x4000`. -/
theorem high_bar_moves :
    ∃ (s s' : PciSpace) (core core' : CoreHeader) (kinds : ℕ → BarKind) (masks : ℕ → UInt32),
      BarLayout kinds ∧ fillDiskPci s core = some (.ok (), core') ∧
      HasBars s core'.diskAddr kinds masks ∧ HasBars s' core'.diskAddr kinds masks ∧
      (∀ x < PCI_BASE_ADDRESS_0, s'.config core'.diskAddr x = s.config core'.diskAddr x) ∧
      ∃ r s'', initVirtioBlkDevBars core' s' = some (r, s'') ∧
        ¬ ∀ i < 6, (kinds i).Implemented →
          pciGetBar s'' core'.diskAddr i = pciGetBar s core'.diskAddr i := by
  obtain ⟨r, s'', hrun, hregs⟩ :=
    restored_regs fillDiskPci_firmwareSpace lostSpace_hasBars lostSpace_id
  refine ⟨firmwareSpace, lostSpace, emptyCore, savedCore, sampleKinds, sampleMasks,
    sampleKinds_layout, fillDiskPci_firmwareSpace, firmwareSpace_hasBars, lostSpace_hasBars,
    lostSpace_id, r, s'', hrun, fun hall => ?_⟩
  have hbefore : pciGetBar firmwareSpace savedCore.diskAddr 4 =
      .ok ⟨0x800004000, .PCI_BAR_MEMORY⟩ := by decide
  have hlow : barReg s'' savedCore.diskAddr 4 = 0x400c := (hregs 4 (by decide)).trans (by decide)
  have hhigh : barReg s'' savedCore.diskAddr 5 = 0 := (hregs 5 (by decide)).trans (by decide)
  have hafter : pciGetBar s'' savedCore.diskAddr 4 = .ok ⟨0x4000, .PCI_BAR_MEMORY⟩ := by
    rw [pciGetBar_memory64 (by decide) (by rw [hlow]; decide) (by rw [hlow]; decide)
      (by rw [hlow]; decide), hlow, hhigh]
    decide
  have hsame := hall 4 (by decide) ⟨by decide, by decide⟩
  rw [hbefore, hafter] at hsame
  exact absurd hsame (by decide)

end SwitchOs
