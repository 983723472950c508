import SwitchOs.Virtio.Leftover

/-!
# Where the driver finds the structures of the device

A capability of a virtio device names a base address register and an offset, and the structure lies at
the sum of the two. `parse_virtio_blk_caps` adds the offset for the notifications, and leaves it out
for the common configuration.
-/

namespace SwitchOs.Virtio

/-! ## Where the structures are -/

/-- The address in a memory BAR: the register without its four low bits, below the next register if
the BAR is a 64-bit one. -/
def memBarAddress (p : PciSpace) (a : PciDevAddr) (barNum : ℕ) : ℕ :=
  (barReg p a barNum).toNat / 16 * 16 +
    if barReg p a barNum &&& PCI_BASE_ADDRESS_MEM_TYPE_MASK = PCI_BASE_ADDRESS_MEM_TYPE_64 then
      2 ^ 32 * (barReg p a (barNum + 1)).toNat
    else 0

/-- The offset is that of a virtio capability of the type. -/
def IsVirtioCap (p : PciSpace) (a : PciDevAddr) (cfgType off : UInt8) : Prop :=
  pciRead8 p a (off.toNat + CAP_VNDR) = VIRTIO_PCI_CAP_VENDOR ∧
    pciRead8 p a (off.toNat + CAP_CFG_TYPE) = cfgType

/-- The field `offset` of the capability. -/
def capOffset (p : PciSpace) (a : PciDevAddr) (off : UInt8) : UInt32 :=
  pciRead32 p a (off.toNat + CAP_OFFSET)

/-- The address of the structure that the capability describes. -/
def structAddr (p : PciSpace) (a : PciDevAddr) (off : UInt8) : UInt64 :=
  UInt64.ofNat (memBarAddress p a (pciRead8 p a (off.toNat + CAP_BAR)).toNat +
    (capOffset p a off).toNat)

/-- No two capabilities of the list have the same type. -/
def OncePerType (p : PciSpace) (a : PciDevAddr) : Prop :=
  ∀ cfgType, ∀ off ∈ capabilities p a, ∀ off' ∈ capabilities p a,
    IsVirtioCap p a cfgType off → IsVirtioCap p a cfgType off' → off = off'

/-- The struct of the driver holds what the capabilities of the list say. -/
structure Located (p : PciSpace) (a : PciDevAddr) (dev : BlkStruct) : Prop where
  common : ∀ off ∈ capabilities p a, IsVirtioCap p a VIRTIO_PCI_CAP_COMMON_CFG off →
    dev.commonCfg = structAddr p a off
  notify : ∀ off ∈ capabilities p a, IsVirtioCap p a VIRTIO_PCI_CAP_NOTIFY_CFG off →
    dev.notifyOff = structAddr p a off ∧
      dev.notifyMultiplier = pciRead32 p a (off.toNat + CAP_NOTIFY_OFF_MULTIPLIER)

variable {p : PciSpace} {a : PciDevAddr} {dev : BlkStruct}

/-! ## Memory BARs -/

theorem and_memMask (n : ℕ) (hn : n < 2 ^ 64) :
    n &&& PCI_BASE_ADDRESS_MEM_MASK.toNat = n / 16 * 16 := by
  have hmask : PCI_BASE_ADDRESS_MEM_MASK.toNat = (2 ^ 60 - 1) <<< 4 := rfl
  have hround : n / 16 * 16 = (n >>> 4) <<< 4 := by
    rw [Nat.shiftRight_eq_div_pow, Nat.shiftLeft_eq]
  rw [hmask, hround]
  apply Nat.eq_of_testBit_eq
  intro i
  simp only [Nat.testBit_and, Nat.testBit_shiftLeft, Nat.testBit_shiftRight,
    Nat.testBit_two_pow_sub_one]
  by_cases hi : 4 ≤ i
  · rw [show 4 + (i - 4) = i by omega]
    by_cases hhigh : i < 64
    · simp [hi, show i - 4 < 60 by omega]
    · have hbit : n.testBit i = false :=
        Nat.testBit_lt_two_pow (lt_of_lt_of_le hn (Nat.pow_le_pow_right (by omega) (by omega)))
      simp [hbit]
  · simp [hi]

/-- A memory BAR that `pci_get_bar` returns has the address in its registers. -/
theorem pciGetBar_addr {barNum : ℕ} {bar : PciBar} (h : pciGetBar p a barNum = .ok bar)
    (hmem : bar.type = .PCI_BAR_MEMORY) : bar.addr = UInt64.ofNat (memBarAddress p a barNum) := by
  have hlow := and_memMask (barReg p a barNum).toNat
    (lt_trans (barReg p a barNum).toNat_lt (by decide))
  have hlt := (barReg p a barNum).toNat_lt
  have hlt' := (barReg p a (barNum + 1)).toNat_lt
  have h32 : (32 : UInt64).toNat % 64 = 32 := rfl
  simp only [pciGetBar] at h
  rw [memBarAddress]
  refine UInt64.toNat_inj.mp ?_
  rw [UInt64.toNat_ofNat']
  split_ifs at h with h1 h2 hio hspace h64 hnext
  · obtain rfl := Except.ok.inj h
    cases hmem
  · obtain rfl := Except.ok.inj h
    simp only [UInt64.toNat_add, UInt64.toNat_and, UInt64.toNat_shiftLeft, UInt32.toNat_toUInt64,
      h32, hlow, Nat.shiftLeft_eq, if_pos h64]
    omega
  · obtain rfl := Except.ok.inj h
    simp only [UInt64.toNat_and, UInt32.toNat_toUInt64, hlow, if_neg h64]
    omega

/-! ## What is taken from a capability -/

/-- A capability for the common configuration or for the notifications that is not rejected names a
memory BAR. -/
theorem exists_memoryBar {cfgType off : UInt8} (hok : capOk p a off = true)
    (hcap : IsVirtioCap p a cfgType off)
    (hcfg : cfgType = VIRTIO_PCI_CAP_COMMON_CFG ∨ cfgType = VIRTIO_PCI_CAP_NOTIFY_CFG) :
    ∃ bar, pciGetBar p a (pciRead8 p a (off.toNat + CAP_BAR)).toNat = .ok bar ∧
      bar.type = .PCI_BAR_MEMORY := by
  obtain ⟨hvndr, htype⟩ := hcap
  unfold capOk capAt at hok
  rw [if_neg (not_not.mpr hvndr), htype] at hok
  cases hbar : pciGetBar p a (pciRead8 p a (off.toNat + CAP_BAR)).toNat with
  | error e =>
    rw [hbar] at hok
    obtain rfl | rfl := hcfg <;> cases hok
  | ok bar =>
    rw [hbar] at hok
    refine ⟨bar, rfl, ?_⟩
    by_contra hmem
    obtain rfl | rfl := hcfg <;> simp [hmem, Except.isOk, Except.toBool] at hok

/-- A capability for the common configuration gives the address of its BAR. -/
theorem capAt_common {off : UInt8} (hok : capOk p a off = true)
    (hcap : IsVirtioCap p a VIRTIO_PCI_CAP_COMMON_CFG off) :
    capAt p a off = .ok (.common (UInt64.ofNat
      (memBarAddress p a (pciRead8 p a (off.toNat + CAP_BAR)).toNat))) := by
  obtain ⟨bar, hbar, hmem⟩ := exists_memoryBar hok hcap (.inl rfl)
  unfold capAt
  rw [if_neg (not_not.mpr hcap.1), hcap.2, if_neg (by decide), hbar]
  dsimp only
  rw [if_pos rfl, if_pos hmem, pciGetBar_addr hbar hmem]

/-- A capability for the notifications gives the address with the offset. -/
theorem capAt_notify {off : UInt8} (hok : capOk p a off = true)
    (hcap : IsVirtioCap p a VIRTIO_PCI_CAP_NOTIFY_CFG off) :
    capAt p a off = .ok (.notify (structAddr p a off)
      (pciRead32 p a (off.toNat + CAP_NOTIFY_OFF_MULTIPLIER))) := by
  obtain ⟨bar, hbar, hmem⟩ := exists_memoryBar hok hcap (.inr rfl)
  unfold capAt
  rw [if_neg (not_not.mpr hcap.1), hcap.2, if_neg (by decide), hbar]
  dsimp only
  rw [if_neg (by decide), if_pos rfl, if_pos hmem, pciGetBar_addr hbar hmem, structAddr,
    capOffset, UInt64.ofNat_add, UInt64.ofNat_uInt32ToNat]

/-- The type of the capability, from what it gives. -/
theorem isVirtioCap_of_capAt {off : UInt8} {cap : Cap} (h : capAt p a off = .ok cap) :
    (∀ addr, cap = .common addr → IsVirtioCap p a VIRTIO_PCI_CAP_COMMON_CFG off) ∧
      ∀ addr multiplier, cap = .notify addr multiplier →
        IsVirtioCap p a VIRTIO_PCI_CAP_NOTIFY_CFG off := by
  unfold capAt at h
  dsimp only at h
  split_ifs at h with hvndr htype hcommon hnotify
  · obtain rfl := Except.ok.inj h
    exact ⟨nofun, nofun⟩
  · split at h
    · cases h
    · split_ifs at h
      obtain rfl := Except.ok.inj h
      exact ⟨fun _ _ => ⟨not_not.mp hvndr, hcommon⟩, nofun⟩
  · split at h
    · cases h
    · split_ifs at h
      obtain rfl := Except.ok.inj h
      exact ⟨nofun, fun _ _ _ => ⟨not_not.mp hvndr, hnotify⟩⟩
  · split at h
    · cases h
    · obtain rfl := Except.ok.inj h
      exact ⟨nofun, nofun⟩

/-! ## The only capability of its type -/

/-- The last hit of a list that has one hit. -/
theorem findSome?_reverse_unique {α β : Type} {f : α → Option β} {l : List α} {x : α} {y : β}
    (hx : x ∈ l) (hy : f x = some y) (honly : ∀ z ∈ l, f z ≠ none → z = x) :
    l.reverse.findSome? f = some y := by
  obtain ⟨v, hv⟩ : ∃ v, l.reverse.findSome? f = some v := by
    rw [← Option.isSome_iff_exists, List.findSome?_isSome_iff]
    exact ⟨x, List.mem_reverse.mpr hx, by rw [hy]; rfl⟩
  obtain ⟨z, hz, hfz⟩ := List.exists_of_findSome?_eq_some hv
  have hzx := honly z (List.mem_reverse.mp hz) (by rw [hfz]; nofun)
  rw [hzx, hy] at hfz
  rw [hv, hfz]

/-- The multiplier for notifications, if the capability is for that. -/
def multiplierAt (p : PciSpace) (a : PciDevAddr) (off : UInt8) : Option UInt32 :=
  match capAt p a off with
  | .ok (.notify _ multiplier) => some multiplier
  | _ => none

theorem fillCap_multiplier (off : UInt8) (dev : BlkStruct) :
    (fillCap p a off dev).notifyMultiplier =
      (multiplierAt p a off).getD dev.notifyMultiplier := by
  unfold fillCap multiplierAt
  cases capAt p a off with
  | error e => rfl
  | ok cap => cases cap <;> rfl

theorem commonAt_type {off : UInt8} (h : commonAt p a off ≠ none) :
    IsVirtioCap p a VIRTIO_PCI_CAP_COMMON_CFG off := by
  unfold commonAt at h
  split at h
  case h_1 addr hat => exact (isVirtioCap_of_capAt hat).1 addr rfl
  case h_2 => exact absurd rfl h

theorem notifyAt_type {off : UInt8} (h : notifyAt p a off ≠ none) :
    IsVirtioCap p a VIRTIO_PCI_CAP_NOTIFY_CFG off := by
  unfold notifyAt at h
  split at h
  case h_1 addr multiplier hat => exact (isVirtioCap_of_capAt hat).2 addr multiplier rfl
  case h_2 => exact absurd rfl h

theorem multiplierAt_type {off : UInt8} (h : multiplierAt p a off ≠ none) :
    IsVirtioCap p a VIRTIO_PCI_CAP_NOTIFY_CFG off := by
  unfold multiplierAt at h
  split at h
  case h_1 addr multiplier hat => exact (isVirtioCap_of_capAt hat).2 addr multiplier rfl
  case h_2 => exact absurd rfl h

/-- A field that only capabilities of one type set holds what the capability of that type gives. -/
theorem fillCaps_once {β : Type} {field : BlkStruct → β} {f : UInt8 → Option β} {cfgType off : UInt8}
    {v : β} (hfield : ∀ off dev, field (fillCap p a off dev) = (f off).getD (field dev))
    (htype : ∀ off, f off ≠ none → IsVirtioCap p a cfgType off) (honce : OncePerType p a)
    (hoff : off ∈ capabilities p a) (hv : f off = some v) (dev : BlkStruct) :
    field (fillCaps p a (capabilities p a) dev) = v := by
  have hcap : IsVirtioCap p a cfgType off := htype off (by rw [hv]; nofun)
  rw [fillCaps_field hfield, findSome?_reverse_unique hoff hv, Option.getD_some]
  exact fun off' hoff' hne => honce cfgType off' hoff' off hoff (htype off' hne) hcap

theorem fillCaps_common {off : UInt8} (htaken : AllTaken p a) (honce : OncePerType p a)
    (hoff : off ∈ capabilities p a) (hcap : IsVirtioCap p a VIRTIO_PCI_CAP_COMMON_CFG off) :
    (fillCaps p a (capabilities p a) dev).commonCfg =
      UInt64.ofNat (memBarAddress p a (pciRead8 p a (off.toNat + CAP_BAR)).toNat) := by
  have hat := capAt_common (htaken off hoff) hcap
  refine fillCaps_once (fun off dev => (fillCap_fields off dev).1) (fun _ => commonAt_type) honce
    hoff ?_ dev
  rw [commonAt, hat]

theorem fillCaps_notify {off : UInt8} (htaken : AllTaken p a) (honce : OncePerType p a)
    (hoff : off ∈ capabilities p a) (hcap : IsVirtioCap p a VIRTIO_PCI_CAP_NOTIFY_CFG off) :
    (fillCaps p a (capabilities p a) dev).notifyOff = structAddr p a off ∧
      (fillCaps p a (capabilities p a) dev).notifyMultiplier =
        pciRead32 p a (off.toNat + CAP_NOTIFY_OFF_MULTIPLIER) := by
  have hat := capAt_notify (htaken off hoff) hcap
  constructor
  · refine fillCaps_once (fun off dev => (fillCap_fields off dev).2.1) (fun _ => notifyAt_type)
      honce hoff ?_ dev
    rw [notifyAt, hat]
  · refine fillCaps_once fillCap_multiplier (fun _ => multiplierAt_type) honce hoff ?_ dev
    rw [multiplierAt, hat]

/-! ## The whole list -/

/-- When the parsing succeeds, all capabilities of a list that ends have been taken. -/
theorem parse_ok {s s' : SetupState}
    (h : Setup.parseVirtioBlkCaps s = some (.ok (), s')) :
    AllTaken s.pci s.dev.pciDev.addr ∧
      s'.dev = fillCaps s.pci s.dev.pciDev.addr (capabilities s.pci s.dev.pciDev.addr) s.dev := by
  by_cases hlist : HasCapList s.pci s.dev.pciDev.addr
  case neg =>
    obtain ⟨as, -, hrun⟩ := scans_parse_noList hlist
    rw [hrun s rfl rfl] at h
    cases h
  by_cases htaken : AllTaken s.pci s.dev.pciDev.addr
  case neg =>
    obtain ⟨e, as, -, hrun⟩ := scans_parse_rejected hlist htaken
    rw [hrun s rfl rfl] at h
    cases h
  by_cases hend : CapsEnd s.pci s.dev.pciDev.addr
  case neg =>
    rw [parse_endless hlist htaken hend rfl rfl] at h
    cases h
  obtain ⟨as, -, hrun⟩ := scans_parse_end hlist htaken hend
  rw [hrun s rfl rfl] at h
  cases h
  rw [takenCaps_eq htaken]
  exact ⟨htaken, rfl⟩

theorem structAddr_eq_iff {off : UInt8} :
    UInt64.ofNat (memBarAddress p a (pciRead8 p a (off.toNat + CAP_BAR)).toNat) =
      structAddr p a off ↔ capOffset p a off = 0 := by
  rw [structAddr, UInt64.ofNat_add, UInt64.ofNat_uInt32ToNat]
  constructor
  · intro h
    have hzero : (capOffset p a off).toUInt64 = (0 : UInt32).toUInt64 := UInt64.left_eq_add.mp h
    exact UInt32.toUInt64_inj.mp hzero
  · intro h
    rw [h]
    simp

/-- After a successful parsing the struct holds the addresses of the structures exactly if the
capability for the common configuration has the offset 0. -/
theorem located_iff {s s' : SetupState} (hok : Setup.parseVirtioBlkCaps s = some (.ok (), s'))
    (honce : OncePerType s.pci s.dev.pciDev.addr) :
    Located s.pci s.dev.pciDev.addr s'.dev ↔
      ∀ off ∈ capabilities s.pci s.dev.pciDev.addr,
        IsVirtioCap s.pci s.dev.pciDev.addr VIRTIO_PCI_CAP_COMMON_CFG off →
          capOffset s.pci s.dev.pciDev.addr off = 0 := by
  obtain ⟨htaken, hdev⟩ := parse_ok hok
  rw [hdev]
  constructor
  · intro h off hoff hcap
    rw [← structAddr_eq_iff, ← fillCaps_common htaken honce hoff hcap]
    exact h.common off hoff hcap
  · intro h
    refine ⟨fun off hoff hcap => ?_, fun off hoff hcap => fillCaps_notify htaken honce hoff hcap⟩
    rw [fillCaps_common htaken honce hoff hcap]
    exact structAddr_eq_iff.mpr (h off hoff hcap)

/-- The state in which the disk is parsed, with nothing in the struct yet. -/
def parseStart (p : PciSpace) : SetupState := ⟨zeroStruct, p, ⟨fun _ => 0, fun _ => 0⟩, []⟩

/-- `sampleDisk` with the common configuration 0x1000 bytes into its BAR. -/
def movedDisk : PciSpace :=
  { sampleDisk with config := fun a => Function.update (sampleDisk.config a) 0x49 0x10 }

/-- The two capabilities of these disks, both taken. -/
theorem sampleDisks_caps {p : PciSpace} (h : p = sampleDisk ∨ p = movedDisk) :
    capabilities p ⟨0, 0, 0⟩ = [0x40, 0x50] ∧ HasCapList p ⟨0, 0, 0⟩ ∧
      ∀ off ∈ ([0x40, 0x50] : List UInt8), capOk p ⟨0, 0, 0⟩ off = true := by
  unfold HasCapList
  simp only [List.forall_mem_cons]
  obtain rfl | rfl := h <;> exact ⟨by decide, by decide, by decide, by decide, nofun⟩

/-- They are of two types. -/
theorem sampleDisks_once {p : PciSpace} (h : p = sampleDisk ∨ p = movedDisk) :
    OncePerType p ⟨0, 0, 0⟩ := by
  have htypes : pciRead8 p ⟨0, 0, 0⟩ (0x40 + CAP_CFG_TYPE) ≠
      pciRead8 p ⟨0, 0, 0⟩ (0x50 + CAP_CFG_TYPE) := by
    obtain rfl | rfl := h <;> decide
  intro cfgType off hoff off' hoff' hcap hcap'
  have heq := hcap.2.trans hcap'.2.symm
  rw [(sampleDisks_caps h).1, List.mem_pair] at hoff hoff'
  obtain rfl | rfl := hoff <;> obtain rfl | rfl := hoff'
  · rfl
  · exact absurd heq htypes
  · exact absurd heq htypes.symm
  · rfl

theorem sampleDisks_parse {p : PciSpace} (h : p = sampleDisk ∨ p = movedDisk) :
    ∃ s', Setup.parseVirtioBlkCaps (parseStart p) = some (.ok (), s') := by
  obtain ⟨hcaps, hlist, htaken⟩ := sampleDisks_caps h
  obtain ⟨as, -, hrun⟩ := scans_parse_end hlist (by rwa [AllTaken, hcaps])
    (capsEnd_iff.mpr (by rw [hcaps]; decide))
  exact ⟨_, hrun (parseStart p) rfl rfl⟩

/-- The common configuration of `sampleDisk` is at the base of its BAR. -/
theorem located_iff_sampleDisk : ∃ s', Setup.parseVirtioBlkCaps (parseStart sampleDisk) =
    some (.ok (), s') ∧ Located sampleDisk ⟨0, 0, 0⟩ s'.dev := by
  obtain ⟨s', hrun⟩ := sampleDisks_parse (.inl rfl)
  refine ⟨s', hrun, (located_iff hrun (sampleDisks_once (.inl rfl))).mpr fun off hoff hcap => ?_⟩
  obtain rfl | rfl := List.mem_pair.mp ((sampleDisks_caps (.inl rfl)).1 ▸ hoff)
  · show capOffset sampleDisk ⟨0, 0, 0⟩ 0x40 = 0
    decide
  · exact absurd hcap.2 (by decide)

/-- That of `movedDisk` is not, and the driver takes the base of the BAR for it. -/
theorem movedDisk_not_located : OncePerType movedDisk ⟨0, 0, 0⟩ ∧
    ∃ s', Setup.parseVirtioBlkCaps (parseStart movedDisk) = some (.ok (), s') ∧
      ¬ Located movedDisk ⟨0, 0, 0⟩ s'.dev := by
  have honce : OncePerType movedDisk ⟨0, 0, 0⟩ := sampleDisks_once (.inr rfl)
  obtain ⟨hcaps, -⟩ := sampleDisks_caps (p := movedDisk) (.inr rfl)
  obtain ⟨s', hrun⟩ := sampleDisks_parse (.inr rfl)
  obtain ⟨htaken, hdev⟩ := parse_ok hrun
  refine ⟨honce, s', hrun, fun hlocated => ?_⟩
  have hoff : (0x40 : UInt8) ∈ capabilities movedDisk ⟨0, 0, 0⟩ := by
    rw [hcaps]
    decide
  have hcap : IsVirtioCap movedDisk ⟨0, 0, 0⟩ VIRTIO_PCI_CAP_COMMON_CFG 0x40 :=
    ⟨by decide, by decide⟩
  have hstruct := hlocated.common 0x40 hoff hcap
  rw [hdev] at hstruct
  have hbase := (fillCaps_common htaken honce hoff hcap).symm.trans hstruct
  exact absurd (structAddr_eq_iff.mp hbase) (by decide)

end SwitchOs.Virtio
