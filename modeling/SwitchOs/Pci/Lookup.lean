import Mathlib.Order.WellFounded
import SwitchOs.Pci.Config

/-!
# Which function `lookup_pci_dev` finds

`lookup_pci_dev` walks the buses, the devices of a bus and the functions of a device, and leaves the
functions of a device at the first one that is absent.
-/

namespace SwitchOs

/-! ## Functions and their order -/

/-- An address of the enumeration: five bits of device, three of function. -/
structure PciDevAddr.Valid (addr : PciDevAddr) : Prop where
  device : addr.device.toNat < PCI_MAX_DEVICE
  function : addr.function.toNat < PCI_MAX_FUNCTION

/-- The place of an address in the order of buses, devices and functions. -/
def PciDevAddr.index (addr : PciDevAddr) : ℕ :=
  (addr.bus.toNat * PCI_MAX_DEVICE + addr.device.toNat) * PCI_MAX_FUNCTION + addr.function.toNat

/-- There is a function at the address. -/
def Present (s : PciSpace) (addr : PciDevAddr) : Prop :=
  pciRead16 s addr PCI_VENDOR_ID ≠ PCI_VENDOR_ID_INVALID

/-- The function at the address has the identity looked for. -/
def HasId (s : PciSpace) (id : PciDevId) (addr : PciDevAddr) : Prop :=
  id.vendorId = pciRead16 s addr PCI_VENDOR_ID ∧ id.deviceId = pciRead16 s addr PCI_DEVICE_ID

/-- The header type of the function is one that `init_pci_dev` knows. -/
def ValidHeaderType (s : PciSpace) (addr : PciDevAddr) : Prop :=
  let headerType := pciRead8 s addr PCI_HEADER_TYPE &&& PCI_HEADER_TYPE_MASK
  headerType = PCI_HEADER_TYPE_NORMAL ∨ headerType = PCI_HEADER_TYPE_BRIDGE ∨
    headerType = PCI_HEADER_TYPE_CARDBUS

/-- A function that is there and has the identity looked for. -/
structure Matches (s : PciSpace) (id : PciDevId) (addr : PciDevAddr) : Prop where
  valid : addr.Valid
  present : Present s addr
  hasId : HasId s id addr

/-- The first of them. -/
structure FirstMatch (s : PciSpace) (id : PciDevId) (addr : PciDevAddr) : Prop
    extends Matches s id addr where
  least : ∀ addr', Matches s id addr' → addr.index ≤ addr'.index

/-- `lookup_pci_dev` succeeds exactly where there is a function with the identity looked for, and then
fills in the address and the identity of the first one. -/
structure LookupComplete (s : PciSpace) (id : PciDevId) : Prop where
  success : (∃ dev, lookupPciDev s id = .ok dev) ↔ ∃ addr, Matches s id addr
  first : ∀ dev, lookupPciDev s id = .ok dev →
    FirstMatch s id dev.addr ∧ dev.vendorId = id.vendorId ∧ dev.deviceId = id.deviceId

/-- The device of the first match has every function below it. -/
def NoGapBefore (s : PciSpace) (id : PciDevId) : Prop :=
  ∀ addr, FirstMatch s id addr →
    ∀ function, function < addr.function → Present s { addr with function := function }

theorem index_injective {a b : PciDevAddr} (ha : a.Valid) (hb : b.Valid) (h : a.index = b.index) :
    a = b := by
  obtain ⟨ha₁, ha₂⟩ := ha
  obtain ⟨hb₁, hb₂⟩ := hb
  obtain ⟨abus, adevice, afunction⟩ := a
  obtain ⟨bbus, bdevice, bfunction⟩ := b
  simp only [PciDevAddr.index, PCI_MAX_DEVICE, PCI_MAX_FUNCTION] at *
  rw [PciDevAddr.mk.injEq, ← UInt8.toNat_inj, ← UInt8.toNat_inj, ← UInt8.toNat_inj]
  omega

theorem FirstMatch.unique {s : PciSpace} {id : PciDevId} {a b : PciDevAddr}
    (ha : FirstMatch s id a) (hb : FirstMatch s id b) : a = b :=
  index_injective ha.valid hb.valid (le_antisymm (ha.least b hb.toMatches) (hb.least a ha.toMatches))

theorem exists_firstMatch {s : PciSpace} {id : PciDevId} (h : ∃ addr, Matches s id addr) :
    ∃ addr, FirstMatch s id addr := by
  obtain ⟨addr, hmatch, hleast⟩ :=
    (InvImage.wf PciDevAddr.index wellFounded_lt).has_min { addr | Matches s id addr } h
  exact ⟨addr, hmatch, fun addr' hmatch' => not_lt.mp (hleast addr' hmatch')⟩

/-! ## The loops -/

/-- A search that stops at the first hit stops at the least index that is one. -/
theorem findSome?_range_eq_some {α : Type*} {f : ℕ → Option α} {n : ℕ} {x : α} (i : ℕ) (hi : i < n)
    (hx : f i = some x) (hbefore : ∀ j < i, f j = none) : (List.range n).findSome? f = some x := by
  obtain ⟨rest, rfl⟩ := Nat.exists_eq_add_of_lt hi
  rw [List.findSome?_eq_some_iff]
  refine ⟨List.range i, i, (List.range rest).map (i + 1 + ·), ?_, hx, ?_⟩
  · rw [show i + rest + 1 = (i + 1) + rest by omega, List.range_add, List.range_succ]
    simp
  · exact fun j hj => hbefore j (List.mem_range.mp hj)

/-- The functions of a device are looked at up to the first one that is absent. -/
theorem lookupFunction_eq_some_iff {s : PciSpace} {id : PciDevId} {bus device : UInt8}
    {addr : PciDevAddr} {n : ℕ} : ∀ {m : ℕ},
    lookupFunction s id bus device (List.range' m n) = some addr ↔
      ∃ function, m ≤ function ∧ function < m + n ∧
        addr = ⟨bus, device, UInt8.ofNat function⟩ ∧ Present s addr ∧ HasId s id addr ∧
        ∀ g, m ≤ g → g < function → Present s ⟨bus, device, UInt8.ofNat g⟩ ∧
          ¬ HasId s id ⟨bus, device, UInt8.ofNat g⟩ := by
  induction n with
  | zero =>
    intro m
    simp only [List.range'_zero, lookupFunction, reduceCtorEq, false_iff]
    rintro ⟨function, hle, hlt, -⟩
    omega
  | succ n ih =>
    intro m
    rw [List.range'_succ, lookupFunction]
    constructor
    · intro h
      split_ifs at h with habsent hid
      · obtain rfl := Option.some.inj h
        exact ⟨m, le_rfl, by omega, rfl, habsent, hid, fun g hle hlt => by omega⟩
      · obtain ⟨function, hle, hlt, haddr, hpresent, hhas, hbefore⟩ := ih.mp h
        refine ⟨function, by omega, by omega, haddr, hpresent, hhas, fun g hmg hg => ?_⟩
        obtain rfl | hne := eq_or_ne g m
        · exact ⟨habsent, hid⟩
        · exact hbefore g (by omega) hg
    · rintro ⟨function, hle, hlt, rfl, hpresent, hhas, hbefore⟩
      obtain rfl | hne := eq_or_ne function m
      · rw [if_neg (show ¬ _ = _ from hpresent), if_pos (show _ = _ ∧ _ = _ from hhas)]
      · obtain ⟨habsent, hid⟩ := hbefore m le_rfl (by omega)
        rw [if_neg (show ¬ _ = _ from habsent), if_neg (show ¬ (_ = _ ∧ _ = _) from hid)]
        exact ih.mpr ⟨function, by omega, by omega, rfl, hpresent, hhas,
          fun g hmg hg => hbefore g (by omega) hg⟩

/-- The address at which the three loops of `lookup_pci_dev` leave. -/
def foundAddr (s : PciSpace) (id : PciDevId) : Option PciDevAddr :=
  (List.range PCI_MAX_BUS).findSome? fun bus =>
    (List.range PCI_MAX_DEVICE).findSome? fun device =>
      lookupFunction s id (UInt8.ofNat bus) (UInt8.ofNat device) (List.range PCI_MAX_FUNCTION)

theorem lookupPciDev_eq (s : PciSpace) (id : PciDevId) :
    lookupPciDev s id = match foundAddr s id with
      | some addr => initPciDev s addr
      | none => .error .ERR_INVALID := rfl

/-- What the loops find in one device. -/
theorem lookupFunction_range {s : PciSpace} {id : PciDevId} {bus device : ℕ} {addr : PciDevAddr}
    (hbus : bus < PCI_MAX_BUS) (hdevice : device < PCI_MAX_DEVICE)
    (h : lookupFunction s id (UInt8.ofNat bus) (UInt8.ofNat device) (List.range PCI_MAX_FUNCTION) =
      some addr) :
    Matches s id addr ∧ addr.bus.toNat = bus ∧ addr.device.toNat = device ∧
      ∀ function < addr.function, Present s { addr with function := function } := by
  rw [List.range_eq_range', lookupFunction_eq_some_iff] at h
  obtain ⟨function, -, hlt, rfl, hpresent, hhas, hbefore⟩ := h
  simp only [PCI_MAX_BUS, PCI_MAX_DEVICE, PCI_MAX_FUNCTION] at hbus hdevice hlt
  have hbus' : (UInt8.ofNat bus).toNat = bus := by simp; omega
  have hdevice' : (UInt8.ofNat device).toNat = device := by simp; omega
  have hfunction : (UInt8.ofNat function).toNat = function := by simp; omega
  refine ⟨⟨⟨?_, ?_⟩, hpresent, hhas⟩, hbus', hdevice', fun g hg => ?_⟩
  · show (UInt8.ofNat device).toNat < PCI_MAX_DEVICE
    rw [hdevice']
    exact hdevice
  · show (UInt8.ofNat function).toNat < PCI_MAX_FUNCTION
    rw [hfunction, PCI_MAX_FUNCTION]
    omega
  · have hg' : g.toNat < function := by
      rw [← hfunction]
      exact UInt8.lt_iff_toNat_lt.mp hg
    simpa using (hbefore g.toNat (Nat.zero_le _) hg').1

theorem foundAddr_eq_some {s : PciSpace} {id : PciDevId} {addr : PciDevAddr}
    (h : foundAddr s id = some addr) :
    Matches s id addr ∧
      ∀ function < addr.function, Present s { addr with function := function } := by
  obtain ⟨bus, hbus, hdevices⟩ := List.exists_of_findSome?_eq_some h
  obtain ⟨device, hdevice, hfunctions⟩ := List.exists_of_findSome?_eq_some hdevices
  obtain ⟨hmatch, -, -, hbefore⟩ :=
    lookupFunction_range (List.mem_range.mp hbus) (List.mem_range.mp hdevice) hfunctions
  exact ⟨hmatch, hbefore⟩

/-- In a device before that of the first match nothing is found. -/
theorem FirstMatch.none_before {s : PciSpace} {id : PciDevId} {addr : PciDevAddr}
    (hfirst : FirstMatch s id addr) {bus device : ℕ} (hbus : bus < PCI_MAX_BUS)
    (hdevice : device < PCI_MAX_DEVICE) (hbefore : bus * PCI_MAX_DEVICE + device <
      addr.bus.toNat * PCI_MAX_DEVICE + addr.device.toNat) :
    lookupFunction s id (UInt8.ofNat bus) (UInt8.ofNat device) (List.range PCI_MAX_FUNCTION) =
      none := by
  by_contra hne
  obtain ⟨addr', hfound⟩ := Option.ne_none_iff_exists'.mp hne
  obtain ⟨hmatch, rfl, rfl, -⟩ := lookupFunction_range hbus hdevice hfound
  have hle := hfirst.least addr' hmatch
  have hvalid := hmatch.valid.function
  simp only [PciDevAddr.index, PCI_MAX_DEVICE, PCI_MAX_FUNCTION] at hle hvalid hbefore
  omega

/-- The device of the first match is searched up to there, if no function is missing before it. -/
theorem FirstMatch.lookupFunction {s : PciSpace} {id : PciDevId} {addr : PciDevAddr}
    (hfirst : FirstMatch s id addr)
    (hgap : ∀ function < addr.function, Present s { addr with function := function }) :
    SwitchOs.lookupFunction s id addr.bus addr.device (List.range PCI_MAX_FUNCTION) =
      some addr := by
  obtain ⟨hdevice, hfunction⟩ := hfirst.valid
  rw [List.range_eq_range', lookupFunction_eq_some_iff]
  refine ⟨addr.function.toNat, Nat.zero_le _, by omega, by simp, hfirst.present, hfirst.hasId,
    fun g _ hg => ?_⟩
  have hg' : (UInt8.ofNat g).toNat = g :=
    UInt8.toNat_ofNat_of_lt' (hg.trans addr.function.toNat_lt)
  have hpresent : Present s { addr with function := UInt8.ofNat g } := by
    refine hgap _ (UInt8.lt_iff_toNat_lt.mpr ?_)
    rw [hg']
    exact hg
  refine ⟨hpresent, fun hhas => ?_⟩
  -- it would be an earlier match
  have hvalid : PciDevAddr.Valid { addr with function := UInt8.ofNat g } := by
    refine ⟨hdevice, ?_⟩
    show (UInt8.ofNat g).toNat < PCI_MAX_FUNCTION
    rw [hg']
    exact hg.trans hfunction
  have hle := hfirst.least _ ⟨hvalid, hpresent, hhas⟩
  simp only [PciDevAddr.index, hg'] at hle
  omega

/-- Where no function is missing before the first match, the loops leave there. -/
theorem foundAddr_firstMatch {s : PciSpace} {id : PciDevId} {addr : PciDevAddr}
    (hfirst : FirstMatch s id addr)
    (hgap : ∀ function < addr.function, Present s { addr with function := function }) :
    foundAddr s id = some addr := by
  have hdevice := hfirst.valid.device
  refine findSome?_range_eq_some addr.bus.toNat addr.bus.toNat_lt ?_ fun bus hbus => ?_
  · refine findSome?_range_eq_some addr.device.toNat hdevice ?_ fun device hlt => ?_
    · rw [UInt8.ofNat_toNat, UInt8.ofNat_toNat]
      exact hfirst.lookupFunction hgap
    · exact hfirst.none_before addr.bus.toNat_lt (by omega) (by omega)
  · rw [List.findSome?_eq_none_iff]
    intro device hmem
    have hmem' := List.mem_range.mp hmem
    have hlt : bus < PCI_MAX_BUS := hbus.trans addr.bus.toNat_lt
    refine hfirst.none_before hlt hmem' ?_
    simp only [PCI_MAX_DEVICE] at hmem' ⊢
    omega

/-! ## Completeness -/

theorem initPciDev_ok_iff {s : PciSpace} {addr : PciDevAddr} :
    (∃ dev, initPciDev s addr = .ok dev) ↔ ValidHeaderType s addr := by
  unfold initPciDev ValidHeaderType
  dsimp only
  split_ifs with hheader <;> simp [hheader]

theorem lookupPciDev_addr {s : PciSpace} {id : PciDevId} {dev : PciDev}
    (h : lookupPciDev s id = .ok dev) : foundAddr s id = some dev.addr := by
  rw [lookupPciDev_eq] at h
  split at h
  case h_2 => cases h
  case h_1 addr hfound =>
    rw [hfound]
    rw [initPciDev] at h
    split_ifs at h
    obtain rfl := Except.ok.inj h
    rfl

/-- With header types that `init_pci_dev` knows, the lookup is complete exactly where the device of the
first match has every function below it. -/
theorem lookupComplete_iff (s : PciSpace) (id : PciDevId)
    (hheader : ∀ addr, addr.Valid → Present s addr → ValidHeaderType s addr) :
    LookupComplete s id ↔ NoGapBefore s id := by
  constructor
  · intro hcomplete addr hfirst
    obtain ⟨dev, hok⟩ := hcomplete.success.mpr ⟨addr, hfirst.toMatches⟩
    obtain rfl := (hcomplete.first dev hok).1.unique hfirst
    exact (foundAddr_eq_some (lookupPciDev_addr hok)).2
  · intro hgap
    refine ⟨⟨fun ⟨dev, hok⟩ => ?_, fun hmatch => ?_⟩, fun dev hok => ?_⟩
    · exact ⟨dev.addr, (foundAddr_eq_some (lookupPciDev_addr hok)).1⟩
    · obtain ⟨addr, hfirst⟩ := exists_firstMatch hmatch
      rw [lookupPciDev_eq, foundAddr_firstMatch hfirst (hgap addr hfirst)]
      exact initPciDev_ok_iff.mpr (hheader addr hfirst.valid hfirst.present)
    · have hfound := lookupPciDev_addr hok
      obtain ⟨addr, hfirst⟩ := exists_firstMatch ⟨dev.addr, (foundAddr_eq_some hfound).1⟩
      rw [foundAddr_firstMatch hfirst (hgap addr hfirst)] at hfound
      obtain rfl := Option.some.inj hfound
      exact ⟨hfirst, (lookupPciDev_ok hok).2⟩

/-- A device with the functions 0 and 2. -/
def gapSpace : PciSpace where
  config addr offset :=
    if addr = ⟨0, 0, 0⟩ then [0x86, 0x80, 0x37, 0x12].getD offset 0
    else if addr = ⟨0, 0, 2⟩ then [0xf4, 0x1a, 0x42, 0x10].getD offset 0
    else 0xff
  writable _ _ := 0

theorem gapSpace_present {addr : PciDevAddr} :
    Present gapSpace addr ↔ addr = ⟨0, 0, 0⟩ ∨ addr = ⟨0, 0, 2⟩ := by
  constructor
  · intro hpresent
    by_contra hne
    rw [not_or] at hne
    have hconfig : gapSpace.config addr = fun _ => 0xff := by
      funext offset
      simp only [gapSpace, if_neg hne.1, if_neg hne.2]
    rw [Present, pciRead16_of_lt _ (by decide), hconfig] at hpresent
    exact hpresent (by decide)
  · rintro (rfl | rfl) <;> unfold Present <;> decide

/-- Its header types are those of normal devices. -/
theorem gapSpace_headers {addr : PciDevAddr} (h : Present gapSpace addr) :
    ValidHeaderType gapSpace addr := by
  obtain rfl | rfl := gapSpace_present.mp h <;> exact .inl (by decide)

/-- Function 0 is there, and nothing is missing below it. -/
theorem lookupComplete_iff_gapSpace : LookupComplete gapSpace ⟨0x8086, 0x1237⟩ := by
  rw [lookupComplete_iff gapSpace _ fun addr _ => gapSpace_headers]
  intro addr hfirst function hlt
  obtain rfl | rfl := gapSpace_present.mp hfirst.present
  · exact absurd hlt (UInt8.not_lt_zero)
  · exact absurd hfirst.hasId (by unfold HasId; decide)

/-- Function 2 is there, with function 0, and the lookup does not see it. -/
theorem gapSpace_not_complete :
    (∀ addr, Present gapSpace addr → Present gapSpace { addr with function := 0 }) ∧
      (∀ addr, addr.Valid → Present gapSpace addr → ValidHeaderType gapSpace addr) ∧
      ¬ LookupComplete gapSpace ⟨0x1af4, 0x1042⟩ := by
  refine ⟨fun addr h => ?_, fun addr _ => gapSpace_headers, fun hcomplete => ?_⟩
  · rw [gapSpace_present] at h ⊢
    obtain rfl | rfl := h <;> exact .inl rfl
  · obtain ⟨dev, hok⟩ := hcomplete.success.mpr
      ⟨⟨0, 0, 2⟩, ⟨by decide, by decide⟩, gapSpace_present.mpr (.inr rfl), by decide, by decide⟩
    obtain ⟨hmatch, hbelow⟩ := foundAddr_eq_some (lookupPciDev_addr hok)
    obtain haddr | haddr := gapSpace_present.mp hmatch.present
    · exact absurd hmatch.hasId (by rw [haddr]; unfold HasId; decide)
    · have hone := hbelow 1 (by rw [haddr]; decide)
      rw [haddr] at hone
      exact absurd (gapSpace_present.mp hone) (by decide)

end SwitchOs
