import SwitchOs.Pci.Config
import SwitchOs.Lib.Chain
import Mathlib.Data.FinEnum
import Mathlib.Logic.Relation

/-!
# The capability list

`pci_cap_iter_init` and `pci_cap_iter_next` of `shared/src/pci/pci.c`. The list is whatever chain the
configuration space holds: nothing keeps it from coming back to itself, and then the iteration never
ends: 256 steps are enough to know (`capsEnd_iff`), and what decides it is whether the next pointers
form a loop (`iterationEnds_iff`).
-/

namespace SwitchOs

def PCI_COMMAND : ℕ := 0x04
def PCI_STATUS : ℕ := 0x06
def PCI_CAPABILITY_LIST : ℕ := 0x34

def PCI_CAPABILITY_PTR_OFFSET : ℕ := 1

def PCI_STATUS_CAP_LIST : UInt16 := 0x10
def PCI_COMMAND_MEMORY : UInt16 := 0x2

/-- `is_cap_valid`: the capabilities lie behind the header. -/
def isCapValid (s : PciSpace) (addr : PciDevAddr) (capOff : UInt8) : Bool :=
  if capOff < 0x40 then false else pciRead8 s addr capOff.toNat != 0xff

/-- What both functions of the iterator do with an offset they have read: `0` ends the list. -/
def validOff (s : PciSpace) (addr : PciDevAddr) (capOff : UInt8) : UInt8 :=
  if isCapValid s addr capOff then capOff else 0

/-- `pci_cap_iter_init`. -/
def pciCapIterInit (s : PciSpace) (addr : PciDevAddr) : UInt8 :=
  validOff s addr (pciRead8 s addr PCI_CAPABILITY_LIST)

/-- `pci_cap_iter_next`. The pointer of a capability at `0xff` would lie behind the space, and what is
read there is the first byte of the function with the lowest bit set. -/
def pciCapIterNext (s : PciSpace) (addr : PciDevAddr) (off : UInt8) : UInt8 :=
  validOff s addr (pciRead8 s addr (off.toNat + PCI_CAPABILITY_PTR_OFFSET))

/-- The capabilities of a device with an endless list come around within this many. -/
def CAP_STEPS : ℕ := 256

/-- The offsets of the first capabilities of the list, the whole list if it ends. -/
def capabilities (s : PciSpace) (addr : PciDevAddr) : List UInt8 :=
  nodes 0 (pciCapIterNext s addr) CAP_STEPS (pciCapIterInit s addr)

/-- The list of capabilities ends. -/
def CapsEnd (s : PciSpace) (addr : PciDevAddr) : Prop :=
  ∃ l, Chain 0 (pciCapIterNext s addr) (pciCapIterInit s addr) l

variable {s : PciSpace} {addr : PciDevAddr}

theorem card_uint8 : Fintype.card UInt8 = CAP_STEPS := FinEnum.card_eq_fintypeCard.symm

/-- A list that has not ended after that many steps never ends. -/
theorem capsEnd_iff : CapsEnd s addr ↔ (capabilities s addr).length < CAP_STEPS :=
  (nodes_endless card_uint8.le).symm

/-! ## The iteration -/

/-- The rounds of `ITERATE_PCI_CAPABILITIES` from an offset on, if the loop is left within so many
tests of its condition. -/
def iteratePciCapabilities (s : PciSpace) (addr : PciDevAddr) : ℕ → UInt8 → Option (List UInt8)
  | 0, _ => none
  | n + 1, off =>
    if off = 0 then some []
    else (iteratePciCapabilities s addr n (pciCapIterNext s addr off)).map (off :: ·)

/-- The loop is left, and no two of its rounds are at the same offset. -/
def IterationEnds (s : PciSpace) (addr : PciDevAddr) : Prop :=
  ∃ n visited, iteratePciCapabilities s addr n (pciCapIterInit s addr) = some visited ∧
    visited.Nodup

/-- The next pointer in the bytes of the one capability is the offset of the other. -/
def Link (s : PciSpace) (addr : PciDevAddr) (off off' : UInt8) : Prop :=
  pciRead8 s addr (off.toNat + PCI_CAPABILITY_PTR_OFFSET) = off' ∧ isCapValid s addr off' = true

/-- The offset that the header of the configuration space points to. -/
def firstCap (s : PciSpace) (addr : PciDevAddr) : UInt8 := pciRead8 s addr PCI_CAPABILITY_LIST

/-- From no capability that the first one leads to do the next pointers lead back to itself. -/
def NoLoop (s : PciSpace) (addr : PciDevAddr) : Prop :=
  isCapValid s addr (firstCap s addr) = true → ∀ off,
    Relation.ReflTransGen (Link s addr) (firstCap s addr) off →
      ¬ Relation.TransGen (Link s addr) off off

theorem isCapValid_ne_zero {off : UInt8} (h : isCapValid s addr off = true) : off ≠ 0 := by
  rintro rfl
  exact absurd h (by simp [isCapValid])

theorem iterate_eq_some_iff {n : ℕ} {head : UInt8} {l : List UInt8} :
    iteratePciCapabilities s addr n head = some l ↔
      Chain 0 (pciCapIterNext s addr) head l ∧ l.length < n := by
  induction n generalizing head l with
  | zero => simp [iteratePciCapabilities]
  | succ n ih =>
    rw [iteratePciCapabilities]
    split
    case isTrue hzero =>
      subst hzero
      constructor
      · rintro ⟨⟩
        exact ⟨rfl, Nat.succ_pos n⟩
      · rintro ⟨hchain, -⟩
        have hnil : Chain 0 (pciCapIterNext s addr) 0 [] := rfl
        rw [hchain.unique hnil]
    case isFalse hzero =>
      rw [Option.map_eq_some_iff]
      constructor
      · rintro ⟨t, ht, rfl⟩
        obtain ⟨hchain, hlength⟩ := ih.mp ht
        exact ⟨⟨rfl, hzero, hchain⟩, Nat.succ_lt_succ hlength⟩
      · rintro ⟨hchain, hlength⟩
        obtain ⟨t, rfl, ht⟩ := hchain.exists_cons hzero
        exact ⟨t, ih.mpr ⟨ht, Nat.lt_of_succ_lt_succ hlength⟩, rfl⟩

theorem iterationEnds_iff_capsEnd : IterationEnds s addr ↔ CapsEnd s addr := by
  constructor
  · rintro ⟨n, l, hrun, -⟩
    exact ⟨l, (iterate_eq_some_iff.mp hrun).1⟩
  · rintro ⟨l, hl⟩
    exact ⟨l.length + 1, l, iterate_eq_some_iff.mpr ⟨hl, Nat.lt_succ_self _⟩, hl.nodup⟩

/-- What the iterator meets from a pointer on, in terms of the bytes. -/
theorem reaches_validOff_iff {off ptr : UInt8} :
    Reaches 0 (pciCapIterNext s addr) off (validOff s addr ptr) ↔
      isCapValid s addr ptr = true ∧ Relation.ReflTransGen (Link s addr) ptr off := by
  constructor
  · intro h
    obtain ⟨head, hhead⟩ : ∃ head, head = validOff s addr ptr := ⟨_, rfl⟩
    rw [← hhead] at h
    induction h generalizing ptr with
    | here hne =>
      unfold validOff at hhead
      split_ifs at hhead with hvalid
      · exact ⟨hvalid, hhead ▸ .refl⟩
      · exact absurd hhead hne
    | there hne hnext ih =>
      unfold validOff at hhead
      split_ifs at hhead with hvalid
      · subst hhead
        obtain ⟨hvalid', hpath⟩ := ih rfl
        exact ⟨hvalid, .head ⟨rfl, hvalid'⟩ hpath⟩
      · exact absurd hhead hne
  · rintro ⟨hvalid, hpath⟩
    induction hpath using Relation.ReflTransGen.head_induction_on with
    | refl =>
      rw [validOff, if_pos hvalid]
      exact .here (isCapValid_ne_zero hvalid)
    | head hlink _ ih =>
      rw [validOff, if_pos hvalid]
      refine .there (isCapValid_ne_zero hvalid) ?_
      rw [pciCapIterNext, hlink.1]
      exact ih hlink.2

/-- What it meets behind a capability. -/
theorem reaches_next_iff {off off' : UInt8} :
    Reaches 0 (pciCapIterNext s addr) off (pciCapIterNext s addr off') ↔
      Relation.TransGen (Link s addr) off' off := by
  rw [pciCapIterNext, reaches_validOff_iff, Relation.TransGen.head'_iff]
  constructor
  · rintro ⟨hvalid, hpath⟩
    exact ⟨_, ⟨rfl, hvalid⟩, hpath⟩
  · rintro ⟨_, ⟨rfl, hvalid⟩, hpath⟩
    exact ⟨hvalid, hpath⟩

theorem capsEnd_iff_noLoop : CapsEnd s addr ↔ NoLoop s addr := by
  rw [CapsEnd, exists_chain_iff]
  unfold pciCapIterInit NoLoop
  simp only [reaches_validOff_iff, reaches_next_iff, firstCap, and_imp]
  exact ⟨fun h hvalid off => h off hvalid, fun h off hvalid => h hvalid off⟩

/-- The loop ends, with each offset once, exactly if the next pointers do not lead it back to a
capability. -/
theorem iterationEnds_iff (s : PciSpace) (addr : PciDevAddr) :
    IterationEnds s addr ↔ NoLoop s addr := by
  rw [iterationEnds_iff_capsEnd, capsEnd_iff_noLoop]

/-- A list of one capability, whose next pointer is its own offset. -/
def selfLinked : PciSpace where
  config _ offset := if offset = PCI_CAPABILITY_LIST ∨ offset = 0x41 then 0x40 else 0
  writable _ _ := 0

/-- The iteration goes round and round. -/
theorem selfLinked_endless : ¬ IterationEnds selfLinked ⟨0, 0, 0⟩ := by
  rw [iterationEnds_iff_capsEnd, capsEnd_iff_noLoop]
  intro h
  have hlink : Link selfLinked ⟨0, 0, 0⟩ 0x40 0x40 := by
    constructor <;> decide
  exact h (by decide) 0x40 .refl (.single hlink)

end SwitchOs
