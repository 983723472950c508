import Mathlib.Data.List.TakeWhile
import SwitchOs.Virtio.Setup

/-!
# What the configuration space decides

Up to the end of the capability list `init_virtio_blk_dev` looks at nothing but the configuration
space of the disk. `Scans` is a computation of that kind: its result, its accesses and what it does to
the struct of its caller are the same from every state with that space. `capAt` is the capability at
an offset of the list, and `parseLoop_rejected`, `parseLoop_end` and `parseLoop_endless` are what the
loop over the list comes to: the capabilities up to the first one that is rejected have been taken,
one after the other.
-/

namespace SwitchOs.Virtio

/-! ## Computations that look at the configuration space -/

/-- On the device at `a` in the space `p`, `x` returns `r` and does `g` to the struct, whatever the
struct holds, and its accesses are always the same ones, none of them to memory. -/
def Scans {α : Type} (p : PciSpace) (a : PciDevAddr) (x : Setup α) (r : Except Err α)
    (g : BlkStruct → BlkStruct) : Prop :=
  ∃ accesses : List Access, (∀ e ∈ accesses, e.isMemory = false) ∧
    ∀ s : SetupState, s.pci = p → s.dev.pciDev.addr = a →
      x s = some (r, { s with dev := g s.dev, log := s.log ++ accesses })

/-- An update of the struct that leaves the address of the device. -/
def KeepsAddr (g : BlkStruct → BlkStruct) : Prop :=
  ∀ dev, (g dev).pciDev.addr = dev.pciDev.addr

section Scans

variable {α β : Type} {p : PciSpace} {a : PciDevAddr} {x : Setup α} {f : α → Setup β} {v : α}
  {r : Except Err β} {g g' : BlkStruct → BlkStruct}

theorem scans_pure (v : α) : Scans p a (pure v) (.ok v) id :=
  ⟨[], nofun, fun s _ _ => by rw [List.append_nil]; rfl⟩

theorem scans_throw (e : Err) : Scans p a (Prog.throw e : Setup α) (.error e) id :=
  ⟨[], nofun, fun s _ _ => by rw [List.append_nil]; rfl⟩

theorem Scans.bind (hx : Scans p a x (.ok v) g) (hg : KeepsAddr g) (hf : Scans p a (f v) r g') :
    Scans p a (x >>= f) r (g' ∘ g) := by
  obtain ⟨as, hquiet, hrun⟩ := hx
  obtain ⟨as', hquiet', hrun'⟩ := hf
  refine ⟨as ++ as', fun e he => ?_, fun s hp ha => ?_⟩
  · rcases List.mem_append.mp he with he | he
    · exact hquiet e he
    · exact hquiet' e he
  · rw [Prog.bind_ok (hrun s hp ha),
      hrun' { s with dev := g s.dev, log := s.log ++ as } hp ((hg s.dev).trans ha), List.append_assoc]
    rfl

/-- A computation that only looks, and then goes on. -/
theorem Scans.look (hx : Scans p a x (.ok v) id) (hf : Scans p a (f v) r g) :
    Scans p a (x >>= f) r g :=
  hx.bind (fun _ => rfl) hf

theorem Scans.seq {y : Setup β} (hx : Scans p a x (.ok v) g) (hg : KeepsAddr g)
    (hy : Scans p a y r g') : Scans p a (x >>= fun _ => y) r (g' ∘ g) :=
  hx.bind hg hy

theorem Scans.bind_error {e : Err} (hx : Scans p a x (.error e) g) :
    Scans p a (x >>= f) (.error e) g := by
  obtain ⟨as, hquiet, hrun⟩ := hx
  exact ⟨as, hquiet, fun s hp ha => Prog.bind_error (hrun s hp ha)⟩

theorem scans_read8 (offset : ℕ) :
    Scans p a (Setup.pciRead8 offset) (.ok (pciRead8 p a offset)) id := by
  refine ⟨[.pciRead 1 a offset], by simp [Access.isMemory], fun s hp ha => ?_⟩
  subst hp ha
  rfl

theorem scans_read16 (offset : ℕ) :
    Scans p a (Setup.pciRead16 offset) (.ok (pciRead16 p a offset)) id := by
  refine ⟨[.pciRead 2 a offset], by simp [Access.isMemory], fun s hp ha => ?_⟩
  subst hp ha
  rfl

theorem scans_read32 (offset : ℕ) :
    Scans p a (Setup.pciRead32 offset) (.ok (pciRead32 p a offset)) id := by
  refine ⟨[.pciRead 4 a offset], by simp [Access.isMemory], fun s hp ha => ?_⟩
  subst hp ha
  rfl

theorem scans_setDev (g : BlkStruct → BlkStruct) : Scans p a (Setup.setDev g) (.ok ()) g :=
  ⟨[], nofun, fun s _ _ => by rw [List.append_nil]; rfl⟩

/-- A field is set before the rest. -/
theorem Scans.update {f : Unit → Setup β} {h : BlkStruct → BlkStruct} (hg : KeepsAddr g)
    (hf : Scans p a (f ()) r g') (heq : g' ∘ g = h) : Scans p a (Setup.setDev g >>= f) r h :=
  heq ▸ (scans_setDev g).bind hg hf

theorem scans_check (c : Bool) :
    Scans p a (check c) (if c then .ok () else .error .ERR_INVALID) id := by
  cases c with
  | true => exact scans_pure ()
  | false => exact scans_throw _

theorem scans_check_true {c : Bool} {f : Unit → Setup β} (hc : c = true)
    (hf : Scans p a (f ()) r g) : Scans p a (check c >>= f) r g := by
  obtain ⟨as, hquiet, hrun⟩ := hf
  exact ⟨as, hquiet, fun s hp ha => (Prog.bind_check_true hc _ f s).trans (hrun s hp ha)⟩

theorem scans_check_false {c : Bool} {f : Unit → Setup β} (hc : c = false) :
    Scans p a (check c >>= f) (.error .ERR_INVALID) id := by
  refine ⟨[], nofun, fun s _ _ => ?_⟩
  rw [check, Prog.bind_check_false hc, List.append_nil]
  rfl

end Scans

/-! ## One capability -/

section Caps

variable {p : PciSpace} {a : PciDevAddr}

theorem scans_pciGetBar (barNum : UInt8) :
    Scans p a (Setup.pciGetBar barNum) (pciGetBar p a barNum.toNat) id := by
  unfold Setup.pciGetBar pciGetBar barReg
  by_cases hnum : barNum.toNat < PCI_BASE_ADDRESS_NUM
  case neg =>
    rw [if_pos hnum]
    exact scans_check_false (decide_eq_false hnum)
  rw [if_neg (not_not.mpr hnum)]
  apply scans_check_true (decide_eq_true hnum)
  apply (scans_read32 _).look
  by_cases hinvalid : pciRead32 p a (PCI_BASE_ADDRESS_0 + barNum.toNat * 4) = PCI_BASE_ADDRESS_INVALID
  case pos =>
    rw [if_pos hinvalid]
    exact scans_check_false (by simp [hinvalid])
  rw [if_neg hinvalid]
  apply scans_check_true (bne_iff_ne.mpr hinvalid)
  split_ifs with hio hmem h64 hnext
  · exact scans_pure _
  · apply scans_check_true (decide_eq_true hnext)
    exact (scans_read32 _).look (scans_pure _)
  · exact scans_check_false (decide_eq_false hnext)
  · exact scans_pure _
  · exact scans_throw _

theorem scans_validOff (capOff : UInt8) :
    Scans p a (Setup.validOff capOff) (.ok (validOff p a capOff)) id := by
  unfold Setup.validOff validOff isCapValid
  by_cases hlow : capOff < 0x40
  · rw [if_pos hlow, if_pos hlow]
    exact scans_pure _
  · rw [if_neg hlow, if_neg hlow]
    apply (scans_read8 _).look
    by_cases hid : pciRead8 p a capOff.toNat = 0xff
    · simp only [hid, bne_self_eq_false, Bool.false_eq_true, if_true, if_false]
      exact scans_pure _
    · rw [if_neg hid, if_pos (bne_iff_ne.mpr hid)]
      exact scans_pure _

theorem scans_pciCapIterInit : Scans p a Setup.pciCapIterInit (.ok (pciCapIterInit p a)) id :=
  (scans_read8 _).look (scans_validOff _)

theorem scans_pciCapIterNext (off : UInt8) :
    Scans p a (Setup.pciCapIterNext off) (.ok (pciCapIterNext p a off)) id :=
  (scans_read8 _).look (scans_validOff _)

/-- What a capability gives the driver. -/
inductive Cap where
  | other
  | common (addr : UInt64)
  | notify (off : UInt64) (multiplier : UInt32)
  deriving DecidableEq, Repr

/-- The fields of the struct that a capability is taken into. -/
def Cap.fill : Cap → BlkStruct → BlkStruct
  | other => id
  | common addr => fun dev => { dev with commonCfg := addr }
  | notify off multiplier => fun dev => { dev with notifyOff := off, notifyMultiplier := multiplier }

/-- The capability at an offset of the list, or the error that rejects it. -/
def capAt (p : PciSpace) (a : PciDevAddr) (off : UInt8) : Except Err Cap :=
  let cfgType := pciRead8 p a (off.toNat + CAP_CFG_TYPE)
  if pciRead8 p a (off.toNat + CAP_VNDR) ≠ VIRTIO_PCI_CAP_VENDOR then .ok .other
  else if virtioCfgTypes.contains cfgType = false then .error .ERR_INVALID
  else
    match pciGetBar p a (pciRead8 p a (off.toNat + CAP_BAR)).toNat with
    | .error e => .error e
    | .ok bar =>
      if cfgType = VIRTIO_PCI_CAP_COMMON_CFG then
        if bar.type = .PCI_BAR_MEMORY then .ok (.common bar.addr) else .error .ERR_INVALID
      else if cfgType = VIRTIO_PCI_CAP_NOTIFY_CFG then
        if bar.type = .PCI_BAR_MEMORY then
          .ok (.notify (bar.addr + (pciRead32 p a (off.toNat + CAP_OFFSET)).toUInt64)
            (pciRead32 p a (off.toNat + CAP_NOTIFY_OFF_MULTIPLIER)))
        else .error .ERR_INVALID
      else .ok .other

/-- What taking the capability does to the struct. -/
def fillCap (p : PciSpace) (a : PciDevAddr) (off : UInt8) : BlkStruct → BlkStruct :=
  match capAt p a off with
  | .ok cap => cap.fill
  | .error _ => id

/-- One round of the loop takes the capability, or fails and leaves the struct. -/
theorem scans_parseCap (off : UInt8) :
    Scans p a (Setup.parseCap off) ((capAt p a off).map fun _ => ()) (fillCap p a off) := by
  unfold Setup.parseCap fillCap capAt
  apply (scans_read8 _).look
  by_cases hvndr : pciRead8 p a (off.toNat + CAP_VNDR) ≠ VIRTIO_PCI_CAP_VENDOR
  case pos =>
    rw [if_pos hvndr, if_pos hvndr]
    exact scans_pure _
  rw [if_neg hvndr, if_neg hvndr]
  apply (scans_read8 _).look
  obtain ⟨cfgType, hcfg⟩ : ∃ cfgType, cfgType = pciRead8 p a (off.toNat + CAP_CFG_TYPE) := ⟨_, rfl⟩
  rw [← hcfg]
  cases htype : virtioCfgTypes.contains cfgType with
  | false =>
    rw [if_pos rfl]
    exact scans_check_false rfl
  | true =>
    rw [if_neg (by decide)]
    apply scans_check_true rfl
    apply (scans_read8 _).look
    have hget := scans_pciGetBar (p := p) (a := a) (pciRead8 p a (off.toNat + CAP_BAR))
    cases hbar : pciGetBar p a (pciRead8 p a (off.toNat + CAP_BAR)).toNat with
    | error e =>
      rw [hbar] at hget
      exact hget.bind_error
    | ok bar =>
      rw [hbar] at hget
      apply hget.look
      dsimp only
      split_ifs with hcommon hmem hnotify hmem
      · apply scans_check_true (beq_iff_eq.mpr hmem)
        exact scans_setDev _
      · exact scans_check_false (beq_eq_false_iff_ne.mpr hmem)
      · apply scans_check_true (beq_iff_eq.mpr hmem)
        apply (scans_read32 _).look
        exact Scans.update (fun _ => rfl) ((scans_read32 _).look (scans_setDev _)) rfl
      · exact scans_check_false (beq_eq_false_iff_ne.mpr hmem)
      · exact scans_pure _

theorem keepsAddr_fillCap (off : UInt8) : KeepsAddr (fillCap p a off) := by
  intro dev
  unfold fillCap
  cases capAt p a off with
  | error e => rfl
  | ok cap => cases cap <;> rfl

/-! ## The list of capabilities -/

/-- The capability is not rejected. -/
def capOk (p : PciSpace) (a : PciDevAddr) (off : UInt8) : Bool := (capAt p a off).isOk

/-- No capability of the list is rejected. -/
def AllTaken (p : PciSpace) (a : PciDevAddr) : Prop :=
  ∀ off ∈ capabilities p a, capOk p a off = true

/-- The capabilities before the first one that is rejected. -/
def takenCaps (p : PciSpace) (a : PciDevAddr) : List UInt8 :=
  (capabilities p a).takeWhile (capOk p a)

/-- The struct after the capabilities of the list, in its order. -/
def fillCaps (p : PciSpace) (a : PciDevAddr) (offs : List UInt8) (dev : BlkStruct) : BlkStruct :=
  offs.foldl (fun dev off => fillCap p a off dev) dev

theorem capOk_iff {off : UInt8} :
    capOk p a off = true ↔ (capAt p a off).map (fun _ => ()) = .ok () := by
  unfold capOk
  cases capAt p a off with
  | error e => exact ⟨nofun, nofun⟩
  | ok cap => exact ⟨fun _ => rfl, fun _ => rfl⟩

theorem exists_error_of_not_capOk {off : UInt8} (h : ¬ capOk p a off = true) :
    ∃ e, (capAt p a off).map (fun _ => ()) = .error e ∧ fillCap p a off = id := by
  unfold capOk at h
  unfold fillCap
  cases hcap : capAt p a off with
  | error e => exact ⟨e, rfl, rfl⟩
  | ok cap =>
    rw [hcap] at h
    exact absurd rfl h

/-- **The loop stops** at the first capability that is rejected. -/
theorem parseLoop_rejected (n : ℕ) : ∀ off : UInt8,
    (∃ o ∈ nodes 0 (pciCapIterNext p a) n off, ¬ capOk p a o = true) →
      ∃ e, Scans p a (Setup.parseLoop n off) (.error e)
        (fillCaps p a ((nodes 0 (pciCapIterNext p a) n off).takeWhile (capOk p a))) := by
  induction n with
  | zero =>
    rintro off ⟨o, ho, -⟩
    cases ho
  | succ n ih =>
    rintro off ⟨o, ho, hrejected⟩
    rw [nodes] at ho ⊢
    by_cases hzero : off = 0
    case pos =>
      rw [if_pos hzero] at ho
      cases ho
    rw [if_neg hzero] at ho ⊢
    unfold Setup.parseLoop
    rw [if_neg hzero]
    have hcap := scans_parseCap (p := p) (a := a) off
    by_cases hok : capOk p a off = true
    · rw [capOk_iff.mp hok] at hcap
      rw [List.takeWhile_cons_of_pos hok]
      rcases List.mem_cons.mp ho with rfl | ho
      · exact absurd hok hrejected
      · obtain ⟨e, hrest⟩ := ih _ ⟨o, ho, hrejected⟩
        exact ⟨e, hcap.seq (keepsAddr_fillCap off) ((scans_pciCapIterNext off).look hrest)⟩
    · obtain ⟨e, herror, hid⟩ := exists_error_of_not_capOk hok
      rw [herror, hid] at hcap
      rw [List.takeWhile_cons_of_neg hok]
      exact ⟨e, hcap.bind_error⟩

/-- **The loop ends** with the list, if all its capabilities are taken. -/
theorem parseLoop_end (n : ℕ) : ∀ off : UInt8,
    (∀ o ∈ nodes 0 (pciCapIterNext p a) n off, capOk p a o = true) →
      (nodes 0 (pciCapIterNext p a) n off).length < n →
        Scans p a (Setup.parseLoop n off) (.ok ())
          (fillCaps p a (nodes 0 (pciCapIterNext p a) n off)) := by
  induction n with
  | zero =>
    intro off _ hlength
    exact absurd hlength (Nat.not_lt_zero _)
  | succ n ih =>
    intro off htaken hlength
    rw [nodes] at htaken hlength ⊢
    unfold Setup.parseLoop
    by_cases hzero : off = 0
    · rw [if_pos hzero, if_pos hzero]
      exact scans_pure _
    · rw [if_neg hzero] at htaken hlength
      rw [if_neg hzero, if_neg hzero]
      have hcap := scans_parseCap (p := p) (a := a) off
      rw [capOk_iff.mp (htaken off List.mem_cons_self)] at hcap
      have hrest := ih _ (fun o ho => htaken o (List.mem_cons_of_mem _ ho))
        (Nat.lt_of_succ_lt_succ hlength)
      exact hcap.seq (keepsAddr_fillCap off) ((scans_pciCapIterNext off).look hrest)

/-- **The loop goes on** while there are capabilities and all of them are taken. -/
theorem parseLoop_endless (n : ℕ) : ∀ (off : UInt8) (s : SetupState), s.pci = p →
    s.dev.pciDev.addr = a → (∀ o ∈ nodes 0 (pciCapIterNext p a) n off, capOk p a o = true) →
      (nodes 0 (pciCapIterNext p a) n off).length = n → Setup.parseLoop n off s = none := by
  induction n with
  | zero =>
    intro off s _ _ _ _
    rfl
  | succ n ih =>
    intro off s hp ha htaken hlength
    rw [nodes] at htaken hlength
    by_cases hzero : off = 0
    · rw [if_pos hzero] at hlength
      cases hlength
    · rw [if_neg hzero] at htaken hlength
      have hcap := scans_parseCap (p := p) (a := a) off
      rw [capOk_iff.mp (htaken off List.mem_cons_self)] at hcap
      obtain ⟨as, -, hround⟩ := hcap.seq (keepsAddr_fillCap off) (scans_pciCapIterNext off)
      unfold Setup.parseLoop
      rw [if_neg hzero, ← Prog.bind_assoc_apply, Prog.bind_ok (hround s hp ha)]
      refine ih _ _ hp ?_ (fun o ho => htaken o (List.mem_cons_of_mem _ ho)) (Nat.succ.inj hlength)
      exact (keepsAddr_fillCap off s.dev).trans ha

theorem takenCaps_eq (h : AllTaken p a) : takenCaps p a = capabilities p a :=
  List.takeWhile_eq_self_iff.mpr h

/-- The device says that it has a list of capabilities. -/
def HasCapList (p : PciSpace) (a : PciDevAddr) : Prop :=
  pciRead16 p a PCI_STATUS &&& PCI_STATUS_CAP_LIST ≠ 0

theorem scans_parse_noList (h : ¬ HasCapList p a) :
    Scans p a Setup.parseVirtioBlkCaps (.error .ERR_INVALID) id := by
  unfold HasCapList at h
  unfold Setup.parseVirtioBlkCaps
  apply (scans_read16 _).look
  exact scans_check_false (bne_eq_false_iff_eq.mpr (not_not.mp h))

theorem scans_parse_rejected (hlist : HasCapList p a) (h : ¬ AllTaken p a) :
    ∃ e, Scans p a Setup.parseVirtioBlkCaps (.error e) (fillCaps p a (takenCaps p a)) := by
  simp only [AllTaken, not_forall, exists_prop] at h
  obtain ⟨e, hloop⟩ := parseLoop_rejected CAP_STEPS (pciCapIterInit p a) h
  refine ⟨e, ?_⟩
  unfold Setup.parseVirtioBlkCaps
  apply (scans_read16 _).look
  apply scans_check_true (bne_iff_ne.mpr hlist)
  exact scans_pciCapIterInit.look hloop

theorem scans_parse_end (hlist : HasCapList p a) (h : AllTaken p a) (hend : CapsEnd p a) :
    Scans p a Setup.parseVirtioBlkCaps (.ok ()) (fillCaps p a (takenCaps p a)) := by
  rw [takenCaps_eq h]
  unfold Setup.parseVirtioBlkCaps
  apply (scans_read16 _).look
  apply scans_check_true (bne_iff_ne.mpr hlist)
  exact scans_pciCapIterInit.look (parseLoop_end CAP_STEPS _ h (capsEnd_iff.mp hend))

theorem parse_endless (hlist : HasCapList p a) (h : AllTaken p a) (hend : ¬ CapsEnd p a)
    {s : SetupState} (hp : s.pci = p) (ha : s.dev.pciDev.addr = a) :
    Setup.parseVirtioBlkCaps s = none := by
  have hlength : (capabilities p a).length = CAP_STEPS :=
    Nat.le_antisymm (length_nodes_le _ _ _ _) (not_lt.mp fun hlt => hend (capsEnd_iff.mpr hlt))
  obtain ⟨as, -, hstatus⟩ := scans_read16 (p := p) (a := a) PCI_STATUS
  obtain ⟨as', -, hfirst⟩ := scans_pciCapIterInit (p := p) (a := a)
  unfold Setup.parseVirtioBlkCaps
  rw [Prog.bind_ok (hstatus s hp ha), check, Prog.bind_check_true (bne_iff_ne.mpr hlist)]
  refine (Prog.bind_ok (hfirst { s with log := s.log ++ as } hp ha)).trans ?_
  exact parseLoop_endless CAP_STEPS _ _ hp ha h hlength

/-! ## What the capabilities fill in -/

/-- The address of the common configuration, if the capability is for that. -/
def commonAt (p : PciSpace) (a : PciDevAddr) (off : UInt8) : Option UInt64 :=
  match capAt p a off with
  | .ok (.common addr) => some addr
  | _ => none

/-- The offset for notifications, if the capability is for that. -/
def notifyAt (p : PciSpace) (a : PciDevAddr) (off : UInt8) : Option UInt64 :=
  match capAt p a off with
  | .ok (.notify notifyOff _) => some notifyOff
  | _ => none

/-- The common configuration that the last capability for it gives, of those that are taken. -/
def commonCfg (p : PciSpace) (a : PciDevAddr) : Option UInt64 :=
  (takenCaps p a).reverse.findSome? (commonAt p a)

/-- The offset for notifications, likewise. -/
def notifyOff (p : PciSpace) (a : PciDevAddr) : Option UInt64 :=
  (takenCaps p a).reverse.findSome? (notifyAt p a)

theorem fillCaps_append (offs : List UInt8) (off : UInt8) (dev : BlkStruct) :
    fillCaps p a (offs ++ [off]) dev = fillCap p a off (fillCaps p a offs dev) :=
  List.foldl_append

theorem fillCap_fields (off : UInt8) (dev : BlkStruct) :
    (fillCap p a off dev).commonCfg = (commonAt p a off).getD dev.commonCfg ∧
      (fillCap p a off dev).notifyOff = (notifyAt p a off).getD dev.notifyOff ∧
      (fillCap p a off dev).queue = dev.queue ∧
      (fillCap p a off dev).pciDev = dev.pciDev := by
  unfold fillCap commonAt notifyAt
  cases capAt p a off with
  | error e => exact ⟨rfl, rfl, rfl, rfl⟩
  | ok cap => cases cap <;> exact ⟨rfl, rfl, rfl, rfl⟩

/-- A field that each capability sets or leaves holds what the last capability that sets it gives. -/
theorem fillCaps_field {β : Type} {field : BlkStruct → β} {f : UInt8 → Option β}
    (h : ∀ off dev, field (fillCap p a off dev) = (f off).getD (field dev)) (offs : List UInt8)
    (dev : BlkStruct) :
    field (fillCaps p a offs dev) = (offs.reverse.findSome? f).getD (field dev) := by
  induction offs using List.reverseRecOn with
  | nil => rfl
  | append_singleton offs off ih =>
    rw [fillCaps_append, h, ih, List.reverse_append, List.reverse_singleton, List.singleton_append,
      List.findSome?_cons]
    cases f off <;> rfl

theorem fillCaps_fields (offs : List UInt8) (dev : BlkStruct) :
    (fillCaps p a offs dev).commonCfg =
        (offs.reverse.findSome? (commonAt p a)).getD dev.commonCfg ∧
      (fillCaps p a offs dev).notifyOff =
        (offs.reverse.findSome? (notifyAt p a)).getD dev.notifyOff ∧
      (fillCaps p a offs dev).queue = dev.queue ∧
      (fillCaps p a offs dev).pciDev = dev.pciDev := by
  refine ⟨fillCaps_field (fun off dev => (fillCap_fields off dev).1) offs dev,
    fillCaps_field (fun off dev => (fillCap_fields off dev).2.1) offs dev, ?_, ?_⟩
  · induction offs using List.reverseRecOn with
    | nil => rfl
    | append_singleton offs off ih =>
      rw [fillCaps_append, (fillCap_fields off _).2.2.1, ih]
  · induction offs using List.reverseRecOn with
    | nil => rfl
    | append_singleton offs off ih =>
      rw [fillCaps_append, (fillCap_fields off _).2.2.2, ih]

/-- The fields that the capabilities which are taken do not set hold what they held. -/
theorem takenCaps_fields (p : PciSpace) (a : PciDevAddr) (dev : BlkStruct) :
    (fillCaps p a (takenCaps p a) dev).commonCfg = (commonCfg p a).getD dev.commonCfg ∧
      (fillCaps p a (takenCaps p a) dev).notifyOff = (notifyOff p a).getD dev.notifyOff ∧
      (fillCaps p a (takenCaps p a) dev).queue = dev.queue ∧
      (fillCaps p a (takenCaps p a) dev).pciDev = dev.pciDev :=
  fillCaps_fields (takenCaps p a) dev

end Caps

/-! ## Finding the device -/

section Find

variable {core : CoreHeader} {p : PciSpace} {a : PciDevAddr}

/-- The struct once the device has been identified. -/
def identified (p : PciSpace) (a : PciDevAddr) (dev : BlkStruct) : BlkStruct :=
  { dev with pciDev := ⟨a, pciRead16 p a PCI_VENDOR_ID, pciRead16 p a PCI_DEVICE_ID,
      pciRead8 p a PCI_HEADER_TYPE &&& PCI_HEADER_TYPE_MASK⟩ }

theorem scans_initPciDev : Scans p a Setup.initPciDev ((initPciDev p a).map fun _ => ())
    fun dev => { dev with pciDev := { dev.pciDev with
      vendorId := pciRead16 p a PCI_VENDOR_ID
      deviceId := pciRead16 p a PCI_DEVICE_ID
      headerType := pciRead8 p a PCI_HEADER_TYPE &&& PCI_HEADER_TYPE_MASK } } := by
  unfold Setup.initPciDev initPciDev
  have hcheck := scans_check (p := p) (a := a)
    (pciRead8 p a PCI_HEADER_TYPE &&& PCI_HEADER_TYPE_MASK == PCI_HEADER_TYPE_NORMAL ||
      pciRead8 p a PCI_HEADER_TYPE &&& PCI_HEADER_TYPE_MASK == PCI_HEADER_TYPE_BRIDGE ||
        pciRead8 p a PCI_HEADER_TYPE &&& PCI_HEADER_TYPE_MASK == PCI_HEADER_TYPE_CARDBUS)
  apply (scans_read16 _).look
  refine Scans.update (fun _ => rfl) ((scans_read16 _).look (Scans.update (fun _ => rfl)
    ((scans_read8 _).look (Scans.update (fun _ => rfl) (?_ : Scans p a _ _ id) rfl)) rfl)) rfl
  dsimp only
  simp only [Bool.or_eq_true, beq_iff_eq, or_assoc] at hcheck
  split_ifs at hcheck ⊢
  · exact hcheck
  · exact hcheck

/-- The device of the core header is a virtio block device with a normal header. -/
def Identified (core : CoreHeader) (p : PciSpace) : Prop :=
  initPciDev p core.diskAddr = .ok ⟨core.diskAddr, VIRTIO_BLK_VENDOR_ID, VIRTIO_BLK_DEVICE_ID,
    PCI_HEADER_TYPE_NORMAL⟩

/-- The configuration space once the base address registers have been written back. -/
def restoredSpace (core : CoreHeader) (p : PciSpace) : PciSpace :=
  (List.range PCI_BASE_ADDRESS_NUM).foldl (fun p i =>
    pciWrite32 core.diskAddr (PCI_BASE_ADDRESS_0 + 4 * i) (core.diskPci.bars i) p) p

theorem restoreBars_run (core : CoreHeader) (a : PciDevAddr) : ∀ (is : List ℕ) (p : PciSpace),
    ∃ accesses : List Access, (∀ e ∈ accesses, e.isMemory = false) ∧
      ∀ s : SetupState, s.pci = p → s.dev.pciDev.addr = a →
        Prog.forEach (fun i => Setup.pciWrite32 (PCI_BASE_ADDRESS_0 + 4 * i) (core.diskPci.bars i))
          is s = some (.ok (), { s with
            pci := is.foldl (fun p i =>
              pciWrite32 a (PCI_BASE_ADDRESS_0 + 4 * i) (core.diskPci.bars i) p) p
            log := s.log ++ accesses }) := by
  intro is
  induction is with
  | nil =>
    intro p
    refine ⟨[], nofun, fun s hp _ => ?_⟩
    subst hp
    rw [List.append_nil]
    rfl
  | cons i is ih =>
    intro p
    obtain ⟨as, hquiet, hrest⟩ :=
      ih (pciWrite32 a (PCI_BASE_ADDRESS_0 + 4 * i) (core.diskPci.bars i) p)
    refine ⟨.pciWrite 4 a (PCI_BASE_ADDRESS_0 + 4 * i) (core.diskPci.bars i) :: as, ?_,
      fun s hp ha => ?_⟩
    · exact List.forall_mem_cons.mpr ⟨rfl, hquiet⟩
    · subst hp ha
      rw [Prog.forEach_cons, Setup.pciWrite32, Prog.bind_modify_apply]
      refine (hrest { s with
        pci := pciWrite32 s.dev.pciDev.addr (PCI_BASE_ADDRESS_0 + 4 * i) (core.diskPci.bars i) s.pci
        log := s.log ++ [.pciWrite 4 s.dev.pciDev.addr (PCI_BASE_ADDRESS_0 + 4 * i)
          (core.diskPci.bars i)] } rfl rfl).trans ?_
      simp only [List.append_assoc, List.singleton_append, List.foldl_cons]

theorem identify_run (p : PciSpace) (a : PciDevAddr) :
    ∃ accesses : List Access, (∀ e ∈ accesses, e.isMemory = false) ∧
      ∀ s : SetupState, s.pci = p →
        (Setup.setDev (fun dev => { dev with pciDev := { dev.pciDev with addr := a } }) >>=
          fun _ => Setup.initPciDev) s = some ((initPciDev p a).map fun _ => (),
            { s with dev := identified p a s.dev, log := s.log ++ accesses }) := by
  obtain ⟨as, hquiet, hrun⟩ := scans_initPciDev (p := p) (a := a)
  refine ⟨as, hquiet, fun s hp => ?_⟩
  rw [Setup.setDev, Prog.bind_modify_apply]
  exact hrun _ hp rfl

theorem initPciDev_eq_ok {dev : PciDev} (h : initPciDev p a = .ok dev) :
    dev = ⟨a, pciRead16 p a PCI_VENDOR_ID, pciRead16 p a PCI_DEVICE_ID,
      pciRead8 p a PCI_HEADER_TYPE &&& PCI_HEADER_TYPE_MASK⟩ := by
  simp only [initPciDev] at h
  split_ifs at h
  exact (Except.ok.inj h).symm

/-- **The device is found**: its registers are restored, and its identity is known. -/
theorem findVirtioBlkDev_ok (h : Identified core p) :
    ∃ accesses : List Access, (∀ e ∈ accesses, e.isMemory = false) ∧
      ∀ s : SetupState, s.pci = p → Setup.findVirtioBlkDev core s = some (.ok (), { s with
        dev := identified p core.diskAddr s.dev
        pci := restoredSpace core p
        log := s.log ++ accesses }) := by
  obtain ⟨as, hquiet, hinit⟩ := identify_run p core.diskAddr
  obtain ⟨as', hquiet', hbars⟩ :=
    restoreBars_run core core.diskAddr (List.range PCI_BASE_ADDRESS_NUM) p
  have hdev := initPciDev_eq_ok h
  rw [PciDev.mk.injEq] at hdev
  refine ⟨as ++ as', fun e he => ?_, fun s hp => ?_⟩
  · rcases List.mem_append.mp he with he | he
    · exact hquiet e he
    · exact hquiet' e he
  · have hids : ((identified p core.diskAddr s.dev).pciDev.vendorId == VIRTIO_BLK_VENDOR_ID &&
        (identified p core.diskAddr s.dev).pciDev.deviceId == VIRTIO_BLK_DEVICE_ID) = true := by
      simp [identified, ← hdev.2.1, ← hdev.2.2.1]
    have hheader : ((identified p core.diskAddr s.dev).pciDev.headerType ==
        PCI_HEADER_TYPE_NORMAL) = true := by
      simp [identified, ← hdev.2.2.2]
    have hrun := hinit s hp
    rw [h] at hrun
    rw [Setup.findVirtioBlkDev, ← Prog.bind_assoc_apply, Prog.bind_ok hrun, Prog.bind_get_apply,
      check, Prog.bind_check_true hids,
      Prog.bind_ok (hbars { s with dev := identified p core.diskAddr s.dev, log := s.log ++ as } hp rfl),
      check, Prog.check_ok hheader, List.append_assoc]
    rfl

/-- **The device is not found**: an error, before the struct is filled in any further. -/
theorem findVirtioBlkDev_error (h : ¬ Identified core p) :
    ∃ e p', ∃ accesses : List Access, (∀ e ∈ accesses, e.isMemory = false) ∧
      ∀ s : SetupState, s.pci = p → Setup.findVirtioBlkDev core s = some (.error e, { s with
        dev := identified p core.diskAddr s.dev
        pci := p'
        log := s.log ++ accesses }) := by
  obtain ⟨as, hquiet, hinit⟩ := identify_run p core.diskAddr
  cases hdev : initPciDev p core.diskAddr with
  | error e =>
    rw [hdev] at hinit
    refine ⟨e, p, as, hquiet, fun s hp => ?_⟩
    rw [Setup.findVirtioBlkDev, ← Prog.bind_assoc_apply, Prog.bind_error (hinit s hp)]
    subst hp
    rfl
  | ok dev =>
    obtain rfl := initPciDev_eq_ok hdev
    rw [hdev] at hinit
    by_cases hids : (pciRead16 p core.diskAddr PCI_VENDOR_ID == VIRTIO_BLK_VENDOR_ID &&
        pciRead16 p core.diskAddr PCI_DEVICE_ID == VIRTIO_BLK_DEVICE_ID) = true
    · obtain ⟨as', hquiet', hbars⟩ :=
        restoreBars_run core core.diskAddr (List.range PCI_BASE_ADDRESS_NUM) p
      have hheader : (pciRead8 p core.diskAddr PCI_HEADER_TYPE &&& PCI_HEADER_TYPE_MASK ==
          PCI_HEADER_TYPE_NORMAL) = false := by
        rw [beq_eq_false_iff_ne]
        intro hnormal
        rw [Bool.and_eq_true, beq_iff_eq, beq_iff_eq] at hids
        exact h (by rw [Identified, hdev, hids.1, hids.2, hnormal])
      refine ⟨.ERR_INVALID, restoredSpace core p, as ++ as', fun e he => ?_, fun s hp => ?_⟩
      · rcases List.mem_append.mp he with he | he
        · exact hquiet e he
        · exact hquiet' e he
      · rw [Setup.findVirtioBlkDev, ← Prog.bind_assoc_apply, Prog.bind_ok (hinit s hp),
          Prog.bind_get_apply, check]
        refine (Prog.bind_check_true hids _ _ _).trans ?_
        rw [Prog.bind_ok (hbars
          { s with dev := identified p core.diskAddr s.dev, log := s.log ++ as } hp rfl), check]
        refine (Prog.check_error hheader).trans ?_
        rw [List.append_assoc]
        rfl
    · refine ⟨.ERR_INVALID, p, as, hquiet, fun s hp => ?_⟩
      rw [Setup.findVirtioBlkDev, ← Prog.bind_assoc_apply, Prog.bind_ok (hinit s hp),
        Prog.bind_get_apply, check]
      refine (Prog.bind_check_false (Bool.eq_false_iff.mpr hids) _ _ _).trans ?_
      subst hp
      rfl

end Find

end SwitchOs.Virtio
