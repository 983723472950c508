import SwitchOs.Lib.Cells
import SwitchOs.Core.Header
import Mathlib.Data.List.GetD

/-!
# The virtual address map event

An OS gives the runtime services virtual addresses with `SetVirtualAddressMap`. The pointers in the header
of the `SetVariable` hook are physical ones until then; the third hook
(`uefi/services/hooks/virtual_address_map_event/`) converts them, and its own pointers to them, one after
the other and up to the first that cannot be converted (`virtualAddressMapEvent_spec`).
-/

namespace SwitchOs

/-! ## The event -/

/-- The length of `ptrs_to_fix`. -/
def PTRS_TO_FIX : ℕ := 32

/-- `sizeof(struct virtual_address_map_event_header)`. -/
def EVENT_HEADER_SIZE : ℕ := 264

/-- `&g_hook_header.ptrs_to_fix[i]`. -/
def ptrToFix (header i : ℕ) : ℕ := header + 8 + 8 * i

/-- `convert_pointer(0, address)`, with the check behind it. The service is given as what it makes of a
pointer, if it succeeds. -/
def convertPointer (convert : UInt64 → Option UInt64) (address : ℕ) :
    Prog Err (ℕ → UInt8) Unit := do
  let mem ← Prog.get
  match convert (get64 mem address) with
  | some v => Prog.modify fun mem => put64 mem address v
  | none => Prog.throw .ERR_INVALID

/-- The loop of the event, for `n` pointers from index `i` on. -/
def fixPointers (convert : UInt64 → Option UInt64) (header : ℕ) :
    ℕ → ℕ → Prog Err (ℕ → UInt8) Unit
  | 0, _ => pure ()
  | n + 1, i => do
    let mem ← Prog.get
    if get64 mem (ptrToFix header i) = 0 then pure ()
    else do
      convertPointer convert (get64 mem (ptrToFix header i)).toNat
      convertPointer convert (ptrToFix header i)
      fixPointers convert header n (i + 1)

/-- `_start` of the event: `convert_pointer` is the first field of its header. -/
def virtualAddressMapEvent (convert : UInt64 → Option UInt64) (header : ℕ) :
    Prog Err (ℕ → UInt8) Unit := do
  fixPointers convert header PTRS_TO_FIX 0
  convertPointer convert header

/-! ## What `create_virtual_address_map_event` writes -/

/-- The header of the event: `convert_pointer`, and the pointers with zeros behind them. -/
def writeEventHeader (header : ℕ) (service : UInt64) (ptrs : List UInt64) (mem : ℕ → UInt8) :
    ℕ → UInt8 :=
  (List.range PTRS_TO_FIX).foldl (fun mem i => put64 mem (ptrToFix header i) (ptrs.getD i 0))
    (put64 mem header service)

/-- The fields of the `SetVariable` hook's header: `original_set_variable`, `waking_vector_addr`,
`original_waking_vector_addr` and `core_header`. -/
def setVariablePtrs (hook : UInt64) : List UInt64 := [hook, hook + 8, hook + 16, hook + 24]

/-! ## One pointer after the other -/

section Event

variable {convert : UInt64 → Option UInt64} {header : ℕ} {ptrs : List UInt64} {mem : ℕ → UInt8}

/-- The address of the field that pointer `i` points to. -/
def target (ptrs : List UInt64) (i : ℕ) : ℕ := (ptrs.getD i 0).toNat

/-- The pointers are no null pointers, and point to fields that overlap neither each other nor the
header of the event. -/
structure FixLayout (header : ℕ) (ptrs : List UInt64) : Prop where
  few : ptrs.length ≤ PTRS_TO_FIX
  nonzero : ∀ i < ptrs.length, ptrs.getD i 0 ≠ 0
  apart : ∀ i < ptrs.length, ∀ j < ptrs.length, i ≠ j →
    target ptrs i + 8 ≤ target ptrs j ∨ target ptrs j + 8 ≤ target ptrs i
  outside : ∀ i < ptrs.length,
    target ptrs i + 8 ≤ header ∨ header + EVENT_HEADER_SIZE ≤ target ptrs i

/-- Field `i` and the pointer to it can both be converted. -/
def Convertible (convert : UInt64 → Option UInt64) (ptrs : List UInt64) (mem : ℕ → UInt8) (i : ℕ) :
    Prop :=
  convert (get64 mem (target ptrs i)) ≠ none ∧ convert (ptrs.getD i 0) ≠ none

/-- What the loop leaves from index `i` on: it has come through if everything can be converted; a field
is converted if everything before it can be, and it can itself; and nothing else is written but the
pointers. -/
structure FixedFrom (convert : UInt64 → Option UInt64) (header : ℕ) (ptrs : List UInt64) (i : ℕ)
    (mem : ℕ → UInt8) (r : Except Err Unit) (mem' : ℕ → UInt8) : Prop where
  ok : r = .ok () ↔ ∀ j, i ≤ j → j < ptrs.length → Convertible convert ptrs mem j
  converted : ∀ j, i ≤ j → j < ptrs.length → (∀ k, i ≤ k → k < j → Convertible convert ptrs mem k) →
    ∀ v, convert (get64 mem (target ptrs j)) = some v → get64 mem' (target ptrs j) = v
  physical : ∀ j, i ≤ j → j < ptrs.length → ((¬ ∀ k, i ≤ k → k < j → Convertible convert ptrs mem k) ∨
    convert (get64 mem (target ptrs j)) = none) → get64 mem' (target ptrs j) = get64 mem (target ptrs j)
  outside : ∀ x, (∀ j, i ≤ j → j < ptrs.length → x < target ptrs j ∨ target ptrs j + 8 ≤ x) →
    (x < ptrToFix header i ∨ header + EVENT_HEADER_SIZE ≤ x) → mem' x = mem x

theorem convertPointer_some {address : ℕ} {v : UInt64} (h : convert (get64 mem address) = some v) :
    convertPointer convert address mem = some (.ok (), put64 mem address v) := by
  rw [convertPointer, Prog.bind_get_apply, h]
  rfl

theorem convertPointer_none {address : ℕ} (h : convert (get64 mem address) = none) :
    convertPointer convert address mem = some (.error .ERR_INVALID, mem) := by
  rw [convertPointer, Prog.bind_get_apply, h]
  rfl

/-- Nothing is left to fix. -/
theorem FixedFrom.nil {i : ℕ} (h : ptrs.length ≤ i) : FixedFrom convert header ptrs i mem (.ok ()) mem :=
  ⟨iff_of_true rfl fun j hij hj => by omega, fun j hij hj => by omega, fun j hij hj => by omega,
    fun _ _ _ => rfl⟩

/-- The field cannot be converted. -/
theorem FixedFrom.field {i : ℕ} (hi : i < ptrs.length) (h : convert (get64 mem (target ptrs i)) = none) :
    FixedFrom convert header ptrs i mem (.error .ERR_INVALID) mem := by
  have hnot : ¬ Convertible convert ptrs mem i := fun hconv => hconv.1 h
  refine ⟨iff_of_false nofun fun hall => hnot (hall i le_rfl hi), fun j hij hj hall v hv => ?_,
    fun _ _ _ _ => rfl, fun _ _ _ => rfl⟩
  rcases Nat.lt_or_eq_of_le hij with hlt | rfl
  · exact absurd (hall i le_rfl hlt) hnot
  · rw [h] at hv
    cases hv

/-- The field is converted, and the pointer to it cannot be. -/
theorem FixedFrom.pointer (hl : FixLayout header ptrs) {i : ℕ} (hi : i < ptrs.length) {v : UInt64}
    (hv : convert (get64 mem (target ptrs i)) = some v) (h : convert (ptrs.getD i 0) = none) :
    FixedFrom convert header ptrs i mem (.error .ERR_INVALID) (put64 mem (target ptrs i) v) := by
  have hnot : ¬ Convertible convert ptrs mem i := fun hconv => hconv.2 h
  refine ⟨iff_of_false nofun fun hall => hnot (hall i le_rfl hi), fun j hij hj hall w hw => ?_,
    fun j hij hj hleft => ?_, fun x hx _ => put64_outside (hx i le_rfl hi)⟩
  · rcases Nat.lt_or_eq_of_le hij with hlt | rfl
    · exact absurd (hall i le_rfl hlt) hnot
    · rw [get64_put64, ← Option.some.inj (hv.symm.trans hw)]
  · rcases Nat.lt_or_eq_of_le hij with hlt | rfl
    · exact get64_put64_outside (by have := hl.apart i hi j hj (by omega); omega)
    · rcases hleft with hbefore | hnone
      · exact absurd (fun k hk hk' => by omega) hbefore
      · rw [hv] at hnone
        cases hnone

/-- Both are converted, and the loop goes on. -/
theorem FixedFrom.cons (hl : FixLayout header ptrs) {i : ℕ} (hi : i < ptrs.length) {v w : UInt64}
    (hv : convert (get64 mem (target ptrs i)) = some v) (hw : convert (ptrs.getD i 0) = some w)
    {r : Except Err Unit} {mem' : ℕ → UInt8}
    (h : FixedFrom convert header ptrs (i + 1)
      (put64 (put64 mem (target ptrs i) v) (ptrToFix header i) w) r mem') :
    FixedFrom convert header ptrs i mem r mem' := by
  have hfew := hl.few
  have hnext : ∀ j, i + 1 ≤ j → j < ptrs.length →
      get64 (put64 (put64 mem (target ptrs i) v) (ptrToFix header i) w) (target ptrs j) =
        get64 mem (target ptrs j) := by
    intro j hij hj
    have hout := hl.outside j hj
    simp only [PTRS_TO_FIX, EVENT_HEADER_SIZE] at hfew hout
    rw [get64_put64_outside (by rw [ptrToFix]; omega),
      get64_put64_outside (by have := hl.apart i hi j hj (by omega); omega)]
  have hself : Convertible convert ptrs mem i := ⟨by rw [hv]; nofun, by rw [hw]; nofun⟩
  have hconv : ∀ j, i + 1 ≤ j → j < ptrs.length → (Convertible convert ptrs
      (put64 (put64 mem (target ptrs i) v) (ptrToFix header i) w) j ↔
        Convertible convert ptrs mem j) := by
    intro j hij hj
    rw [Convertible, hnext j hij hj, Convertible]
  have hbelow : ∀ j, i + 1 ≤ j → j < ptrs.length → ((∀ k, i + 1 ≤ k → k < j → Convertible convert ptrs
      (put64 (put64 mem (target ptrs i) v) (ptrToFix header i) w) k) ↔
        ∀ k, i ≤ k → k < j → Convertible convert ptrs mem k) := by
    intro j hij hj
    constructor
    · intro hall k hik hkj
      rcases Nat.lt_or_eq_of_le hik with hlt | rfl
      · exact (hconv k hlt (by omega)).mp (hall k hlt hkj)
      · exact hself
    · intro hall k hik hkj
      exact (hconv k hik (by omega)).mpr (hall k (by omega) hkj)
  have hout := hl.outside i hi
  simp only [PTRS_TO_FIX, EVENT_HEADER_SIZE] at hfew hout
  -- the field itself is not written to again
  have hfield : get64 mem' (target ptrs i) = v := by
    rw [← get64_put64 mem (target ptrs i) v]
    refine get64_congr fun k hk => ?_
    rw [h.outside _ (fun j hij hj => by have := hl.apart i hi j hj (by omega); omega)
        (by rw [ptrToFix, EVENT_HEADER_SIZE]; omega),
      put64_outside (by rw [ptrToFix]; omega)]
  refine ⟨?_, fun j hij hj hall u hu => ?_, fun j hij hj hleft => ?_, fun x hx hx' => ?_⟩
  · rw [h.ok]
    constructor
    · intro hall j hij hj
      rcases Nat.lt_or_eq_of_le hij with hlt | rfl
      · exact (hconv j hlt hj).mp (hall j hlt hj)
      · exact hself
    · exact fun hall j hij hj => (hconv j hij hj).mpr (hall j (by omega) hj)
  · rcases Nat.lt_or_eq_of_le hij with hlt | rfl
    · exact h.converted j hlt hj ((hbelow j hlt hj).mpr hall) u (by rw [hnext j hlt hj, hu])
    · rw [hfield, ← Option.some.inj (hv.symm.trans hu)]
  · rcases Nat.lt_or_eq_of_le hij with hlt | rfl
    · rw [h.physical j hlt hj (by rwa [hbelow j hlt hj, hnext j hlt hj]), hnext j hlt hj]
    · rcases hleft with hbefore | hnone
      · exact absurd (fun k hk hk' => by omega) hbefore
      · rw [hv] at hnone
        cases hnone
  · simp only [ptrToFix, EVENT_HEADER_SIZE] at hx'
    rw [h.outside x (fun j hij hj => hx j (by omega) hj)
        (by rw [ptrToFix, EVENT_HEADER_SIZE]; omega),
      put64_outside (by rw [ptrToFix]; omega), put64_outside (hx i le_rfl hi)]

/-- **The loop of the event.** -/
theorem fixPointers_spec (hl : FixLayout header ptrs) : ∀ (n i : ℕ) (mem : ℕ → UInt8),
    i + n = PTRS_TO_FIX → i ≤ ptrs.length →
    (∀ j, i ≤ j → j < PTRS_TO_FIX → get64 mem (ptrToFix header j) = ptrs.getD j 0) →
    ∃ r mem', fixPointers convert header n i mem = some (r, mem') ∧
      FixedFrom convert header ptrs i mem r mem' := by
  intro n
  induction n with
  | zero =>
    intro i mem hn _ _
    have hfew := hl.few
    exact ⟨_, mem, rfl, .nil (by omega)⟩
  | succ n ih =>
    intro i mem hn hi hslots
    have hslot := hslots i le_rfl (by omega)
    rw [fixPointers, Prog.bind_get_apply, hslot]
    rcases Nat.lt_or_eq_of_le hi with hlt | hlast
    · rw [if_neg (hl.nonzero i hlt), show (ptrs.getD i 0).toNat = target ptrs i from rfl]
      have hout := hl.outside i hlt
      have hfew := hl.few
      simp only [PTRS_TO_FIX, EVENT_HEADER_SIZE] at hfew hout hn
      cases hv : convert (get64 mem (target ptrs i)) with
      | none =>
        exact ⟨_, mem, Prog.bind_error (convertPointer_none hv), .field hlt hv⟩
      | some v =>
        rw [Prog.bind_ok (convertPointer_some hv)]
        have hslot' : get64 (put64 mem (target ptrs i) v) (ptrToFix header i) = ptrs.getD i 0 := by
          rw [get64_put64_outside (by rw [ptrToFix]; omega), hslot]
        cases hw : convert (ptrs.getD i 0) with
        | none =>
          exact ⟨_, _, Prog.bind_error (convertPointer_none (by rw [hslot']; exact hw)),
            .pointer hl hlt hv hw⟩
        | some w =>
          have hconverted : convert (get64 (put64 mem (target ptrs i) v) (ptrToFix header i)) =
              some w := by rw [hslot', hw]
          rw [Prog.bind_ok (convertPointer_some hconverted)]
          obtain ⟨r, mem', hrun, hfixed⟩ := ih (i + 1)
            (put64 (put64 mem (target ptrs i) v) (ptrToFix header i) w) (by rw [PTRS_TO_FIX]; omega)
            hlt (fun j hij hj => by
              rw [get64_put64_outside (by rw [ptrToFix, ptrToFix]; omega),
                get64_put64_outside (by simp only [PTRS_TO_FIX] at hj; rw [ptrToFix]; omega),
                hslots j (by omega) hj])
          exact ⟨r, mem', hrun, .cons hl hlt hv hw hfixed⟩
    · have hnull : ptrs.getD i 0 = 0 := List.getD_eq_default _ _ (by omega)
      rw [if_pos hnull]
      exact ⟨_, mem, rfl, .nil (by omega)⟩

/-! ## The whole event -/

theorem writeEventHeader_outside (header : ℕ) (service : UInt64) (ptrs : List UInt64)
    (mem : ℕ → UInt8) {x : ℕ} (h : x < header ∨ header + EVENT_HEADER_SIZE ≤ x) :
    writeEventHeader header service ptrs mem x = mem x := by
  have hloop : ∀ (n : ℕ) (mem : ℕ → UInt8), n ≤ PTRS_TO_FIX → (List.range n).foldl
      (fun mem i => put64 mem (ptrToFix header i) (ptrs.getD i 0)) mem x = mem x := by
    intro n
    induction n with
    | zero => exact fun _ _ => rfl
    | succ n ih =>
      intro mem hn
      simp only [PTRS_TO_FIX, EVENT_HEADER_SIZE] at hn h
      rw [List.range_succ, List.foldl_append, List.foldl_cons, List.foldl_nil,
        put64_outside (by rw [ptrToFix]; omega), ih mem (by rw [PTRS_TO_FIX]; omega)]
  rw [writeEventHeader, hloop _ _ le_rfl, put64_outside (by rw [EVENT_HEADER_SIZE] at h; omega)]

/-- The pointers as they have been written, and `convert_pointer` before them. -/
theorem get64_writeEventHeader (header : ℕ) (service : UInt64) (ptrs : List UInt64)
    (mem : ℕ → UInt8) :
    (∀ j < PTRS_TO_FIX, get64 (writeEventHeader header service ptrs mem) (ptrToFix header j) =
        ptrs.getD j 0) ∧
      get64 (writeEventHeader header service ptrs mem) header = service := by
  have hloop : ∀ (n : ℕ) (mem : ℕ → UInt8),
      (∀ j < n, get64 ((List.range n).foldl
        (fun mem i => put64 mem (ptrToFix header i) (ptrs.getD i 0)) mem) (ptrToFix header j) =
          ptrs.getD j 0) ∧
      get64 ((List.range n).foldl
        (fun mem i => put64 mem (ptrToFix header i) (ptrs.getD i 0)) mem) header = get64 mem header := by
    intro n
    induction n with
    | zero => exact fun _ => ⟨nofun, rfl⟩
    | succ n ih =>
      intro mem
      obtain ⟨hslots, hservice⟩ := ih mem
      rw [List.range_succ, List.foldl_append, List.foldl_cons, List.foldl_nil]
      refine ⟨fun j hj => ?_, ?_⟩
      · rcases Nat.lt_or_eq_of_le (Nat.le_of_lt_succ hj) with hlt | rfl
        · rw [get64_put64_outside (by rw [ptrToFix, ptrToFix]; omega), hslots j hlt]
        · exact get64_put64 _ _ _
      · rw [get64_put64_outside (by rw [ptrToFix]; omega), hservice]
  obtain ⟨hslots, hservice⟩ := hloop PTRS_TO_FIX (put64 mem header service)
  exact ⟨hslots, hservice.trans (get64_put64 _ _ _)⟩

instance (convert : UInt64 → Option UInt64) (ptrs : List UInt64) (mem : ℕ → UInt8) (i : ℕ) :
    Decidable (Convertible convert ptrs mem i) :=
  inferInstanceAs (Decidable (convert (get64 mem (target ptrs i)) ≠ none ∧
    convert (ptrs.getD i 0) ≠ none))

/-- **The loop on a header as it is written** for a list of pointers. -/
theorem fixPointers_written (convert : UInt64 → Option UInt64) (service : UInt64) (mem : ℕ → UInt8)
    (hl : FixLayout header ptrs) :
    ∃ r mem', fixPointers convert header PTRS_TO_FIX 0 (writeEventHeader header service ptrs mem) =
        some (r, mem') ∧
      (r = .ok () ↔ ∀ i < ptrs.length, Convertible convert ptrs mem i) ∧
      (∀ i < ptrs.length, get64 mem' (target ptrs i) =
        if ∀ k < i, Convertible convert ptrs mem k then
          (convert (get64 mem (target ptrs i))).getD (get64 mem (target ptrs i))
        else get64 mem (target ptrs i)) ∧
      (∀ x, (∀ i < ptrs.length, x < target ptrs i ∨ target ptrs i + 8 ≤ x) →
        x < header ∨ header + EVENT_HEADER_SIZE ≤ x → mem' x = mem x) ∧
      get64 mem' header = service := by
  obtain ⟨hslots, hservice⟩ := get64_writeEventHeader header service ptrs mem
  obtain ⟨r, mem₁, hrun, hfixed⟩ := @fixPointers_spec convert header ptrs hl PTRS_TO_FIX 0
    (writeEventHeader header service ptrs mem) (Nat.zero_add _) (Nat.zero_le _)
    fun j _ hj => hslots j hj
  have hfield : ∀ i < ptrs.length, get64 (writeEventHeader header service ptrs mem) (target ptrs i) =
      get64 mem (target ptrs i) := fun i hi => get64_congr fun k hk =>
    writeEventHeader_outside _ _ _ _ (by have := hl.outside i hi; omega)
  have hconv : ∀ i < ptrs.length, (Convertible convert ptrs (writeEventHeader header service ptrs mem) i ↔
      Convertible convert ptrs mem i) := fun i hi => by
    rw [Convertible, hfield i hi, Convertible]
  refine ⟨r, mem₁, hrun, ?_, fun i hi => ?_, fun x hx hx' => ?_, ?_⟩
  · rw [hfixed.ok]
    exact ⟨fun h i hi => (hconv i hi).mp (h i (Nat.zero_le _) hi),
      fun h i _ hi => (hconv i hi).mpr (h i hi)⟩
  · split_ifs with hall
    · have hall' : ∀ k, 0 ≤ k → k < i →
          Convertible convert ptrs (writeEventHeader header service ptrs mem) k :=
        fun k _ hk => (hconv k (by omega)).mpr (hall k hk)
      cases hv : convert (get64 mem (target ptrs i)) with
      | some v => exact hfixed.converted i (Nat.zero_le _) hi hall' v (by rw [hfield i hi, hv])
      | none =>
        rw [hfixed.physical i (Nat.zero_le _) hi (Or.inr (by rw [hfield i hi, hv])), hfield i hi]
        rfl
    · have hnot : ¬ ∀ k, 0 ≤ k → k < i →
          Convertible convert ptrs (writeEventHeader header service ptrs mem) k :=
        fun h => hall fun k hk => (hconv k (by omega)).mp (h k (Nat.zero_le _) hk)
      rw [hfixed.physical i (Nat.zero_le _) hi (Or.inl hnot), hfield i hi]
  · rw [hfixed.outside x (fun i _ hi => hx i hi) (by rw [ptrToFix]; omega),
      writeEventHeader_outside _ _ _ _ hx']
  · rw [← hservice]
    refine get64_congr fun k hk => hfixed.outside _ (fun i _ hi => ?_) (by rw [ptrToFix]; omega)
    have hout := hl.outside i hi
    rw [EVENT_HEADER_SIZE] at hout
    omega

/-- The event's own pointer is none of the fields. -/
theorem FixLayout.field_outside (hl : FixLayout header ptrs) {i : ℕ} (hi : i < ptrs.length)
    (v : UInt64) : get64 (put64 mem header v) (target ptrs i) = get64 mem (target ptrs i) := by
  have hout := hl.outside i hi
  rw [EVENT_HEADER_SIZE] at hout
  exact get64_put64_outside (by omega)

/-- The event, where everything can be converted. -/
theorem virtualAddressMapEvent_ok {service : UInt64} (hl : FixLayout header ptrs)
    (hall : ∀ i < ptrs.length, Convertible convert ptrs mem i) (hservice : convert service ≠ none) :
    ∃ mem', virtualAddressMapEvent convert header (writeEventHeader header service ptrs mem) =
        some (.ok (), mem') ∧
      ∀ i < ptrs.length, ∀ v, convert (get64 mem (target ptrs i)) = some v →
        get64 mem' (target ptrs i) = v := by
  obtain ⟨r, mem₁, hrun, hok, hfields, -, hown⟩ := fixPointers_written convert service mem hl
  obtain rfl := hok.mpr hall
  obtain ⟨w, hw⟩ := Option.ne_none_iff_exists'.mp hservice
  refine ⟨put64 mem₁ header w, ?_, fun i hi v hv => ?_⟩
  · rw [virtualAddressMapEvent, Prog.bind_ok hrun]
    exact convertPointer_some (by rw [hown, hw])
  · rw [hl.field_outside hi, hfields i hi, if_pos fun k hk => hall k (by omega), hv]
    rfl

/-- **The event**, with its header as it is written for a list of pointers: it comes through if all the
fields, the pointers to them and its own pointer to the service can be converted; a field is converted
if all before it are and it can be; and nothing but the fields and the event's own header changes. -/
theorem virtualAddressMapEvent_spec (convert : UInt64 → Option UInt64) (service : UInt64)
    (mem : ℕ → UInt8) (hl : FixLayout header ptrs) :
    ∃ r mem', virtualAddressMapEvent convert header (writeEventHeader header service ptrs mem) =
        some (r, mem') ∧
      (r = .ok () ↔ (∀ i < ptrs.length, Convertible convert ptrs mem i) ∧ convert service ≠ none) ∧
      (∀ i < ptrs.length, get64 mem' (target ptrs i) =
        if ∀ k < i, Convertible convert ptrs mem k then
          (convert (get64 mem (target ptrs i))).getD (get64 mem (target ptrs i))
        else get64 mem (target ptrs i)) ∧
      ∀ x, (∀ i < ptrs.length, x < target ptrs i ∨ target ptrs i + 8 ≤ x) →
        x < header ∨ header + EVENT_HEADER_SIZE ≤ x → mem' x = mem x := by
  obtain ⟨r, mem₁, hrun, hok, hfields, hframe, hown⟩ := fixPointers_written convert service mem hl
  rw [virtualAddressMapEvent]
  cases r with
  | error e =>
    refine ⟨.error e, mem₁, Prog.bind_error hrun, iff_of_false (fun h => by cases h) fun h => ?_,
      hfields, hframe⟩
    cases hok.mpr h.1
  | ok u =>
    rw [Prog.bind_ok hrun]
    cases hv : convert service with
    | none =>
      exact ⟨_, mem₁, convertPointer_none (by rw [hown, hv]),
        iff_of_false (fun h => by cases h) fun h => h.2 rfl, hfields, hframe⟩
    | some v =>
      refine ⟨_, _, convertPointer_some (by rw [hown, hv]),
        iff_of_true rfl ⟨hok.mp rfl, Option.some_ne_none v⟩, fun i hi => ?_, fun x hx hx' => ?_⟩
      · rw [hl.field_outside hi, hfields i hi]
      · rw [EVENT_HEADER_SIZE] at hx'
        rw [put64_outside (by omega), hframe x hx (by rw [EVENT_HEADER_SIZE]; omega)]

end Event

/-- A service that converts every pointer but the second to the fields of the hook. -/
def convertBut (p : UInt64) : Option UInt64 := if p = 0xA008 then none else some (p + 0x100)

/-- The second field is converted, and its pointer is not; the third field stays as it is. -/
theorem virtualAddressMapEvent_spec_stopped :
    ∃ r mem', virtualAddressMapEvent convertBut 0xB000
        (writeEventHeader 0xB000 0x9010 (setVariablePtrs 0xA000) fun _ => 1) = some (r, mem') ∧
      r ≠ .ok () ∧ get64 mem' 0xA008 = 0x0101010101010201 ∧
      get64 mem' 0xA010 = 0x0101010101010101 := by
  obtain ⟨r, mem', hrun, hok, hfields, -⟩ := virtualAddressMapEvent_spec convertBut 0x9010
    (fun _ => 1) (⟨by decide, by decide, by decide, by decide⟩ :
      FixLayout 0xB000 (setVariablePtrs 0xA000))
  refine ⟨r, mem', hrun, fun h => ?_, (hfields 1 (by decide)).trans (by decide),
    (hfields 2 (by decide)).trans (by decide)⟩
  exact (hok.mp h).1 1 (by decide) |>.2 (by decide)

end SwitchOs
