import SwitchOs.Lib.LongMode

/-!
# Identity paging

`core/pm/paging.c` fills a top table and the 512 tables behind it, so that every linear address is
the physical one. The code runs in 32-bit protected mode: indices and pointers have 32 bits, entries
64. `setupPml4_identity` is what a walk then finds, and where the stores of the setup go.
-/

namespace SwitchOs

def PT_SIZE : UInt32 := 4096
def PT_ENTRY_SIZE : UInt32 := 8

/-- `PT_SIZE / PT_ENTRY_SIZE`. -/
def PT_ENTRIES_NUM : UInt32 := 512

def PAGE_PRESENT_BIT : UInt32 := (1 : UInt32) <<< 0
def PAGE_RW_BIT : UInt32 := (1 : UInt32) <<< 1
def PAGE_SIZE_BIT : UInt32 := (1 : UInt32) <<< 7

def GB_PAGE_SIZE : UInt64 := 1024 * 1024 * 1024

/-! ## The setup -/

/-- Memory, and the stores of the setup so far. -/
structure Paging where
  mem : ℕ → UInt8
  stores : List Store

/-- The sequence of stores is issued. -/
def Paging.storeAll (s : Paging) (ws : List Store) : Paging :=
  ⟨SwitchOs.storeAll ws s.mem, s.stores ++ ws⟩

/-- `table[i] = value`. -/
def Paging.setEntry (s : Paging) (table : UInt32) (i : UInt32) (value : UInt64) : Paging :=
  s.storeAll [⟨(table + PT_ENTRY_SIZE * i).toNat, value⟩]

/-- `pml4_entry`. -/
def pml4Entry (pdptAddr : UInt32) : UInt64 :=
  (pdptAddr ||| PAGE_PRESENT_BIT ||| PAGE_RW_BIT).toUInt64

/-- `pdpt_entry`. -/
def pdptEntry (pageAddr : UInt64) : UInt64 :=
  pageAddr ||| PAGE_PRESENT_BIT.toUInt64 ||| PAGE_RW_BIT.toUInt64 ||| PAGE_SIZE_BIT.toUInt64

/-- `page_addr` in `setup_pdpt`: the index has 32 bits, the product 64. -/
def pageAddr (pdptIdx i : UInt32) : UInt64 :=
  GB_PAGE_SIZE * (pdptIdx * PT_ENTRIES_NUM + i).toUInt64

/-- `setup_pdpt`. -/
def setupPdpt (pdpt pdptIdx : UInt32) (s : Paging) : Paging :=
  (List.range PT_ENTRIES_NUM.toNat).foldl
    (fun s i => s.setEntry pdpt (UInt32.ofNat i) (pdptEntry (pageAddr pdptIdx (UInt32.ofNat i)))) s

/-- `pdpt_addr` in `setup_pml4`. -/
def pdptAddr (pml4 i : UInt32) : UInt32 := pml4 + PT_SIZE * (i + 1)

/-- `setup_pml4`. -/
def setupPml4 (pml4 : UInt32) (s : Paging) : Paging :=
  (List.range PT_ENTRIES_NUM.toNat).foldl
    (fun s i =>
      let pdpt := pdptAddr pml4 (UInt32.ofNat i)
      (setupPdpt pdpt (UInt32.ofNat i) s).setEntry pml4 (UInt32.ofNat i) (pml4Entry pdpt)) s

/-! ## The stores -/

/-- The stores of `setup_pdpt`. -/
def pdptStores (pdpt pdptIdx : UInt32) : List Store :=
  (List.range PT_ENTRIES_NUM.toNat).map fun i =>
    ⟨(pdpt + PT_ENTRY_SIZE * UInt32.ofNat i).toNat,
      pdptEntry (pageAddr pdptIdx (UInt32.ofNat i))⟩

/-- The stores of one round of `setup_pml4`. -/
def roundStores (pml4 : UInt32) (i : ℕ) : List Store :=
  pdptStores (pdptAddr pml4 (UInt32.ofNat i)) (UInt32.ofNat i) ++
    [⟨(pml4 + PT_ENTRY_SIZE * UInt32.ofNat i).toNat,
      pml4Entry (pdptAddr pml4 (UInt32.ofNat i))⟩]

/-- The stores of `setup_pml4`. -/
def setupStores (pml4 : UInt32) : List Store :=
  (List.range PT_ENTRIES_NUM.toNat).flatMap (roundStores pml4)

theorem storeAll_storeAll (s : Paging) (ws ws' : List Store) :
    (s.storeAll ws).storeAll ws' = s.storeAll (ws ++ ws') := by
  simp only [Paging.storeAll, storeAll_append, List.append_assoc]

/-- A loop of stores is a sequence of stores. -/
theorem foldl_storeAll {ι : Type} (f : ι → List Store) (l : List ι) (s : Paging) :
    l.foldl (fun s i => s.storeAll (f i)) s = s.storeAll (l.flatMap f) := by
  induction l generalizing s with
  | nil => simp [Paging.storeAll, storeAll]
  | cons i l ih => rw [List.foldl_cons, ih, storeAll_storeAll, List.flatMap_cons]

theorem setupPdpt_eq (pdpt pdptIdx : UInt32) (s : Paging) :
    setupPdpt pdpt pdptIdx s = s.storeAll (pdptStores pdpt pdptIdx) := by
  unfold setupPdpt Paging.setEntry
  rw [foldl_storeAll, pdptStores, List.map_eq_flatMap]

theorem setupPml4_eq (pml4 : UInt32) (s : Paging) :
    setupPml4 pml4 s = s.storeAll (setupStores pml4) := by
  unfold setupPml4 Paging.setEntry
  simp only [setupPdpt_eq, storeAll_storeAll]
  rw [setupStores, ← foldl_storeAll]
  rfl

/-! ## Where the stores go -/

section Addresses

variable {pml4 : UInt32} {i j : ℕ}

/-- The region of the tables ends below 4 GiB. -/
def TablesFit (pml4 : UInt32) : Prop := pml4.toNat + 513 * 4096 ≤ 2 ^ 32

theorem toNat_pdptAddr (hfits : TablesFit pml4) (hi : i < 512) :
    (pdptAddr pml4 (UInt32.ofNat i)).toNat = pml4.toNat + 4096 * (i + 1) := by
  unfold TablesFit at hfits
  have hi' : (UInt32.ofNat i).toNat = i :=
    UInt32.toNat_ofNat_of_lt' (show i < 2 ^ 32 by omega)
  have hsize : PT_SIZE.toNat = 4096 := rfl
  have hone : (1 : UInt32).toNat = 1 := rfl
  rw [pdptAddr, UInt32.toNat_add, UInt32.toNat_mul, UInt32.toNat_add, hi', hsize, hone]
  omega

theorem toNat_entryAddr {table : UInt32} (htable : table.toNat + 4096 ≤ 2 ^ 32) (hj : j < 512) :
    (table + PT_ENTRY_SIZE * UInt32.ofNat j).toNat = table.toNat + 8 * j := by
  have hj' : (UInt32.ofNat j).toNat = j :=
    UInt32.toNat_ofNat_of_lt' (show j < 2 ^ 32 by omega)
  have hsize : PT_ENTRY_SIZE.toNat = 8 := rfl
  rw [UInt32.toNat_add, UInt32.toNat_mul, hj', hsize]
  omega

/-- The store of entry `j` of table `i` behind the top table. -/
theorem toNat_secondAddr (hfits : TablesFit pml4) (hi : i < 512) (hj : j < 512) :
    (pdptAddr pml4 (UInt32.ofNat i) + PT_ENTRY_SIZE * UInt32.ofNat j).toNat =
      pml4.toNat + 4096 * (i + 1) + 8 * j := by
  have haddr := toNat_pdptAddr hfits hi
  have hend : (pdptAddr pml4 (UInt32.ofNat i)).toNat + 4096 ≤ 2 ^ 32 := by
    unfold TablesFit at hfits
    omega
  rw [toNat_entryAddr hend hj, haddr]

/-- The store of entry `i` of the top table. -/
theorem toNat_topAddr (hfits : TablesFit pml4) (hi : i < 512) :
    (pml4 + PT_ENTRY_SIZE * UInt32.ofNat i).toNat = pml4.toNat + 8 * i := by
  unfold TablesFit at hfits
  exact toNat_entryAddr (by omega) hi

/-- The stores of a round go to its table, and to its entry of the top table. -/
theorem mem_roundStores (hfits : TablesFit pml4) (hi : i < 512) {w : Store}
    (hw : w ∈ roundStores pml4 i) :
    (∃ j < 512, w.addr = pml4.toNat + 4096 * (i + 1) + 8 * j) ∨ w.addr = pml4.toNat + 8 * i := by
  rcases List.mem_append.mp hw with hw | hw
  · obtain ⟨j, hj, rfl⟩ := List.mem_map.mp hw
    have hj' : j < 512 := List.mem_range.mp hj
    exact Or.inl ⟨j, hj', toNat_secondAddr hfits hi hj'⟩
  · obtain rfl := List.mem_singleton.mp hw
    exact Or.inr (toNat_topAddr hfits hi)

/-- No two stores of a round overlap. -/
theorem pairwise_roundStores (hfits : TablesFit pml4) (hi : i < 512) :
    (roundStores pml4 i).Pairwise Store.Apart := by
  rw [roundStores, List.pairwise_append]
  refine ⟨?_, List.pairwise_singleton _ _, fun w hw w' hw' => ?_⟩
  · rw [pdptStores, List.pairwise_map]
    refine List.pairwise_lt_range.imp_of_mem fun {j k} hj hk hlt => Or.inl ?_
    show (_ + _ : UInt32).toNat + 8 ≤ (_ + _ : UInt32).toNat
    rw [toNat_secondAddr hfits hi (List.mem_range.mp hj),
      toNat_secondAddr hfits hi (List.mem_range.mp hk)]
    omega
  · obtain ⟨j, hj, rfl⟩ := List.mem_map.mp hw
    obtain rfl := List.mem_singleton.mp hw'
    refine Or.inr ?_
    show (_ + _ : UInt32).toNat + 8 ≤ (_ + _ : UInt32).toNat
    rw [toNat_topAddr hfits hi, toNat_secondAddr hfits hi (List.mem_range.mp hj)]
    omega

/-- No two stores of the setup overlap. -/
theorem pairwise_setupStores (hfits : TablesFit pml4) :
    (setupStores pml4).Pairwise Store.Apart := by
  rw [setupStores, List.pairwise_flatMap]
  constructor
  · exact fun i hi => pairwise_roundStores hfits (List.mem_range.mp hi)
  · refine List.pairwise_lt_range.imp_of_mem fun {i k} hi hk hlt w hw w' hw' => ?_
    have hi' : i < 512 := List.mem_range.mp hi
    have hk' : k < 512 := List.mem_range.mp hk
    unfold Store.Apart
    rcases mem_roundStores hfits hi' hw with ⟨j, hj, haddr⟩ | haddr <;>
      rcases mem_roundStores hfits hk' hw' with ⟨j', hj', haddr'⟩ | haddr' <;>
      rw [haddr, haddr'] <;> omega

/-- All stores of the setup go to the 513 tables. -/
theorem setupStores_within (hfits : TablesFit pml4) {w : Store} (hw : w ∈ setupStores pml4) :
    pml4.toNat ≤ w.addr ∧ w.addr + 8 ≤ pml4.toNat + 513 * 4096 := by
  obtain ⟨i, hi, hw⟩ := List.mem_flatMap.mp hw
  have hi' : i < 512 := List.mem_range.mp hi
  rcases mem_roundStores hfits hi' hw with ⟨j, hj, haddr⟩ | haddr <;> rw [haddr] <;> omega

/-- Entry `j` of table `i` is written. -/
theorem get64_second (hfits : TablesFit pml4) (hi : i < 512) (hj : j < 512) (mem : ℕ → UInt8) :
    get64 (storeAll (setupStores pml4) mem) (pml4.toNat + 4096 * (i + 1) + 8 * j) =
      pdptEntry (pageAddr (UInt32.ofNat i) (UInt32.ofNat j)) := by
  rw [← toNat_secondAddr hfits hi hj]
  refine get64_storeAll (w := ⟨_, _⟩) (pairwise_setupStores hfits) ?_ mem
  refine List.mem_flatMap.mpr ⟨i, List.mem_range.mpr hi, List.mem_append_left _ ?_⟩
  exact List.mem_map.mpr ⟨j, List.mem_range.mpr hj, rfl⟩

/-- Entry `i` of the top table is written. -/
theorem get64_top (hfits : TablesFit pml4) (hi : i < 512) (mem : ℕ → UInt8) :
    get64 (storeAll (setupStores pml4) mem) (pml4.toNat + 8 * i) =
      pml4Entry (pdptAddr pml4 (UInt32.ofNat i)) := by
  rw [← toNat_topAddr hfits hi]
  refine get64_storeAll (w := ⟨_, _⟩) (pairwise_setupStores hfits) ?_ mem
  exact List.mem_flatMap.mpr ⟨i, List.mem_range.mpr hi,
    List.mem_append_right _ (List.mem_singleton_self _)⟩

end Addresses

/-! ## The entries -/

open PageEntry

/-- The flags of an entry are the low bits of its number. -/
theorem toNat_pml4Entry {pdpt : UInt32} (haligned : pdpt.toNat % 4096 = 0) :
    (pml4Entry pdpt).toNat = pdpt.toNat + 3 := by
  have hpresent : PAGE_PRESENT_BIT.toNat = 1 := rfl
  have hrw : PAGE_RW_BIT.toNat = 2 := rfl
  have hpdpt : pdpt.toNat = 2 ^ 12 * (pdpt.toNat / 4096) := by omega
  rw [pml4Entry, UInt32.toNat_toUInt64, UInt32.toNat_or, UInt32.toNat_or, hpresent, hrw,
    Nat.or_assoc, show 1 ||| 2 = 3 from rfl, hpdpt, ← Nat.two_pow_add_eq_or_of_lt (by decide)]

theorem toNat_pdptEntry {page : UInt64} (haligned : page.toNat % 2 ^ 30 = 0) :
    (pdptEntry page).toNat = page.toNat + 131 := by
  have hpresent : PAGE_PRESENT_BIT.toUInt64.toNat = 1 := rfl
  have hrw : PAGE_RW_BIT.toUInt64.toNat = 2 := rfl
  have hsize : PAGE_SIZE_BIT.toUInt64.toNat = 128 := rfl
  have hpage : page.toNat = 2 ^ 30 * (page.toNat / 2 ^ 30) := by omega
  rw [pdptEntry, UInt64.toNat_or, UInt64.toNat_or, UInt64.toNat_or, hpresent, hrw, hsize,
    Nat.or_assoc, Nat.or_assoc, show 1 ||| (2 ||| 128) = 131 from rfl, hpage,
    ← Nat.two_pow_add_eq_or_of_lt (by decide)]

/-- An entry of the top table leads on to its table. -/
theorem leadsOn_pml4Entry {pdpt : UInt32} (haligned : pdpt.toNat % 4096 = 0) :
    LeadsOn (pml4Entry pdpt) ∧ table (pml4Entry pdpt) = pdpt.toNat := by
  have hnum := toNat_pml4Entry haligned
  have hlt := pdpt.toNat_lt
  unfold LeadsOn Present Writable Large table
  simp only [Nat.testBit_eq_decide_div_mod_eq, decide_eq_true_eq, hnum]
  omega

/-- An entry of a table below it maps its page. -/
theorem maps1G_pdptEntry {page : UInt64} (haligned : page.toNat % 2 ^ 30 = 0)
    (hlt : page.toNat < 2 ^ 52) :
    Maps1G (pdptEntry page) ∧ page1G (pdptEntry page) = page.toNat := by
  have hnum := toNat_pdptEntry haligned
  unfold Maps1G Present Writable Large Reserved1G page1G
  simp only [Nat.testBit_eq_decide_div_mod_eq, decide_eq_true_eq, hnum]
  omega

/-- The page of entry `j` of table `i`. -/
theorem toNat_pageAddr {i j : ℕ} (hi : i < 512) (hj : j < 512) :
    (pageAddr (UInt32.ofNat i) (UInt32.ofNat j)).toNat = 2 ^ 30 * (512 * i + j) := by
  have hi' : (UInt32.ofNat i).toNat = i := UInt32.toNat_ofNat_of_lt' (show i < 2 ^ 32 by omega)
  have hj' : (UInt32.ofNat j).toNat = j := UInt32.toNat_ofNat_of_lt' (show j < 2 ^ 32 by omega)
  have hnum : PT_ENTRIES_NUM.toNat = 512 := rfl
  have hgb : GB_PAGE_SIZE.toNat = 2 ^ 30 := rfl
  rw [pageAddr, UInt64.toNat_mul, UInt32.toNat_toUInt64, UInt32.toNat_add, UInt32.toNat_mul, hi',
    hj', hnum, hgb]
  omega

/-! ## The walk -/

/-- After the stores of the setup, an address is walked through the entries that were written. -/
theorem walk_setupStores {pml4 : UInt32} {lin : ℕ} (haligned : pml4.toNat % 4096 = 0)
    (hfits : TablesFit pml4) (mem : ℕ → UInt8) (hlin : lin < 2 ^ 48) :
    walk (storeAll (setupStores pml4) mem) pml4.toNat lin = some lin := by
  have hi : lin / 2 ^ 39 < 512 := by omega
  have hj : lin / 2 ^ 30 % 512 < 512 := Nat.mod_lt _ (by decide)
  have haddr := toNat_pdptAddr hfits hi
  have hpdpt : (pdptAddr pml4 (UInt32.ofNat (lin / 2 ^ 39))).toNat % 4096 = 0 := by omega
  have hpage := toNat_pageAddr hi hj
  obtain ⟨hleads, htable⟩ := leadsOn_pml4Entry hpdpt
  have hpageAligned : (pageAddr (UInt32.ofNat (lin / 2 ^ 39))
      (UInt32.ofNat (lin / 2 ^ 30 % 512))).toNat % 2 ^ 30 = 0 := by omega
  obtain ⟨hmaps, hpage1G⟩ := maps1G_pdptEntry hpageAligned (by omega)
  have htop : topEntry (storeAll (setupStores pml4) mem) pml4.toNat lin =
      pml4Entry (pdptAddr pml4 (UInt32.ofNat (lin / 2 ^ 39))) := by
    rw [topEntry, Nat.mod_eq_of_lt hi]
    exact get64_top hfits hi mem
  have hsecond := get64_second hfits hi hj mem
  rw [← haddr, ← htable] at hsecond
  rw [walk_eq htop hsecond hleads hmaps, hpage1G, hpage]
  refine congrArg some ?_
  omega

/-- Every linear address of 48 bits is walked to itself; all stores of the setup go to the 513 tables,
and no two of them overlap. -/
structure IdentityPaged (pml4 : UInt32) (mem : ℕ → UInt8) (s : Paging) : Prop where
  walks : ∀ lin < 2 ^ 48, walk s.mem pml4.toNat lin = some lin
  stored : s.mem = storeAll s.stores mem
  within : ∀ w ∈ s.stores, pml4.toNat ≤ w.addr ∧ w.addr + 8 ≤ pml4.toNat + 513 * 4096
  apart : s.stores.Pairwise Store.Apart

/-- **The setup pages by identity**, whatever the memory was before. -/
theorem setupPml4_identity (pml4 : UInt32) (mem : ℕ → UInt8) (haligned : pml4.toNat % 4096 = 0)
    (hfits : pml4.toNat + 513 * 4096 ≤ 2 ^ 32) :
    IdentityPaged pml4 mem (setupPml4 pml4 ⟨mem, []⟩) := by
  have hs : setupPml4 pml4 ⟨mem, []⟩ = (Paging.mk mem []).storeAll (setupStores pml4) :=
    setupPml4_eq pml4 _
  rw [Paging.storeAll, List.nil_append] at hs
  have hmem : (setupPml4 pml4 ⟨mem, []⟩).mem = storeAll (setupStores pml4) mem := by rw [hs]
  have hstores : (setupPml4 pml4 ⟨mem, []⟩).stores = setupStores pml4 := by rw [hs]
  constructor
  · intro lin hlin
    rw [hmem]
    exact walk_setupStores haligned hfits mem hlin
  · rw [hmem, hstores]
  · intro w hw
    rw [hstores] at hw
    exact setupStores_within hfits hw
  · rw [hstores]
    exact pairwise_setupStores hfits

/-- For instance with the tables 16 MiB below 4 GiB. -/
theorem setupPml4_identity_high :
    IdentityPaged 0xff000000 (fun _ => 0) (setupPml4 0xff000000 ⟨fun _ => 0, []⟩) :=
  setupPml4_identity 0xff000000 (fun _ => 0) rfl
    (show 0xff000000 + 513 * 4096 ≤ 2 ^ 32 by omega)

end SwitchOs
