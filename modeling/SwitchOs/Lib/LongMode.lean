import SwitchOs.Lib.Cells

/-!
# Page tables of long mode

`walk` is what the processor makes of a linear address with tables of two levels: an entry of the top
table, and one of the table below that maps a page of 1 GiB. `walk_eq` gives its result from the two
entries.

Tables are filled by stores of eight bytes each. `storeAll` is a sequence of such stores, and
`get64_storeAll` says that each of them stands in memory at the end if no two of them overlap.
-/

namespace SwitchOs

/-! ## Entries and walks -/

namespace PageEntry

def Present (e : UInt64) : Prop := e.toNat.testBit 0 = true

def Writable (e : UInt64) : Prop := e.toNat.testBit 1 = true

/-- The entry maps a page, and names no further table. -/
def Large (e : UInt64) : Prop := e.toNat.testBit 7 = true

/-- The address of the table that the entry names: bits 12 to 51. -/
def table (e : UInt64) : ℕ := e.toNat / 2 ^ 12 % 2 ^ 40 * 2 ^ 12

/-- The address of the page of 1 GiB that the entry maps: bits 30 to 51. -/
def page1G (e : UInt64) : ℕ := e.toNat / 2 ^ 30 % 2 ^ 22 * 2 ^ 30

/-- The bits between the two are clear, as they have to be. -/
def Reserved1G (e : UInt64) : Prop := e.toNat / 2 ^ 13 % 2 ^ 17 = 0

instance (e : UInt64) : Decidable (Present e) := inferInstanceAs (Decidable (_ = true))
instance (e : UInt64) : Decidable (Writable e) := inferInstanceAs (Decidable (_ = true))
instance (e : UInt64) : Decidable (Large e) := inferInstanceAs (Decidable (_ = true))
instance (e : UInt64) : Decidable (Reserved1G e) := inferInstanceAs (Decidable (_ = 0))

/-- An entry that leads on to a table, through which one may write. -/
def LeadsOn (e : UInt64) : Prop := Present e ∧ Writable e ∧ ¬ Large e

/-- An entry that maps a page of 1 GiB, to which one may write. -/
def Maps1G (e : UInt64) : Prop := Present e ∧ Writable e ∧ Large e ∧ Reserved1G e

instance (e : UInt64) : Decidable (LeadsOn e) := inferInstanceAs (Decidable (_ ∧ _ ∧ _))
instance (e : UInt64) : Decidable (Maps1G e) := inferInstanceAs (Decidable (_ ∧ _ ∧ _ ∧ _))

end PageEntry

open PageEntry

/-- The entry of the top table for a linear address. -/
def topEntry (mem : ℕ → UInt8) (cr3 lin : ℕ) : UInt64 := get64 mem (cr3 + 8 * (lin / 2 ^ 39 % 512))

/-- The entry of a table of the second level. -/
def secondEntry (mem : ℕ → UInt8) (table lin : ℕ) : UInt64 :=
  get64 mem (table + 8 * (lin / 2 ^ 30 % 512))

/-- The physical address for a linear one, if it can be written through pages of 1 GiB. -/
def walk (mem : ℕ → UInt8) (cr3 lin : ℕ) : Option ℕ :=
  let top := topEntry mem cr3 lin
  let second := secondEntry mem (table top) lin
  if LeadsOn top ∧ Maps1G second then some (page1G second + lin % 2 ^ 30) else none

/-- The walk, from the two entries. -/
theorem walk_eq {mem : ℕ → UInt8} {cr3 lin : ℕ} {top second : UInt64}
    (htop : topEntry mem cr3 lin = top) (hsecond : secondEntry mem (table top) lin = second)
    (hleads : LeadsOn top) (hmaps : Maps1G second) :
    walk mem cr3 lin = some (page1G second + lin % 2 ^ 30) := by
  subst htop hsecond
  exact if_pos ⟨hleads, hmaps⟩

/-! ## Sequences of stores -/

/-- A store of eight bytes. -/
structure Store where
  addr : ℕ
  value : UInt64

/-- Two stores have no byte in common. -/
def Store.Apart (w w' : Store) : Prop := w.addr + 8 ≤ w'.addr ∨ w'.addr + 8 ≤ w.addr

/-- The stores of the list, in its order. -/
def storeAll (ws : List Store) (mem : ℕ → UInt8) : ℕ → UInt8 :=
  ws.foldl (fun mem w => put64 mem w.addr w.value) mem

theorem storeAll_append (ws ws' : List Store) (mem : ℕ → UInt8) :
    storeAll (ws ++ ws') mem = storeAll ws' (storeAll ws mem) :=
  List.foldl_append

/-- What no store of the list touches is kept. -/
theorem get64_storeAll_outside {w : Store} {ws : List Store} (h : ∀ w' ∈ ws, w.Apart w')
    (mem : ℕ → UInt8) : get64 (storeAll ws mem) w.addr = get64 mem w.addr := by
  induction ws generalizing mem with
  | nil => rfl
  | cons w' ws ih =>
    have hfirst := h w' List.mem_cons_self
    show get64 (storeAll ws (put64 mem w'.addr w'.value)) w.addr = _
    rw [ih fun v hv => h v (List.mem_cons_of_mem _ hv)]
    apply get64_put64_outside
    rcases hfirst with hbefore | hafter
    · exact Or.inl hbefore
    · exact Or.inr hafter

/-- Each of the stores stands at the end, if no two of them overlap. -/
theorem get64_storeAll {w : Store} {ws : List Store} (hapart : ws.Pairwise Store.Apart)
    (hmem : w ∈ ws) (mem : ℕ → UInt8) : get64 (storeAll ws mem) w.addr = w.value := by
  induction ws generalizing mem with
  | nil => cases hmem
  | cons w' ws ih =>
    rw [List.pairwise_cons] at hapart
    show get64 (storeAll ws (put64 mem w'.addr w'.value)) w.addr = _
    rcases List.mem_cons.mp hmem with rfl | hmem
    · rw [get64_storeAll_outside hapart.1, get64_put64]
    · exact ih hapart.2 hmem _

end SwitchOs
