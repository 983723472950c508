import SwitchOs.Acpi.Append
import Mathlib.Algebra.Order.Floor.Div

/-!
# The pages of a patched DSDT

`AllocatePages` and `FreePages` count in pages; `alloc_patched_dsdt` and `free_patched_dsdt` give them
a number of bytes, rounded up to whole pages but not divided by the size of one. The slip cancels out
between the two, so that each copy is freed as it was allocated, and 4096 times the pages that the
table needs stay reserved (`Accounted.outstanding`).
-/

namespace SwitchOs.Acpi

/-- `ALIGN_UP` gives bytes; `reserve_memory` divides them by the size of a page. -/
theorem alignUp_eq (size : ℕ) : alignUp size PAGE_SIZE = size ⌈/⌉ PAGE_SIZE * PAGE_SIZE := rfl

/-- How many pages have been allocated and not freed. -/
def outstanding (calls : List PageCall) : ℕ :=
  ((granted calls).map Prod.snd).sum - ((returned calls).map Prod.snd).sum

/-- At every point of the log, what has been freed is what was allocated first: the same pages, as
many of them, and none of them twice. -/
def GivesBack (calls : List PageCall) : Prop :=
  ∀ pre, pre <+: calls → returned pre <+: granted pre

/-- Just the pages that the table needs are reserved, and all others have been given back. -/
structure ReservesNeeded (s : AcpiState) : Prop where
  needed : outstanding s.calls = (tableLength s.mem s.gDsdt).toNat ⌈/⌉ PAGE_SIZE
  givesBack : GivesBack s.calls

/-- The log of a module whose only table that is not freed is the current one. -/
structure Accounted (s : AcpiState) : Prop where
  inv : DsdtInv s
  calls : granted s.calls =
    returned s.calls ++ if s.isDsdtPatched then [(s.gDsdt, dsdtPages s)] else []
  givesBack : GivesBack s.calls

section Log

variable {calls : List PageCall} {call : PageCall} {addr pages : ℕ}

theorem granted_allocated : granted (calls ++ [.allocatePages pages (some addr)]) =
    granted calls ++ [(addr, pages)] := by
  simp [granted]

theorem returned_allocated {answer : Option ℕ} :
    returned (calls ++ [.allocatePages pages answer]) = returned calls := by
  simp [returned]

theorem granted_freed {answer : Bool} :
    granted (calls ++ [.freePages addr pages answer]) = granted calls := by
  simp [granted]

theorem returned_freed : returned (calls ++ [.freePages addr pages true]) =
    returned calls ++ [(addr, pages)] := by
  simp [returned]

/-- One more call. -/
theorem GivesBack.snoc (h : GivesBack calls)
    (hlast : returned (calls ++ [call]) <+: granted (calls ++ [call])) :
    GivesBack (calls ++ [call]) := by
  intro pre hpre
  rcases List.prefix_concat_iff.mp hpre with rfl | hpre
  · exact hlast
  · exact h pre hpre

/-- An allocation takes nothing that has been freed. -/
theorem GivesBack.allocated (h : GivesBack calls) :
    GivesBack (calls ++ [.allocatePages pages (some addr)]) := by
  refine h.snoc ?_
  rw [returned_allocated, granted_allocated]
  exact (h calls List.prefix_rfl).trans (List.prefix_append _ _)

/-- Pages that are the next ones to be freed. -/
theorem GivesBack.freed {rest : List (ℕ × ℕ)} (h : GivesBack calls)
    (hnext : granted calls = returned calls ++ (addr, pages) :: rest) :
    GivesBack (calls ++ [.freePages addr pages true]) := by
  refine h.snoc ?_
  rw [returned_freed, granted_freed, hnext]
  exact ⟨rest, by simp⟩

end Log

section Runs

variable {F : PageServices} {piece : List UInt8} {pieces : List (List UInt8)} {s₀ s s' : AcpiState}
  {addr : ℕ}

theorem Accounted.initial (hinv : DsdtInv s) (hpatched : s.isDsdtPatched = false)
    (hcalls : s.calls = []) : Accounted s := by
  refine ⟨hinv, ?_, fun pre hpre => ?_⟩
  · rw [hcalls, hpatched]
    rfl
  · rw [hcalls, List.prefix_nil] at hpre
    subst hpre
    exact List.nil_prefix

/-- **What a successful append keeps.** The old copy is the next one to be freed. -/
theorem Accounted.append (h : Accounted s) (happ : Appended F piece addr s s') : Accounted s' := by
  refine ⟨h.inv.append happ, ?_, ?_⟩
  · rw [calls_append h.inv happ h.calls, if_pos happ.patched]
  · have hback := h.givesBack
    have hcalls := h.calls
    rw [happ.calls]
    cases hpatched : s.isDsdtPatched with
    | false => exact hback.allocated
    | true =>
      have hnext : granted (s.calls ++ [.allocatePages (patchedPages piece s) (some addr)]) =
          returned (s.calls ++ [.allocatePages (patchedPages piece s) (some addr)]) ++
            (s.gDsdt, dsdtPages s) :: [(addr, patchedPages piece s)] := by
        rw [granted_allocated, returned_allocated, hcalls, if_pos hpatched, List.append_assoc,
          List.singleton_append]
      have hfreed := hback.allocated.freed hnext
      rwa [List.append_assoc] at hfreed

/-- **What is reserved**: as many pages as the table has bytes, rounded up to whole pages. -/
theorem Accounted.outstanding (h : Accounted s) (hpatched : s.isDsdtPatched = true) :
    outstanding s.calls = (tableLength s.mem s.gDsdt).toNat ⌈/⌉ PAGE_SIZE * PAGE_SIZE := by
  have hcalls := h.calls
  rw [if_pos hpatched] at hcalls
  rw [Acpi.outstanding, hcalls, List.map_append, List.sum_append, Nat.add_sub_cancel_left,
    List.map_singleton, List.sum_singleton, dsdtPages, alignUp_eq]

/-- That is never what the table needs: it has a header. -/
theorem Accounted.not_reservesNeeded (h : Accounted s) (hpatched : s.isDsdtPatched = true) :
    ¬ ReservesNeeded s := by
  intro hneeded
  have hreserved := (h.outstanding hpatched).symm.trans hneeded.needed
  have hheader := h.inv.dsdtHeader
  have hle := le_alignUp (tableLength s.mem s.gDsdt).toNat (show 0 < PAGE_SIZE by decide)
  rw [alignUp_eq] at hle
  generalize (tableLength s.mem s.gDsdt).toNat ⌈/⌉ PAGE_SIZE = pages at hreserved hle
  simp only [TABLE_HEADER_SIZE] at hheader
  simp only [PAGE_SIZE] at hreserved hle
  omega

/-- **The log after a run of appends** that succeed. -/
theorem Accounted.forEach (h : Accounted s₀)
    (hrun : Prog.forEach (appendDsdt F) pieces s₀ = some (.ok (), s)) :
    Accounted s ∧ (pieces ≠ [] → s.isDsdtPatched = true) := by
  refine Prog.forEach_eq_ok (fun done t => Accounted t ∧ (done ≠ [] → t.isDsdtPatched = true))
    (fun done piece t t' ht hbody => ?_) pieces [] ⟨h, absurd rfl⟩ hrun
  obtain ⟨r, t'', hrun', hout⟩ := ht.1.inv.appendDsdt_cases F piece
  obtain ⟨rfl, rfl⟩ := Prod.mk.inj (Option.some.inj (hbody.symm.trans hrun'))
  obtain ⟨addr, happ⟩ := ht.1.inv.appended hout
  exact ⟨ht.1.append happ, fun _ => happ.patched⟩

/-- **Too many pages.** After every sequence of successful appends, each `FreePages` has given back
what the `AllocatePages` before it took; but 4096 times the pages that the table needs are reserved,
and the table needs one at least. -/
theorem appends_never_reserve_needed (hinv : DsdtInv s₀) (hpatched : s₀.isDsdtPatched = false)
    (hcalls : s₀.calls = []) (hne : pieces ≠ [])
    (hrun : Prog.forEach (appendDsdt F) pieces s₀ = some (.ok (), s)) :
    ¬ ReservesNeeded s ∧ GivesBack s.calls ∧
      outstanding s.calls = (tableLength s.mem s.gDsdt).toNat ⌈/⌉ PAGE_SIZE * PAGE_SIZE := by
  obtain ⟨h, hadopted⟩ := (Accounted.initial hinv hpatched hcalls).forEach hrun
  exact ⟨h.not_reservesNeeded (hadopted hne), h.givesBack, h.outstanding (hadopted hne)⟩

/-- One byte appended to the sample. -/
theorem sample_append : ∃ s, Prog.forEach (appendDsdt sampleServices) [[0xa3]] sampleAcpi =
    some (.ok (), s) ∧ (tableLength s.mem s.gDsdt).toNat = 41 := by
  obtain ⟨s, hrun, happ⟩ := sampleAcpi_inv.appendDsdt_ok sampleAcpi_alloc fun _ _ _ => rfl
  refine ⟨s, (Prog.forEach_singleton _ _).trans hrun, ?_⟩
  rw [happ.length sampleAcpi_inv]
  decide

theorem appends_never_reserve_needed_sample : ∃ s,
    Prog.forEach (appendDsdt sampleServices) [[0xa3]] sampleAcpi = some (.ok (), s) ∧
      ¬ ReservesNeeded s ∧ GivesBack s.calls ∧
      outstanding s.calls = (tableLength s.mem s.gDsdt).toNat ⌈/⌉ PAGE_SIZE * PAGE_SIZE := by
  obtain ⟨s, hrun, -⟩ := sample_append
  exact ⟨s, hrun, appends_never_reserve_needed sampleAcpi_inv rfl rfl (List.cons_ne_nil _ _) hrun⟩

/-- **4096 pages for 41 bytes.** -/
theorem page_reserves_bytes : ∃ s,
    Prog.forEach (appendDsdt sampleServices) [[0xa3]] sampleAcpi = some (.ok (), s) ∧
      (tableLength s.mem s.gDsdt).toNat ⌈/⌉ PAGE_SIZE = 1 ∧ outstanding s.calls = 4096 ∧
      ¬ ReservesNeeded s := by
  obtain ⟨s, hrun, hlength⟩ := sample_append
  obtain ⟨h, hadopted⟩ := (Accounted.initial sampleAcpi_inv rfl rfl).forEach hrun
  have hpatched := hadopted (List.cons_ne_nil _ _)
  refine ⟨s, hrun, ?_, ?_, h.not_reservesNeeded hpatched⟩
  · rw [hlength]
    rfl
  · rw [h.outstanding hpatched, hlength]
    rfl

end Runs

end SwitchOs.Acpi
