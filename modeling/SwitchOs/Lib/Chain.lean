import Mathlib.Data.Fintype.Card
import Mathlib.Data.List.Nodup
import Mathlib.Tactic.Common

/-!
# Chains of nodes

A free list kept inside the free nodes themselves: a head, and for each node the next one, with
`null` at the end. `Chain null next head l` says that the nodes met from `head` on are exactly those
of `l`. Popping takes the first node of `l` (`Chain.pop`), pushing puts one in front
(`Chain.push`), and a change to the links of nodes that are not in `l` leaves the chain alone
(`Chain.congr`). `Reaches` is the walk itself, without the list: its nodes are those of the chain
(`Chain.reaches_iff`), and a node is met whatever the links behind it (`Chain.reaches_of_append`).

`nodes` walks a given number of steps. In a finite type a chain is shorter than the type
(`Chain.length_lt_card`), so a walk of that many steps that has not come to `null` never does
(`nodes_endless`). The walk ends exactly if no node that it meets is met again behind itself
(`exists_chain_iff`).
-/

namespace SwitchOs

variable {α : Type} {null : α} {next next' : α → α} {head a : α} {l : List α}

/-- From `head`, following `next` until `null`, one meets the nodes of the list, in order. -/
def Chain (null : α) (next : α → α) : α → List α → Prop
  | head, [] => head = null
  | head, a :: l => head = a ∧ a ≠ null ∧ Chain null next (next a) l

/-- From the first node, following `next` until `null`, one meets the second. -/
inductive Reaches (null : α) (next : α → α) (a : α) : α → Prop
  | here (h : a ≠ null) : Reaches null next a a
  | there {head : α} (h : head ≠ null) (hnext : Reaches null next a (next head)) :
      Reaches null next a head

theorem Reaches.ne_null (h : Reaches null next a head) : a ≠ null := by
  induction h with
  | here h => exact h
  | there _ _ ih => exact ih

/-- The nodes that one meets from `head` on, at most `n` of them. -/
def nodes [DecidableEq α] (null : α) (next : α → α) : ℕ → α → List α
  | 0, _ => []
  | n + 1, head => if head = null then [] else head :: nodes null next n (next head)

namespace Chain

theorem ne_null (h : Chain null next head l) : ∀ b ∈ l, b ≠ null := by
  induction l generalizing head with
  | nil => nofun
  | cons a l ih =>
    intro b hb
    obtain ⟨-, ha, hl⟩ := h
    rcases List.mem_cons.mp hb with rfl | hb
    · exact ha
    · exact ih hl b hb

/-- A chain that does not start with `null` has a first node. -/
theorem exists_cons (h : Chain null next head l) (hhead : head ≠ null) :
    ∃ t, l = head :: t ∧ Chain null next (next head) t := by
  cases l with
  | nil => exact absurd h hhead
  | cons a t =>
    obtain ⟨rfl, -, ht⟩ := h
    exact ⟨t, rfl, ht⟩

/-- A chain is empty if and only if it starts with `null`. -/
theorem eq_nil_iff (h : Chain null next head l) : l = [] ↔ head = null := by
  cases l with
  | nil => exact iff_of_true rfl h
  | cons a t => exact iff_of_false (List.cons_ne_nil a t) fun hnull => h.2.1 (h.1.symm.trans hnull)

theorem head_eq (h : Chain null next head (a :: l)) : head = a := h.1

/-- Taking the first node. -/
theorem pop (h : Chain null next head (a :: l)) : Chain null next (next head) l := by
  obtain ⟨rfl, -, hl⟩ := h
  exact hl

/-- Only the links of the nodes of the chain matter. -/
theorem congr (h : Chain null next head l) (hnext : ∀ b ∈ l, next' b = next b) :
    Chain null next' head l := by
  induction l generalizing head with
  | nil => exact h
  | cons a l ih =>
    obtain ⟨rfl, ha, hl⟩ := h
    refine ⟨rfl, ha, ?_⟩
    rw [hnext head (by simp)]
    exact ih hl fun b hb => hnext b (by simp [hb])

/-- Putting a node that links to the old head in front. -/
theorem push (h : Chain null next head l) (ha : a ≠ null) (hlink : next' a = head)
    (hnext : ∀ b ∈ l, next' b = next b) : Chain null next' a (a :: l) := by
  refine ⟨rfl, ha, ?_⟩
  rw [hlink]
  exact h.congr hnext

/-- The nodes of a chain are those that one meets. -/
theorem reaches_iff (h : Chain null next head l) : Reaches null next a head ↔ a ∈ l := by
  induction l generalizing head with
  | nil =>
    refine ⟨fun hr => ?_, nofun⟩
    cases hr with
    | here hne => exact absurd h hne
    | there hne _ => exact absurd h hne
  | cons b l ih =>
    obtain ⟨rfl, hb, hl⟩ := h
    rw [List.mem_cons]
    constructor
    · intro hr
      cases hr with
      | here _ => exact Or.inl rfl
      | there _ hnext => exact Or.inr ((ih hl).mp hnext)
    · rintro (rfl | ha)
      · exact .here hb
      · exact .there hb ((ih hl).mpr ha)

/-- The chain from one of its nodes on. -/
theorem suffix {pre post : List α} (h : Chain null next head (pre ++ a :: post)) :
    Chain null next a (a :: post) := by
  induction pre generalizing head with
  | nil =>
    obtain rfl := h.head_eq
    exact h
  | cons b pre ih => exact ih h.pop

/-- A node is met through the links of those before it. -/
theorem reaches_of_append {pre post : List α} (h : Chain null next head (pre ++ a :: post))
    (hnext : ∀ b ∈ pre, next' b = next b) : Reaches null next' a head := by
  induction pre generalizing head with
  | nil =>
    obtain ⟨rfl, ha, -⟩ := h
    exact .here ha
  | cons b pre ih =>
    obtain ⟨rfl, hb, hpre⟩ := h
    refine .there hb ?_
    rw [hnext head (by simp)]
    exact ih hpre fun c hc => hnext c (by simp [hc])

theorem unique {l' : List α} (h : Chain null next head l) (h' : Chain null next head l') :
    l = l' := by
  induction l generalizing head l' with
  | nil =>
    cases l' with
    | nil => rfl
    | cons b l' =>
      obtain ⟨rfl, hb, -⟩ := h'
      exact absurd h hb
  | cons a l ih =>
    obtain ⟨rfl, ha, hl⟩ := h
    obtain ⟨l', rfl, hl'⟩ := h'.exists_cons ha
    rw [ih hl hl']

/-- A chain that came back to one of its nodes would not end. -/
theorem nodup (h : Chain null next head l) : l.Nodup := by
  induction l generalizing head with
  | nil => exact List.nodup_nil
  | cons a l ih =>
    refine List.nodup_cons.mpr ⟨fun ha => ?_, ih h.pop⟩
    obtain ⟨pre, post, rfl⟩ := List.append_of_mem ha
    obtain rfl := h.head_eq
    have hsplit : Chain null next head ((head :: pre) ++ head :: post) := h
    have hback : Chain null next head (head :: post) := hsplit.suffix
    have hlength := congrArg List.length (h.unique hback)
    simp only [List.length_cons, List.length_append] at hlength
    omega

/-- A chain has a node for each element of the type but `null`, at most. -/
theorem length_lt_card [Fintype α] (h : Chain null next head l) : l.length < Fintype.card α := by
  have hnodup : (null :: l).Nodup :=
    List.nodup_cons.mpr ⟨fun hnull => h.ne_null null hnull rfl, h.nodup⟩
  exact Nat.lt_of_succ_le hnodup.length_le_card

end Chain

/-! ## Walks of a given length -/

section Nodes

variable [DecidableEq α] {n : ℕ}

theorem length_nodes_le (null : α) (next : α → α) (n : ℕ) (head : α) :
    (nodes null next n head).length ≤ n := by
  induction n generalizing head with
  | zero => exact Nat.le_refl 0
  | succ n ih =>
    rw [nodes]
    split
    · exact Nat.zero_le _
    · exact Nat.succ_le_succ (ih _)

/-- A walk that ends early is the chain. -/
theorem nodes_chain (h : (nodes null next n head).length < n) :
    Chain null next head (nodes null next n head) := by
  induction n generalizing head with
  | zero => exact absurd h (Nat.not_lt_zero _)
  | succ n ih =>
    rw [nodes] at h ⊢
    split
    case isTrue hnull => exact hnull
    case isFalse hnull =>
      rw [if_neg hnull] at h
      exact ⟨rfl, hnull, ih (Nat.lt_of_succ_lt_succ h)⟩

/-- The walk along a chain, with steps to spare. -/
theorem nodes_eq (h : Chain null next head l) (hn : l.length < n) : nodes null next n head = l := by
  induction n generalizing head l with
  | zero => exact absurd hn (Nat.not_lt_zero _)
  | succ n ih =>
    rw [nodes]
    cases l with
    | nil => exact if_pos h
    | cons a l =>
      obtain ⟨rfl, ha, hl⟩ := h
      rw [if_neg ha, ih hl (Nat.lt_of_succ_lt_succ hn)]

/-- A walk with as many steps as the type has elements ends early, or never. -/
theorem nodes_endless [Fintype α] (hn : Fintype.card α ≤ n) :
    (nodes null next n head).length < n ↔ ∃ l, Chain null next head l := by
  constructor
  · exact fun h => ⟨_, nodes_chain h⟩
  · rintro ⟨l, hl⟩
    have hlt := hl.length_lt_card
    rw [nodes_eq hl (by omega)]
    omega

theorem reaches_of_mem_nodes (h : a ∈ nodes null next n head) : Reaches null next a head := by
  induction n generalizing head with
  | zero => cases h
  | succ n ih =>
    rw [nodes] at h
    split at h
    case isTrue => cases h
    case isFalse hnull =>
      rcases List.mem_cons.mp h with rfl | h
      · exact .here hnull
      · exact .there hnull (ih h)

/-- A walk does not repeat a node if none is met again behind itself. -/
theorem nodes_nodup (h : ∀ a, Reaches null next a head → ¬ Reaches null next a (next a)) :
    (nodes null next n head).Nodup := by
  induction n generalizing head with
  | zero => exact List.nodup_nil
  | succ n ih =>
    rw [nodes]
    split
    case isTrue => exact List.nodup_nil
    case isFalse hnull =>
      refine List.nodup_cons.mpr ⟨fun hmem => ?_, ih fun a ha => h a (.there hnull ha)⟩
      exact h head (.here hnull) (reaches_of_mem_nodes hmem)

/-- **A walk in a finite type ends** exactly if no node that it meets is met again behind itself. -/
theorem exists_chain_iff [Fintype α] :
    (∃ l, Chain null next head l) ↔
      ∀ a, Reaches null next a head → ¬ Reaches null next a (next a) := by
  constructor
  · rintro ⟨l, hl⟩ a ha hback
    obtain ⟨pre, post, rfl⟩ := List.append_of_mem (hl.reaches_iff.mp ha)
    have hsuffix := hl.suffix
    exact (List.nodup_cons.mp hsuffix.nodup).1 (hsuffix.pop.reaches_iff.mp hback)
  · intro h
    rw [← nodes_endless le_rfl]
    -- `null` and the nodes of the walk are different elements
    have hnodup : (null :: nodes null next (Fintype.card α) head).Nodup := by
      refine List.nodup_cons.mpr ⟨fun hmem => ?_, nodes_nodup h⟩
      have hreach := reaches_of_mem_nodes hmem
      exact hreach.ne_null rfl
    exact Nat.lt_of_succ_le hnodup.length_le_card

end Nodes

end SwitchOs
