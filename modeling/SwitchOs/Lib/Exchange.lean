import SwitchOs.Lib.Cells

/-!
# Exchanging windows of two stores, piece by piece

A `Chunk` names a window of a memory and a window of the same length of a disk. `Exchanged` says
what two stores look like once the chunks of a list have been exchanged between them and nothing
else has changed, up to the cells of a scratch buffer in the memory that is free to change.
`Exchanged.append` composes exchanges of chunks that do not meet.

`pieces B o k n` cuts the offsets `o .. o + n` into `k` pieces of at most `B`, the last one
shorter; `forall_pieces` says that the pieces cover the offsets exactly.
-/

namespace SwitchOs

variable {α : Type}

/-- `len` cells of the memory from `addr` on, and of the disk from `pos` on. -/
structure Chunk where
  addr : ℕ
  pos : ℕ
  len : ℕ
  deriving DecidableEq, Repr

namespace Chunk

def InMem (c : Chunk) (x : ℕ) : Prop := c.addr ≤ x ∧ x < c.addr + c.len

def InDisk (c : Chunk) (x : ℕ) : Prop := c.pos ≤ x ∧ x < c.pos + c.len

/-- The windows of two chunks meet neither in the memory nor on the disk. -/
def Separate (c d : Chunk) : Prop :=
  (c.addr + c.len ≤ d.addr ∨ d.addr + d.len ≤ c.addr) ∧
    (c.pos + c.len ≤ d.pos ∨ d.pos + d.len ≤ c.pos)

theorem Separate.symm {c d : Chunk} (h : c.Separate d) : d.Separate c :=
  ⟨h.1.symm, h.2.symm⟩

end Chunk

/-- The chunks `done` have been exchanged between `mem` and `disk`, giving `mem'` and `disk'`. -/
structure Exchanged (scratch : ℕ → Prop) (mem disk mem' disk' : ℕ → α) (done : List Chunk) :
    Prop where
  mem_done : ∀ c ∈ done, window mem' c.addr c.len = window disk c.pos c.len
  disk_done : ∀ c ∈ done, window disk' c.pos c.len = window mem c.addr c.len
  mem_frame : ∀ x, ¬ scratch x → (∀ c ∈ done, ¬ c.InMem x) → mem' x = mem x
  disk_frame : ∀ x, (∀ c ∈ done, ¬ c.InDisk x) → disk' x = disk x

namespace Exchanged

variable {scratch : ℕ → Prop} {mem disk mem' disk' mem'' disk'' : ℕ → α} {done more : List Chunk}

theorem nil (hmem : ∀ x, ¬ scratch x → mem' x = mem x) (hdisk : disk' = disk) :
    Exchanged scratch mem disk mem' disk' [] where
  mem_done := nofun
  disk_done := nofun
  mem_frame := fun x hx _ => hmem x hx
  disk_frame := fun x _ => by rw [hdisk]

/-- A window of the memory that meets no exchanged chunk and no scratch cell. -/
theorem window_mem (h : Exchanged scratch mem disk mem' disk' done) {c : Chunk}
    (hsep : ∀ d ∈ done, d.Separate c) (hscratch : ∀ x, scratch x → ¬ c.InMem x) :
    window mem' c.addr c.len = window mem c.addr c.len := by
  refine window_eq_window.mpr fun i hi => h.mem_frame _ ?_ ?_
  · intro hx
    exact hscratch _ hx ⟨by omega, by omega⟩
  · intro d hd hin
    have := (hsep d hd).1
    have := hin.1
    have := hin.2
    omega

/-- A window of the disk that meets no exchanged chunk. -/
theorem window_disk (h : Exchanged scratch mem disk mem' disk' done) {c : Chunk}
    (hsep : ∀ d ∈ done, d.Separate c) :
    window disk' c.pos c.len = window disk c.pos c.len := by
  refine window_eq_window.mpr fun i hi => h.disk_frame _ ?_
  intro d hd hin
  have := (hsep d hd).2
  have := hin.1
  have := hin.2
  omega

/-- Exchanges of chunks that do not meet compose. -/
theorem append (h : Exchanged scratch mem disk mem' disk' done)
    (h' : Exchanged scratch mem' disk' mem'' disk'' more)
    (hsep : ∀ c ∈ done, ∀ d ∈ more, c.Separate d)
    (hscratch : ∀ c ∈ done ++ more, ∀ x, scratch x → ¬ c.InMem x) :
    Exchanged scratch mem disk mem'' disk'' (done ++ more) where
  mem_done := by
    intro c hc
    rcases List.mem_append.mp hc with hdone | hmore
    · rw [h'.window_mem (fun d hd => (hsep c hdone d hd).symm) (hscratch c hc), h.mem_done c hdone]
    · rw [h'.mem_done c hmore, h.window_disk fun d hd => hsep d hd c hmore]
  disk_done := by
    intro c hc
    rcases List.mem_append.mp hc with hdone | hmore
    · rw [h'.window_disk fun d hd => (hsep c hdone d hd).symm, h.disk_done c hdone]
    · rw [h'.disk_done c hmore, h.window_mem (fun d hd => hsep d hd c hmore) (hscratch c hc)]
  mem_frame := by
    intro x hx hout
    rw [h'.mem_frame x hx fun c hc => hout c (List.mem_append_right _ hc),
      h.mem_frame x hx fun c hc => hout c (List.mem_append_left _ hc)]
  disk_frame := by
    intro x hout
    rw [h'.disk_frame x fun c hc => hout c (List.mem_append_right _ hc),
      h.disk_frame x fun c hc => hout c (List.mem_append_left _ hc)]

end Exchanged

/-! ## Pieces -/

/-- The offsets `o .. o + n` in pieces of at most `B`, no more than `k` of them: each piece as its
offset and length. -/
def pieces (B : ℕ) : ℕ → ℕ → ℕ → List (ℕ × ℕ)
  | _, 0, _ => []
  | o, k + 1, n => if n = 0 then [] else (o, min B n) :: pieces B (o + B) k (n - B)

/-- The number of pieces of at most `B` that `n` offsets need. -/
def pieceCount (B n : ℕ) : ℕ := (n + B - 1) / B

theorem pieceCount_zero (B : ℕ) : pieceCount B 0 = 0 := by
  rcases Nat.eq_zero_or_pos B with rfl | hB
  · rfl
  · exact Nat.div_eq_of_lt (by omega)

theorem pieceCount_succ {B n : ℕ} (hB : 0 < B) (hn : 0 < n) :
    pieceCount B n = pieceCount B (n - B) + 1 := by
  simp only [pieceCount]
  by_cases h : B ≤ n
  · rw [show n + B - 1 = n - B + B - 1 + B by omega, Nat.add_div_right _ hB]
  · rw [show n - B = 0 by omega, show n + B - 1 = n - 1 + B by omega, Nat.add_div_right _ hB,
      Nat.div_eq_of_lt (by omega : n - 1 < B), Nat.div_eq_of_lt (by omega : 0 + B - 1 < B)]

theorem pieces_zero (B o k : ℕ) : pieces B o k 0 = [] := by
  cases k with
  | zero => rfl
  | succ k => rw [pieces, if_pos rfl]

/-- The first of the pieces that cut all the offsets. -/
theorem pieces_pieceCount {B n : ℕ} (hB : 0 < B) (hn : 0 < n) (o : ℕ) :
    pieces B o (pieceCount B n) n =
      (o, min B n) :: pieces B (o + B) (pieceCount B (n - B)) (n - B) := by
  rw [pieceCount_succ hB hn, pieces, if_neg hn.ne']

/-- Every piece lies inside the offsets that are cut. -/
theorem pieces_bounds {B : ℕ} : ∀ (k o n : ℕ), ∀ p ∈ pieces B o k n,
    o ≤ p.1 ∧ p.1 + p.2 ≤ o + n ∧ p.2 ≤ B ∧ (0 < B → 0 < p.2) := by
  intro k
  induction k with
  | zero => intro o n p hp; simp [pieces] at hp
  | succ k ih =>
    intro o n p hp
    rw [pieces] at hp
    split_ifs at hp with hn
    · simp at hp
    · rcases List.mem_cons.mp hp with rfl | hp
      · simp only
        omega
      · obtain ⟨h1, h2, h3, h4⟩ := ih (o + B) (n - B) p hp
        by_cases hBn : B ≤ n
        · exact ⟨by omega, by omega, h3, h4⟩
        · rw [show n - B = 0 by omega, pieces_zero] at hp
          simp at hp

/-- The pieces start where the first one does, up to multiples of a divisor of their length. -/
theorem dvd_pieces {d B : ℕ} (hB : d ∣ B) : ∀ (k o n : ℕ), d ∣ o → ∀ p ∈ pieces B o k n, d ∣ p.1 := by
  intro k
  induction k with
  | zero => intro o n _ p hp; simp [pieces] at hp
  | succ k ih =>
    intro o n ho p hp
    rw [pieces] at hp
    split_ifs at hp with hn
    · simp at hp
    · rcases List.mem_cons.mp hp with rfl | hp
      · exact ho
      · exact ih (o + B) (n - B) (Nat.dvd_add ho hB) p hp

/-- The pieces are enough for all the offsets. -/
theorem le_pieceCount_mul {B : ℕ} (hB : 0 < B) (n : ℕ) : n ≤ pieceCount B n * B := by
  have h := Nat.lt_div_mul_add hB (a := n + B - 1)
  unfold pieceCount
  omega

/-- No two pieces meet. -/
theorem pieces_pairwise {B : ℕ} : ∀ (k o n : ℕ),
    (pieces B o k n).Pairwise fun p q => p.1 + p.2 ≤ q.1 := by
  intro k
  induction k with
  | zero => intro o n; exact List.Pairwise.nil
  | succ k ih =>
    intro o n
    rw [pieces]
    split_ifs with hn
    · exact List.Pairwise.nil
    · refine List.pairwise_cons.mpr ⟨fun q hq => ?_, ih _ _⟩
      have := (pieces_bounds k (o + B) (n - B) q hq).1
      simp only
      omega

/-- The pieces cover every offset. -/
theorem forall_pieces {B : ℕ} (hB : 0 < B) (R : ℕ → Prop) : ∀ (k o n : ℕ), pieceCount B n ≤ k →
    ((∀ p ∈ pieces B o k n, ∀ i < p.2, R (p.1 + i)) ↔ ∀ i < n, R (o + i)) := by
  intro k
  induction k with
  | zero =>
    intro o n hk
    rcases Nat.eq_zero_or_pos n with rfl | hn
    · simp [pieces]
    · rw [pieceCount_succ hB hn] at hk
      omega
  | succ k ih =>
    intro o n hk
    rw [pieces]
    split_ifs with hn
    · simp [hn]
    · have hrest := ih (o + B) (n - B) (by rw [pieceCount_succ hB (by omega)] at hk; omega)
      rw [List.forall_mem_cons, hrest]
      constructor
      · rintro ⟨hfirst, hafter⟩ i hi
        by_cases hiB : i < B
        · exact hfirst i (by simp only; omega)
        · have := hafter (i - B) (by omega)
          rwa [show o + B + (i - B) = o + i by omega] at this
      · intro hall
        refine ⟨fun i hi => hall i (by simp only at hi; omega), fun i hi => ?_⟩
        rw [Nat.add_assoc]
        exact hall (B + i) (by omega)

/-- The chunks that a memory window and a disk window of `n` cells are exchanged in. -/
def chunksOf (B addr pos n : ℕ) : List Chunk :=
  (pieces B 0 (pieceCount B n) n).map fun p => ⟨addr + p.1, pos + p.1, p.2⟩

theorem mem_chunksOf_bounds {B addr pos n : ℕ} {c : Chunk} (hc : c ∈ chunksOf B addr pos n) :
    addr ≤ c.addr ∧ c.addr + c.len ≤ addr + n ∧ pos ≤ c.pos ∧ c.pos + c.len ≤ pos + n := by
  obtain ⟨p, hp, rfl⟩ := List.mem_map.mp hc
  have := pieces_bounds _ _ _ p hp
  simp only
  omega

/-- A chunk lies at one offset in both windows. -/
theorem offset_of_mem_chunksOf {B addr pos n : ℕ} {c : Chunk} (hc : c ∈ chunksOf B addr pos n) :
    ∃ o, c.addr = addr + o ∧ c.pos = pos + o ∧ o + c.len ≤ n := by
  obtain ⟨p, hp, rfl⟩ := List.mem_map.mp hc
  have hbounds := pieces_bounds _ _ _ p hp
  exact ⟨p.1, rfl, rfl, by simp only; omega⟩

theorem mem_chunksOf_len_le {B addr pos n : ℕ} {c : Chunk} (hc : c ∈ chunksOf B addr pos n) :
    c.len ≤ B := by
  obtain ⟨p, hp, rfl⟩ := List.mem_map.mp hc
  exact (pieces_bounds _ _ _ p hp).2.2.1

theorem dvd_pos_of_mem_chunksOf {d B addr pos n : ℕ} (hB : d ∣ B) (hpos : d ∣ pos) {c : Chunk}
    (hc : c ∈ chunksOf B addr pos n) : d ∣ c.pos := by
  obtain ⟨p, hp, rfl⟩ := List.mem_map.mp hc
  exact Nat.dvd_add hpos (dvd_pieces hB _ _ _ (Nat.dvd_zero d) p hp)

theorem chunksOf_pairwise (B addr pos n : ℕ) : (chunksOf B addr pos n).Pairwise Chunk.Separate := by
  refine (pieces_pairwise _ _ _).map _ fun p q h => ?_
  exact ⟨Or.inl (by simp only; omega), Or.inl (by simp only; omega)⟩

/-- The chunks of several windows that meet neither in the memory nor on the disk do not meet. -/
theorem chunksOf_flatMap_pairwise {B n : ℕ} {addr pos len : ℕ → ℕ}
    (hmem : ∀ i j, i < j → j < n → addr i + len i ≤ addr j ∨ addr j + len j ≤ addr i)
    (hdisk : ∀ i j, i < j → j < n → pos i + len i ≤ pos j ∨ pos j + len j ≤ pos i) :
    ((List.range n).flatMap fun i => chunksOf B (addr i) (pos i) (len i)).Pairwise
      Chunk.Separate := by
  rw [List.pairwise_flatMap]
  refine ⟨fun i _ => chunksOf_pairwise _ _ _ _, ?_⟩
  have hlt : (List.range n).Pairwise fun i j => i < j ∧ j < n :=
    (List.pairwise_lt_range).imp_of_mem fun _ hj h => ⟨h, List.mem_range.mp hj⟩
  refine hlt.imp fun {i j} hij c hc d hd => ?_
  have hcb := mem_chunksOf_bounds hc
  have hdb := mem_chunksOf_bounds hd
  have hm := hmem i j hij.1 hij.2
  have hd := hdisk i j hij.1 hij.2
  exact ⟨by omega, by omega⟩

/-- What holds cell by cell of every chunk holds cell by cell of the two windows, and back. -/
theorem forall_chunksOf {B : ℕ} (hB : 0 < B) (R : ℕ → ℕ → Prop) (addr pos n : ℕ) :
    (∀ c ∈ chunksOf B addr pos n, ∀ i < c.len, R (c.addr + i) (c.pos + i)) ↔
      ∀ i < n, R (addr + i) (pos + i) := by
  have h := forall_pieces hB (fun i => R (addr + i) (pos + i)) (pieceCount B n) 0 n le_rfl
  simp only [Nat.zero_add] at h
  rw [← h, chunksOf, List.forall_mem_map]
  simp only [Nat.add_assoc]

/-! ## Up to the first that does not go on -/

section UpToFirst

variable {ι β : Type} (p : ι → Prop) [DecidablePred p] (f : ι → List β)

/-- The values of `f` over a list, the last of them at the first element without `p`. -/
def upToFirst : List ι → List β
  | [] => []
  | i :: is => f i ++ if p i then upToFirst is else []

variable {p f} {i : ι} {is : List ι}

theorem upToFirst_cons_of_pos (h : p i) : upToFirst p f (i :: is) = f i ++ upToFirst p f is := by
  rw [upToFirst, if_pos h]

theorem upToFirst_cons_of_neg (h : ¬ p i) : upToFirst p f (i :: is) = f i := by
  rw [upToFirst, if_neg h, List.append_nil]

theorem upToFirst_sublist (is : List ι) : (upToFirst p f is).Sublist (is.flatMap f) := by
  induction is with
  | nil => exact .slnil
  | cons i is ih =>
    rw [List.flatMap_cons]
    by_cases h : p i
    · rw [upToFirst_cons_of_pos h]
      exact ih.append_left _
    · rw [upToFirst_cons_of_neg h]
      exact List.sublist_append_left _ _

theorem upToFirst_eq (h : ∀ i ∈ is, p i) : upToFirst p f is = is.flatMap f := by
  induction is with
  | nil => rfl
  | cons i is ih =>
    rw [upToFirst_cons_of_pos (h i List.mem_cons_self), List.flatMap_cons,
      ih fun j hj => h j (List.mem_cons_of_mem _ hj)]

theorem upToFirst_congr {g : ι → List β} (h : ∀ i ∈ is, f i = g i) :
    upToFirst p f is = upToFirst p g is := by
  induction is with
  | nil => rfl
  | cons i is ih =>
    rw [upToFirst, upToFirst, h i List.mem_cons_self, ih fun j hj => h j (List.mem_cons_of_mem _ hj)]

end UpToFirst

end SwitchOs
