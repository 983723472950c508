import Mathlib.Logic.Basic
import Mathlib.Tactic.Common

/-!
# Programs that fail, keep their state, and may not return

`Prog ε σ α` is the meaning of a function body that works on a state `σ` in place: it returns a
value or leaves early with an error `ε`, and what it did to the state before leaving stays done;
`none` is a body that never returns. There is no rollback, so every rule below speaks of the state
in the error case too.

* `bind_ok`, `bind_error`, `bind_none`: running a body up to a step whose result is known;
* `forEach`: a loop over a list; `forEach_ok` and `forEach_error` are its rules, with an invariant
  over the elements already done;
* `Preserves`: what every run of a body keeps, with a rule for each way to build one;
* `Returns`: the body returns from every state, with a rule for each way to build one;
* `ComesTo`: a triple whose result is known, for a body that does the same from all the states in
  which what it reads is known.
-/

namespace SwitchOs

/-- A body on the state `σ`: `none` if it does not return, else its result and the state it left. -/
def Prog (ε σ α : Type) : Type := σ → Option (Except ε α × σ)

namespace Prog

variable {ε σ τ α β γ : Type}

instance : Monad (Prog ε σ) where
  pure a := fun s => some (.ok a, s)
  bind x f := fun s =>
    match x s with
    | none => none
    | some (.ok a, s') => f a s'
    | some (.error e, s') => some (.error e, s')

/-- Read the state. -/
def get : Prog ε σ σ := fun s => some (.ok s, s)

/-- Change the state. -/
def modify (f : σ → σ) : Prog ε σ Unit := fun s => some (.ok (), f s)

/-- Leave with an error. -/
def throw (e : ε) : Prog ε σ α := fun s => some (.error e, s)

/-- Never return. -/
def diverge : Prog ε σ α := fun _ => none

/-- Leave with an error unless `c` holds. -/
def check (c : Bool) (e : ε) : Prog ε σ Unit := if c then pure () else throw e

/-- A pure fallible computation, run where the state is at hand. -/
def lift (r : Except ε α) : Prog ε σ α := fun s => some (r, s)

/-- Run `cleanup` where the body leaves with an error. -/
def orCleanup (x : Prog ε σ α) (cleanup : σ → σ) : Prog ε σ α := fun s =>
  match x s with
  | none => none
  | some (.ok a, s') => some (.ok a, s')
  | some (.error e, s') => some (.error e, cleanup s')

/-- Run `cleanup` at the end of the body, whether it succeeds or not. -/
def andCleanup (x : Prog ε σ α) (cleanup : σ → σ) : Prog ε σ α := fun s =>
  match x s with
  | none => none
  | some (r, s') => some (r, cleanup s')

/-- Run the body and say whether it succeeded. -/
def succeeds (x : Prog ε σ α) : Prog ε σ Bool := fun s =>
  match x s with
  | none => none
  | some (.ok _, s') => some (.ok true, s')
  | some (.error _, s') => some (.ok false, s')

/-- Run a body on local variables, which start out as `init` and are gone at the end. -/
def withLocals (init : τ) (x : Prog ε τ α) : Prog ε σ α := fun s =>
  match x init with
  | none => none
  | some (r, _) => some (r, s)

/-- Run a body on a part of the state. -/
def zoom (read : σ → τ) (write : τ → σ → σ) (x : Prog ε τ α) : Prog ε σ α := fun s =>
  match x (read s) with
  | none => none
  | some (r, t) => some (r, write t s)

/-- A `for` loop over the elements of a list. -/
def forEach (body : γ → Prog ε σ Unit) : List γ → Prog ε σ Unit
  | [] => pure ()
  | c :: cs => do
    body c
    forEach body cs

/-! ## Running a body step by step -/

variable {x : Prog ε σ α} {f : α → Prog ε σ β} {s s' : σ} {a : α} {e : ε}

@[simp] theorem pure_apply (a : α) (s : σ) : (pure a : Prog ε σ α) s = some (.ok a, s) := rfl

theorem bind_ok (h : x s = some (.ok a, s')) : (x >>= f) s = f a s' := by
  show (match x s with
    | none => none
    | some (.ok a, s') => f a s'
    | some (.error e, s') => some (.error e, s')) = _
  rw [h]

theorem bind_error (h : x s = some (.error e, s')) : (x >>= f) s = some (.error e, s') := by
  show (match x s with
    | none => none
    | some (.ok a, s') => f a s'
    | some (.error e, s') => some (.error e, s')) = _
  rw [h]

theorem bind_none (h : x s = none) : (x >>= f) s = none := by
  show (match x s with
    | none => none
    | some (.ok a, s') => f a s'
    | some (.error e, s') => some (.error e, s')) = _
  rw [h]

@[simp] theorem bind_pure_apply (a : α) (f : α → Prog ε σ β) (s : σ) :
    ((pure a : Prog ε σ α) >>= f) s = f a s := rfl

@[simp] theorem bind_get_apply (f : σ → Prog ε σ β) (s : σ) : (get >>= f) s = f s s := rfl

@[simp] theorem bind_modify_apply (g : σ → σ) (f : Unit → Prog ε σ β) (s : σ) :
    (modify g >>= f) s = f () (g s) := rfl

@[simp] theorem modify_apply (g : σ → σ) (s : σ) :
    (modify g : Prog ε σ Unit) s = some (.ok (), g s) := rfl

@[simp] theorem bind_throw_apply (e : ε) (f : α → Prog ε σ β) (s : σ) :
    ((throw e : Prog ε σ α) >>= f) s = some (.error e, s) := rfl

@[simp] theorem lift_ok_apply (a : α) (f : α → Prog ε σ β) (s : σ) :
    (lift (.ok a) >>= f) s = f a s := rfl

@[simp] theorem lift_error_apply (e : ε) (f : α → Prog ε σ β) (s : σ) :
    (lift (.error e) >>= f) s = some (.error e, s) := rfl

theorem bind_check_true {c : Bool} (h : c = true) (e : ε) (f : Unit → Prog ε σ β) (s : σ) :
    (check c e >>= f) s = f () s := by
  subst h; rfl

theorem bind_check_false {c : Bool} (h : c = false) (e : ε) (f : Unit → Prog ε σ β) (s : σ) :
    (check c e >>= f) s = some (.error e, s) := by
  subst h; rfl

theorem orCleanup_ok {cleanup : σ → σ} (h : x s = some (.ok a, s')) :
    x.orCleanup cleanup s = some (.ok a, s') := by
  rw [orCleanup, h]

theorem orCleanup_error {cleanup : σ → σ} (h : x s = some (.error e, s')) :
    x.orCleanup cleanup s = some (.error e, cleanup s') := by
  rw [orCleanup, h]

theorem orCleanup_none {cleanup : σ → σ} (h : x s = none) : x.orCleanup cleanup s = none := by
  rw [orCleanup, h]

/-- Only the rest of the body is left to be cleaned up after. -/
theorem orCleanup_congr {y : Prog ε σ α} {cleanup : σ → σ} {t : σ} (h : x s = y t) :
    x.orCleanup cleanup s = y.orCleanup cleanup t := by
  rw [orCleanup, orCleanup, h]

theorem andCleanup_eq {cleanup : σ → σ} {r : Except ε α} (h : x s = some (r, s')) :
    x.andCleanup cleanup s = some (r, cleanup s') := by
  rw [andCleanup, h]

theorem withLocals_eq {init t : τ} {x : Prog ε τ α} {r : Except ε α} (h : x init = some (r, t)) :
    withLocals init x s = some (r, s) := by
  rw [withLocals, h]

theorem zoom_eq {read : σ → τ} {write : τ → σ → σ} {x : Prog ε τ α} {r : Except ε α} {t : τ}
    (h : x (read s) = some (r, t)) : zoom read write x s = some (r, write t s) := by
  rw [zoom, h]

theorem zoom_eq_ok {read : σ → τ} {write : τ → σ → σ} {x : Prog ε τ α} {a : α} {s' : σ}
    (h : zoom read write x s = some (.ok a, s')) :
    ∃ t, x (read s) = some (.ok a, t) ∧ s' = write t s := by
  rw [zoom] at h
  split at h
  case h_1 => cases h
  case h_2 r t hrun =>
    obtain ⟨rfl, rfl⟩ := Prod.mk.inj (Option.some.inj h)
    exact ⟨t, hrun, rfl⟩

theorem check_ok {c : Bool} (h : c = true) : check c e s = some (.ok (), s) := by
  subst h; rfl

theorem check_error {c : Bool} (h : c = false) : check c e s = some (.error e, s) := by
  subst h; rfl

theorem check_eq_ok {c : Bool} {u : Unit} (h : check c e s = some (.ok u, s')) :
    c = true ∧ s' = s := by
  cases c with
  | true => exact ⟨rfl, (congrArg Prod.snd (Option.some.inj h)).symm⟩
  | false => cases h

/-- What a sequence that returns did: the first part returned, and so did the rest after it. -/
theorem bind_eq_ok {b : β} (h : (x >>= f) s = some (.ok b, s')) :
    ∃ a t, x s = some (.ok a, t) ∧ f a t = some (.ok b, s') := by
  rcases hx : x s with _ | ⟨r, t⟩
  · rw [bind_none hx] at h
    cases h
  · cases r with
    | ok a => exact ⟨a, t, rfl, by rwa [bind_ok hx] at h⟩
    | error e =>
      rw [bind_error hx] at h
      cases h

theorem bind_check_eq_ok {c : Bool} {b : β} {f : Unit → Prog ε σ β}
    (h : (check c e >>= f) s = some (.ok b, s')) : c = true ∧ f () s = some (.ok b, s') := by
  cases c with
  | true => exact ⟨rfl, h⟩
  | false => cases h

theorem bind_congr {g : α → Prog ε σ β} (h : ∀ a t, f a t = g a t) : (x >>= f) s = (x >>= g) s := by
  have hfg : f = g := funext fun a => funext fun t => h a t
  rw [hfg]

theorem bind_congr_left {y : Prog ε σ α} (h : x s = y s) : (x >>= f) s = (y >>= f) s := by
  rcases hy : y s with _ | ⟨r, t⟩
  · rw [bind_none hy, bind_none (h.trans hy)]
  · cases r with
    | ok a => rw [bind_ok hy, bind_ok (h.trans hy)]
    | error e => rw [bind_error hy, bind_error (h.trans hy)]

theorem bind_assoc_apply (g : β → Prog ε σ γ) :
    ((x >>= f) >>= g) s = (x >>= fun a => f a >>= g) s := by
  rcases hx : x s with _ | ⟨r, t⟩
  · rw [bind_none hx, bind_none (bind_none hx)]
  · cases r with
    | ok a =>
      rw [bind_ok hx]
      rcases hf : f a t with _ | ⟨r, u⟩
      · rw [bind_none hf, bind_none (by rwa [bind_ok hx])]
      · cases r with
        | ok b => rw [bind_ok hf, bind_ok (by rwa [bind_ok hx])]
        | error e => rw [bind_error hf, bind_error (by rwa [bind_ok hx])]
    | error e => rw [bind_error hx, bind_error (bind_error hx)]

theorem bind_pure_unit (x : Prog ε σ Unit) : (x >>= fun _ => pure ()) = x := by
  funext s
  cases hrun : x s with
  | none => exact bind_none hrun
  | some p =>
    obtain ⟨r, t⟩ := p
    cases r with
    | ok u => exact bind_ok hrun
    | error e => exact bind_error hrun

theorem seq_assoc (x y : Prog ε σ Unit) (z : Prog ε σ γ) :
    ((x >>= fun _ => y) >>= fun _ => z) = (x >>= fun _ => y >>= fun _ => z) :=
  funext fun _ => bind_assoc_apply _

/-! ## Loops -/

variable {body : γ → Prog ε σ Unit}

@[simp] theorem forEach_nil : forEach body [] s = some (.ok (), s) := rfl

theorem forEach_cons (c : γ) (cs : List γ) :
    forEach body (c :: cs) s = (body c >>= fun _ => forEach body cs) s := rfl

theorem forEach_singleton (c : γ) (s : σ) : forEach body [c] s = body c s :=
  congrFun (bind_pure_unit (body c)) s

theorem forEach_nil_bind (g : Unit → Prog ε σ β) : (forEach body [] >>= g) = g () := rfl

theorem forEach_cons_bind (c : γ) (cs : List γ) (g : Unit → Prog ε σ β) :
    (forEach body (c :: cs) >>= g) = (body c >>= fun _ => forEach body cs >>= g) :=
  funext fun _ => bind_assoc_apply g

theorem forEach_append (cs ds : List γ) :
    ∀ s, forEach body (cs ++ ds) s = (forEach body cs >>= fun _ => forEach body ds) s := by
  induction cs with
  | nil => intro s; rfl
  | cons c cs ih =>
    intro s
    have hcons : forEach body (c :: cs) = (body c >>= fun _ => forEach body cs) := rfl
    rw [List.cons_append, forEach_cons, hcons, bind_assoc_apply]
    exact bind_congr fun _ t => ih t

/-- A loop whose body is itself a loop over a list is one loop over all the elements. -/
theorem forEach_flatMap {δ : Type} (g : δ → List γ) (ds : List δ) :
    ∀ s, forEach body (ds.flatMap g) s = forEach (fun d => forEach body (g d)) ds s := by
  induction ds with
  | nil => intro s; rfl
  | cons d ds ih =>
    intro s
    rw [List.flatMap_cons, forEach_append, forEach_cons]
    exact bind_congr fun _ t => ih t

theorem forEach_congr {body' : γ → Prog ε σ Unit} (cs : List γ)
    (h : ∀ c ∈ cs, ∀ s, body c s = body' c s) : ∀ s, forEach body cs s = forEach body' cs s := by
  induction cs with
  | nil => intro s; rfl
  | cons c cs ih =>
    intro s
    have hc : body c = body' c := funext fun t => h c List.mem_cons_self t
    have hcs : forEach body cs = forEach body' cs :=
      funext fun t => ih (fun d hd => h d (List.mem_cons_of_mem _ hd)) t
    rw [forEach_cons, forEach_cons, hc, hcs]

/-- The loop rule: if every iteration carries the invariant from the elements done to one more, the
loop returns with the invariant of the whole list. -/
theorem forEach_ok (Inv : List γ → σ → Prop) :
    ∀ (cs done : List γ) (s : σ), Inv done s →
      (∀ pre c post t, cs = pre ++ c :: post → Inv (done ++ pre) t →
        ∃ t', body c t = some (.ok (), t') ∧ Inv (done ++ pre ++ [c]) t') →
      ∃ s', forEach body cs s = some (.ok (), s') ∧ Inv (done ++ cs) s' := by
  intro cs
  induction cs with
  | nil =>
    intro done s h _
    exact ⟨s, rfl, by simpa using h⟩
  | cons c cs ih =>
    intro done s h step
    obtain ⟨t, hbody, ht⟩ := step [] c cs s rfl (by simpa using h)
    obtain ⟨s', hrest, hs'⟩ := ih (done ++ [c]) t (by simpa using ht) (by
      intro pre d post u hcs hu
      obtain ⟨u', hd, hu'⟩ := step (c :: pre) d post u (by simp [hcs]) (by simpa using hu)
      exact ⟨u', hd, by simpa using hu'⟩)
    exact ⟨s', by rw [forEach_cons, bind_ok hbody]; exact hrest, by simpa using hs'⟩

/-- The same, of a loop that is known to have returned. -/
theorem forEach_eq_ok (Inv : List γ → σ → Prop)
    (step : ∀ done c t t', Inv done t → body c t = some (.ok (), t') → Inv (done ++ [c]) t') :
    ∀ (cs done : List γ) {s s' : σ}, Inv done s → forEach body cs s = some (.ok (), s') →
      Inv (done ++ cs) s' := by
  intro cs
  induction cs with
  | nil =>
    intro done s s' h hrun
    obtain rfl : s = s' := congrArg Prod.snd (Option.some.inj hrun)
    rwa [List.append_nil]
  | cons c cs ih =>
    intro done s s' h hrun
    rw [forEach_cons] at hrun
    obtain ⟨u, t, hbody, hrest⟩ := bind_eq_ok hrun
    have hdone := ih (done ++ [c]) (step done c s t h hbody) hrest
    rwa [List.append_assoc] at hdone

/-- A loop whose iterations each return, with the invariant one element further or, on an error, where
it was: it returns with the invariant of the elements that it has done. -/
theorem forEach_stops (Inv : List γ → σ → Prop) :
    ∀ (cs done : List γ) (s : σ), Inv done s →
      (∀ pre c post t, cs = pre ++ c :: post → Inv (done ++ pre) t →
        ∃ r t', body c t = some (r, t') ∧ (r = .ok () → Inv (done ++ pre ++ [c]) t') ∧
          (r ≠ .ok () → Inv (done ++ pre) t')) →
      ∃ r s' pre post, cs = pre ++ post ∧ forEach body cs s = some (r, s') ∧ Inv (done ++ pre) s' ∧
        (r = .ok () → post = []) := by
  intro cs
  induction cs with
  | nil =>
    intro done s h _
    exact ⟨.ok (), s, [], [], rfl, rfl, by simpa using h, fun _ => rfl⟩
  | cons c cs ih =>
    intro done s h step
    obtain ⟨r, t, hbody, hok, hstop⟩ := step [] c cs s rfl (by simpa using h)
    cases r with
    | error e =>
      have ht : Inv (done ++ []) t := hstop (fun herr => by cases herr)
      exact ⟨.error e, t, [], c :: cs, rfl, by rw [forEach_cons, bind_error hbody], ht,
        fun herr => by cases herr⟩
    | ok u =>
      have ht : Inv (done ++ [c]) t := by simpa using hok rfl
      obtain ⟨r, s', pre, post, hsplit, hrun, hinv, hpost⟩ := ih (done ++ [c]) t ht
        fun pre d post t' hcs hpre => by
          have hstep := step (c :: pre) d post t' (by rw [hcs, List.cons_append])
          simpa using hstep (by simpa using hpre)
      exact ⟨r, s', c :: pre, post, by rw [hsplit, List.cons_append],
        by rw [forEach_cons, bind_ok hbody, hrun], by simpa using hinv, hpost⟩

/-- A loop that comes to an element whose body never returns does not return either. -/
theorem forEach_none {c : γ} :
    ∀ (cs : List γ) (s : σ), c ∈ cs → (∀ t, body c t = none) →
      (∀ d ∈ cs, ∀ t, body d t = none ∨ ∃ t', body d t = some (.ok (), t')) →
      forEach body cs s = none := by
  intro cs
  induction cs with
  | nil => intro s hc; cases hc
  | cons d cs ih =>
    intro s hc hnone hrun
    rw [forEach_cons]
    rcases List.mem_cons.mp hc with rfl | hmem
    · exact bind_none (hnone s)
    · rcases hrun d List.mem_cons_self s with hd | ⟨t, hd⟩
      · exact bind_none hd
      · rw [bind_ok hd]
        exact ih t hmem hnone fun e he => hrun e (List.mem_cons_of_mem _ he)

/-- The rule for a loop that stops: the iterations before `c` carry the invariant, and the one at
`c` fails. -/
theorem forEach_error (Inv : List γ → σ → Prop) {Post : σ → Prop} (pre : List γ) (c : γ)
    (post : List γ) (s : σ) (h : Inv [] s)
    (step : ∀ pre' d post' t, pre = pre' ++ d :: post' → Inv pre' t →
      ∃ t', body d t = some (.ok (), t') ∧ Inv (pre' ++ [d]) t')
    (fail : ∀ t, Inv pre t → ∃ t', body c t = some (.error e, t') ∧ Post t') :
    ∃ s', forEach body (pre ++ c :: post) s = some (.error e, s') ∧ Post s' := by
  obtain ⟨t, hpre, ht⟩ := forEach_ok Inv pre [] s h (by
    intro pre' d post' u hpre hu
    simpa using step pre' d post' u hpre (by simpa using hu))
  obtain ⟨s', hc, hs'⟩ := fail t (by simpa using ht)
  exact ⟨s', by rw [forEach_append, bind_ok hpre, forEach_cons, bind_error hc], hs'⟩

/-- What every iteration that returns has checked holds of all the elements. -/
theorem forall_of_forEach_ok {Q : γ → Prop} (hbody : ∀ c s s', body c s = some (.ok (), s') → Q c)
    {cs : List γ} {s s' : σ} (h : forEach body cs s = some (.ok (), s')) : ∀ c ∈ cs, Q c := by
  refine forEach_eq_ok (fun done _ => ∀ c ∈ done, Q c) (fun done c t t' hdone hc => ?_) cs [] nofun h
  intro d hd
  rcases List.mem_append.mp hd with hd | hd
  · exact hdone d hd
  · exact List.mem_singleton.mp hd ▸ hbody c t t' hc

/-- The body of a loop that looks for elements and records one, under the invariant `I`: elsewhere it
leaves the record alone, and it fails at an element that it looks for if something is recorded. -/
structure Records {β : Type} (I : σ → Prop) (body : γ → Prog ε σ Unit) (p : γ → Bool) (v : γ → β)
    (record : σ → β) (unset : β) : Prop where
  other : ∀ {c s s'}, I s → p c = false → body c s = some (.ok (), s') →
    I s' ∧ record s' = record s
  found : ∀ {c s s'}, I s → p c = true → body c s = some (.ok (), s') →
    I s' ∧ record s = unset ∧ record s' = v c

/-- A loop that records returns with the last one recorded, and only unset values before it. -/
theorem Records.forEach_ok {β : Type} {I : σ → Prop} {p : γ → Bool} {v : γ → β} {record : σ → β}
    {unset : β} (h : Records I body p v record unset) :
    ∀ {cs : List γ} {s s' : σ}, I s → forEach body cs s = some (.ok (), s') →
      I s' ∧ ∃ init, record s :: (cs.filter p).map v = init ++ [record s'] ∧
        ∀ a ∈ init, a = unset := by
  intro cs
  induction cs with
  | nil =>
    intro s s' hs hrun
    obtain rfl : s = s' := congrArg Prod.snd (Option.some.inj hrun)
    exact ⟨hs, [], rfl, nofun⟩
  | cons c cs ih =>
    intro s s' hs hrun
    rw [forEach_cons] at hrun
    obtain ⟨_, t, hc, hcs⟩ := bind_eq_ok hrun
    by_cases hp : p c = true
    · obtain ⟨ht, hunset, hrecord⟩ := h.found hs hp hc
      obtain ⟨hs', init, hinit, hall⟩ := ih ht hcs
      refine ⟨hs', record s :: init, ?_, ?_⟩
      · rw [List.filter_cons_of_pos hp, List.map_cons, ← hrecord, hinit, List.cons_append]
      · intro a ha
        rcases List.mem_cons.mp ha with rfl | hmem
        · exact hunset
        · exact hall a hmem
    · obtain ⟨ht, hrecord⟩ := h.other hs (Bool.eq_false_iff.mpr hp) hc
      obtain ⟨hs', init, hinit, hall⟩ := ih ht hcs
      refine ⟨hs', init, ?_, hall⟩
      rw [List.filter_cons_of_neg hp, ← hrecord, hinit]

/-- The loop rule for an index that runs from 0 to `n`. -/
theorem forEach_range_ok {f : ℕ → Prog ε σ Unit} (Inv : ℕ → σ → Prop) (n : ℕ) (s : σ)
    (h : Inv 0 s)
    (step : ∀ i < n, ∀ t, Inv i t → ∃ t', f i t = some (.ok (), t') ∧ Inv (i + 1) t') :
    ∃ s', forEach f (List.range n) s = some (.ok (), s') ∧ Inv n s' := by
  induction n with
  | zero => exact ⟨s, rfl, h⟩
  | succ n ih =>
    obtain ⟨t, hrun, ht⟩ := ih fun i hi => step i (by omega)
    obtain ⟨t', hbody, ht'⟩ := step n (by omega) t ht
    refine ⟨t', ?_, ht'⟩
    rw [List.range_succ, forEach_append, bind_ok hrun, forEach_cons, bind_ok hbody]
    rfl

/-- The rule for an index loop that is known to have returned. -/
theorem forEach_range_eq_ok {body : ℕ → Prog ε σ Unit} (Inv : ℕ → σ → Prop) {n : ℕ} {s s' : σ}
    {u : Unit} (h : Inv 0 s) (hrun : forEach body (List.range n) s = some (.ok u, s'))
    (step : ∀ i < n, ∀ t t', Inv i t → body i t = some (.ok (), t') → Inv (i + 1) t') :
    Inv n s' := by
  induction n generalizing s' with
  | zero =>
    obtain rfl : s' = s := (congrArg Prod.snd (Option.some.inj hrun)).symm
    exact h
  | succ n ih =>
    rw [List.range_succ, forEach_append] at hrun
    obtain ⟨_, t, hpre, hlast⟩ := bind_eq_ok hrun
    obtain ⟨_, t', hbody, hnil⟩ := bind_eq_ok (x := body n) hlast
    obtain rfl : s' = t' := (congrArg Prod.snd (Option.some.inj hnil)).symm
    exact step n (by omega) t _ (ih hpre fun i hi => step i (by omega)) hbody

/-- The rule for an index loop that fails at index `j`. -/
theorem forEach_range_error {body : ℕ → Prog ε σ Unit} (Inv : ℕ → σ → Prop) {Post : σ → Prop}
    {n j : ℕ} (hj : j < n) (s : σ) (h : Inv 0 s)
    (step : ∀ i < j, ∀ t, Inv i t → ∃ t', body i t = some (.ok (), t') ∧ Inv (i + 1) t')
    (fail : ∀ t, Inv j t → ∃ t', body j t = some (.error e, t') ∧ Post t') :
    ∃ s', forEach body (List.range n) s = some (.error e, s') ∧ Post s' := by
  obtain ⟨t, hrun, ht⟩ := forEach_range_ok Inv j s h step
  obtain ⟨t', hbody, ht'⟩ := fail t ht
  refine ⟨t', ?_, ht'⟩
  have hsplit : List.range n = List.range j ++ j :: (List.range' (j + 1) (n - j - 1)) := by
    have hcons : List.range' j (n - j) = j :: List.range' (j + 1) (n - j - 1) := by
      rw [show n - j = (n - j - 1) + 1 by omega, List.range'_succ]
      rfl
    rw [← hcons, List.range_eq_range', List.range_eq_range']
    have happ := List.range'_append_1 (s := 0) (m := j) (n := n - j)
    rw [Nat.zero_add, show j + (n - j) = n by omega] at happ
    rw [happ]
  rw [hsplit, forEach_append, bind_ok hrun, forEach_cons, bind_error hbody]

/-! ## What every run of a body keeps -/

/-- The body keeps `I`, whether it returns or leaves with an error. -/
def Preserves (I : σ → Prop) (x : Prog ε σ α) : Prop :=
  ∀ s r s', I s → x s = some (r, s') → I s'

section Preserves

variable {I : σ → Prop}

theorem preserves_of_state {r : Except ε α} (h : ∀ s, x s = some (r, s)) : Preserves I x := by
  intro s r' s' hs hx
  obtain rfl : s' = s := (congrArg Prod.snd (Option.some.inj ((h s).symm.trans hx))).symm
  exact hs

theorem preserves_pure (a : α) : Preserves I (pure a : Prog ε σ α) :=
  preserves_of_state fun s => pure_apply a s

theorem preserves_throw (e : ε) : Preserves I (throw e : Prog ε σ α) :=
  preserves_of_state fun _ => rfl

theorem preserves_lift (r : Except ε α) : Preserves I (lift r : Prog ε σ α) :=
  preserves_of_state fun _ => rfl

theorem preserves_check (c : Bool) (e : ε) : Preserves I (check c e : Prog ε σ Unit) := by
  cases c with
  | true => exact preserves_pure ()
  | false => exact preserves_throw e

theorem preserves_diverge : Preserves I (diverge : Prog ε σ α) := nofun

theorem preserves_get : Preserves I (get : Prog ε σ σ) := by
  intro s r s' hs hx
  obtain rfl : s' = s := (congrArg Prod.snd (Option.some.inj hx)).symm
  exact hs

/-- What a body reads first is a state with `I`. -/
theorem preserves_get_bind {f : σ → Prog ε σ α} (h : ∀ s, I s → Preserves I (f s)) :
    Preserves I (get >>= f) := by
  intro s r s' hs hrun
  exact h s hs s r s' hs (by rwa [bind_get_apply] at hrun)

theorem preserves_modify {f : σ → σ} (h : ∀ s, I s → I (f s)) :
    Preserves I (modify f : Prog ε σ Unit) := by
  intro s r s' hs hx
  obtain rfl : s' = f s := (congrArg Prod.snd (Option.some.inj hx)).symm
  exact h s hs

theorem preserves_bind (hx : Preserves I x) (hf : ∀ a, Preserves I (f a)) :
    Preserves I (x >>= f) := by
  intro s r s' hs hrun
  rcases hxs : x s with _ | ⟨r', t⟩
  · rw [bind_none hxs] at hrun
    cases hrun
  · have ht := hx s r' t hs hxs
    cases r' with
    | ok a =>
      rw [bind_ok hxs] at hrun
      exact hf a t r s' ht hrun
    | error e =>
      rw [bind_error hxs] at hrun
      obtain rfl : s' = t := (congrArg Prod.snd (Option.some.inj hrun)).symm
      exact ht

/-- What a lifted result leads to, if it is no error. -/
theorem preserves_lift_bind {r : Except ε α} {f : α → Prog ε σ β}
    (h : ∀ a, r = .ok a → Preserves I (f a)) : Preserves I (lift r >>= f) := by
  cases r with
  | ok a =>
    intro s r' s' hs hrun
    exact h a rfl s r' s' hs (by rwa [lift_ok_apply] at hrun)
  | error e =>
    intro s r' s' hs hrun
    rw [lift_error_apply] at hrun
    obtain rfl : s = s' := congrArg Prod.snd (Option.some.inj hrun)
    exact hs

/-- What follows a check may count on what was checked. -/
theorem preserves_check_bind {c : Bool} {f : Unit → Prog ε σ β} (e : ε)
    (hf : c = true → Preserves I (f ())) : Preserves I (check c e >>= f) := by
  cases c with
  | true => exact hf rfl
  | false => exact preserves_throw e

theorem preserves_forEach (cs : List γ) (h : ∀ c ∈ cs, Preserves I (body c)) :
    Preserves I (forEach body cs) := by
  induction cs with
  | nil => exact preserves_pure ()
  | cons c cs ih =>
    exact preserves_bind (h c List.mem_cons_self)
      fun _ => ih fun d hd => h d (List.mem_cons_of_mem _ hd)

theorem preserves_orCleanup {cleanup : σ → σ} (hx : Preserves I x) (h : ∀ s, I s → I (cleanup s)) :
    Preserves I (x.orCleanup cleanup) := by
  intro s r s' hs hrun
  rw [orCleanup] at hrun
  rcases hxs : x s with _ | ⟨r', t⟩
  · rw [hxs] at hrun
    cases hrun
  · have ht := hx s r' t hs hxs
    rw [hxs] at hrun
    cases r' with
    | ok a =>
      obtain rfl : s' = t := (congrArg Prod.snd (Option.some.inj hrun)).symm
      exact ht
    | error e =>
      obtain rfl : s' = cleanup t := (congrArg Prod.snd (Option.some.inj hrun)).symm
      exact h t ht

theorem preserves_succeeds (hx : Preserves I x) : Preserves I (succeeds x) := by
  intro s r s' hs hrun
  rw [succeeds] at hrun
  rcases hxs : x s with _ | ⟨r', t⟩
  · rw [hxs] at hrun
    cases hrun
  · have ht := hx s r' t hs hxs
    rw [hxs] at hrun
    have hs' : s' = t := by
      cases r' with
      | ok a => exact (congrArg Prod.snd (Option.some.inj hrun)).symm
      | error e => exact (congrArg Prod.snd (Option.some.inj hrun)).symm
    rw [hs']
    exact ht

/-- A body on a part of the state keeps `I` if it keeps `J` of the part. -/
theorem preserves_zoom {J : τ → Prop} {read : σ → τ} {write : τ → σ → σ} {x : Prog ε τ α}
    (hx : Preserves J x) (hread : ∀ s, I s → J (read s))
    (hwrite : ∀ s t, I s → J t → I (write t s)) : Preserves I (zoom read write x) := by
  intro s r s' hs hrun
  rcases hxs : x (read s) with _ | ⟨r', t⟩
  · rw [zoom, hxs] at hrun
    cases hrun
  · rw [zoom_eq hxs] at hrun
    obtain rfl : s' = write t s := (congrArg Prod.snd (Option.some.inj hrun)).symm
    exact hwrite s t hs (hx _ _ _ (hread s hs) hxs)

end Preserves

/-! ## Bodies that return -/

/-- The body returns from every state, with a result or an error. -/
def Returns (x : Prog ε σ α) : Prop := ∀ s, ∃ r s', x s = some (r, s')

theorem returns_pure (a : α) : Returns (pure a : Prog ε σ α) := fun s => ⟨.ok a, s, rfl⟩

theorem returns_throw (e : ε) : Returns (throw e : Prog ε σ α) := fun s => ⟨.error e, s, rfl⟩

theorem returns_get : Returns (get : Prog ε σ σ) := fun s => ⟨.ok s, s, rfl⟩

theorem returns_modify (f : σ → σ) : Returns (modify f : Prog ε σ Unit) :=
  fun s => ⟨.ok (), f s, rfl⟩

theorem returns_lift (r : Except ε α) : Returns (lift r : Prog ε σ α) := fun s => ⟨r, s, rfl⟩

theorem returns_check (c : Bool) (e : ε) : Returns (check c e : Prog ε σ Unit) := by
  cases c with
  | true => exact returns_pure ()
  | false => exact returns_throw e

theorem returns_bind (hx : Returns x) (hf : ∀ a, Returns (f a)) : Returns (x >>= f) := by
  intro s
  obtain ⟨r, t, hrun⟩ := hx s
  cases r with
  | ok a =>
    rw [bind_ok hrun]
    exact hf a t
  | error e => exact ⟨.error e, t, bind_error hrun⟩

theorem returns_forEach (cs : List γ) (h : ∀ c ∈ cs, Returns (body c)) :
    Returns (forEach body cs) := by
  induction cs with
  | nil => exact returns_pure ()
  | cons c cs ih =>
    exact returns_bind (h c List.mem_cons_self) fun _ => ih fun d hd => h d (List.mem_cons_of_mem _ hd)

theorem returns_succeeds (hx : Returns x) : Returns (succeeds x) := by
  intro s
  obtain ⟨r, t, hrun⟩ := hx s
  rw [succeeds, hrun]
  cases r with
  | ok a => exact ⟨.ok true, t, rfl⟩
  | error e => exact ⟨.ok false, t, rfl⟩

theorem returns_zoom {read : σ → τ} {write : τ → σ → σ} {x : Prog ε τ α} (hx : Returns x) :
    Returns (zoom read write x) := by
  intro s
  obtain ⟨r, t, hrun⟩ := hx (read s)
  exact ⟨r, _, zoom_eq hrun⟩

/-! ## Bodies whose result is known -/

/-- From every state with `P`, the body comes to the result `r`, in a state with `Q`. -/
def ComesTo (P : σ → Prop) (x : Prog ε σ α) (r : Except ε α) (Q : σ → Prop) : Prop :=
  ∀ s, P s → ∃ s', x s = some (r, s') ∧ Q s'

section ComesTo

variable {P Q R : σ → Prop} {r : Except ε β}

theorem ComesTo.weaken {r : Except ε α} (h : ComesTo P x r Q) (hQ : ∀ s, Q s → R s) :
    ComesTo P x r R := fun s hs => (h s hs).imp fun s' h' => ⟨h'.1, hQ s' h'.2⟩

theorem comesTo_modify {f : σ → σ} (h : ∀ s, P s → Q (f s)) :
    ComesTo P (modify f : Prog ε σ Unit) (.ok ()) Q := fun s hs => ⟨f s, rfl, h s hs⟩

theorem ComesTo.bind (hx : ComesTo P x (.ok a) Q) (hf : ComesTo Q (f a) r R) :
    ComesTo P (x >>= f) r R := by
  intro s hs
  obtain ⟨t, hrun, ht⟩ := hx s hs
  rw [bind_ok hrun]
  exact hf t ht

/-- Where the value does not matter. -/
theorem ComesTo.seq {y : Prog ε σ β} (hx : ComesTo P x (.ok a) Q) (hy : ComesTo Q y r R) :
    ComesTo P (x >>= fun _ => y) r R := hx.bind hy

theorem ComesTo.bind_error (hx : ComesTo P x (.error e) Q) : ComesTo P (x >>= f) (.error e) Q := by
  intro s hs
  obtain ⟨t, hrun, ht⟩ := hx s hs
  exact ⟨t, Prog.bind_error hrun, ht⟩

/-- What the body reads of its state is known there. -/
theorem comesTo_get {f : σ → Prog ε σ β} (h : ∀ s, P s → ComesTo P (f s) r Q) :
    ComesTo P (get >>= f) r Q := fun s hs => h s hs s hs

theorem comesTo_check_true {c : Bool} {f : Unit → Prog ε σ β} (hc : c = true)
    (hf : ComesTo P (f ()) r Q) : ComesTo P (check c e >>= f) r Q := by
  intro s hs
  rw [bind_check_true hc]
  exact hf s hs

theorem comesTo_check_false {c : Bool} {f : Unit → Prog ε σ β} (hc : c = false) :
    ComesTo P (check c e >>= f) (.error e) P :=
  fun s hs => ⟨s, bind_check_false hc e f s, hs⟩

theorem ComesTo.orCleanup_ok {cleanup : σ → σ} (hx : ComesTo P x (.ok a) Q) :
    ComesTo P (orCleanup x cleanup) (.ok a) Q :=
  fun s hs => (hx s hs).imp fun _ h => ⟨Prog.orCleanup_ok h.1, h.2⟩

theorem ComesTo.orCleanup_error {cleanup : σ → σ} (hx : ComesTo P x (.error e) Q)
    (h : ∀ s, Q s → R (cleanup s)) : ComesTo P (orCleanup x cleanup) (.error e) R := by
  intro s hs
  obtain ⟨t, hrun, ht⟩ := hx s hs
  exact ⟨cleanup t, Prog.orCleanup_error hrun, h t ht⟩

end ComesTo

end Prog

end SwitchOs
