import SwitchOs.Lib.Prog

/-!
# Two bodies that end alike

A body on one state can stand for a body on another one, a simpler one say. `InStep R E x y Q`: from
states that `R` relates the two either both do not return, or leave with one and the same error in
states that `E` relates, or return with values and states that `Q` relates. There is a rule for each
way to build a body, so that the agreement of two bodies of the same shape comes down to that of
their smallest parts.
-/

namespace SwitchOs.Prog

variable {ε σ τ α β γ δ : Type}

/-- The ends of two runs. -/
inductive EndAlike (E : σ → τ → Prop) (Q : α → β → σ → τ → Prop) :
    Option (Except ε α × σ) → Option (Except ε β × τ) → Prop
  | none : EndAlike E Q none none
  | ok {a : α} {b : β} {s : σ} {t : τ} : Q a b s t →
      EndAlike E Q (some (.ok a, s)) (some (.ok b, t))
  | error {e : ε} {s : σ} {t : τ} : E s t → EndAlike E Q (some (.error e, s)) (some (.error e, t))

/-- From states that `R` relates the two bodies end alike. -/
def InStep (R E : σ → τ → Prop) (x : Prog ε σ α) (y : Prog ε τ β) (Q : α → β → σ → τ → Prop) :
    Prop :=
  ∀ s t, R s t → EndAlike E Q (x s) (y t)

variable {R R' E : σ → τ → Prop} {Q : α → β → σ → τ → Prop} {S : γ → δ → σ → τ → Prop}
  {x : Prog ε σ α} {y : Prog ε τ β} {f : α → Prog ε σ γ} {g : β → Prog ε τ δ}

theorem EndAlike.bind {s : σ} {t : τ} (hx : EndAlike E Q (x s) (y t))
    (hf : ∀ a b s t, Q a b s t → EndAlike E S (f a s) (g b t)) :
    EndAlike E S ((x >>= f) s) ((y >>= g) t) := by
  rcases hxs : x s with _ | ⟨r, s'⟩ <;> rcases hyt : y t with _ | ⟨r', t'⟩ <;>
    rw [hxs, hyt] at hx <;> cases hx
  case none.none =>
    rw [bind_none hxs, bind_none hyt]
    exact .none
  case ok a b hq =>
    rw [bind_ok hxs, bind_ok hyt]
    exact hf a b s' t' hq
  case error e he =>
    rw [bind_error hxs, bind_error hyt]
    exact .error he

theorem EndAlike.mono {Q' : α → β → σ → τ → Prop} {o : Option (Except ε α × σ)}
    {p : Option (Except ε β × τ)} (h : EndAlike E Q o p) (hQ : ∀ a b s t, Q a b s t → Q' a b s t) :
    EndAlike E Q' o p := by
  cases h with
  | none => exact .none
  | ok hq => exact .ok (hQ _ _ _ _ hq)
  | error he => exact .error he

theorem InStep.bind (hx : InStep R E x y Q) (hf : ∀ a b, InStep (Q a b) E (f a) (g b) S) :
    InStep R E (x >>= f) (y >>= g) S :=
  fun s t hst => (hx s t hst).bind hf

theorem inStep_pure {a : α} {b : β} (h : ∀ s t, R s t → Q a b s t) :
    InStep R E (pure a : Prog ε σ α) (pure b : Prog ε τ β) Q :=
  fun s t hst => .ok (h s t hst)

theorem inStep_throw {e : ε} (h : ∀ s t, R s t → E s t) :
    InStep R E (throw e : Prog ε σ α) (throw e : Prog ε τ β) Q :=
  fun s t hst => .error (h s t hst)

theorem inStep_diverge : InStep R E (diverge : Prog ε σ α) (diverge : Prog ε τ β) Q :=
  fun _ _ _ => .none

theorem inStep_modify {f : σ → σ} {g : τ → τ} (h : ∀ s t, R s t → R' (f s) (g t)) :
    InStep R E (modify f : Prog ε σ Unit) (modify g : Prog ε τ Unit) fun _ _ => R' :=
  fun s t hst => .ok (h s t hst)

theorem inStep_check {c d : Bool} {e : ε} (hcd : c = d) (hE : ∀ s t, R s t → E s t) :
    InStep R E (check c e : Prog ε σ Unit) (check d e : Prog ε τ Unit) fun _ _ s t =>
      d = true ∧ R s t := by
  subst hcd
  cases c with
  | true => exact fun s t hst => .ok ⟨rfl, hst⟩
  | false => exact inStep_throw hE

/-- Only the left side reads its state. -/
theorem inStep_get_left {f : σ → Prog ε σ γ} {y : Prog ε τ δ}
    (h : ∀ s t, R s t → EndAlike E S (f s s) (y t)) : InStep R E (get >>= f) y S :=
  h

/-- A loop over the same elements on both sides, with a relation that every iteration keeps. -/
theorem inStep_forEach {body : γ → Prog ε σ Unit} {body' : γ → Prog ε τ Unit} (cs : List γ)
    (h : ∀ c ∈ cs, InStep R E (body c) (body' c) fun _ _ => R) :
    InStep R E (forEach body cs) (forEach body' cs) fun _ _ => R := by
  induction cs with
  | nil => exact inStep_pure fun _ _ hst => hst
  | cons c cs ih =>
    exact (h c List.mem_cons_self).bind fun _ _ => ih fun d hd => h d (List.mem_cons_of_mem _ hd)

/-- The states that two runs leave are related, if they are related at both kinds of ends. -/
theorem EndAlike.states {o : Option (Except ε α × σ)} {p : Option (Except ε β × τ)}
    (h : EndAlike R (fun _ _ => R) o p) : Option.Rel R (o.map Prod.snd) (p.map Prod.snd) := by
  cases h with
  | none => exact .none
  | ok hst => exact .some hst
  | error hst => exact .some hst

end SwitchOs.Prog
