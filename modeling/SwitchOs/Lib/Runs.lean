import Mathlib.Data.List.Basic
import Mathlib.Tactic.Common

/-!
# Runs of labelled systems

A system is a labelled step relation. `Runs step s es t`: the events `es`, one after the other, lead
from `s` to `t`. `Runs.invariant` carries an invariant along a run and `Simulates.runs` carries a
simulation, `SimulatesBy.runs` one in which a step may stand for several or for none; `Where C step`
are the steps that meet a condition, so that a statement about the runs whose steps all meet it is a
statement about `Runs (Where C step)`.
-/

namespace SwitchOs

variable {σ τ ε : Type}

/-- The events of the list lead from the first state to the second. -/
inductive Runs (step : σ → ε → σ → Prop) : σ → List ε → σ → Prop
  | nil (s : σ) : Runs step s [] s
  | cons {s t u : σ} {e : ε} {es : List ε} :
      step s e t → Runs step t es u → Runs step s (e :: es) u

/-- The steps that meet the condition `C`. -/
def Where (C : σ → ε → Prop) (step : σ → ε → σ → Prop) (s : σ) (e : ε) (t : σ) : Prop :=
  C s e ∧ step s e t

namespace Runs

variable {step : σ → ε → σ → Prop} {s t u : σ} {e : ε} {es fs : List ε}

theorem append (h : Runs step s es t) (h' : Runs step t fs u) : Runs step s (es ++ fs) u := by
  induction h with
  | nil => exact h'
  | cons hstep _ ih => exact .cons hstep (ih h')

theorem snoc (h : Runs step s es t) (h' : step t e u) : Runs step s (es ++ [e]) u :=
  h.append (.cons h' (.nil u))

theorem mono {step' : σ → ε → σ → Prop} (hsub : ∀ s e t, step s e t → step' s e t)
    (h : Runs step s es t) : Runs step' s es t := by
  induction h with
  | nil => exact .nil _
  | cons he _ ih => exact .cons (hsub _ _ _ he) ih

/-- A run of steps that all meet a condition on their events. -/
theorem where_event {C : ε → Prop} (h : Runs step s es t) (hC : ∀ e ∈ es, C e) :
    Runs (Where (fun _ e => C e) step) s es t := by
  induction h with
  | nil => exact .nil _
  | cons he _ ih =>
    exact .cons ⟨hC _ List.mem_cons_self, he⟩ (ih fun e he' => hC e (List.mem_cons_of_mem _ he'))

/-- A run taken apart at one of its events. -/
theorem split (h : Runs step s (es ++ e :: fs) u) :
    ∃ t t', Runs step s es t ∧ step t e t' ∧ Runs step t' fs u := by
  induction es generalizing s with
  | nil =>
    cases h with
    | cons he hrest => exact ⟨s, _, .nil s, he, hrest⟩
  | cons d es ih =>
    cases h with
    | cons hd hrest =>
      obtain ⟨t, t', hes, he, hfs⟩ := ih hrest
      exact ⟨t, t', .cons hd hes, he, hfs⟩

/-- A run taken apart between two of its events. -/
theorem of_append (h : Runs step s (es ++ fs) u) : ∃ t, Runs step s es t ∧ Runs step t fs u := by
  induction es generalizing s with
  | nil => exact ⟨s, .nil s, h⟩
  | cons d es ih =>
    cases h with
    | cons hd hrest =>
      obtain ⟨t, hes, hfs⟩ := ih hrest
      exact ⟨t, .cons hd hes, hfs⟩

/-- What holds at the start and is kept by every step holds at the end of every run. -/
theorem invariant {I : σ → Prop} (hstep : ∀ s e t, I s → step s e t → I t)
    (h : Runs step s es t) (hs : I s) : I t := by
  induction h with
  | nil => exact hs
  | cons he _ ih => exact ih (hstep _ _ _ hs he)

/-- A run of steps that all meet a condition, since the invariant implies it. -/
theorem where_of_invariant {C : σ → ε → Prop} {I : σ → Prop}
    (hC : ∀ s e t, I s → step s e t → C s e) (hstep : ∀ s e t, I s → Where C step s e t → I t)
    (h : Runs step s es t) (hs : I s) : Runs (Where C step) s es t := by
  induction h with
  | nil => exact .nil _
  | cons he _ ih =>
    have hwhere : Where C step _ _ _ := ⟨hC _ _ _ hs he, he⟩
    exact .cons hwhere (ih (hstep _ _ _ hs hwhere))

end Runs

/-- Every step from related states is matched, under the same event, by a step to related states. -/
def Simulates (step : σ → ε → σ → Prop) (step' : τ → ε → τ → Prop) (R : σ → τ → Prop) : Prop :=
  ∀ s a e t, R s a → step s e t → ∃ b, step' a e b ∧ R t b

/-- Every run from related states is matched by a run with the same events. -/
theorem Simulates.runs {step : σ → ε → σ → Prop} {step' : τ → ε → τ → Prop} {R : σ → τ → Prop}
    (hsim : Simulates step step' R) {s t : σ} {es : List ε} (h : Runs step s es t) :
    ∀ a, R s a → ∃ b, Runs step' a es b ∧ R t b := by
  induction h with
  | nil => exact fun a ha => ⟨a, .nil a, ha⟩
  | cons he _ ih =>
    intro a ha
    obtain ⟨b, hb, hR⟩ := hsim _ _ _ _ ha he
    obtain ⟨c, hc, hR'⟩ := ih b hR
    exact ⟨c, .cons hb hc, hR'⟩

/-! ## Steps matched by runs -/

section Label

variable {δ : Type}

/-- Every step from related states is matched by a run with the events that its own one stands for,
none at all if it is not seen on the other side. -/
def SimulatesBy (label : ε → List δ) (step : σ → ε → σ → Prop) (step' : τ → δ → τ → Prop)
    (R : σ → τ → Prop) : Prop :=
  ∀ s a e t, R s a → step s e t → ∃ b, Runs step' a (label e) b ∧ R t b

/-- Every run from related states is matched by a run with the events that its own ones stand
for. -/
theorem SimulatesBy.runs {label : ε → List δ} {step : σ → ε → σ → Prop} {step' : τ → δ → τ → Prop}
    {R : σ → τ → Prop} (hsim : SimulatesBy label step step' R) {s t : σ} {es : List ε}
    (h : Runs step s es t) :
    ∀ a, R s a → ∃ b, Runs step' a (es.flatMap label) b ∧ R t b := by
  induction h with
  | nil => exact fun a ha => ⟨a, .nil a, ha⟩
  | cons he _ ih =>
    intro a ha
    obtain ⟨b, hb, hR⟩ := hsim _ _ _ _ ha he
    obtain ⟨c, hc, hR'⟩ := ih b hR
    refine ⟨c, ?_, hR'⟩
    rw [List.flatMap_cons]
    exact hb.append hc

end Label

end SwitchOs
