import Freeflow.Lib.Run

/-!
# `Lib.Agree` — machines that cannot be told apart

Two computations agree when they meet the same fault, or return the same output and related states. Machines whose steps
agree have runs that agree, so whoever sees the outputs only does not know which of the two is running. The relation
between the states is the invariant of the induction.

## Contents
- `Agree` with its rules for sequences and for what is seen of a result.
- `runAll_agree`: the rule for runs.
-/

namespace Freeflow

variable {σ τ ι ο ο' σ' τ' : Type}

/-- The same fault, or the same output and related states. -/
inductive Agree (R : σ → τ → Prop) : Checked (σ × ο) → Checked (τ × ο) → Prop
  | fault (f : Fault) : Agree R (.error f) (.error f)
  | ok {s : σ} {t : τ} (h : R s t) (o : ο) : Agree R (.ok (s, o)) (.ok (t, o))

namespace Agree

variable {R : σ → τ → Prop} {x : Checked (σ × ο)} {y : Checked (τ × ο)}

/-- Where one computation returns the other one does. -/
theorem of_ok {s : σ} {o : ο} (h : Agree R (.ok (s, o)) y) : ∃ t, y = .ok (t, o) ∧ R s t := by
  cases h with
  | ok hR => exact ⟨_, rfl, hR⟩

/-- Where one computation faults the other one does. -/
theorem of_error {f : Fault} (h : Agree R (.error f : Checked (σ × ο)) y) : y = .error f := by
  cases h
  rfl

theorem symm (h : Agree R x y) : Agree (fun t s => R s t) y x := by
  cases h with
  | fault f => exact .fault f
  | ok h o => exact .ok (R := fun t s => R s t) h o

/-- The rule for a sequence. -/
theorem bind {R' : σ' → τ' → Prop} {f : σ × ο → Checked (σ' × ο')} {g : τ × ο → Checked (τ' × ο')}
    (h : Agree R x y) (hf : ∀ s t o, R s t → Agree R' (f (s, o)) (g (t, o))) : Agree R' (x >>= f) (y >>= g) := by
  cases h with
  | fault f => exact .fault f
  | ok h o => exact hf _ _ o h

/-- The rule for a sequence that begins with a computation that both make. -/
theorem bind_left {α : Type} {R : σ → τ → Prop} {f : α → Checked (σ × ο)} {g : α → Checked (τ × ο)} (z : Checked α)
    (hf : ∀ a, z = .ok a → Agree R (f a) (g a)) : Agree R (z >>= f) (z >>= g) := by
  cases z with
  | error e => exact .fault e
  | ok a => exact hf a rfl

/-- The rule for a sequence that goes on with the state alone. -/
theorem bind_ok {R' : σ' → τ → Prop} {f : σ × ο → Checked (σ' × ο)} (h : Agree R x y)
    (hf : ∀ s t o, R s t → ∃ s', f (s, o) = .ok (s', o) ∧ R' s' t) : Agree R' (x >>= f) y := by
  cases h with
  | fault f => exact .fault f
  | @ok s t h o =>
      obtain ⟨s', hs', hR'⟩ := hf s t o h
      rw [ok_bind, hs']
      exact .ok hR' o

/-- The rule for a test that both make. -/
theorem ite {c : Prop} [Decidable c] {x' : Checked (σ × ο)} {y' : Checked (τ × ο)} (h : Agree R x y)
    (h' : Agree R x' y') : Agree R (if c then x else x') (if c then y else y') := by
  by_cases hc : c
  · rwa [if_pos hc, if_pos hc]
  · rwa [if_neg hc, if_neg hc]

/-- What is made of the output alone is made of both alike. -/
theorem map (h : Agree R x y) (f : ο → ο') :
    Agree R (x.map fun r => (r.1, f r.2)) (y.map fun r => (r.1, f r.2)) := by
  cases h with
  | fault e => exact .fault e
  | ok h o => exact .ok h (f o)

end Agree

/-- **Runs agree when steps do.** -/
theorem runAll_agree {step : σ → ι → Checked (σ × ο)} {step' : τ → ι → Checked (τ × ο)} {R : σ → τ → Prop}
    (hstep : ∀ s t i, R s t → Agree R (step s i) (step' t i)) :
    ∀ (is : List ι) (s : σ) (t : τ), R s t → Agree R (runAll step s is) (runAll step' t is) := by
  intro is
  induction is with
  | nil =>
      intro s t hR
      exact .ok hR []
  | cons i is ih =>
      intro s t hR
      apply (hstep s t i hR).bind
      intro s' t' o hR'
      apply (ih s' t' hR').bind
      intro s'' t'' os hR''
      exact .ok hR'' (o :: os)

end Freeflow
