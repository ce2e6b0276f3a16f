import Mathlib.Data.List.Forall2
import Freeflow.Lib.Fault

/-!
# `Lib.Run` — runs of a machine, and the rules that carry a property along them

A machine is a step function `σ → ι → Checked (σ × ο)`: from a state and an input it reaches a new state
and gives an output, or it faults. `runAll` feeds it a list of inputs. The rules turn what one step
preserves into what every run preserves; a `guard` on each step's input and the state before it makes a
rule apply to the runs whose steps all meet that guard.

## Contents
- `runAll` and `runAll_append`.
- `Guarded`: every step of the run meets the guard in the state it starts from.
- `runAll_refines`: a step-wise simulation of an abstract machine carries over to runs.
- `runAll_refines_iff`: the same, for exactly the runs that are legal.
- `runAll_invariant`: an inductive invariant holds after every guarded run that returns.
- `runAll_returns`: where the guard lets a step return, every guarded run returns.
- `runAll_good_iff_of`, `runAll_good_iff`: a guard that is necessary and sufficient step by step is so for runs.
- `runAll_conserves`, `runAll_conserves_each`, `runAll_queue`: what comes out of a queue is what went in, in order.
- `runAll_forall`, `runAll_ok_iff`, `runAll_outputs`: what every output has, when a run returns, and that it has one
  output for each input.
- `foldlM_invariant`, `foldlM_ok`, `foldlM_fixed`, `mapM_eq_ok_iff`: the same for a loop over a list.
-/

namespace Freeflow

variable {σ τ ι ο : Type}

/-- Feed the inputs in order; the outputs come back in order. -/
def runAll (step : σ → ι → Checked (σ × ο)) : σ → List ι → Checked (σ × List ο)
  | s, [] => .ok (s, [])
  | s, i :: is => do
      let (s', o) ← step s i
      let (s'', os) ← runAll step s' is
      return (s'', o :: os)

@[simp] theorem runAll_nil (step : σ → ι → Checked (σ × ο)) (s : σ) :
    runAll step s [] = .ok (s, []) := rfl

theorem runAll_cons_ok {step : σ → ι → Checked (σ × ο)} {s s' : σ} {i : ι} {is : List ι} {o : ο}
    (h : step s i = .ok (s', o)) :
    runAll step s (i :: is) = (runAll step s' is).map (fun r => (r.1, o :: r.2)) := by
  simp only [runAll, h, ok_bind]
  cases runAll step s' is <;> rfl

/-- A run that returned took its first step. -/
theorem runAll_cons_inv {step : σ → ι → Checked (σ × ο)} {s t : σ} {i : ι} {is : List ι}
    {os : List ο} (h : runAll step s (i :: is) = .ok (t, os)) :
    ∃ s' o os', step s i = .ok (s', o) ∧ runAll step s' is = .ok (t, os') ∧ os = o :: os' := by
  obtain ⟨⟨s', o⟩, hstep, hrest⟩ := bind_eq_ok h
  obtain ⟨⟨t', os'⟩, hrun, heq⟩ := bind_eq_ok hrest
  simp only [pure_eq_ok, Except.ok.injEq, Prod.mk.injEq] at heq
  obtain ⟨rfl, rfl⟩ := heq
  exact ⟨s', o, os', hstep, hrun, rfl⟩

/-- A run in two parts. -/
theorem runAll_append {step : σ → ι → Checked (σ × ο)} {is js : List ι} {s t u : σ} {os ps : List ο}
    (his : runAll step s is = .ok (t, os)) (hjs : runAll step t js = .ok (u, ps)) :
    runAll step s (is ++ js) = .ok (u, os ++ ps) := by
  induction is generalizing s os with
  | nil =>
      cases his
      exact hjs
  | cons i is ih =>
      obtain ⟨s', o, os', hstep, hrest, rfl⟩ := runAll_cons_inv his
      rw [List.cons_append, runAll_cons_ok hstep, ih hrest]
      rfl

/-- Every step of the run from `s` meets `guard` in the state it starts from. -/
def Guarded (step : σ → ι → Checked (σ × ο)) (guard : σ → ι → Prop) : σ → List ι → Prop
  | _, [] => True
  | s, i :: is => guard s i ∧ ∀ s' o, step s i = .ok (s', o) → Guarded step guard s' is

/-- A guard on the inputs alone holds along a run when it holds of each input. -/
theorem Guarded.of_mem {step : σ → ι → Checked (σ × ο)} {guard : σ → ι → Prop} :
    ∀ (is : List ι) (s : σ), (∀ i ∈ is, ∀ s, guard s i) → Guarded step guard s is
  | [], _, _ => trivial
  | i :: is, s, h =>
      ⟨h i (by simp) s, fun s' _ _ =>
        Guarded.of_mem is s' (fun j hj => h j (List.mem_cons_of_mem i hj))⟩

/-- A run that meets a guard meets every weaker one. -/
theorem Guarded.mono {step : σ → ι → Checked (σ × ο)} {guard guard' : σ → ι → Prop}
    (hguard : ∀ s i, guard s i → guard' s i) :
    ∀ {is : List ι} {s : σ}, Guarded step guard s is → Guarded step guard' s is
  | [], _, _ => trivial
  | i :: _, s, h => ⟨hguard s i h.1, fun s' o ho => (h.2 s' o ho).mono hguard⟩

/-- A run that meets two guards meets both at every step. -/
theorem Guarded.and {step : σ → ι → Checked (σ × ο)} {guard guard' : σ → ι → Prop} :
    ∀ {is : List ι} {s : σ}, Guarded step guard s is → Guarded step guard' s is →
      Guarded step (fun s i => guard s i ∧ guard' s i) s is
  | [], _, _, _ => trivial
  | _ :: _, _, h, h' => ⟨⟨h.1, h'.1⟩, fun s' o ho => (h.2 s' o ho).and (h'.2 s' o ho)⟩

/-- A guard that an inductive invariant implies holds along every run. -/
theorem Guarded.of_invariant {step : σ → ι → Checked (σ × ο)} {guard : σ → ι → Prop} (inv : σ → Prop)
    (hstep : ∀ s i s' o, inv s → step s i = .ok (s', o) → inv s') (hguard : ∀ s i, inv s → guard s i) :
    ∀ (is : List ι) (s : σ), inv s → Guarded step guard s is
  | [], _, _ => trivial
  | i :: is, s, hs =>
      ⟨hguard s i hs, fun s' o ho => Guarded.of_invariant inv hstep hguard is s' (hstep s i s' o hs ho)⟩

/-- Two guards that agree wherever an inductive invariant holds guard the same runs. -/
theorem Guarded.congr {step : σ → ι → Checked (σ × ο)} {guard guard' : σ → ι → Prop} (inv : σ → Prop)
    (hstep : ∀ s i s' o, inv s → step s i = .ok (s', o) → inv s')
    (hguard : ∀ s i, inv s → (guard s i ↔ guard' s i)) :
    ∀ (is : List ι) (s : σ), inv s → (Guarded step guard s is ↔ Guarded step guard' s is)
  | [], _, _ => Iff.rfl
  | i :: is, s, hs => by
      apply and_congr (hguard s i hs)
      constructor
      · intro h s' o ho
        exact (Guarded.congr inv hstep hguard is s' (hstep s i s' o hs ho)).mp (h s' o ho)
      · intro h s' o ho
        exact (Guarded.congr inv hstep hguard is s' (hstep s i s' o hs ho)).mpr (h s' o ho)

/-- Every beginning of a guarded run is guarded. -/
theorem Guarded.take {step : σ → ι → Checked (σ × ο)} {guard : σ → ι → Prop} :
    ∀ {is : List ι} {s : σ} (n : Nat), Guarded step guard s is → Guarded step guard s (is.take n)
  | [], _, n, _ => by rw [List.take_nil]; trivial
  | _ :: _, _, 0, _ => trivial
  | _ :: _, _, n + 1, h => ⟨h.1, fun s' o ho => (h.2 s' o ho).take n⟩

/-- A guarded run meets the guard in the state that a beginning of it has reached. -/
theorem Guarded.at {step : σ → ι → Checked (σ × ο)} {guard : σ → ι → Prop} {i : ι} {rest : List ι} :
    ∀ {is : List ι} {s t : σ} {os : List ο}, Guarded step guard s (is ++ i :: rest) →
      runAll step s is = .ok (t, os) → guard t i
  | [], _, _, _, h, hrun => by
      cases hrun
      exact h.1
  | _ :: _, _, _, _, h, hrun => by
      obtain ⟨s', o, _, hstep, hrest, -⟩ := runAll_cons_inv hrun
      exact (h.2 s' o hstep).at hrest

/-- The abstract machine's answer to the same inputs. -/
def specAll (spec : τ → ι → τ × ο) : τ → List ι → τ × List ο
  | t, [] => (t, [])
  | t, i :: is =>
      let r := spec t i
      let rest := specAll spec r.1 is
      (rest.1, r.2 :: rest.2)

/-- **Runs refine when steps do.** If related states step to related states with the same output, on the
    inputs that meet the guard, then a guarded run gives the abstract machine's outputs and ends in
    related states. -/
theorem runAll_refines {step : σ → ι → Checked (σ × ο)} {spec : τ → ι → τ × ο}
    (R : σ → τ → Prop) (guard : σ → ι → Prop) (legal : τ → ι → Prop)
    (hstep : ∀ s t i, R s t → guard s i → legal t i →
      ∃ s', step s i = .ok (s', (spec t i).2) ∧ R s' (spec t i).1) :
    ∀ (is : List ι) (s : σ) (t : τ), R s t → Guarded step guard s is →
      Guarded (fun t i => .ok (spec t i)) legal t is →
      ∃ s', runAll step s is = .ok (s', (specAll spec t is).2) ∧ R s' (specAll spec t is).1 := by
  intro is
  induction is with
  | nil => intro s t hR _ _; exact ⟨s, rfl, hR⟩
  | cons i is ih =>
      intro s t hR hg hl
      obtain ⟨s', hs', hR'⟩ := hstep s t i hR hg.1 hl.1
      obtain ⟨s'', hs'', hR''⟩ := ih s' (spec t i).1 hR' (hg.2 s' _ hs') (hl.2 _ _ rfl)
      refine ⟨s'', ?_, hR''⟩
      rw [runAll_cons_ok hs', hs'']
      rfl

/-- **Exactly the legal runs refine.** If related states stay related, and a step gives the abstract machine's output if
    and only if it is legal, then so does a run. -/
theorem runAll_refines_iff {step : σ → ι → Checked (σ × ο)} {spec : τ → ι → τ × ο} (R : σ → τ → Prop)
    (legal : τ → ι → Prop) (hlegal : ∀ s t i, R s t → (legal t i ↔ ∃ s', step s i = .ok (s', (spec t i).2)))
    (hR : ∀ s t i s' o, R s t → step s i = .ok (s', o) → R s' (spec t i).1) :
    ∀ (is : List ι) (s : σ) (t : τ), R s t →
      ((∃ s', runAll step s is = .ok (s', (specAll spec t is).2)) ↔
        Guarded (fun t i => .ok (spec t i)) legal t is) := by
  intro is
  induction is with
  | nil => exact fun s t _ => ⟨fun _ => trivial, fun _ => ⟨s, rfl⟩⟩
  | cons i is ih =>
      intro s t hst
      constructor
      · rintro ⟨s'', hrun⟩
        obtain ⟨s', o, os, hs', hrest, heq⟩ := runAll_cons_inv hrun
        obtain ⟨ho, hos⟩ : (spec t i).2 = o ∧ (specAll spec (spec t i).1 is).2 = os := List.cons.inj heq
        subst ho hos
        refine ⟨(hlegal s t i hst).mpr ⟨s', hs'⟩, fun t' o ht' => ?_⟩
        obtain rfl : (spec t i).1 = t' := congrArg Prod.fst (Except.ok.inj ht')
        exact (ih s' _ (hR s t i s' _ hst hs')).mp ⟨s'', hrest⟩
      · rintro ⟨hl, hrest⟩
        obtain ⟨s', hs'⟩ := (hlegal s t i hst).mp hl
        obtain ⟨s'', hs''⟩ := (ih s' _ (hR s t i s' _ hst hs')).mpr (hrest _ _ rfl)
        refine ⟨s'', ?_⟩
        rw [runAll_cons_ok hs', hs'']
        rfl

/-- **Invariant rule.** What every step that meets the guard preserves holds after every guarded run that
    returns. -/
theorem runAll_invariant {step : σ → ι → Checked (σ × ο)} {inv : σ → Prop} {guard : σ → ι → Prop}
    (hstep : ∀ s i s' o, inv s → guard s i → step s i = .ok (s', o) → inv s') :
    ∀ (is : List ι) (s t : σ) (os : List ο), inv s → Guarded step guard s is →
      runAll step s is = .ok (t, os) → inv t := by
  intro is
  induction is with
  | nil =>
      intro s t os hs _ h
      simp only [runAll_nil, Except.ok.injEq, Prod.mk.injEq] at h
      exact h.1 ▸ hs
  | cons i is ih =>
      intro s t os hs hg h
      obtain ⟨s', o, os', hs', hrun, -⟩ := runAll_cons_inv h
      exact ih s' t os' (hstep s i s' o hs hg.1 hs') (hg.2 s' o hs') hrun

/-- Where a step that meets the guard returns and keeps the invariant, every guarded run does. -/
theorem runAll_returns {step : σ → ι → Checked (σ × ο)} {guard : σ → ι → Prop} (inv : σ → Prop)
    (hstep : ∀ s i, inv s → guard s i → ∃ s' o, step s i = .ok (s', o) ∧ inv s') :
    ∀ (is : List ι) (s : σ), inv s → Guarded step guard s is → ∃ t os, runAll step s is = .ok (t, os) ∧ inv t := by
  intro is
  induction is with
  | nil => exact fun s hs _ => ⟨s, [], rfl, hs⟩
  | cons i is ih =>
      intro s hs hg
      obtain ⟨s', o, ho, hs'⟩ := hstep s i hs hg.1
      obtain ⟨t, os, hrun, ht⟩ := ih s' hs' (hg.2 s' o ho)
      exact ⟨t, o :: os, by rw [runAll_cons_ok ho, hrun]; rfl, ht⟩

/-- **Exactly the guarded runs stay good**, among the runs that meet an assumption. Let the guard carry the
    invariant over a step, and let a step to a good state meet the guard: then every state that a run reaches is good
    if and only if each step that returns meets the guard. -/
theorem runAll_good_iff_of {step : σ → ι → Checked (σ × ο)} {guard : σ → ι → Prop} (assume : σ → ι → Prop)
    (inv good : σ → Prop)
    (hgood : ∀ s, inv s → good s)
    (hinv : ∀ s i s' o, inv s → assume s i → step s i = .ok (s', o) → guard s i → inv s')
    (hguard : ∀ s i s' o, inv s → assume s i → step s i = .ok (s', o) → good s' → guard s i) :
    ∀ (is : List ι) (s : σ), inv s → Guarded step assume s is →
      ((∀ n t os, runAll step s (is.take n) = .ok (t, os) → good t) ↔
        Guarded step (fun s i => (∃ r, step s i = .ok r) → guard s i) s is) := by
  intro is
  induction is with
  | nil =>
      intro s hs _
      refine ⟨fun _ => trivial, fun _ n t os h => ?_⟩
      rw [List.take_nil, runAll_nil] at h
      cases h
      exact hgood s hs
  | cons i is ih =>
      intro s hs ha
      constructor
      · intro hall
        have hfirst : ∀ s' o, step s i = .ok (s', o) → guard s i := by
          intro s' o ho
          apply hguard s i s' o hs ha.1 ho
          apply hall 1 s' [o]
          rw [List.take_succ_cons, runAll_cons_ok ho]
          rfl
        refine ⟨fun ⟨⟨s', o⟩, ho⟩ => hfirst s' o ho, fun s' o ho => ?_⟩
        apply (ih s' (hinv s i s' o hs ha.1 ho (hfirst s' o ho)) (ha.2 s' o ho)).mp
        intro n t os hrun
        apply hall (n + 1) t (o :: os)
        rw [List.take_succ_cons, runAll_cons_ok ho, hrun]
        rfl
      · rintro ⟨hfirst, hrest⟩ n t os hrun
        cases n with
        | zero =>
            cases hrun
            exact hgood s hs
        | succ n =>
            rw [List.take_succ_cons] at hrun
            obtain ⟨s', o, os', ho, hrun', -⟩ := runAll_cons_inv hrun
            have hs' := hinv s i s' o hs ha.1 ho (hfirst ⟨(s', o), ho⟩)
            exact (ih s' hs' (ha.2 s' o ho)).mpr (hrest s' o ho) n t os' hrun'

/-- **Exactly the guarded runs stay good**, among all runs. -/
theorem runAll_good_iff {step : σ → ι → Checked (σ × ο)} {guard : σ → ι → Prop} (inv good : σ → Prop)
    (hgood : ∀ s, inv s → good s)
    (hinv : ∀ s i s' o, inv s → step s i = .ok (s', o) → guard s i → inv s')
    (hguard : ∀ s i s' o, inv s → step s i = .ok (s', o) → good s' → guard s i) :
    ∀ (is : List ι) (s : σ), inv s →
      ((∀ n t os, runAll step s (is.take n) = .ok (t, os) → good t) ↔
        Guarded step (fun s i => (∃ r, step s i = .ok r) → guard s i) s is) :=
  fun is s hs => runAll_good_iff_of (fun _ _ => True) inv good hgood
    (fun s i s' o hs _ ho hg => hinv s i s' o hs ho hg) (fun s i s' o hs _ ho hg => hguard s i s' o hs ho hg)
    is s hs (Guarded.of_mem is s (fun _ _ _ => trivial))

/-- **Conservation.** If each step takes from the front of a queue and gives to its end, then so does a run: what it
    has taken, followed by what is left, is what was there, followed by what it was given. -/
theorem runAll_conserves {α : Type} {step : σ → ι → Checked (σ × ο)} (inv : σ → Prop) (good : ο → Prop)
    (queue : σ → List α) (taken given : ο → List α)
    (hstep : ∀ s i, inv s → ∃ s' o, step s i = .ok (s', o) ∧ inv s' ∧ good o ∧
      taken o ++ queue s' = queue s ++ given o) :
    ∀ (is : List ι) (s : σ), inv s → ∃ t os, runAll step s is = .ok (t, os) ∧ (∀ o ∈ os, good o) ∧
      os.flatMap taken ++ queue t = queue s ++ os.flatMap given := by
  intro is
  induction is with
  | nil => intro s _; exact ⟨s, [], rfl, by simp, by simp⟩
  | cons i is ih =>
      intro s hs
      obtain ⟨s', o, ho, hs', hgood, hone⟩ := hstep s i hs
      obtain ⟨t, os, hrun, hall, hrest⟩ := ih s' hs'
      refine ⟨t, o :: os, by rw [runAll_cons_ok ho, hrun]; rfl, List.forall_mem_cons.mpr ⟨hgood, hall⟩, ?_⟩
      calc
        (o :: os).flatMap taken ++ queue t = taken o ++ (os.flatMap taken ++ queue t) := by simp
        _ = (taken o ++ queue s') ++ os.flatMap given := by rw [hrest, List.append_assoc]
        _ = queue s ++ (o :: os).flatMap given := by rw [hone, List.append_assoc, List.flatMap_cons]

/-- The same for many queues at once, when the inputs meet a guard. -/
theorem runAll_conserves_each {α κ : Type} {step : σ → ι → Checked (σ × ο)} (inv : σ → Prop) (good : ο → Prop)
    (guard : ι → Prop) (queue : κ → σ → List α) (taken given : κ → ο → List α)
    (hstep : ∀ s i, inv s → guard i → ∃ s' o, step s i = .ok (s', o) ∧ inv s' ∧ good o ∧
      ∀ k, taken k o ++ queue k s' = queue k s ++ given k o) :
    ∀ (is : List ι) (s : σ), inv s → (∀ i ∈ is, guard i) →
      ∃ t os, runAll step s is = .ok (t, os) ∧ inv t ∧ (∀ o ∈ os, good o) ∧
        ∀ k, os.flatMap (taken k) ++ queue k t = queue k s ++ os.flatMap (given k) := by
  intro is
  induction is with
  | nil => exact fun s hs _ => ⟨s, [], rfl, hs, by simp, by simp⟩
  | cons i is ih =>
      intro s hs hguard
      obtain ⟨s', o, ho, hs', hgood, hone⟩ := hstep s i hs (hguard i (by simp))
      obtain ⟨t, os, hrun, ht, hall, hrest⟩ := ih s' hs' (fun j hj => hguard j (List.mem_cons_of_mem i hj))
      refine ⟨t, o :: os, by rw [runAll_cons_ok ho, hrun]; rfl, ht, List.forall_mem_cons.mpr ⟨hgood, hall⟩, fun k => ?_⟩
      calc
        (o :: os).flatMap (taken k) ++ queue k t = taken k o ++ (os.flatMap (taken k) ++ queue k t) := by simp
        _ = (taken k o ++ queue k s') ++ os.flatMap (given k) := by rw [hrest, List.append_assoc]
        _ = queue k s ++ (o :: os).flatMap (given k) := by rw [hone, List.append_assoc, List.flatMap_cons]

/-- The same for the guarded runs that return, where a step may fault. -/
theorem runAll_queue {α : Type} {step : σ → ι → Checked (σ × ο)} {guard : σ → ι → Prop} (inv : σ → Prop)
    (queue : σ → List α) (taken given : ο → List α)
    (hstep : ∀ s i s' o, inv s → guard s i → step s i = .ok (s', o) →
      inv s' ∧ taken o ++ queue s' = queue s ++ given o) :
    ∀ (is : List ι) (s t : σ) (os : List ο), inv s → Guarded step guard s is → runAll step s is = .ok (t, os) →
      os.flatMap taken ++ queue t = queue s ++ os.flatMap given := by
  intro is
  induction is with
  | nil =>
      intro s t os _ _ h
      cases h
      simp
  | cons i is ih =>
      intro s t os hs hg h
      obtain ⟨s', o, os', ho, hrun, rfl⟩ := runAll_cons_inv h
      obtain ⟨hs', hone⟩ := hstep s i s' o hs hg.1 ho
      have hrest := ih s' t os' hs' (hg.2 s' o ho) hrun
      calc
        (o :: os').flatMap taken ++ queue t = taken o ++ (os'.flatMap taken ++ queue t) := by simp
        _ = (taken o ++ queue s') ++ os'.flatMap given := by rw [hrest, List.append_assoc]
        _ = queue s ++ (o :: os').flatMap given := by rw [hone, List.append_assoc, List.flatMap_cons]

/-- What each output of a step has, all outputs of a run have. -/
theorem runAll_forall {step : σ → ι → Checked (σ × ο)} (inv : σ → Prop) (P : ο → Prop)
    (hstep : ∀ s i s' o, inv s → step s i = .ok (s', o) → inv s' ∧ P o) :
    ∀ (is : List ι) (s t : σ) (os : List ο), inv s → runAll step s is = .ok (t, os) → ∀ o ∈ os, P o := by
  intro is
  induction is with
  | nil =>
      intro s t os _ h
      cases h
      simp
  | cons i is ih =>
      intro s t os hs h
      obtain ⟨s', o, os', ho, hrun, rfl⟩ := runAll_cons_inv h
      obtain ⟨hs', hP⟩ := hstep s i s' o hs ho
      exact List.forall_mem_cons.mpr ⟨hP, ih s' t os' hs' hrun⟩

/-- A run returns exactly if each of its steps does. -/
theorem runAll_ok_iff {step : σ → ι → Checked (σ × ο)} {guard : σ → ι → Prop}
    (hstep : ∀ s i, (∃ r, step s i = .ok r) ↔ guard s i) :
    ∀ (is : List ι) (s : σ), (∃ r, runAll step s is = .ok r) ↔ Guarded step guard s is
  | [], s => ⟨fun _ => trivial, fun _ => ⟨_, rfl⟩⟩
  | i :: is, s => by
      constructor
      · rintro ⟨⟨t, os⟩, h⟩
        obtain ⟨s₁, o₁, os', hone, hrest, -⟩ := runAll_cons_inv h
        refine ⟨(hstep s i).mp ⟨_, hone⟩, fun s' o ho => (runAll_ok_iff hstep is s').mp ?_⟩
        rw [hone] at ho
        cases ho
        exact ⟨_, hrest⟩
      · rintro ⟨hguard, hrest⟩
        obtain ⟨⟨s', o⟩, hone⟩ := (hstep s i).mpr hguard
        obtain ⟨⟨t, os⟩, hrun⟩ := (runAll_ok_iff hstep is s').mpr (hrest s' o hone)
        exact ⟨(t, o :: os), by rw [runAll_cons_ok hone, hrun]; rfl⟩

/-- What each output shows of its input, the outputs of a run show of the inputs. -/
theorem runAll_outputs {α : Type} {step : σ → ι → Checked (σ × ο)} {seen : ο → α} {given : ι → α}
    (hstep : ∀ s i s' o, step s i = .ok (s', o) → seen o = given i) :
    ∀ (is : List ι) (s t : σ) (os : List ο), runAll step s is = .ok (t, os) → os.map seen = is.map given := by
  intro is
  induction is with
  | nil =>
      intro s t os h
      cases h
      rfl
  | cons i is ih =>
      intro s t os h
      obtain ⟨s', o, os', ho, hrun, rfl⟩ := runAll_cons_inv h
      rw [List.map_cons, List.map_cons, hstep s i s' o ho, ih s' t os' hrun]

/-! ## Loops over a list -/

/-- The rule for a loop over the list `all`, with an invariant about the part that is done. -/
theorem foldlM_invariant {f : σ → ι → Checked σ} {all : List ι} (inv : List ι → σ → Prop)
    (hstep : ∀ done i rest s s', all = done ++ i :: rest → inv done s → f s i = .ok s' → inv (done ++ [i]) s') :
    ∀ (rest done : List ι) (s t : σ), all = done ++ rest → inv done s → rest.foldlM f s = .ok t → inv all t := by
  intro rest
  induction rest with
  | nil =>
      intro done s t hall hs h
      simp only [List.foldlM_nil, pure_eq_ok, Except.ok.injEq] at h
      rw [hall, List.append_nil, ← h]
      exact hs
  | cons i rest ih =>
      intro done s t hall hs h
      rw [List.foldlM_cons] at h
      obtain ⟨s', hs', hrest⟩ := bind_eq_ok h
      refine ih (done ++ [i]) s' t ?_ (hstep done i rest s s' hall hs hs') hrest
      rw [hall, List.append_assoc]
      rfl

/-- A loop whose steps return and keep an invariant returns and keeps it. -/
theorem foldlM_ok {f : σ → ι → Checked σ} (inv : σ → Prop) :
    ∀ (is : List ι) (s : σ), (∀ i ∈ is, ∀ s, inv s → ∃ s', f s i = .ok s' ∧ inv s') → inv s →
      ∃ t, is.foldlM f s = .ok t ∧ inv t
  | [], s, _, hs => ⟨s, rfl, hs⟩
  | i :: is, s, hstep, hs => by
      obtain ⟨s', hs', hinv⟩ := hstep i (by simp) s hs
      obtain ⟨t, ht, hinvt⟩ := foldlM_ok inv is s' (fun j hj => hstep j (List.mem_cons_of_mem i hj)) hinv
      exact ⟨t, by rw [List.foldlM_cons, hs', ok_bind, ht], hinvt⟩

/-- A loop whose steps all leave the state as it is. -/
theorem foldlM_fixed {f : σ → ι → Checked σ} {s : σ} :
    ∀ (is : List ι), (∀ i ∈ is, f s i = .ok s) → is.foldlM f s = .ok s
  | [], _ => rfl
  | i :: is, h => by
      rw [List.foldlM_cons, h i (by simp), ok_bind]
      exact foldlM_fixed is (fun j hj => h j (List.mem_cons_of_mem i hj))

/-- A loop that collects results returns them exactly when each of its steps returns its own. -/
theorem mapM_eq_ok_iff {α β : Type} {f : α → Checked β} :
    ∀ {xs : List α} {ys : List β}, xs.mapM f = .ok ys ↔ List.Forall₂ (fun x y => f x = .ok y) xs ys
  | [], ys => by
      rw [List.mapM_nil, List.forall₂_nil_left_iff, pure_eq_ok, Except.ok.injEq, eq_comm]
  | x :: xs, ys => by
      rw [List.mapM_cons, List.forall₂_cons_left_iff]
      constructor
      · intro h
        obtain ⟨y, hy, h⟩ := bind_eq_ok h
        obtain ⟨ys', hys, h⟩ := bind_eq_ok h
        cases h
        exact ⟨y, ys', hy, mapM_eq_ok_iff.mp hys, rfl⟩
      · rintro ⟨y, ys', hy, hys, rfl⟩
        rw [hy, ok_bind, mapM_eq_ok_iff.mpr hys]
        rfl

end Freeflow
