import Freeflow.Lib.Run

/-!
# `Lib.Pipe` — a server between two queues

Requests wait in a queue until the server takes them up, and its answers wait in a second queue until they are taken.
Who fills the one queue and empties the other, and in which order all of this happens, is left open: a system contains
such a pipe if each of its steps makes the pipe go through some `Moves`.

Whatever the order, the server is where its calls have taken it one after the other, and nothing that goes in or comes
out is lost, doubled or overtaken.

## Contents
- `Pipe`, `Pipe.Moves` with a rule for each kind of move and for sequences.
- `runAll_moves`: the rule for runs of a system that contains a pipe.
-/

namespace Freeflow

variable {σ ι κ ο ρ : Type}

/-- A server, the requests that wait for it, and its answers that were not taken yet; the oldest are first. -/
structure Pipe (ι σ ρ : Type) where
  waiting : List ι
  server : σ
  answered : List ρ

namespace Pipe

variable {srv : σ → κ → Checked (σ × ο)} {asks : κ → ι} {tells : ο → ρ}

/-- **What a stretch of time does to a pipe**: requests are accepted at one end, the server handles some calls, and
    answers are taken at the other end. `asks` is the request that a call is for, `tells` the answer that it comes to. -/
structure Moves (srv : σ → κ → Checked (σ × ο)) (asks : κ → ι) (tells : ο → ρ) (p : Pipe ι σ ρ) (accepted : List ι)
    (calls : List κ) (given : List ο) (taken : List ρ) (p' : Pipe ι σ ρ) : Prop where
  served : runAll srv p.server calls = .ok (p'.server, given)
  requests : p.waiting ++ accepted = calls.map asks ++ p'.waiting
  answers : p.answered ++ given.map tells = taken ++ p'.answered

namespace Moves

/-- Nothing happens. -/
theorem refl (p : Pipe ι σ ρ) : Moves srv asks tells p [] [] [] [] p where
  served := rfl
  requests := by simp
  answers := by simp

/-- Requests are accepted. -/
theorem accept (p : Pipe ι σ ρ) (accepted : List ι) :
    Moves srv asks tells p accepted [] [] [] { p with waiting := p.waiting ++ accepted } where
  served := rfl
  requests := by simp
  answers := by simp

/-- The server handles the oldest request. -/
theorem serve {s s' : σ} {call : κ} {o : ο} (h : srv s call = .ok (s', o)) (waiting : List ι) (answered : List ρ) :
    Moves srv asks tells ⟨asks call :: waiting, s, answered⟩ [] [call] [o] [] ⟨waiting, s', answered ++ [tells o]⟩ where
  served := by rw [runAll_cons_ok h]; rfl
  requests := by simp
  answers := by simp

/-- The oldest answer is taken. -/
theorem take (waiting : List ι) (s : σ) (r : ρ) (answered : List ρ) :
    Moves srv asks tells ⟨waiting, s, r :: answered⟩ [] [] [] [r] ⟨waiting, s, answered⟩ where
  served := rfl
  requests := by simp
  answers := by simp

/-- One stretch after the other. -/
theorem trans {p₁ p₂ p₃ : Pipe ι σ ρ} {accepted accepted' : List ι} {calls calls' : List κ} {given given' : List ο}
    {taken taken' : List ρ} (h : Moves srv asks tells p₁ accepted calls given taken p₂)
    (h' : Moves srv asks tells p₂ accepted' calls' given' taken' p₃) :
    Moves srv asks tells p₁ (accepted ++ accepted') (calls ++ calls') (given ++ given') (taken ++ taken') p₃ where
  served := runAll_append h.served h'.served
  requests := by
    calc p₁.waiting ++ (accepted ++ accepted')
      _ = calls.map asks ++ (p₂.waiting ++ accepted') := by
          rw [← List.append_assoc, h.requests, List.append_assoc]
      _ = (calls ++ calls').map asks ++ p₃.waiting := by
          rw [h'.requests, List.map_append, List.append_assoc]
  answers := by
    calc p₁.answered ++ (given ++ given').map tells
      _ = taken ++ (p₂.answered ++ given'.map tells) := by
          rw [List.map_append, ← List.append_assoc, h.answers, List.append_assoc]
      _ = (taken ++ taken') ++ p₃.answered := by
          rw [h'.answers, List.append_assoc]

end Moves
end Pipe

/-- **A system whose steps move a pipe moves it along every run.** -/
theorem runAll_moves {χ ε ω : Type} {step : χ → ε → Checked (χ × ω)} {srv : σ → κ → Checked (σ × ο)} {asks : κ → ι}
    {tells : ο → ρ} (inv : χ → Prop) (pipe : χ → Pipe ι σ ρ) (accepted : ω → List ι) (given : ω → List ο)
    (taken : ω → List ρ)
    (hstep : ∀ x e x' w, inv x → step x e = .ok (x', w) → inv x' ∧
      ∃ calls, Pipe.Moves srv asks tells (pipe x) (accepted w) calls (given w) (taken w) (pipe x')) :
    ∀ (es : List ε) (x x' : χ) (ws : List ω), inv x → runAll step x es = .ok (x', ws) → inv x' ∧
      ∃ calls, Pipe.Moves srv asks tells (pipe x) (ws.flatMap accepted) calls (ws.flatMap given) (ws.flatMap taken)
        (pipe x') := by
  intro es
  induction es with
  | nil =>
      intro x x' ws hx hrun
      cases hrun
      exact ⟨hx, [], .refl _⟩
  | cons e es ih =>
      intro x x' ws hx hrun
      obtain ⟨y, w, ws', hw, hrest, rfl⟩ := runAll_cons_inv hrun
      obtain ⟨hy, calls, hmoves⟩ := hstep x e y w hx hw
      obtain ⟨hx', calls', hmoves'⟩ := ih y x' ws' hy hrest
      refine ⟨hx', calls ++ calls', ?_⟩
      rw [List.flatMap_cons, List.flatMap_cons, List.flatMap_cons]
      exact hmoves.trans hmoves'

end Freeflow
