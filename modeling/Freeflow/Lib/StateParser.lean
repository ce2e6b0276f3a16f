import Freeflow.Lib.Fault
import Freeflow.Lib.Parser

/-!
# `Lib.StateParser` — parsers that build something while they read

A parser with a state reads as a `Parser` does and changes a state on the way, which an exception does not undo. `Mirrors`
relates its runs to those of a `Parser`, which has no state to change: they end in the same way at the same place, and what
the one returns stands for what the other returns.

## Contents
- `Ending`, `StateParser`, the monad, `lift`, `update`, `padded` and the loop `repeated`.
- `Mirrors` and its rules.
-/

namespace Freeflow

/-- How a parser ends that does not fault. -/
inductive Ending (τ α : Type) where
  | value (a : α) (rest : List τ)
  | thrown (what : String) (rest : List τ)
deriving DecidableEq, Repr

/-- A parser with a state, from the state and the tokens the cursor has before it. -/
def StateParser (σ τ α : Type) : Type := σ → List τ → Checked (σ × Ending τ α)

variable {σ τ α β γ : Type}

namespace StateParser

/-- Go on with `f` from a value, and leave with an exception. -/
def andThen (f : α → StateParser σ τ β) : σ × Ending τ α → Checked (σ × Ending τ β)
  | (s, .value a rest) => f a s rest
  | (s, .thrown what rest) => .ok (s, .thrown what rest)

instance : Monad (StateParser σ τ) where
  pure a := fun s t => .ok (s, .value a t)
  bind p f := fun s t => p s t >>= andThen f

/-- A parser that leaves the state alone. -/
def lift (p : Parser τ α) : StateParser σ τ α := fun s t =>
  match p t with
  | .value a rest _ => .ok (s, .value a rest)
  | .thrown what rest _ => .ok (s, .thrown what rest)
  | .overrun => .error .outOfBounds
  | .outOfFuel => .error .outOfFuel

/-- A change of the state that reads nothing. -/
def update (f : σ → Checked (σ × α)) : StateParser σ τ α := fun s t => do
  let (s, a) ← f s
  return (s, .value a t)

/-- Step over blanks before `p`, and after it however it ends. -/
def padded (blank : τ → Bool) (p : StateParser σ τ α) : StateParser σ τ α := fun s t => do
  match ← p s (t.dropWhile blank) with
  | (s, .value a rest) => return (s, .value a (rest.dropWhile blank))
  | (s, .thrown what rest) => return (s, .thrown what (rest.dropWhile blank))

/-- A `do … while` loop over the local variables `c`, as long as `sep` follows, of at most `fuel` rounds. -/
def repeated [DecidableEq τ] (sep : τ) (body : γ → StateParser σ τ γ) : Nat → γ → StateParser σ τ γ
  | 0, _ => fun _ _ => .error .outOfFuel
  | fuel + 1, c => do
      let c ← body c
      if ← lift (Parser.accept sep) then repeated sep body fuel c else return c

/-! ## Mirroring a parser without a state -/

/-- The runs end alike: with values that `R` relates in the state reached, or with the same exception, in a state that
    meets `E`, or in the same error. -/
inductive Mirrors (R : σ → α → β → Prop) (E : σ → Prop) : Parsed τ α → Checked (σ × Ending τ β) → Prop where
  | value {s : σ} {a : α} {b : β} {rest : List τ} {n : Nat} : R s a b →
      Mirrors R E (.value a rest n) (.ok (s, .value b rest))
  | thrown {s : σ} {what : String} {rest : List τ} {n : Nat} : E s →
      Mirrors R E (.thrown what rest n) (.ok (s, .thrown what rest))
  | overrun : Mirrors R E .overrun (.error .outOfBounds)
  | outOfFuel : Mirrors R E .outOfFuel (.error .outOfFuel)

variable {R : σ → α → β → Prop} {E : σ → Prop}

/-- **Consequence.** -/
theorem Mirrors.mono {r : Parsed τ α} {r' : Checked (σ × Ending τ β)} (h : Mirrors R E r r') {R' : σ → α → β → Prop}
    {E' : σ → Prop} (hR : ∀ s a b, R s a b → R' s a b) (hE : ∀ s, E s → E' s) : Mirrors R' E' r r' := by
  cases h with
  | value h => exact .value (hR _ _ _ h)
  | thrown h => exact .thrown (hE _ h)
  | overrun => exact .overrun
  | outOfFuel => exact .outOfFuel

/-- How many nodes are counted plays no part. -/
theorem Mirrors.charge {r : Parsed τ α} {r' : Checked (σ × Ending τ β)} (h : Mirrors R E r r') (m : Nat) :
    Mirrors R E (r.charge m) r' := by
  cases h with
  | value h => exact .value h
  | thrown h => exact .thrown h
  | overrun => exact .overrun
  | outOfFuel => exact .outOfFuel

/-- A parser mirrors itself, and the state stays as it is. -/
theorem mirrors_lift (p : Parser τ α) {s : σ} (hE : E s) (t : List τ) :
    Mirrors (fun s' a b => s' = s ∧ b = a) E (p t) (lift p s t) := by
  unfold lift
  cases p t with
  | value a rest n => exact .value ⟨rfl, rfl⟩
  | thrown what rest n => exact .thrown hE
  | overrun => exact .overrun
  | outOfFuel => exact .outOfFuel

/-- **Sequencing.** -/
theorem Mirrors.bind {p : Parser τ α} {q : StateParser σ τ β} {δ : Type} {f : α → Parser τ γ} {g : β → StateParser σ τ δ}
    {R' : σ → γ → δ → Prop} {s : σ} {t : List τ} (hp : Mirrors R E (p t) (q s t))
    (hf : ∀ s' a b rest, R s' a b → Mirrors R' E (f a rest) (g b s' rest)) :
    Mirrors R' E ((p >>= f) t) ((q >>= g) s t) := by
  rw [Parser.bind_apply]
  show Mirrors R' E ((p t).andThen f) (q s t >>= andThen g)
  generalize p t = r, q s t = r' at hp ⊢
  cases hp with
  | value h => exact (hf _ _ _ _ h).charge _
  | thrown h => exact .thrown h
  | overrun => exact .overrun
  | outOfFuel => exact .outOfFuel

/-- Sequencing behind a parser that leaves the state alone. -/
theorem Mirrors.lift_bind {p : Parser τ α} {δ : Type} {f : α → Parser τ γ} {g : α → StateParser σ τ δ}
    {R' : σ → γ → δ → Prop} {s : σ} {t : List τ} (hE : E s)
    (hf : ∀ a rest, Mirrors R' E (f a rest) (g a s rest)) : Mirrors R' E ((p >>= f) t) ((lift p >>= g) s t) := by
  apply (mirrors_lift p hE t).bind
  rintro s' a b rest ⟨rfl, rfl⟩
  exact hf b rest

/-- The parser without a state changes what it returned. -/
theorem Mirrors.map_left {p : Parser τ α} {r : Checked (σ × Ending τ β)} {t : List τ} (h : Mirrors R E (p t) r)
    {f : α → γ} {R' : σ → γ → β → Prop} (hR : ∀ s a b, R s a b → R' s (f a) b) :
    Mirrors R' E ((do let a ← p; return f a : Parser τ γ) t) r := by
  rw [Parser.bind_apply]
  generalize p t = r₀ at h ⊢
  cases h with
  | value h => exact .value (hR _ _ _ h)
  | thrown h => exact .thrown h
  | overrun => exact .overrun
  | outOfFuel => exact .outOfFuel

/-- A node that the parser counts, and a change of the state that returns. -/
theorem Mirrors.allocate {f : σ → Checked (σ × β)} {s s' : σ} {a : α} {b : β} {t : List τ} (hf : f s = .ok (s', b))
    (hR : R s' a b) :
    Mirrors R E ((do Parser.allocate; return a : Parser τ α) t) ((update f : StateParser σ τ β) s t) := by
  show Mirrors R E _ (f s >>= _)
  rw [hf]
  exact .value hR

/-- **Padding**, before and after. -/
theorem Mirrors.padded {blank : τ → Bool} {p : Parser τ α} {q : StateParser σ τ β} {s : σ} {t : List τ}
    (hp : Mirrors R E (p (t.dropWhile blank)) (q s (t.dropWhile blank))) :
    Mirrors R E (p.padded blank t) (q.padded blank s t) := by
  unfold Parser.padded StateParser.padded
  generalize p (t.dropWhile blank) = r, q s (t.dropWhile blank) = r' at hp ⊢
  cases hp with
  | value h => exact .value h
  | thrown h => exact .thrown h
  | overrun => exact .overrun
  | outOfFuel => exact .outOfFuel

/-- **The loop.** `J` relates the items that are read to the local variables, round after round; there is one at least. -/
theorem Mirrors.separated [DecidableEq τ] {sep : τ} {item : Parser τ α} {body : γ → StateParser σ τ γ}
    {J : σ → List α → γ → Prop} (hE : ∀ s as c, J s as c → E s)
    (hbody : ∀ s as c t, J s as c → Mirrors (fun s' a c' => J s' (as ++ [a]) c') E (item t) (body c s t)) :
    ∀ fuel s as c t, J s as c → Mirrors (fun s' as' c' => as' ≠ [] ∧ J s' (as ++ as') c') E
      (item.separated sep fuel t) (repeated sep body fuel c s t) := by
  intro fuel
  induction fuel with
  | zero => exact fun _ _ _ _ _ => .outOfFuel
  | succ fuel ih =>
      intro s as c t hJ
      rw [Parser.separated, repeated]
      apply (hbody s as c t hJ).bind
      intro s' a c' rest hJ'
      apply Mirrors.lift_bind (hE _ _ _ hJ')
      intro b rest
      cases b with
      | false => exact .value ⟨List.cons_ne_nil a [], hJ'⟩
      | true =>
          apply (ih s' (as ++ [a]) c' rest hJ').map_left
          rintro s'' as' c'' ⟨-, h⟩
          rw [List.append_assoc] at h
          exact ⟨List.cons_ne_nil a as', h⟩

end StateParser

end Freeflow
