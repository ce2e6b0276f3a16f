import Freeflow.Lib.Parser

/-!
# `Lib.ParserRules` — postconditions of parsers

`Parsed.Meets` is partial correctness for a parser: what holds of the value, the cursor and the nodes when it returns, and
what holds of the cursor and the nodes when it throws. There is one rule for each combinator, so that a postcondition is
carried through a parser along its text.
-/

namespace Freeflow

variable {τ α β : Type}

/-- `Q` holds of the value, the cursor and the nodes of a run that returned, and `E` of the cursor and the nodes of one
    that threw. -/
def Parsed.Meets (Q : α → List τ → Nat → Prop) (E : List τ → Nat → Prop) : Parsed τ α → Prop
  | .value a rest n => Q a rest n
  | .thrown _ rest n => E rest n
  | .overrun => True
  | .outOfFuel => True

namespace Parsed

variable {Q Q' : α → List τ → Nat → Prop} {E E' : List τ → Nat → Prop} {s : List τ}

/-- What a value meets. -/
theorem Meets.of_value {r : Parsed τ α} (h : r.Meets Q E) {a : α} {rest : List τ} {n : Nat}
    (hr : r = .value a rest n) : Q a rest n := by
  rw [hr] at h
  exact h

/-- What an exception meets. -/
theorem Meets.of_thrown {r : Parsed τ α} (h : r.Meets Q E) {what : String} {rest : List τ} {n : Nat}
    (hr : r = .thrown what rest n) : E rest n := by
  rw [hr] at h
  exact h

/-- **Consequence.** -/
theorem Meets.mono {r : Parsed τ α} (h : r.Meets Q E) (hQ : ∀ a rest n, Q a rest n → Q' a rest n)
    (hE : ∀ rest n, E rest n → E' rest n) : r.Meets Q' E' := by
  cases r with
  | value a rest n => exact hQ a rest n h
  | thrown what rest n => exact hE rest n h
  | overrun => trivial
  | outOfFuel => trivial

theorem Meets.map {r : Parsed τ α} {f : α → β} {P : β → List τ → Nat → Prop}
    (h : r.Meets (fun a rest n => P (f a) rest n) E) : (r.map f).Meets P E := by
  cases r <;> exact h

/-- **Sequencing.** The nodes of both parts are counted. -/
theorem Meets.bind {p : Parser τ α} {f : α → Parser τ β} {P : β → List τ → Nat → Prop} (hp : (p s).Meets Q E')
    (hf : ∀ a rest m, Q a rest m → (f a rest).Meets (fun b r n => P b r (m + n)) (fun r n => E r (m + n)))
    (hE : ∀ rest n, E' rest n → E rest n) : ((p >>= f) s).Meets P E := by
  rw [Parser.bind_apply]
  cases h : p s with
  | value a rest m =>
      rw [h] at hp
      have hrest := hf a rest m hp
      show ((f a rest).charge m).Meets P E
      cases hfa : f a rest with
      | value b r n => rw [hfa] at hrest; exact hrest
      | thrown what r n => rw [hfa] at hrest; exact hrest
      | overrun => trivial
      | outOfFuel => trivial
  | thrown what rest n => rw [h] at hp; exact hE rest n hp
  | overrun => trivial
  | outOfFuel => trivial

/-- Sequencing with a computation that only allocates and returns. -/
theorem Meets.bind_node {p : Parser τ α} {f : α → β} {P : β → List τ → Nat → Prop}
    (hp : (p s).Meets (fun a rest n => P (f a) rest (n + 1)) E) :
    ((do let a ← p; Parser.allocate; return f a : Parser τ β) s).Meets P E :=
  hp.bind (fun _ _ _ h => h) (fun _ _ h => h)

/-- **Padding**, before and after. -/
theorem Meets.padded {blank : τ → Bool} {p : Parser τ α}
    (hp : (p (s.dropWhile blank)).Meets (fun a rest n => Q a (rest.dropWhile blank) n)
      (fun rest n => E (rest.dropWhile blank) n)) : (p.padded blank s).Meets Q E := by
  unfold Parser.padded
  cases h : p (s.dropWhile blank) with
  | value a rest n => rw [h] at hp; exact hp
  | thrown what rest n => rw [h] at hp; exact hp
  | overrun => trivial
  | outOfFuel => trivial

variable [DecidableEq τ]

/-- **An optional token.** -/
theorem Meets.accept {c : τ} {f : Bool → Parser τ α} (htrue : ∀ rest, s = c :: rest → (f true rest).Meets Q E)
    (hfalse : s.head? ≠ some c → (f false s).Meets Q E) : ((Parser.accept c >>= f) s).Meets Q E := by
  rcases Parser.accept_bind_cases c s f with ⟨rest, hs, heq⟩ | ⟨hne, heq⟩
  · rw [heq]
    exact htrue rest hs
  · rw [heq]
    exact hfalse hne

/-- **The loop.** `P`, `Q` and `F` relate the text that an item, or the items, are read from to what comes of it; an item
    with a separator behind it goes before the items that follow. -/
theorem Meets.separated {sep : τ} {item : Parser τ α} {P : List τ → α → List τ → Nat → Prop}
    {Q : List τ → List α → List τ → Nat → Prop} {F : List τ → List τ → Nat → Prop}
    (hitem : ∀ s, (item s).Meets (P s) (F s))
    (hlast : ∀ s a rest n, P s a rest n → rest.head? ≠ some sep → Q s [a] rest n)
    (hmore : ∀ s a rest m, P s a (sep :: rest) m → ∀ as r n, Q rest as r n → Q s (a :: as) r (m + n))
    (hthrow : ∀ s a rest m, P s a (sep :: rest) m → ∀ r n, F rest r n → F s r (m + n)) :
    ∀ fuel s, (item.separated sep fuel s).Meets (Q s) (F s) := by
  intro fuel
  induction fuel with
  | zero => intro s; trivial
  | succ fuel ih =>
      intro s
      rw [Parser.separated]
      refine (hitem s).bind (fun a rest m ha => ?_) (fun _ _ h => h)
      apply Meets.accept
      · rintro rest rfl
        rw [if_pos rfl]
        exact (ih rest).bind (fun as r n has => hmore s a rest m ha as r n has) (hthrow s a rest m ha)
      · intro hne
        rw [if_neg Bool.false_ne_true]
        exact hlast s a rest m ha hne

end Parsed

end Freeflow
