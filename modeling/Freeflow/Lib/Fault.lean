import Mathlib.Tactic.Common

/-!
# `Lib.Fault` — computations that may run into undefined behaviour

A C or C++ function is modelled as a total function into `Checked`: it returns a value, or it stops at
the first undefined operation with the `Fault` that names it. Safety of a function is then the statement
that no fault comes out, and every functional statement says along the way that none did.

## Contents
- `Fault`, `Checked` and the equations of its `bind`.
- `checkInt`: signed arithmetic on a 32-bit `int`, whose overflow is undefined.
- `load`/`store`: array access by a signed index, undefined outside the array.
- `Within`: what more fuel may change.
-/

namespace Freeflow

/-- The undefined behaviours the models distinguish. `outOfFuel` is no behaviour of a program: it is the
    verdict of a fuelled definition that was given too little, and totality theorems exclude it. -/
inductive Fault where
  | outOfBounds
  | nullDeref
  | divideByZero
  | signedOverflow
  | useAfterFree
  | outOfFuel
deriving DecidableEq, Repr

/-- A computation that returns a value unless it meets undefined behaviour. -/
abbrev Checked (α : Type) := Except Fault α

variable {α β : Type}

@[simp] theorem ok_bind (a : α) (f : α → Checked β) : (Except.ok a >>= f) = f a := rfl

@[simp] theorem error_bind (e : Fault) (f : α → Checked β) :
    ((Except.error e : Checked α) >>= f) = Except.error e := rfl

@[simp] theorem pure_eq_ok (a : α) : (pure a : Checked α) = Except.ok a := rfl

/-- A sequence that returned: its first part returned, and so did the rest on that value. -/
theorem bind_eq_ok {x : Checked α} {f : α → Checked β} {b : β} (h : (x >>= f) = .ok b) :
    ∃ a, x = .ok a ∧ f a = .ok b := by
  cases x with
  | error e => exact absurd h (by simp)
  | ok a => exact ⟨a, rfl, h⟩

/-- A computation returned what is seen of its value. -/
theorem map_eq_ok {x : Checked α} {f : α → β} {b : β} (h : x.map f = .ok b) : ∃ a, x = .ok a ∧ f a = b := by
  cases x with
  | error e => cases h
  | ok a => exact ⟨a, rfl, Except.ok.inj h⟩

/-- A computation met the fault that is seen of it. -/
theorem map_eq_error {x : Checked α} {f : α → β} {e : Fault} (h : x.map f = .error e) : x = .error e := by
  cases x with
  | error e' => exact congrArg _ (Except.error.inj h)
  | ok a => cases h

/-- What is known of the value that a computation returns is known of the value it returned. -/
theorem of_exists_ok {x : Checked α} {P : α → Prop} {b : α} (h : ∃ a, x = .ok a ∧ P a) (hb : x = .ok b) : P b := by
  obtain ⟨a, ha, hP⟩ := h
  rw [hb] at ha
  cases ha
  exact hP

/-! ## Signed machine integers -/

/-- The least value of a 32-bit `int`. -/
def intMin : Int := -2147483648

/-- The greatest value of a 32-bit `int`. -/
def intMax : Int := 2147483647

/-- The result `x` of an `int` operation, defined when it is representable. -/
def checkInt (x : Int) : Checked Int :=
  if intMin ≤ x ∧ x ≤ intMax then .ok x else .error .signedOverflow

theorem checkInt_ok {x : Int} (hlo : intMin ≤ x) (hhi : x ≤ intMax) : checkInt x = .ok x := by
  rw [checkInt, if_pos ⟨hlo, hhi⟩]

/-- The same, with the bounds spelled out. -/
theorem checkInt_of_bounds {x : Int} (hlo : -2147483648 ≤ x) (hhi : x ≤ 2147483647) : checkInt x = .ok x :=
  checkInt_ok hlo hhi

/-- An operation that succeeded was in range. -/
theorem checkInt_bounds {x y : Int} (h : checkInt x = .ok y) : intMin ≤ x ∧ x ≤ intMax := by
  unfold checkInt at h
  by_cases hr : intMin ≤ x ∧ x ≤ intMax
  · exact hr
  · rw [if_neg hr] at h
    cases h

/-! ## Arrays -/

/-- Read `a[i]`. -/
def load (a : List α) (i : Int) : Checked α :=
  match a[i.toNat]? with
  | some x => if 0 ≤ i then .ok x else .error .outOfBounds
  | none => .error .outOfBounds

/-- The array after `a[i] = x`. -/
def store (a : List α) (i : Int) (x : α) : Checked (List α) :=
  if 0 ≤ i ∧ i.toNat < a.length then .ok (a.set i.toNat x) else .error .outOfBounds

theorem load_natCast {a : List α} {i : Nat} {x : α} (h : a[i]? = some x) :
    load a (i : Int) = .ok x := by
  simp [load, h]

/-- A load within the array. -/
theorem load_of_lt {a : List α} {i : Int} (hpos : 0 ≤ i) (hlt : i.toNat < a.length) : load a i = .ok a[i.toNat] := by
  rw [load, List.getElem?_eq_getElem hlt]
  simp only [if_pos hpos]

/-- A load outside the array. -/
theorem load_error {a : List α} {i : Int} (h : ¬ (0 ≤ i ∧ i.toNat < a.length)) : load a i = .error .outOfBounds := by
  unfold load
  cases hget : a[i.toNat]? with
  | none => rfl
  | some x => exact if_neg (fun hpos => h ⟨hpos, (List.getElem?_eq_some_iff.mp hget).1⟩)

/-- A load that succeeded was within the array. -/
theorem load_ok {a : List α} {i : Int} {x : α} (h : load a i = .ok x) : 0 ≤ i ∧ a[i.toNat]? = some x := by
  unfold load at h
  cases hget : a[i.toNat]? with
  | none => rw [hget] at h; cases h
  | some y =>
      rw [hget] at h
      by_cases hpos : 0 ≤ i
      · simp only [if_pos hpos, Except.ok.injEq] at h
        exact ⟨hpos, by rw [h]⟩
      · simp only [if_neg hpos, reduceCtorEq] at h

theorem store_natCast {a : List α} {i : Nat} (x : α) (h : i < a.length) :
    store a (i : Int) x = .ok (a.set i x) := by
  simp [store, h]

section
variable {before : List α} {i : Nat} (h : before.length = i) (x old : α) (after : List α)
include h

/-- The element behind a first part is loaded. -/
theorem load_append : load (before ++ x :: after) (i : Int) = .ok x := by
  apply load_natCast
  rw [List.getElem?_append_right (Nat.le_of_eq h), h, Nat.sub_self]
  rfl

/-- The element behind a first part is replaced. -/
theorem store_append : store (before ++ old :: after) (i : Int) x = .ok (before ++ x :: after) := by
  subst h
  rw [store_natCast x (by simp), List.set_append_right _ _ (Nat.le_refl _), Nat.sub_self]
  rfl

end

/-! ## Fuel -/

/-- With more fuel `x` is `y`: it ran out of fuel, or is `y` already. -/
def Within (x y : Checked α) : Prop := x = .error .outOfFuel ∨ x = y

theorem Within.refl (x : Checked α) : Within x x := Or.inr rfl

theorem Within.trans {x y z : Checked α} (h : Within x y) (h' : Within y z) : Within x z := by
  rcases h with h | rfl
  · exact Or.inl h
  · exact h'

/-- The rule for a sequence. -/
theorem Within.bind {x y : Checked α} {f g : α → Checked β} (h : Within x y) (hf : ∀ a, Within (f a) (g a)) :
    Within (x >>= f) (y >>= g) := by
  rcases h with rfl | rfl
  · exact Or.inl rfl
  · cases x with
    | error e => exact Or.inr rfl
    | ok a => exact hf a

/-- The rule for a loop. -/
theorem Within.foldlM {σ ι : Type} {f g : σ → ι → Checked σ} (h : ∀ s i, Within (f s i) (g s i)) :
    ∀ (is : List ι) (s : σ), Within (is.foldlM f s) (is.foldlM g s)
  | [], s => Within.refl _
  | i :: is, s => by
      rw [List.foldlM_cons, List.foldlM_cons]
      exact (h s i).bind (fun s' => Within.foldlM h is s')

/-- A sequence has enough fuel when both of its parts have. -/
theorem bind_ne_outOfFuel {x : Checked α} {f : α → Checked β} (hx : x ≠ .error .outOfFuel)
    (hf : ∀ a, f a ≠ .error .outOfFuel) : (x >>= f) ≠ .error .outOfFuel := by
  cases x with
  | error e => exact fun h => hx (by rw [Except.error.inj h])
  | ok a => exact hf a

theorem load_ne_outOfFuel (a : List α) (i : Int) : load a i ≠ .error .outOfFuel := by
  by_cases h : 0 ≤ i ∧ i.toNat < a.length
  · rw [load_of_lt h.1 h.2]
    exact fun h => by cases h
  · rw [load_error h]
    exact fun h => by cases h

theorem store_ne_outOfFuel (a : List α) (i : Int) (x : α) : store a i x ≠ .error .outOfFuel := by
  unfold store
  split
  · exact fun h => by cases h
  · exact fun h => by cases h

/-- Where the fuel was enough, more of it changes nothing. -/
theorem Within.eq_of_ne {x y : Checked α} (h : Within x y) (hx : x ≠ .error .outOfFuel) : x = y := h.resolve_left hx

end Freeflow
