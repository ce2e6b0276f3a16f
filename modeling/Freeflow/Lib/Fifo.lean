import Mathlib.Tactic.Common
import Mathlib.Data.Nat.ModEq

/-!
# `Lib.Fifo` — bounded FIFO queues and the circular arrays that hold them

Two levels of one design. `Fifo` is the queue as its user sees it: a list, oldest element first, that
never exceeds its bound. `Occupies a h q` says that a circular array `a` holds the queue `q` from index
`h` on. Every queue operation has one lemma that moves `Occupies` across it.

## Contents
- `Fifo`: `push`, `pushMany`, `front?`, `oldest`, `discard`, with the bound carried as a field.
- `Occupies`: `occupies_push`, `Occupies.get`, `Occupies.drop`.
- `wrap`: stepping an index by a comparison, without a division.
-/

namespace Freeflow

variable {α : Type}

/-! ## The bounded queue -/

/-- A FIFO queue of at most `cap` elements, oldest first. -/
structure Fifo (α : Type) (cap : Nat) where
  items : List α
  bound : items.length ≤ cap

namespace Fifo

variable {cap : Nat}

/-- The queue without elements. -/
def empty : Fifo α cap := ⟨[], Nat.zero_le _⟩

/-- How many elements still fit. -/
def room (q : Fifo α cap) : Nat := cap - q.items.length

/-- Append the longest prefix of `xs` that fits. -/
def pushMany (q : Fifo α cap) (xs : List α) : Fifo α cap where
  items := q.items ++ xs.take q.room
  bound := by
    have := q.bound
    simp only [room, List.length_append, List.length_take]
    omega

/-- Append one element, if it fits. -/
def push (q : Fifo α cap) (x : α) : Fifo α cap := q.pushMany [x]

/-- The oldest `n` elements, or all of them when there are fewer. -/
def oldest (q : Fifo α cap) (n : Nat) : List α := q.items.take n

/-- Drop the oldest `n` elements, or all of them when there are fewer. -/
def discard (q : Fifo α cap) (n : Nat) : Fifo α cap where
  items := q.items.drop n
  bound := by
    have := q.bound
    simp only [List.length_drop]
    omega

@[simp] theorem items_empty : (empty : Fifo α cap).items = [] := rfl

@[simp] theorem items_pushMany (q : Fifo α cap) (xs : List α) :
    (q.pushMany xs).items = q.items ++ xs.take q.room := rfl

@[simp] theorem items_discard (q : Fifo α cap) (n : Nat) :
    (q.discard n).items = q.items.drop n := rfl

end Fifo

/-! ## Circular arrays -/

/-- Index `i` moved one step along a circular array of `n` cells. -/
def wrap (n i : Nat) : Nat := if i + 1 = n then 0 else i + 1

theorem wrap_eq_mod {n i : Nat} (hi : i < n) : wrap n i = (i + 1) % n := by
  unfold wrap
  split
  · next h => rw [h, Nat.mod_self]
  · next h => rw [Nat.mod_eq_of_lt (by omega)]

/-- The circular array `a` holds the queue `q` in the cells from index `h` on. -/
def Occupies (a : List α) (h : Nat) (q : List α) : Prop :=
  q.length ≤ a.length ∧ ∀ i x, q[i]? = some x → a[(h + i) % a.length]? = some x

theorem occupies_nil (a : List α) (h : Nat) : Occupies a h [] :=
  ⟨Nat.zero_le _, fun i x hx => by simp at hx⟩

/-- Within one turn of a circular array no cell is met twice. -/
theorem circular_index_inj {n h i j : Nat} (hi : i < n) (hj : j < n)
    (he : (h + i) % n = (h + j) % n) : i = j := by
  have hmod : i ≡ j [MOD n] := Nat.ModEq.add_left_cancel' h he
  exact Nat.ModEq.eq_of_lt_of_lt hmod hi hj

/-- Writing the first free cell appends to the queue. -/
theorem occupies_push {a : List α} {h : Nat} {q : List α} (x : α) (hq : Occupies a h q)
    (hlt : q.length < a.length) : Occupies (a.set ((h + q.length) % a.length) x) h (q ++ [x]) := by
  refine ⟨by simp; omega, ?_⟩
  intro i y hy
  rw [List.length_set]
  rcases Nat.lt_or_ge i q.length with hi | hi
  · rw [List.getElem?_append_left hi] at hy
    have hne : (h + q.length) % a.length ≠ (h + i) % a.length := by
      intro he
      have := circular_index_inj hlt (by omega) he
      omega
    rw [List.getElem?_set_ne hne]
    exact hq.2 i y hy
  · have hlen := (List.getElem?_eq_some_iff.mp hy).1
    have hi' : i = q.length := by simp at hlen; omega
    subst hi'
    rw [List.getElem?_append_right (le_refl _), Nat.sub_self] at hy
    rw [List.getElem?_set_self (Nat.mod_lt _ (by omega))]
    simpa using hy

/-- The `i`-th oldest element sits `i` cells after the head. -/
theorem Occupies.get {a : List α} {h i : Nat} {q : List α} (hq : Occupies a h q)
    (hi : i < q.length) : a[(h + i) % a.length]? = some q[i] :=
  hq.2 i q[i] (List.getElem?_eq_getElem hi)

/-- Moving the head `k` cells on drops the `k` oldest elements. -/
theorem Occupies.drop {a : List α} {h : Nat} {q : List α} (hq : Occupies a h q) (k : Nat) :
    Occupies a ((h + k) % a.length) (q.drop k) := by
  refine ⟨by have := hq.1; simp only [List.length_drop]; omega, ?_⟩
  intro i x hx
  rw [List.getElem?_drop] at hx
  rw [Nat.mod_add_mod, Nat.add_assoc]
  exact hq.2 (k + i) x hx

end Freeflow
