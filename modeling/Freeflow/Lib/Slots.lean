import Mathlib.Data.List.Perm.Basic
import Freeflow.Lib.Fault

/-!
# `Lib.Slots` — an array of slots, each empty or taken

A fixed number of slots, the number being a field of the type. The first empty slot is the one that a linear search
finds; what is in the slots, in order, is `taken`. Assigning a slot exchanges its old contents for the new ones.

## Contents
- `Slots` with `get`, `assign`, `put`, `firstFree`, `taken`.
- `taken_put_perm`: the effect of an assignment on what is taken.
- `firstFree_eq_none`, `firstFree_eq_some`: when the search finds a slot.
-/

namespace Freeflow

variable {α : Type} {n : Nat}

/-- `n` slots. -/
structure Slots (α : Type) (n : Nat) where
  cells : List (Option α)
  length_eq : cells.length = n

namespace Slots

/-- All slots empty. -/
def empty : Slots α n := ⟨List.replicate n none, List.length_replicate⟩

/-- Read a slot. -/
def get (s : Slots α n) (i : Int) : Checked (Option α) := load s.cells i

/-- The slots after slot `i` was assigned `c`. -/
def put (s : Slots α n) (i : Nat) (c : Option α) : Slots α n :=
  ⟨s.cells.set i c, by rw [List.length_set, s.length_eq]⟩

/-- Assign a slot, by an index that may be out of range. -/
def assign (s : Slots α n) (i : Int) (c : Option α) : Checked (Slots α n) :=
  if 0 ≤ i ∧ i.toNat < s.cells.length then .ok (s.put i.toNat c) else .error .outOfBounds

/-- The first empty slot. -/
def firstFree (s : Slots α n) : Option Nat := s.cells.findIdx? Option.isNone

/-- What is in the slots, in order. -/
def taken (s : Slots α n) : List α := s.cells.filterMap id

/-- Slot `i` holds `x`. -/
def Holds (s : Slots α n) (i : Nat) (x : α) : Prop := s.cells[i]? = some (some x)

@[simp] theorem cells_put (s : Slots α n) (i : Nat) (c : Option α) : (s.put i c).cells = s.cells.set i c := rfl

@[simp] theorem taken_empty : (empty : Slots α n).taken = [] := by
  simp [empty, taken]

theorem get_eq {s : Slots α n} {i : Nat} {c : Option α} (h : s.cells[i]? = some c) : s.get (i : Int) = .ok c :=
  load_natCast h

theorem assign_eq {s : Slots α n} {i : Nat} {c : Option α} (h : s.cells[i]? = some c) (d : Option α) :
    s.assign (i : Int) d = .ok (s.put i d) := by
  have hlt := (List.getElem?_eq_some_iff.mp h).1
  rw [assign, if_pos ⟨by omega, by simpa using hlt⟩, Int.toNat_natCast]

/-- An assignment within the slots. -/
theorem assign_of_lt (s : Slots α n) {i : Nat} (h : i < n) (c : Option α) : s.assign (i : Int) c = .ok (s.put i c) := by
  rw [assign, if_pos ⟨by omega, by rw [Int.toNat_natCast, s.length_eq]; exact h⟩, Int.toNat_natCast]

/-- An assignment outside the slots. -/
theorem assign_error (s : Slots α n) {i : Int} (h : ¬ (0 ≤ i ∧ i < n)) (c : Option α) :
    s.assign i c = .error .outOfBounds := by
  rw [assign, s.length_eq]
  exact if_neg (by omega)

theorem mem_taken {s : Slots α n} {x : α} : x ∈ s.taken ↔ ∃ i, s.Holds i x := by
  unfold taken Holds
  rw [List.mem_filterMap]
  constructor
  · rintro ⟨c, hc, rfl⟩
    exact List.mem_iff_getElem?.mp hc
  · rintro ⟨i, hi⟩
    exact ⟨some x, List.mem_of_getElem? hi, rfl⟩

theorem holds_put_self {s : Slots α n} {i : Nat} {c : Option α} (h : s.cells[i]? = some c) (x : α) :
    (s.put i (some x)).Holds i x := by
  unfold Holds
  rw [cells_put, List.getElem?_set_self (List.getElem?_eq_some_iff.mp h).1]

/-- An assignment leaves the other slots as they are. -/
theorem holds_put_of_ne {s : Slots α n} {i j : Nat} (hne : i ≠ j) (c : Option α) (x : α) :
    (s.put i c).Holds j x ↔ s.Holds j x := by
  unfold Holds
  rw [cells_put, List.getElem?_set_ne hne]

/-- Emptying a slot again that was empty before. -/
theorem put_put_none {s : Slots α n} {i : Nat} (h : s.cells[i]? = some none) (c : Option α) :
    (s.put i c).put i none = s := by
  obtain ⟨hlt, hget⟩ := List.getElem?_eq_some_iff.mp h
  have hcells : ((s.put i c).put i none).cells = s.cells := by
    rw [cells_put, cells_put, List.set_set, ← hget, List.set_getElem_self]
  cases s
  unfold put at hcells ⊢
  congr

/-- **Assigning a slot exchanges its contents.** -/
theorem taken_put_perm {s : Slots α n} {i : Nat} {c : Option α} (h : s.cells[i]? = some c) (d : Option α) :
    (c.toList ++ (s.put i d).taken).Perm (d.toList ++ s.taken) := by
  have hlt := (List.getElem?_eq_some_iff.mp h).1
  have hset : s.cells.set i d = s.cells.take i ++ d :: s.cells.drop (i + 1) := by
    rw [List.set_eq_take_append_cons_drop, if_pos hlt]
  have hold : s.cells = s.cells.take i ++ c :: s.cells.drop (i + 1) := by
    have hget : s.cells[i] = c := by
      rw [List.getElem?_eq_getElem hlt] at h
      exact Option.some.inj h
    rw [← hget, List.getElem_cons_drop, List.take_append_drop]
  have hmap : ∀ e : Option α, (s.cells.take i ++ e :: s.cells.drop (i + 1)).filterMap id
      = (s.cells.take i).filterMap id ++ (e.toList ++ (s.cells.drop (i + 1)).filterMap id) := by
    intro e
    cases e <;> simp
  have hswap : ∀ a b xs ys : List α, (a ++ (xs ++ (b ++ ys))).Perm (b ++ (xs ++ (a ++ ys))) := by
    intro a b xs ys
    calc
      (a ++ (xs ++ (b ++ ys))).Perm (a ++ (b ++ (xs ++ ys))) := (List.perm_append_comm_assoc _ _ _).append_left _
      List.Perm _ (b ++ (a ++ (xs ++ ys))) := List.perm_append_comm_assoc _ _ _
      List.Perm _ (b ++ (xs ++ (a ++ ys))) := (List.perm_append_comm_assoc _ _ _).append_left _
  unfold taken
  rw [cells_put, hset, hmap d]
  conv_rhs => rw [hold, hmap c]
  exact hswap _ _ _ _

/-! ## The search for an empty slot -/

/-- The search finds nothing exactly when all slots are taken. -/
theorem firstFree_eq_none {s : Slots α n} : s.firstFree = none ↔ ∀ c ∈ s.cells, c ≠ none := by
  rw [firstFree, List.findIdx?_eq_none_iff]
  constructor
  · rintro h c hc rfl
    simpa using h none hc
  · intro h c hc
    cases c with
    | none => exact absurd rfl (h none hc)
    | some x => rfl

theorem firstFree_eq_some {s : Slots α n} {i : Nat} (h : s.firstFree = some i) : s.cells[i]? = some none := by
  obtain ⟨hlt, hnone, -⟩ := List.findIdx?_eq_some_iff_getElem.mp h
  rw [List.getElem?_eq_getElem hlt]
  cases hc : s.cells[i] with
  | none => rfl
  | some x => rw [hc] at hnone; cases hnone

/-- A list of cells has as many contents as cells exactly when none is empty. -/
theorem length_filterMap_id_eq_iff (cells : List (Option α)) :
    (cells.filterMap id).length = cells.length ↔ ∀ c ∈ cells, c ≠ none := by
  induction cells with
  | nil => simp
  | cons c cells ih =>
      rw [List.forall_mem_cons, ← ih, List.length_cons]
      cases c with
      | none =>
          have hle := List.length_filterMap_le id cells
          rw [List.filterMap_cons_none rfl]
          exact ⟨fun h => by omega, fun h => absurd rfl h.1⟩
      | some x =>
          have hx : id (some x) = some x := rfl
          rw [List.filterMap_cons_some hx, List.length_cons, Nat.add_right_cancel_iff]
          exact ⟨fun h => ⟨by simp, h⟩, fun h => h.2⟩

/-- All slots are taken exactly when as many things are in them as there are slots. -/
theorem length_taken_eq_iff {s : Slots α n} : s.taken.length = n ↔ ∀ c ∈ s.cells, c ≠ none := by
  have h := length_filterMap_id_eq_iff s.cells
  rwa [s.length_eq] at h

end Slots

end Freeflow
