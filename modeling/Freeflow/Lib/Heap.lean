import Mathlib.Data.Finset.Card
import Mathlib.Data.Finset.Range
import Mathlib.Logic.Function.Basic
import Freeflow.Lib.Fault

/-!
# `Lib.Heap` — allocated objects and the pointers to them

A heap of objects of one type. `alloc` gives an address that was never in use, so a dangling pointer stays dangling and
every access through it is a fault. That no object lies beyond the next address is a field of the heap.

## Contents
- `Ptr`, `Heap` with `alloc`, `place`, `deref`, `write`, `free`.
- `Has`, `Extends`: what a heap holds, and that a later one holds all of it.
- `live`: how many objects it holds.
- `Owner`: a pointer field that nothing else points into.
-/

namespace Freeflow

variable {α : Type}

/-- A pointer: null, or an address. -/
abbrev Ptr := Option Nat

/-- The live objects of one type, and the next free address. -/
structure Heap (α : Type) where
  cells : Nat → Option α
  next : Nat
  bounded : ∀ a, next ≤ a → cells a = none

namespace Heap

/-- The heap without objects. -/
def empty : Heap α := ⟨fun _ => none, 0, fun _ _ => rfl⟩

/-- `malloc` of one object, with the contents it is given. -/
def alloc (h : Heap α) (x : α) : Heap α where
  cells := Function.update h.cells h.next (some x)
  next := h.next + 1
  bounded a ha := by
    rw [Function.update_of_ne (by omega)]
    exact h.bounded a (by omega)

/-- A new object where the allocator puts it. -/
def place (h : Heap α) (a : Nat) (x : α) : Heap α where
  cells := Function.update h.cells a (some x)
  next := max h.next (a + 1)
  bounded b hb := by
    rw [Function.update_of_ne (by omega)]
    exact h.bounded b (by omega)

/-- The object at an address. -/
def deref (h : Heap α) (a : Nat) : Checked α :=
  match h.cells a with
  | some x => .ok x
  | none => .error .useAfterFree

/-- The object behind a pointer. -/
def derefPtr (h : Heap α) : Ptr → Checked α
  | some a => h.deref a
  | none => .error .nullDeref

/-- An address beyond the live objects is not the one of a live object. -/
theorem ne_of_isSome {h : Heap α} {a b : Nat} (hs : (h.cells a).isSome = true) (hb : h.next ≤ b) : b ≠ a := by
  rintro rfl
  rw [h.bounded b hb] at hs
  cases hs

/-- The heap with the object at `a` replaced. -/
def write (h : Heap α) (a : Nat) (x : α) : Checked (Heap α) :=
  if hs : (h.cells a).isSome then
    .ok { h with
      cells := Function.update h.cells a (some x)
      bounded := fun b hb => by rw [Function.update_of_ne (ne_of_isSome hs hb)]; exact h.bounded b hb }
  else .error .useAfterFree

/-- `free` of a pointer. -/
def free (h : Heap α) : Ptr → Checked (Heap α)
  | none => .ok h
  | some a =>
      if hs : (h.cells a).isSome then
        .ok { h with
          cells := Function.update h.cells a none
          bounded := fun b hb => by rw [Function.update_of_ne (ne_of_isSome hs hb)]; exact h.bounded b hb }
      else .error .useAfterFree

/-! ## What the operations do to the cells -/

@[simp] theorem cells_empty (a : Nat) : (empty : Heap α).cells a = none := rfl

@[simp] theorem cells_alloc (h : Heap α) (x : α) :
    (h.alloc x).cells = Function.update h.cells h.next (some x) := rfl

@[simp] theorem next_alloc (h : Heap α) (x : α) : (h.alloc x).next = h.next + 1 := rfl

@[simp] theorem cells_place (h : Heap α) (a : Nat) (x : α) :
    (h.place a x).cells = Function.update h.cells a (some x) := rfl

/-- A live object lies below the next address. -/
theorem lt_next {h : Heap α} {a : Nat} {x : α} (ha : h.cells a = some x) : a < h.next := by
  by_contra hge
  rw [h.bounded a (by omega)] at ha
  cases ha

theorem cells_next (h : Heap α) : h.cells h.next = none := h.bounded _ (Nat.le_refl _)

theorem deref_eq {h : Heap α} {a : Nat} {x : α} (ha : h.cells a = some x) : h.deref a = .ok x := by
  rw [deref, ha]

theorem deref_ok {h : Heap α} {a : Nat} {x : α} (hd : h.deref a = .ok x) : h.cells a = some x := by
  unfold deref at hd
  cases hc : h.cells a with
  | none => rw [hc] at hd; cases hd
  | some y => rw [hc] at hd; cases hd; rfl

/-- A dereference that succeeded was of the address of a live object. -/
theorem derefPtr_ok {h : Heap α} {p : Ptr} {x : α} (hd : h.derefPtr p = .ok x) :
    ∃ a, p = some a ∧ h.cells a = some x := by
  cases p with
  | none => cases hd
  | some a => exact ⟨a, rfl, deref_ok hd⟩

/-- A live object can be replaced. -/
theorem write_eq {h : Heap α} {a : Nat} {x : α} (ha : h.cells a = some x) (y : α) :
    ∃ h', h.write a y = .ok h' ∧ h'.cells = Function.update h.cells a (some y) ∧ h'.next = h.next := by
  unfold write
  rw [dif_pos (by rw [ha]; rfl)]
  exact ⟨_, rfl, rfl, rfl⟩

/-- What was replaced was live. -/
theorem write_ok {h h' : Heap α} {a : Nat} {x : α} (hw : h.write a x = .ok h') : ∃ y, h.cells a = some y := by
  unfold write at hw
  split at hw
  · next hs => exact Option.isSome_iff_exists.mp hs
  · cases hw

/-- A live object can be freed. -/
theorem free_eq {h : Heap α} {a : Nat} {x : α} (ha : h.cells a = some x) :
    ∃ h', h.free (some a) = .ok h' ∧ h'.cells = Function.update h.cells a none ∧ h'.next = h.next := by
  unfold free
  dsimp only
  rw [dif_pos (by rw [ha]; rfl)]
  exact ⟨_, rfl, rfl, rfl⟩

/-- What was freed was live. -/
theorem free_ok {h h' : Heap α} {a : Nat} (hf : h.free (some a) = .ok h') : ∃ x, h.cells a = some x := by
  unfold free at hf
  dsimp only at hf
  split at hf
  · next hs => exact Option.isSome_iff_exists.mp hs
  · cases hf

/-- What is live after an address was freed was live before, and is another object. -/
theorem live_of_freed {cells cells' : Nat → Option α} {a b : Nat} {x : α}
    (hcells : cells' = Function.update cells a none) (hb : cells' b = some x) : b ≠ a ∧ cells b = some x := by
  have hne : b ≠ a := by
    rintro rfl
    rw [hcells, Function.update_self] at hb
    cases hb
  rw [hcells, Function.update_of_ne hne] at hb
  exact ⟨hne, hb⟩

/-! ## What a heap holds -/

/-- The object at an address is `x`. -/
def Has (h : Heap α) (a : Nat) (x : α) : Prop := h.cells a = some x

/-- There is one object at an address. -/
theorem Has.unique {h : Heap α} {a : Nat} {x y : α} (hx : h.Has a x) (hy : h.Has a y) : x = y :=
  Option.some.inj (hx.symm.trans hy)

/-- An address with an object is none that is free. -/
theorem Has.ne {h : Heap α} {a b : Nat} {x : α} (ha : h.Has a x) (hb : h.cells b = none) : a ≠ b := by
  rintro rfl
  rw [Has, hb] at ha
  cases ha

/-- Everything that is in the one heap is in the other, as it is. -/
def Extends (h h' : Heap α) : Prop := ∀ a x, h.Has a x → h'.Has a x

theorem Extends.refl (h : Heap α) : h.Extends h := fun _ _ ha => ha

theorem Extends.trans {h₁ h₂ h₃ : Heap α} (h₁₂ : h₁.Extends h₂) (h₂₃ : h₂.Extends h₃) : h₁.Extends h₃ :=
  fun a x ha => h₂₃ a x (h₁₂ a x ha)

/-- An address that is free in the extension was free before. -/
theorem Extends.free {h h' : Heap α} (hext : h.Extends h') {a : Nat} (ha : h'.cells a = none) : h.cells a = none := by
  cases hc : h.cells a with
  | none => rfl
  | some x => exact absurd rfl ((hext a x hc).ne ha)

/-- A new object changes nothing of what is there. -/
theorem extends_place {h : Heap α} {a : Nat} (ha : h.cells a = none) (x : α) : h.Extends (h.place a x) := by
  intro b y hb
  rw [Has, cells_place, Function.update_of_ne (hb.ne ha)]
  exact hb

theorem has_place (h : Heap α) (a : Nat) (x : α) : (h.place a x).Has a x := by
  rw [Has, cells_place, Function.update_self]

/-! ## How many objects there are -/

/-- The addresses of the live objects. -/
def inUse (h : Heap α) : Finset Nat := {a ∈ Finset.range h.next | (h.cells a).isSome}

/-- The number of live objects. -/
def live (h : Heap α) : Nat := h.inUse.card

theorem mem_inUse {h : Heap α} {a : Nat} : a ∈ h.inUse ↔ (h.cells a).isSome := by
  rw [inUse, Finset.mem_filter, Finset.mem_range]
  refine ⟨fun h => h.2, fun hs => ⟨?_, hs⟩⟩
  obtain ⟨x, hx⟩ := Option.isSome_iff_exists.mp hs
  exact lt_next hx

@[simp] theorem live_empty : (empty : Heap α).live = 0 := rfl

/-- A new object is one more. -/
theorem live_alloc (h : Heap α) (x : α) : (h.alloc x).live = h.live + 1 := by
  have hnew : h.next ∉ h.inUse := by
    rw [mem_inUse, h.cells_next]
    simp
  have hinsert : (h.alloc x).inUse = insert h.next h.inUse := by
    ext a
    rw [Finset.mem_insert, mem_inUse, mem_inUse, cells_alloc]
    by_cases ha : a = h.next
    · simp [ha]
    · simp [ha]
  rw [live, hinsert, Finset.card_insert_of_notMem hnew, live]

/-- A write makes and frees nothing. -/
theorem live_write {h h' : Heap α} {a : Nat} {y : α} (hw : h.write a y = .ok h') : h'.live = h.live := by
  obtain ⟨x, ha⟩ := write_ok hw
  obtain ⟨h₁, hw₁, hcells, -⟩ := write_eq ha y
  rw [hw] at hw₁
  cases hw₁
  have hsame : h'.inUse = h.inUse := by
    ext b
    rw [mem_inUse, mem_inUse, hcells]
    by_cases hb : b = a
    · simp [hb, ha]
    · simp [hb]
  rw [live, hsame, live]

/-- Freeing an object makes one less. -/
theorem live_free {h h' : Heap α} {a : Nat} (hf : h.free (some a) = .ok h') : h'.live + 1 = h.live := by
  obtain ⟨x, ha⟩ := free_ok hf
  obtain ⟨h₁, hf₁, hcells, -⟩ := free_eq ha
  rw [hf] at hf₁
  cases hf₁
  have herase : h'.inUse = h.inUse.erase a := by
    ext b
    rw [Finset.mem_erase, mem_inUse, mem_inUse, hcells]
    by_cases hb : b = a
    · simp [hb]
    · simp [hb]
  have hmem : a ∈ h.inUse := mem_inUse.mpr (by rw [ha]; rfl)
  rw [live, herase, live]
  exact Finset.card_erase_add_one hmem

end Heap

/-! ## Owning pointer fields -/

/-- A pointer field of an object that owns what it points at: null, whatever `malloc` left there, or an object. -/
inductive Owner (α : Type) where
  | null
  | wild
  | owned (x : α)

/-- What the field points at. -/
def Owner.deref : Owner α → Checked α
  | .null => .error .nullDeref
  | .wild => .error .useAfterFree
  | .owned x => .ok x

/-- A deallocation that does nothing to a null pointer. -/
def Owner.delete : Owner α → Checked Unit
  | .wild => .error .useAfterFree
  | .null | .owned _ => .ok ()

@[simp] theorem Owner.deref_owned (x : α) : (Owner.owned x).deref = .ok x := rfl

@[simp] theorem Owner.delete_owned (x : α) : (Owner.owned x).delete = .ok () := rfl

end Freeflow
