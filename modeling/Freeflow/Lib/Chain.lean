import Mathlib.Data.List.Perm.Subperm
import Freeflow.Lib.Heap

/-!
# `Lib.Chain` — null-terminated chains of nodes

A chain is a pointer to a node that holds an item and the pointer to the rest, up to null. It is built from the front: a new
node is put behind the last one. `Linked` says which nodes a chain consists of, and it looks at the heap through a view, so
that it can say as well that all of them are among certain nodes.

## Contents
- `Linking`: a kind of node with an item and a pointer to the next one; `load` and `append`.
- `firstNode` and `lastNode`, the pointers to the ends of a list of nodes.
- `Linked`, which nodes a chain has: one list for each pointer, no node twice, and what `append` and the removal of a node
  do to it.
-/

namespace Freeflow

variable {α β : Type}

/-- How the nodes of one kind are made of an item and a pointer to the next node, and are recognized. -/
structure Linking (α β : Type) where
  node : β → Ptr → α
  link : α → Option (β × Ptr)
  link_node : ∀ x p, link (node x p) = some (x, p)

namespace Linking

variable (L : Linking α β)

/-- A node has one item and one pointer. -/
theorem node_inj {x y : β} {p q : Ptr} (h : L.node x p = L.node y q) : x = y ∧ p = q := by
  have hlink := congrArg L.link h
  rw [L.link_node, L.link_node] at hlink
  cases hlink
  exact ⟨rfl, rfl⟩

/-- The item and the next pointer of a node of this kind. -/
def load (h : Heap α) (p : Ptr) : Checked (β × Ptr) := do
  let n ← h.derefPtr p
  match L.link n with
  | some l => .ok l
  -- the pointer is not one to a node of this kind
  | none => .error .useAfterFree

theorem load_eq {h : Heap α} {a : Nat} {x : β} {p : Ptr} (ha : h.Has a (L.node x p)) :
    L.load h (some a) = .ok (x, p) := by
  show (h.deref a >>= _) = _
  rw [Heap.deref_eq ha, ok_bind, L.link_node]

/-- A new node at `a`, behind the node `prev` if there is one. -/
def append (h : Heap α) (a : Nat) (x : β) (prev : Ptr) : Checked (Heap α) :=
  let h := h.place a (L.node x none)
  match prev with
  | none => .ok h
  | some b => do
      let (y, _) ← L.load h prev
      h.write b (L.node y (some a))

/-- A first node changes nothing of what is there. -/
theorem append_none (h : Heap α) (a : Nat) (x : β) : L.append h a x none = .ok (h.place a (L.node x none)) := rfl

/-- A node behind another: the other gets a new pointer, and nothing else changes. -/
theorem append_some {h : Heap α} {a b : Nat} (ha : h.cells a = none) {x y : β} {p : Ptr} (hb : h.Has b (L.node y p)) :
    ∃ h', L.append h a x (some b) = .ok h' ∧ h'.Has a (L.node x none) ∧ h'.Has b (L.node y (some a)) ∧
      ∀ c n, c ≠ b → h.Has c n → h'.Has c n := by
  have hplaced := Heap.extends_place ha (L.node x none)
  obtain ⟨h', hwrite, hcells, -⟩ := Heap.write_eq (hplaced b _ hb) (L.node y (some a))
  have hne : a ≠ b := (hb.ne ha).symm
  have hother : ∀ c n, c ≠ b → (h.place a (L.node x none)).Has c n → h'.Has c n := by
    intro c n hc hn
    rw [Heap.Has, hcells, Function.update_of_ne hc]
    exact hn
  refine ⟨h', ?_, hother a _ hne (Heap.has_place h a _), ?_, fun c n hc hn => hother c n hc (hplaced c n hn)⟩
  · show (L.load (h.place a (L.node x none)) (some b) >>= _) = _
    rw [L.load_eq (hplaced b _ hb), ok_bind]
    exact hwrite
  · rw [Heap.Has, hcells, Function.update_self]

end Linking

/-! ## The nodes of a chain -/

/-- The pointer to the first of some nodes, or null. -/
def firstNode (xs : List (Nat × β)) : Ptr := xs.head?.map Prod.fst

/-- The pointer to the last of some nodes, or null. -/
def lastNode (xs : List (Nat × β)) : Ptr := xs.getLast?.map Prod.fst

/-- The chain from a pointer consists of these nodes, with their items, as far as the view `V` shows the heap. -/
inductive Linked (L : Linking α β) (V : Nat → α → Prop) : Ptr → List (Nat × β) → Prop where
  | nil : Linked L V none []
  | cons {a : Nat} {x : β} {p : Ptr} {xs : List (Nat × β)} : V a (L.node x p) → Linked L V p xs →
      Linked L V (some a) ((a, x) :: xs)

namespace Linked

variable {L : Linking α β} {V W : Nat → α → Prop} {p : Ptr} {xs ys : List (Nat × β)}

/-- A view that shows the nodes of the chain as well. -/
theorem mono_on (h : Linked L V p xs) (hVW : ∀ x ∈ xs, ∀ n, V x.1 n → W x.1 n) : Linked L W p xs := by
  induction h with
  | nil => exact .nil
  | cons ha _ ih =>
      rw [List.forall_mem_cons] at hVW
      exact .cons (hVW.1 _ ha) (ih hVW.2)

/-- A view that shows more. -/
theorem mono (h : Linked L V p xs) (hVW : ∀ a n, V a n → W a n) : Linked L W p xs :=
  h.mono_on (fun x _ n => hVW x.1 n)

/-- The pointer to a chain is the pointer to its first node. -/
theorem eq_firstNode (h : Linked L V p xs) : p = firstNode xs := by
  cases h with
  | nil => rfl
  | cons _ _ => rfl

/-- Behind some of its nodes a chain goes on as a chain. -/
theorem suffix (h : Linked L V p (xs ++ ys)) : Linked L V (firstNode ys) ys := by
  induction xs generalizing p with
  | nil => exact h.eq_firstNode ▸ h
  | cons x xs ih =>
      cases h with
      | cons _ hrest => exact ih hrest

/-- A node of a chain points at the rest of it. -/
theorem node {a : Nat} {x : β} (h : Linked L V p (xs ++ (a, x) :: ys)) : V a (L.node x (firstNode ys)) := by
  cases h.suffix with
  | cons ha hrest => exact hrest.eq_firstNode ▸ ha

/-- Where there is one node at an address, there is one chain at a pointer. -/
theorem unique (hV : ∀ a n m, V a n → V a m → n = m) (hxs : Linked L V p xs) (hys : Linked L V p ys) : xs = ys := by
  induction hxs generalizing ys with
  | nil =>
      cases hys
      rfl
  | cons ha _ ih =>
      cases hys with
      | cons hb hrest =>
          obtain ⟨rfl, rfl⟩ := L.node_inj (hV _ _ _ ha hb)
          rw [ih hrest]

/-- **A chain that ends has no node twice**: behind its second occurrence the chain would go on as behind the first. -/
theorem nodup (hV : ∀ a n m, V a n → V a m → n = m) (h : Linked L V p xs) : (xs.map Prod.fst).Nodup := by
  induction h with
  | nil => exact List.nodup_nil
  | @cons a x p xs ha hrest ih =>
      rw [List.map_cons, List.nodup_cons]
      refine ⟨fun hmem => ?_, ih⟩
      obtain ⟨⟨b, y⟩, hb, rfl⟩ := List.mem_map.mp hmem
      obtain ⟨before, after, rfl⟩ := List.append_of_mem hb
      cases hrest.suffix with
      | cons hy htail =>
          have hwhole : Linked L V (some b) ((b, x) :: (before ++ (b, y) :: after)) := .cons ha hrest
          have heq := hwhole.unique hV (.cons hy htail)
          have hlength := congrArg List.length heq
          simp only [List.length_cons, List.length_append] at hlength
          omega

/-- There are no more nodes in a chain than addresses in use. -/
theorem length_le {h : Heap α} (hxs : Linked L h.Has p xs) : xs.length ≤ h.next := by
  have hnodup := hxs.nodup (fun a n m hn hm => hn.unique hm)
  have hsub : xs.map Prod.fst ⊆ List.range h.next := by
    intro a ha
    obtain ⟨⟨b, x⟩, hb, rfl⟩ := List.mem_map.mp ha
    obtain ⟨before, after, rfl⟩ := List.append_of_mem hb
    exact List.mem_range.mpr (Heap.lt_next hxs.node)
  have hle := (List.subperm_of_subset hnodup hsub).length_le
  rwa [List.length_map, List.length_range] at hle

/-- The node at the end of a chain has no next one. -/
theorem last {b : Nat} {y : β} (h : Linked L V p (xs ++ [(b, y)])) : V b (L.node y none) := h.node

/-- **A node behind the last one.** Of the nodes of the chain only the last one may change. -/
theorem snoc {a b : Nat} {x y : β} (h : Linked L V p (xs ++ [(b, y)])) (hb : b ∉ xs.map Prod.fst)
    (hkeep : ∀ c n, c ≠ b → V c n → W c n) (hlast : W b (L.node y (some a))) (hnew : W a (L.node x none)) :
    Linked L W p (xs ++ [(b, y)] ++ [(a, x)]) := by
  induction xs generalizing p with
  | nil =>
      cases h with
      | cons _ _ => exact .cons hlast (.cons hnew .nil)
  | cons z xs ih =>
      cases h with
      | cons hz hrest =>
          rw [List.map_cons, List.mem_cons, not_or] at hb
          exact .cons (hkeep _ _ (Ne.symm hb.1) hz) (ih hrest hb.2)

/-- **A node is stitched around.** The one before it gets the pointer behind it, and the others stay. -/
theorem skip {a b : Nat} {x y : β} (h : Linked L V p (xs ++ (b, y) :: (a, x) :: ys))
    (hkeep : ∀ c ∈ (xs ++ ys).map Prod.fst, ∀ n, V c n → W c n) (hprev : W b (L.node y (firstNode ys))) :
    Linked L W p (xs ++ (b, y) :: ys) := by
  induction xs generalizing p with
  | nil =>
      have hsplit : Linked L V p ([(b, y), (a, x)] ++ ys) := h
      have htail := hsplit.suffix
      cases h with
      | cons _ _ => exact .cons hprev (htail.mono_on (fun z hz => hkeep z.1 (List.mem_map_of_mem hz)))
  | cons z xs ih =>
      cases h with
      | cons hz hrest =>
          rw [List.cons_append, List.map_cons, List.forall_mem_cons] at hkeep
          exact .cons (hkeep.1 _ hz) (ih hrest hkeep.2)

end Linked

end Freeflow
