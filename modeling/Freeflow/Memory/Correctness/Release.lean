import Freeflow.Lib.Chain
import Freeflow.Lib.Run
import Freeflow.Memory.Allocator

/-!
# `Memory.Correctness.Release` — the life of the blocks of a sequential allocator

The blocks are a chain, and nothing else is allocated; every request keeps it so, whatever its size. So the destructor walks
along the chain and frees each block once. `allocated` walks along it as well, but subtracts the header of a block also from
what is used of the last one, which has none in it.
-/

namespace Freeflow
namespace Memory

/-- How blocks are linked. -/
def blocks : Linking Block Unit := ⟨fun _ next => ⟨next⟩, fun b => some ((), b.next), fun _ _ => rfl⟩

/-- The blocks with these addresses. -/
def nodesAt (as : List Nat) : List (Nat × Unit) := as.map (·, ())

@[simp] theorem nodesAt_append (as bs : List Nat) : nodesAt (as ++ bs) = nodesAt as ++ nodesAt bs := List.map_append

@[simp] theorem fst_nodesAt (as : List Nat) : (nodesAt as).map Prod.fst = as := by
  rw [nodesAt, List.map_map]
  exact List.map_id as

/-- **The allocator owns these blocks**, in the order of the chain. -/
structure Owns (a : SequentialAllocator) (as : List Nat) : Prop where
  chain : Linked blocks a.heap.Has a.head (nodesAt as)
  tail : a.tail = as.getLast?
  live : ∀ b, (a.heap.cells b).isSome ↔ b ∈ as

variable {a a' : SequentialAllocator} {as : List Nat} {n : Int}

theorem owns_new (n : Int) : Owns (.new n) [] where
  chain := .nil
  tail := rfl
  live := by simp [SequentialAllocator.new]

/-- No block is in the chain twice. -/
theorem Owns.nodup (O : Owns a as) : as.Nodup := by
  have h := O.chain.nodup (fun _ _ _ hn hm => hn.unique hm)
  rwa [fst_nodesAt] at h

/-- The next address is that of no block. -/
theorem Owns.fresh (O : Owns a as) : a.heap.next ∉ as := by
  rw [← O.live, a.heap.cells_next]
  simp

/-- The first block is alone in the chain. -/
theorem Owns.alloc_first (O : Owns a []) :
    Owns { a with heap := a.heap.alloc ⟨none⟩, head := some a.heap.next, tail := some a.heap.next, offset := 0 }
      [a.heap.next] where
  chain := by
    refine .cons ?_ .nil
    show Function.update a.heap.cells a.heap.next (some ⟨none⟩) a.heap.next = _
    rw [Function.update_self]
    rfl
  tail := rfl
  live b := by
    have hdead := O.live b
    show (Function.update a.heap.cells a.heap.next (some ⟨none⟩) b).isSome ↔ _
    by_cases hb : b = a.heap.next
    · simp [hb]
    · rw [Function.update_of_ne hb, hdead]
      simp [hb]

/-- The last block of a chain has no successor, and it is in the chain once. -/
theorem Owns.last {init : List Nat} {t : Nat} (O : Owns a (init ++ [t])) : a.heap.cells t = some ⟨none⟩ ∧ t ∉ init := by
  have hchain := O.chain
  rw [nodesAt_append] at hchain
  refine ⟨hchain.last, ?_⟩
  have hnodup := O.nodup
  rw [List.nodup_append] at hnodup
  exact fun hmem => hnodup.2.2 t hmem t (List.mem_singleton_self t) rfl

/-- A block that the last one is linked to is behind it. -/
theorem Owns.alloc_behind {init : List Nat} {t : Nat} {heap : Heap Block} (O : Owns a (init ++ [t]))
    (hcells : heap.cells =
      Function.update (Function.update a.heap.cells a.heap.next (some ⟨none⟩)) t (some ⟨some a.heap.next⟩)) :
    Owns { a with heap, tail := some a.heap.next, offset := 0 } (init ++ [t] ++ [a.heap.next]) := by
  obtain ⟨hlast, hinit⟩ := O.last
  have hne : t ≠ a.heap.next := by
    rintro rfl
    exact O.fresh (List.mem_append_right _ (List.mem_singleton_self _))
  have hchain := O.chain
  rw [nodesAt_append] at hchain
  refine ⟨?_, by rw [List.getLast?_concat], fun b => ?_⟩
  · show Linked blocks heap.Has a.head _
    rw [nodesAt_append, nodesAt_append]
    refine hchain.snoc (by rwa [fst_nodesAt]) (fun c n hc hn => ?_) ?_ ?_
    · have hcn : c ≠ a.heap.next := hn.ne a.heap.cells_next
      show heap.cells c = some n
      rw [hcells, Function.update_of_ne hc, Function.update_of_ne hcn]
      exact hn
    · show heap.cells t = _
      rw [hcells, Function.update_self]
      rfl
    · show heap.cells a.heap.next = _
      rw [hcells, Function.update_of_ne hne.symm, Function.update_self]
      rfl
  · have hlive := O.live b
    show (heap.cells b).isSome ↔ _
    rw [hcells]
    by_cases hbt : b = t
    · simp [hbt]
    · by_cases hbn : b = a.heap.next
      · rw [Function.update_of_ne hbt, hbn, Function.update_self]
        simp
      · rw [Function.update_of_ne hbt, Function.update_of_ne hbn, hlive]
        simp [hbn]

/-- A new block is behind the others. -/
theorem Owns.allocateBlock (O : Owns a as) (h : a.allocateBlock = .ok a') : Owns a' (as ++ [a.heap.next]) ∧
    a'.size = a.size := by
  unfold SequentialAllocator.allocateBlock at h
  by_cases hheader : a.size < sizeofBlock
  · rw [if_pos hheader] at h
    cases h
  rw [if_neg hheader] at h
  rcases List.eq_nil_or_concat as with rfl | ⟨init, t, rfl⟩
  · have hhead : a.head = none := O.chain.eq_firstNode
    rw [hhead] at h
    cases h
    exact ⟨O.alloc_first, rfl⟩
  · rw [List.concat_eq_append] at O ⊢
    have htail : a.tail = some t := by rw [O.tail, List.getLast?_concat]
    obtain ⟨first, hhead⟩ : ∃ first, a.head = some first := by
      rw [O.chain.eq_firstNode]
      cases init with
      | nil => exact ⟨t, rfl⟩
      | cons b init => exact ⟨b, rfl⟩
    have hne : t ≠ a.heap.next := by
      rintro rfl
      exact O.fresh (List.mem_append_right _ (List.mem_singleton_self _))
    have hcell : (a.heap.alloc ⟨none⟩).cells t = some ⟨none⟩ := by
      rw [Heap.cells_alloc, Function.update_of_ne hne, O.last.1]
    obtain ⟨heap, hwrite, hcells, -⟩ := Heap.write_eq hcell ⟨some a.heap.next⟩
    rw [Heap.cells_alloc] at hcells
    rw [hhead, htail] at h
    dsimp only at h
    rw [hwrite, ok_bind] at h
    cases h
    exact ⟨hhead ▸ O.alloc_behind hcells, rfl⟩

/-- A request keeps the chain, whatever its size. -/
theorem Owns.kept (O : Owns a as) {r : Range} (h : request a n = .ok (a', r)) :
    ∃ bs, Owns a' (as ++ bs) ∧ a'.size = a.size := by
  obtain ⟨⟨a₁, ptr⟩, halloc, heq⟩ := bind_eq_ok h
  cases heq
  obtain ⟨a₂, hensure, hrest⟩ := bind_eq_ok halloc
  have hkept : ∃ bs, Owns a₂ (as ++ bs) ∧ a₂.size = a.size := by
    unfold SequentialAllocator.ensure at hensure
    split at hensure
    · exact ⟨_, O.allocateBlock hensure⟩
    · obtain ⟨last, -, hensure⟩ := bind_eq_ok hensure
      obtain ⟨limit, -, hensure⟩ := bind_eq_ok hensure
      split at hensure
      · exact ⟨_, O.allocateBlock hensure⟩
      · cases hensure
        exact ⟨[], by rwa [List.append_nil], rfl⟩
  obtain ⟨bs, O₂, hsize⟩ := hkept
  split at hrest
  · cases hrest
  · obtain ⟨offset, -, hrest⟩ := bind_eq_ok hrest
    cases hrest
    exact ⟨bs, ⟨O₂.chain, O₂.tail, O₂.live⟩, hsize⟩

/-! ## The end -/

/-- The destructor frees the blocks of the chain. -/
theorem destroyLoop_eq : ∀ (as : List Nat) (fuel : Nat) (p : Ptr) (heap : Heap Block),
    Linked blocks heap.Has p (nodesAt as) → as.Nodup → as.length < fuel →
    ∃ heap', SequentialAllocator.destroyLoop fuel p heap = .ok heap' ∧
      ∀ b, heap'.cells b = if b ∈ as then none else heap.cells b := by
  intro as
  induction as with
  | nil =>
      intro fuel p heap hchain _ hfuel
      obtain ⟨fuel, rfl⟩ := Nat.exists_eq_succ_of_ne_zero (Nat.ne_of_gt hfuel)
      cases hchain
      exact ⟨heap, rfl, by simp⟩
  | cons c as ih =>
      intro fuel p heap hchain hnodup hfuel
      obtain ⟨fuel, rfl⟩ := Nat.exists_eq_succ_of_ne_zero (Nat.ne_of_gt (Nat.lt_of_le_of_lt (Nat.zero_le _) hfuel))
      rw [List.nodup_cons] at hnodup
      cases hchain with
      | @cons _ _ next _ hc hrest =>
          obtain ⟨heap₁, hfree, hcells, -⟩ := Heap.free_eq hc
          have hrest₁ : Linked blocks heap₁.Has next (nodesAt as) := by
            refine hrest.mono_on fun x hx n hn => ?_
            have hxas : x.1 ∈ as := by
              have hmem : x.1 ∈ (nodesAt as).map Prod.fst := List.mem_map_of_mem hx
              rwa [fst_nodesAt] at hmem
            have hne : x.1 ≠ c := fun heq => hnodup.1 (heq ▸ hxas)
            show heap₁.cells x.1 = some n
            rw [hcells, Function.update_of_ne hne]
            exact hn
          obtain ⟨heap', hloop, hcells'⟩ := ih fuel next heap₁ hrest₁ hnodup.2 (Nat.lt_of_succ_lt_succ hfuel)
          refine ⟨heap', ?_, fun b => ?_⟩
          · rw [SequentialAllocator.destroyLoop, Heap.deref_eq hc, ok_bind, hfree, ok_bind]
            exact hloop
          · rw [hcells', hcells]
            by_cases hbc : b = c
            · simp [hbc]
            · simp [hbc]

/-- The destructor frees every block. -/
theorem Owns.destroy (O : Owns a as) : ∃ heap, a.destroy = .ok heap ∧ ∀ b, heap.cells b = none := by
  have hlength := O.chain.length_le
  rw [nodesAt, List.length_map] at hlength
  obtain ⟨heap, hloop, hcells⟩ := destroyLoop_eq as (a.heap.next + 1) a.head a.heap O.chain O.nodup (by omega)
  refine ⟨heap, hloop, fun b => ?_⟩
  rw [hcells]
  split
  · rfl
  · rename_i hb
    rw [← O.live, Option.not_isSome_iff_eq_none] at hb
    exact hb

/-- Sums that are computed one after another. -/
theorem addAllocated_bmod (x n : Int) :
    SequentialAllocator.addAllocated (Int.bmod x (2 ^ 32)) n = Int.bmod (x + (n - sizeofBlock)) (2 ^ 32) := by
  rw [SequentialAllocator.addAllocated, Int.bmod_add_bmod]

/-- `allocated` walks to the last block. -/
theorem allocatedLoop_eq {t : Nat} (ht : a.tail = some t) : ∀ (init : List Nat) (fuel : Nat) (p : Ptr) (x : Int),
    Linked blocks a.heap.Has p (nodesAt (init ++ [t])) → t ∉ init → init.length < fuel →
    a.allocatedLoop fuel p (Int.bmod x (2 ^ 32)) =
      .ok (Int.bmod (x + init.length * (a.size - sizeofBlock)) (2 ^ 32)) := by
  intro init
  induction init with
  | nil =>
      intro fuel p x hchain _ hfuel
      obtain ⟨fuel, rfl⟩ := Nat.exists_eq_succ_of_ne_zero (Nat.ne_of_gt hfuel)
      cases hchain with
      | cons _ _ => simp [SequentialAllocator.allocatedLoop, ht]
  | cons c init ih =>
      intro fuel p x hchain hinit hfuel
      obtain ⟨fuel, rfl⟩ := Nat.exists_eq_succ_of_ne_zero (Nat.ne_of_gt (Nat.lt_of_le_of_lt (Nat.zero_le _) hfuel))
      rw [List.mem_cons, not_or] at hinit
      cases hchain with
      | @cons _ _ next _ hc hrest =>
          have hne : some c ≠ a.tail := by
            rw [ht]
            exact fun heq => hinit.1 (Option.some.inj heq).symm
          have hderef : a.heap.derefPtr (some c) = .ok (blocks.node () next) := Heap.deref_eq hc
          rw [SequentialAllocator.allocatedLoop, if_pos hne, hderef, ok_bind, addAllocated_bmod]
          rw [show (blocks.node () next).next = next from rfl]
          rw [ih fuel next _ hrest hinit.2 (Nat.lt_of_succ_lt_succ hfuel)]
          rw [List.length_cons, Int.natCast_add, Int.natCast_one, Int.add_mul, Int.one_mul, Int.add_comm (_ * _), Int.add_assoc]

/-- What `allocated` returns. -/
theorem Owns.allocated (O : Owns a as) : a.allocated =
    .ok (Int.bmod ((as.length - 1 : Nat) * (a.size - sizeofBlock) + (a.offset - sizeofBlock)) (2 ^ 32)) := by
  rcases List.eq_nil_or_concat as with rfl | ⟨init, t, rfl⟩
  · have hhead : a.head = none := O.chain.eq_firstNode
    have htail : a.tail = none := O.tail
    simp [SequentialAllocator.allocated, SequentialAllocator.allocatedLoop, hhead, htail, SequentialAllocator.addAllocated]
  · rw [List.concat_eq_append] at O ⊢
    have htail : a.tail = some t := by rw [O.tail, List.getLast?_concat]
    have hinit := O.last.2
    have hlength := O.chain.length_le
    rw [nodesAt, List.length_map, List.length_append, List.length_singleton] at hlength
    have hloop := allocatedLoop_eq htail init (a.heap.next + 1) a.head 0 O.chain hinit (by omega)
    rw [Int.zero_bmod] at hloop
    rw [SequentialAllocator.allocated, hloop, ok_bind, addAllocated_bmod, List.length_append, List.length_singleton,
      Nat.add_sub_cancel, Int.zero_add]
    rfl

/-- A run of requests keeps the chain. -/
theorem Owns.run : ∀ (ns : List Int) {a a' : SequentialAllocator} {as : List Nat} {rs : List Range}, Owns a as →
    runAll request a ns = .ok (a', rs) → ∃ bs, Owns a' bs ∧ a'.size = a.size := by
  intro ns
  induction ns with
  | nil =>
      intro a a' as rs O h
      cases h
      exact ⟨as, O, rfl⟩
  | cons n ns ih =>
      intro a a' as rs O h
      obtain ⟨a₁, r, rs', hstep, hrun, -⟩ := runAll_cons_inv h
      obtain ⟨bs, O₁, hsize⟩ := O.kept hstep
      obtain ⟨bs', O', hsize'⟩ := ih O₁ hrun
      exact ⟨bs', O', hsize'.trans hsize⟩

/-- **All memory is released when the allocator is destroyed.** After requests of any sizes that return, the destructor
    frees every block, each once, and nothing else. What `allocated` reports before is 8 bytes less than the blocks that
    were left hold, without their headers, and the last one has filled. -/
theorem allocator_releases {size : Int} {ns : List Int} {a : SequentialAllocator} {rs : List Range}
    (h : runAll request (.new size) ns = .ok (a, rs)) :
    (∃ heap, a.destroy = .ok heap ∧ ∀ b, heap.cells b = none) ∧
      ∃ as : List Nat, as.Nodup ∧ (∀ b, (a.heap.cells b).isSome ↔ b ∈ as) ∧
        a.allocated = .ok (Int.bmod ((as.length - 1 : Nat) * (size - 8) + a.offset - 8) (2 ^ 32)) := by
  obtain ⟨as, O, hsize⟩ := (owns_new size).run ns h
  refine ⟨O.destroy, as, O.nodup, O.live, ?_⟩
  rw [O.allocated, hsize, ← Int.add_sub_assoc]
  rfl

/-- Two requests that take two blocks. -/
theorem allocator_releases_two : ∃ a rs, runAll request (.new 64) [30, 30] = .ok (a, rs) ∧
    (∃ heap, a.destroy = .ok heap ∧ ∀ b, heap.cells b = none) ∧
      ∃ as : List Nat, as.Nodup ∧ (∀ b, (a.heap.cells b).isSome ↔ b ∈ as) ∧
        a.allocated = .ok (Int.bmod ((as.length - 1 : Nat) * (64 - 8) + a.offset - 8) (2 ^ 32)) :=
  ⟨_, _, rfl, @allocator_releases 64 [30, 30] _ _ rfl⟩

end Memory
end Freeflow
