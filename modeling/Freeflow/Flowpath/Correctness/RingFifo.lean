import Freeflow.Flowpath.Ring

/-!
# `Flowpath.Correctness.RingFifo` — the pointer ring refines a bounded FIFO queue

`Holds r h q` ties a ring to the queue it stands for: the head is `h`, the cells from `h` on hold `q`, and at
least one cell stays free, which is what tells a full ring from an empty one; `Placed` says only that the
indices are in range. Each operation has one lemma over `Holds`; the loops of the `_n` operations are
inductions on the number of iterations done.
-/

namespace Freeflow
namespace Flowpath
namespace Ring

variable {α : Type} {r : Ring α} {h : Nat} {q : List (Option α)}

/-! ## Indices in range -/

/-- Both indices are in range, in a ring of any size that an `int` can have. -/
structure Placed (r : Ring α) : Prop where
  head_nonneg : 0 ≤ r.head
  head_lt : r.head < r.num
  tail_nonneg : 0 ≤ r.tail
  tail_lt : r.tail < r.num
  num_le : r.num ≤ intMax
  cells : r.ring.length = r.num

/-- The number of pointers in the ring. -/
def size (r : Ring α) : Int := if r.tail < r.head then r.tail - r.head + r.num else r.tail - r.head

theorem Placed.size_nonneg (P : r.Placed) : 0 ≤ r.size := by
  have h₁ := P.head_lt
  have h₂ := P.tail_nonneg
  unfold size
  split <;> omega

/-- `fp_ring_count` of any ring whose indices are in range. -/
theorem Placed.count_eq (P : r.Placed) : r.count = .ok r.size := by
  have h₁ := P.head_nonneg
  have h₂ := P.head_lt
  have h₃ := P.tail_nonneg
  have h₄ := P.tail_lt
  have h₅ := P.num_le
  unfold intMax at h₅
  have hck : checkInt (r.tail - r.head) = .ok (r.tail - r.head) := checkInt_of_bounds (by omega) (by omega)
  rw [count, size, hck, ok_bind]
  by_cases hneg : r.tail < r.head
  · rw [if_pos (by omega), if_pos hneg]
    exact checkInt_of_bounds (by omega) (by omega)
  · rw [if_neg (by omega), if_neg hneg]
    rfl

/-! ## The queue in a ring -/

/-- **The representation invariant.** The ring `r`, of at most `2^30` cells, holds the queue `q` from cell
    `h` on. -/
structure Holds (r : Ring α) (h : Nat) (q : List (Option α)) : Prop where
  small : r.ring.length ≤ 1073741824
  num : r.num = r.ring.length
  head : r.head = h
  head_lt : h < r.ring.length
  tail : r.tail = ((h + q.length) % r.ring.length : Nat)
  room : q.length < r.ring.length
  cells : Occupies r.ring h q

/-- The tail lies `q.length` cells after the head, going round at most once. -/
theorem Holds.tail_cases (H : Holds r h q) :
    (h + q.length < r.ring.length ∧ r.tail = (h : Int) + q.length) ∨
    (r.ring.length ≤ h + q.length ∧ r.tail = (h : Int) + q.length - r.ring.length) := by
  have hlt := H.head_lt
  have hroom := H.room
  rw [H.tail]
  rcases Nat.lt_or_ge (h + q.length) r.ring.length with hc | hc
  · left
    rw [Nat.mod_eq_of_lt hc]
    exact ⟨hc, by omega⟩
  · right
    rw [Nat.mod_eq_sub_mod hc, Nat.mod_eq_of_lt (by omega)]
    exact ⟨hc, by omega⟩

theorem Holds.placed (H : Holds r h q) : r.Placed := by
  have hlt := H.head_lt
  have hroom := H.room
  have hnum := H.num
  have hhead := H.head
  have hsmall := H.small
  refine ⟨by omega, by omega, ?_, ?_, by rw [intMax]; omega, hnum.symm⟩
  · rcases H.tail_cases with ⟨hc, ht⟩ | ⟨hc, ht⟩ <;> omega
  · rcases H.tail_cases with ⟨hc, ht⟩ | ⟨hc, ht⟩ <;> omega

theorem Holds.size_eq (H : Holds r h q) : r.size = q.length := by
  have hroom := H.room
  rw [size, H.head, H.num]
  rcases H.tail_cases with ⟨hc, ht⟩ | ⟨hc, ht⟩
  · rw [ht, if_neg (by omega)]
    omega
  · rw [ht, if_pos (by omega)]
    omega

/-- Both indices stay inside the ring. -/
theorem Holds.bounds (H : Holds r h q) :
    0 ≤ r.head ∧ r.head < r.num ∧ 0 ≤ r.tail ∧ r.tail < r.num :=
  ⟨H.placed.head_nonneg, H.placed.head_lt, H.placed.tail_nonneg, H.placed.tail_lt⟩

/-- `fp_ring_count` is the length of the queue. -/
theorem Holds.count_eq (H : Holds r h q) : r.count = .ok (q.length : Int) := by
  rw [H.placed.count_eq, H.size_eq]

/-- What the ring contains is the queue. -/
theorem Holds.contents_eq (H : Holds r h q) : r.contents = q := by
  unfold contents
  dsimp only
  rw [← size, H.size_eq, H.head, Int.toNat_natCast, Int.toNat_natCast]
  apply List.ext_getElem
  · simp
  · intro i _ hi
    simp [H.cells.get hi]

/-- `fp_ring_free` counts the free cells, the one kept free included. -/
theorem Holds.free_eq (H : Holds r h q) : r.free = .ok ((r.ring.length - q.length : Nat) : Int) := by
  have hroom := H.room
  have hsmall := H.small
  unfold free
  rw [H.count_eq, H.num, ok_bind,
    checkInt_of_bounds (by omega) (by omega)]
  exact congrArg Except.ok (by omega)

/-- A stepped index of the ring, as the code computes it. -/
theorem Holds.step_index (H : Holds r h q) {i : Nat} (hi : i < r.ring.length) :
    checkInt ((i : Int) + 1) = .ok ((i : Int) + 1) ∧
    (if (i : Int) + 1 = r.num then (0 : Int) else (i : Int) + 1) = (((i + 1) % r.ring.length : Nat) : Int) := by
  have hsmall := H.small
  refine ⟨checkInt_of_bounds (by omega) (by omega), ?_⟩
  rw [H.num, ← wrap_eq_mod hi, wrap]
  by_cases he : i + 1 = r.ring.length
  · rw [if_pos he, if_pos (by omega)]; rfl
  · rw [if_neg he, if_neg (by omega)]; omega

/-! ## The two slot operations -/

/-- Writing the slot at the tail appends to the queue. -/
theorem pushSlot_holds (H : Holds r h q) (x : Option α) (hroom : q.length + 1 < r.ring.length) :
    ∃ r', r.pushSlot x = .ok r' ∧ r'.ring.length = r.ring.length ∧ Holds r' h (q ++ [x]) := by
  have hpos : 0 < r.ring.length := by omega
  have hlt : (h + q.length) % r.ring.length < r.ring.length := Nat.mod_lt _ hpos
  obtain ⟨hck, hwrap⟩ := H.step_index hlt
  refine ⟨{ r with
      ring := r.ring.set ((h + q.length) % r.ring.length) x
      tail := (((h + q.length) % r.ring.length + 1) % r.ring.length : Nat) }, ?_, by simp, ?_⟩
  · unfold pushSlot
    rw [H.tail, store_natCast x hlt, ok_bind, hck, ok_bind, pure_eq_ok, hwrap]
  · refine ⟨by simpa using H.small, by simpa using H.num, H.head, by simpa using H.head_lt, ?_,
      by simpa using hroom, occupies_push x H.cells H.room⟩
    simp only [List.length_set, List.length_append, List.length_singleton]
    rw [Nat.mod_add_mod, Nat.add_assoc]

/-- Reading the slot at the head takes the oldest element. -/
theorem popSlot_holds (H : Holds r h q) (hq : 0 < q.length) :
    ∃ r', r.popSlot = .ok (r', q[0]) ∧ r'.ring = r.ring ∧
      Holds r' ((h + 1) % r.ring.length) (q.drop 1) := by
  have hcell : r.ring[h]? = some q[0] := by
    have := H.cells.get hq
    rwa [Nat.add_zero, Nat.mod_eq_of_lt H.head_lt] at this
  obtain ⟨hck, hwrap⟩ := H.step_index H.head_lt
  refine ⟨{ r with head := ((h + 1) % r.ring.length : Nat) }, ?_, rfl, ?_⟩
  · unfold popSlot
    rw [H.head, load_natCast hcell, ok_bind, hck, ok_bind, pure_eq_ok, hwrap]
  · refine ⟨H.small, H.num, rfl, Nat.mod_lt _ (by have := H.room; omega), ?_,
      by have := H.room; simp only [List.length_drop]; omega, H.cells.drop 1⟩
    have hsum : h + q.length = h + 1 + (q.length - 1) := by omega
    rw [H.tail, List.length_drop, Nat.mod_add_mod, hsum]

/-! ## The loops -/

/-- After `i` iterations `fp_ring_push_n` has appended the first `i` argument pointers. -/
theorem pushLoop_holds (H : Holds r h q) (x : List (Option α)) :
    ∀ i, i ≤ x.length → q.length + i < r.ring.length →
      ∃ r', r.pushLoop x i = .ok r' ∧ r'.ring.length = r.ring.length ∧ Holds r' h (q ++ x.take i) := by
  intro i
  induction i with
  | zero => intro _ _; exact ⟨r, rfl, rfl, by simpa using H⟩
  | succ i ih =>
      intro hx hroom
      obtain ⟨r₁, h₁, hlen₁, H₁⟩ := ih (by omega) (by omega)
      have hi : x[i]? = some x[i] := List.getElem?_eq_getElem hx
      have hroom₁ : (q ++ x.take i).length + 1 < r₁.ring.length := by
        simp only [List.length_append, List.length_take]
        omega
      obtain ⟨r₂, h₂, hlen₂, H₂⟩ := pushSlot_holds H₁ x[i] hroom₁
      refine ⟨r₂, ?_, hlen₂.trans hlen₁, ?_⟩
      · rw [pushLoop, h₁, ok_bind, load_natCast hi, ok_bind, h₂]
      · rwa [List.append_assoc, ← List.take_succ_eq_append_getElem hx] at H₂

/-- After `i` iterations `fp_ring_pop_n` has moved the `i` oldest pointers into the argument array. -/
theorem popLoop_holds (H : Holds r h q) (x : List (Option α)) :
    ∀ i, i ≤ x.length → i ≤ q.length →
      ∃ r', r.popLoop x i = .ok (r', q.take i ++ x.drop i) ∧ r'.ring = r.ring ∧
        Holds r' ((h + i) % r.ring.length) (q.drop i) := by
  intro i
  induction i with
  | zero =>
      intro _ _
      exact ⟨r, rfl, rfl, by simpa [Nat.mod_eq_of_lt H.head_lt] using H⟩
  | succ i ih =>
      intro hx hq
      obtain ⟨r₁, h₁, hring₁, H₁⟩ := ih (by omega) (by omega)
      obtain ⟨r₂, h₂, hring₂, H₂⟩ := popSlot_holds H₁ (by simp only [List.length_drop]; omega)
      have hlen : (q.take i).length = i := by simp only [List.length_take]; omega
      refine ⟨r₂, ?_, hring₂.trans hring₁, ?_⟩
      · rw [popLoop, h₁]
        simp only [ok_bind, h₂]
        rw [store_natCast _ (by simp only [List.length_append, hlen, List.length_drop]; omega)]
        simp only [ok_bind, pure_eq_ok, Except.ok.injEq, Prod.mk.injEq, true_and]
        rw [List.set_append_right _ _ (by omega), hlen, Nat.sub_self, List.drop_eq_getElem_cons hx,
          List.set_cons_zero, List.take_succ_eq_append_getElem hq, List.append_assoc]
        simp
      · rw [hring₁, List.drop_drop, Nat.mod_add_mod, Nat.add_assoc] at H₂
        exact H₂

/-- After `i` iterations `fp_ring_top_n` has copied the `i` oldest pointers and stepped its own index. -/
theorem topLoop_holds (H : Holds r h q) (x : List (Option α)) :
    ∀ i, i ≤ x.length → i ≤ q.length →
      r.topLoop x i = .ok ((((h + i) % r.ring.length : Nat) : Int), q.take i ++ x.drop i) := by
  intro i
  induction i with
  | zero =>
      intro _ _
      simp [topLoop, H.head, Nat.mod_eq_of_lt H.head_lt]
  | succ i ih =>
      intro hx hq
      have hroom := H.room
      have hlt : (h + i) % r.ring.length < r.ring.length := Nat.mod_lt _ (by omega)
      obtain ⟨hck, hwrap⟩ := H.step_index hlt
      have hlen : (q.take i).length = i := by simp only [List.length_take]; omega
      rw [topLoop, ih (by omega) (by omega)]
      simp only [ok_bind]
      rw [load_natCast (H.cells.get (by omega : i < q.length)), ok_bind,
        store_natCast _ (by simp only [List.length_append, hlen, List.length_drop]; omega), ok_bind,
        hck, ok_bind, pure_eq_ok, hwrap, Nat.mod_add_mod, Nat.add_assoc,
        List.set_append_right _ _ (by omega), hlen, Nat.sub_self, List.drop_eq_getElem_cons hx,
        List.set_cons_zero, List.take_succ_eq_append_getElem hq, List.append_assoc]
      simp

/-! ## One lemma per operation -/

/-- The ring `r` stands for the queue `q`, which is one cell smaller than the ring. -/
def Refines {cap : Nat} (r : Ring α) (q : Fifo (Option α) cap) : Prop :=
  r.ring.length = cap + 1 ∧ ∃ h, Holds r h q.items

variable {cap : Nat} {f : Fifo (Option α) cap}

theorem take_min (q : List (Option α)) (n : Nat) : q.take (min n q.length) = q.take n :=
  List.take_eq_take_min.symm

theorem drop_min (q : List (Option α)) (n : Nat) : q.drop (min n q.length) = q.drop n := by
  rw [Nat.min_def]
  split
  · rfl
  · next hc => rw [List.drop_of_length_le (Nat.le_refl _), List.drop_of_length_le (by omega)]

/-- The `items` that the `_n` operations compute. -/
theorem items_cast {n : Int} (m : Nat) (hn : 0 ≤ n) :
    (if n ≤ (m : Int) then n else (m : Int)) = ((min n.toNat m : Nat) : Int) := by
  split <;> omega

/-- `fp_ring_push` accepts exactly when the queue has room. -/
theorem push_refines (R : Refines r f) (x : Option α) :
    ∃ r', r.push x = .ok (r', if f.items.length < cap then 1 else 0) ∧ Refines r' (f.push x) := by
  obtain ⟨hlen, h, H⟩ := R
  have hsmall := H.small
  have hck : checkInt (r.num - 1) = .ok (cap : Int) := by
    rw [H.num, checkInt_of_bounds (by omega) (by omega)]
    exact congrArg Except.ok (by omega)
  unfold push
  rw [H.count_eq, ok_bind, hck, ok_bind]
  by_cases hc : f.items.length < cap
  · obtain ⟨r', hr', hlen', H'⟩ := pushSlot_holds H x (by omega)
    rw [if_pos (by omega), hr', if_pos hc]
    have hroom : [x].take f.room = [x] := List.take_of_length_le (by simp [Fifo.room]; omega)
    exact ⟨r', rfl, by omega, h, by simpa [Fifo.push, hroom] using H'⟩
  · rw [if_neg (by omega), if_neg hc]
    have hroom : f.room = 0 := by simp only [Fifo.room]; omega
    exact ⟨r, rfl, hlen, h, by simpa [Fifo.push, hroom] using H⟩

/-- `fp_ring_push_n` accepts exactly the longest prefix that fits. -/
theorem pushN_refines (R : Refines r f) {x : List (Option α)} {n : Int} (hn : 0 ≤ n)
    (hx : n ≤ x.length) :
    ∃ r', r.pushN x n = .ok (r', ((min n.toNat f.room : Nat) : Int)) ∧
      Refines r' (f.pushMany (x.take n.toNat)) := by
  obtain ⟨hlen, h, H⟩ := R
  have hsmall := H.small
  have hroom := H.room
  have hck : checkInt (((r.ring.length - f.items.length : Nat) : Int) - 1) = .ok (f.room : Int) := by
    rw [checkInt_of_bounds (by omega) (by omega)]
    exact congrArg Except.ok (by simp only [Fifo.room]; omega)
  have hfit : f.items.length + min n.toNat f.room < r.ring.length := by
    simp only [Fifo.room]; omega
  obtain ⟨r', hr', hlen', H'⟩ := pushLoop_holds H x (min n.toNat f.room) (by omega) hfit
  refine ⟨r', ?_, by omega, h, ?_⟩
  · unfold pushN
    simp only [H.free_eq, ok_bind, hck, items_cast f.room hn, Int.toNat_natCast, hr', pure_eq_ok]
  · simpa [List.take_take, Nat.min_comm] using H'

/-- Head and tail meet exactly when the queue is empty. -/
theorem Holds.head_ne_tail (H : Holds r h q) : r.head ≠ r.tail ↔ 0 < q.length := by
  have hlt := H.head_lt
  have hroom := H.room
  have hhead := H.head
  rcases H.tail_cases with ⟨hc, ht⟩ | ⟨hc, ht⟩ <;> omega

/-- The pointer at the front of a non-empty list of pointers. -/
theorem head?_join {q : List (Option α)} (hq : 0 < q.length) : q.head?.join = q[0] := by
  cases q with
  | nil => simp at hq
  | cons x q => rfl

theorem head?_join_of_empty {q : List (Option α)} (hq : ¬ 0 < q.length) : q.head?.join = none := by
  cases q with
  | nil => rfl
  | cons x q => simp at hq

/-- `fp_ring_pop` delivers the oldest element, or `NULL` when there is none. -/
theorem pop_refines (R : Refines r f) :
    ∃ r', r.pop = .ok (r', f.items.head?.join) ∧ Refines r' (f.discard 1) := by
  obtain ⟨hlen, h, H⟩ := R
  unfold pop
  by_cases hq : 0 < f.items.length
  · obtain ⟨r', hr', hring', H'⟩ := popSlot_holds H hq
    rw [if_pos (H.head_ne_tail.mpr hq), hr', head?_join hq]
    exact ⟨r', rfl, by rw [hring', hlen], _, H'⟩
  · rw [if_neg (fun hne => hq (H.head_ne_tail.mp hne)), head?_join_of_empty hq]
    have hnil : f.items = [] := List.eq_nil_of_length_eq_zero (by omega)
    exact ⟨r, rfl, hlen, h, by simpa [hnil] using H⟩

/-- `fp_ring_pop_n` delivers the oldest `min n length` elements in order. -/
theorem popN_refines (R : Refines r f) {x : List (Option α)} {n : Int} (hn : 0 ≤ n)
    (hx : n ≤ x.length) :
    ∃ r', r.popN x n = .ok (r', ((f.oldest n.toNat).length : Int), overwrite x (f.oldest n.toNat)) ∧
      Refines r' (f.discard n.toNat) := by
  obtain ⟨hlen, h, H⟩ := R
  obtain ⟨r', hr', hring', H'⟩ :=
    popLoop_holds H x (min n.toNat f.items.length) (by omega) (Nat.min_le_right _ _)
  rw [drop_min] at H'
  refine ⟨r', ?_, by rw [hring', hlen], _, H'⟩
  unfold popN
  simp only [H.count_eq, ok_bind, items_cast _ hn, Int.toNat_natCast, hr', pure_eq_ok, take_min, overwrite,
    Fifo.oldest, List.length_take]

/-- `fp_ring_top` shows the oldest element, or `NULL` when there is none. -/
theorem top_refines (R : Refines r f) : r.top = .ok f.items.head?.join := by
  obtain ⟨hlen, h, H⟩ := R
  unfold top
  rw [H.count_eq, ok_bind]
  by_cases hq : 0 < f.items.length
  · have hcell := H.cells.get hq
    rw [Nat.add_zero, Nat.mod_eq_of_lt H.head_lt] at hcell
    rw [if_pos (by omega), H.head, load_natCast hcell, head?_join hq]
  · rw [if_neg (by omega), head?_join_of_empty hq]
    rfl

/-- `fp_ring_top_n` shows the oldest `min n length` elements in order. -/
theorem topN_refines (R : Refines r f) {x : List (Option α)} {n : Int} (hn : 0 ≤ n)
    (hx : n ≤ x.length) :
    r.topN x n = .ok (((f.oldest n.toNat).length : Int), overwrite x (f.oldest n.toNat)) := by
  obtain ⟨hlen, h, H⟩ := R
  have hloop := topLoop_holds H x (min n.toNat f.items.length) (by omega) (Nat.min_le_right _ _)
  unfold topN
  simp only [H.count_eq, ok_bind, items_cast _ hn, Int.toNat_natCast, hloop, pure_eq_ok, take_min, overwrite,
    Fifo.oldest, List.length_take]

/-- `fp_ring_remove_n` discards exactly the oldest `min n length` elements: one bulk addition to the
    head, and one subtraction when it passes the end. -/
theorem removeN_refines (R : Refines r f) {n : Int} (hn : 0 ≤ n) :
    ∃ r', r.removeN n = .ok (r', ((f.oldest n.toNat).length : Int)) ∧
      Refines r' (f.discard n.toNat) := by
  obtain ⟨hlen, h, H⟩ := R
  have hsmall := H.small
  have hlt := H.head_lt
  have hroom := H.room
  obtain ⟨k, hk⟩ : ∃ k, k = min n.toNat f.items.length := ⟨_, rfl⟩
  have hkept : (k : Int) = ((f.oldest n.toNat).length : Int) := by
    rw [hk, Fifo.oldest, List.length_take]
  have hsum : checkInt ((h : Int) + (k : Int)) = .ok ((h + k : Nat) : Int) := by
    rw [checkInt_of_bounds (by omega) (by omega)]
    exact congrArg Except.ok (by omega)
  have H' : Holds { r with head := ((h + k) % r.ring.length : Nat) } ((h + k) % r.ring.length)
      (f.items.drop n.toNat) := by
    have hcells := H.cells.drop k
    rw [hk, drop_min, ← hk] at hcells
    refine ⟨hsmall, H.num, rfl, Nat.mod_lt _ (by omega), ?_, ?_, hcells⟩
    · have hadd : h + k + (f.items.drop n.toNat).length = h + f.items.length := by
        simp only [List.length_drop]; omega
      rw [H.tail, Nat.mod_add_mod, hadd]
    · simp only [List.length_drop]; omega
  refine ⟨{ r with head := ((h + k) % r.ring.length : Nat) }, ?_, hlen, _, H'⟩
  unfold removeN
  rw [H.count_eq, ok_bind]
  simp only [items_cast _ hn, ← hk, H.head, hsum, ok_bind, H.num]
  rw [← hkept]
  rcases Nat.lt_or_ge (h + k) r.ring.length with hc | hc
  · rw [if_neg (by omega), Nat.mod_eq_of_lt hc]
    rfl
  · rw [if_pos (by omega), checkInt_of_bounds (by omega) (by omega),
      Nat.mod_eq_sub_mod hc, Nat.mod_eq_of_lt (by omega), Int.natCast_sub hc]
    rfl

/-! ## Runs -/

/-- **One call refines the queue's answer.** -/
theorem step_refines (R : Refines r f) (op : Op α) (hop : op.Legal) :
    ∃ r', r.step op = .ok (r', (fifoStep f op).2) ∧ Refines r' (fifoStep f op).1 := by
  cases op with
  | push x =>
      obtain ⟨r', hr', R'⟩ := push_refines R x
      exact ⟨r', by simp only [step, hr', ok_bind, pure_eq_ok]; rfl, R'⟩
  | pushN x n =>
      obtain ⟨r', hr', R'⟩ := pushN_refines R hop.1 hop.2
      exact ⟨r', by simp only [step, hr', ok_bind, pure_eq_ok]; rfl, R'⟩
  | pop =>
      obtain ⟨r', hr', R'⟩ := pop_refines R
      exact ⟨r', by simp only [step, hr', ok_bind, pure_eq_ok]; rfl, R'⟩
  | popN x n =>
      obtain ⟨r', hr', R'⟩ := popN_refines R hop.1 hop.2
      exact ⟨r', by simp only [step, hr', ok_bind, pure_eq_ok]; rfl, R'⟩
  | top => exact ⟨r, by simp only [step, top_refines R, ok_bind, pure_eq_ok]; rfl, R⟩
  | topN x n =>
      exact ⟨r, by simp only [step, topN_refines R hop.1 hop.2, ok_bind, pure_eq_ok]; rfl, R⟩
  | removeN n =>
      obtain ⟨r', hr', R'⟩ := removeN_refines R hop
      exact ⟨r', by simp only [step, hr', ok_bind, pure_eq_ok]; rfl, R'⟩

/-- A ring that was just reset stands for the empty queue. -/
theorem init_refines (hpos : 1 ≤ r.num) (hsmall : r.num ≤ 1073741824) (hlen : r.ring.length = r.num) :
    Refines r.init (Fifo.empty : Fifo (Option α) (r.num - 1).toNat) := by
  refine ⟨by simp only [init]; omega, 0, ?_, hlen.symm, rfl, ?_, ?_, ?_, occupies_nil _ _⟩
  · simp only [init]; omega
  · simp only [init]; omega
  · simp [init]
  · simp only [init, Fifo.items_empty, List.length_nil]; omega

/-- **The ring refines a bounded FIFO queue over every run.** From `fp_ring_init`, on any sequence of
    legal calls: no access leaves its array, no index overflows, every result is the one a FIFO queue of
    at most `num - 1` elements gives, and afterwards both indices are in range and `fp_ring_count` is the
    length of the queue. -/
theorem ring_refines_fifo (r : Ring α) (hpos : 1 ≤ r.num) (hsmall : r.num ≤ 1073741824)
    (hlen : r.ring.length = r.num) (ops : List (Op α)) (hops : ∀ op ∈ ops, op.Legal) :
    let q := specAll fifoStep (Fifo.empty : Fifo (Option α) (r.num - 1).toNat) ops
    ∃ r', runAll step r.init ops = .ok (r', q.2) ∧ r'.count = .ok (q.1.items.length : Int) ∧
      0 ≤ r'.head ∧ r'.head < r.num ∧ 0 ≤ r'.tail ∧ r'.tail < r.num := by
  obtain ⟨r', hr', hlen', h, H⟩ := runAll_refines
    (fun (r : Ring α) (q : Fifo (Option α) _) => Refines r q) (fun _ op => op.Legal) (fun _ _ => True)
    (fun s t i R hg _ => step_refines R i hg) ops r.init Fifo.empty
    (init_refines hpos hsmall hlen) (Guarded.of_mem ops _ (fun op hop _ => hops op hop))
    (Guarded.of_mem ops _ (fun _ _ _ => trivial))
  have hb := H.bounds
  have hnum := H.num
  exact ⟨r', hr', H.count_eq, hb.1, by omega, hb.2.2.1, by omega⟩

/-- A ring of three cells on which the third push finds no room and the indices go round. -/
theorem ring_refines_fifo_three :
    ∃ r', runAll step (Ring.mk 2 1 3 [none, some 7, none]).init
        [.push (some 1), .push (some 2), .push (some 3), .pop, .push none, .popN [none, none, none] 3]
      = .ok (r', [.count 1, .count 1, .count 0, .ptr (some 1), .count 1,
          .filled 2 [some 2, none, none]]) :=
  (ring_refines_fifo (Ring.mk 2 1 3 [none, some 7, none]) (by decide) (by decide) (by decide)
    [.push (some 1), .push (some 2), .push (some 3), .pop, .push none, .popN [none, none, none] 3]
    (by simp [Op.Legal])).imp fun _ h => h.1

end Ring
end Flowpath
end Freeflow
