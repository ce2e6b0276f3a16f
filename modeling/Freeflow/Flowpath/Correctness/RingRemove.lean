import Freeflow.Flowpath.Correctness.RingFifo

/-!
# `Flowpath.Correctness.RingRemove` — which counts may be removed from a ring

`fp_ring_remove_n` moves the head by its argument, which it bounds from above only. For any ring whose indices are in range,
and any argument: the indices stay in range and what is left is the end of what was there, exactly for the arguments of
`removeN_keeps_iff`. Two rings that differ in their heads only are compared by how much they contain (`suffix_iff`).
-/

namespace Freeflow
namespace Flowpath
namespace Ring

variable {α : Type} {r r' : Ring α} {n : Int}

/-- The cells from index `h` on, going round. -/
def cellsFrom (ring : List (Option α)) (h c : Nat) : List (Option α) :=
  (List.range c).map (fun i => (ring[(h + i) % ring.length]?).join)

theorem contents_eq_cellsFrom (r : Ring α) : r.contents = cellsFrom r.ring r.head.toNat r.size.toNat := rfl

/-- Without the first `k` cells, those from `k` cells later on are left. -/
theorem cellsFrom_drop (ring : List (Option α)) (h k c : Nat) :
    (cellsFrom ring h (k + c)).drop k = cellsFrom ring (h + k) c := by
  rw [cellsFrom, cellsFrom, ← List.map_drop, List.range_add, List.drop_append, List.drop_of_length_le (by simp),
    List.length_range, Nat.sub_self, List.drop_zero, List.nil_append, List.map_map]
  simp only [Function.comp_def, Nat.add_assoc]

/-- An index may be taken round once. -/
theorem cellsFrom_round (ring : List (Option α)) (h c : Nat) :
    cellsFrom ring (h + ring.length) c = cellsFrom ring h c := by
  unfold cellsFrom
  apply List.map_congr_left
  intro i _
  rw [Nat.add_right_comm, Nat.add_mod_right]

theorem Placed.length_contents (P : r.Placed) : (r.contents.length : Int) = r.size := by
  have hsize := P.size_nonneg
  rw [contents_eq_cellsFrom, cellsFrom, List.length_map, List.length_range]
  omega

/-- **Rings with the same tail.** What one contains is the end of what the other does exactly when it is not more. -/
theorem suffix_iff (P : r.Placed) (P' : r'.Placed) (hring : r'.ring = r.ring) (htail : r'.tail = r.tail) :
    r'.contents <:+ r.contents ↔ r'.size ≤ r.size := by
  have hsize := P.size_nonneg
  have hsize' := P'.size_nonneg
  constructor
  · intro hsuffix
    rw [← P.length_contents, ← P'.length_contents]
    exact_mod_cast hsuffix.length_le
  · intro hle
    have hnum : r'.num = r.num := by rw [← P.cells, ← P'.cells, hring]
    -- the heads are as far from the tail as the sizes say
    have hdist : ∃ k, r.size.toNat = k + r'.size.toNat ∧
        (r.head.toNat + k = r'.head.toNat ∨ r.head.toNat + k = r'.head.toNat + r.ring.length) := by
      refine ⟨(r.size - r'.size).toNat, by omega, ?_⟩
      have h₁ := P.head_nonneg
      have h₂ := P.head_lt
      have h₃ := P'.head_nonneg
      have h₄ := P'.head_lt
      have h₅ := P.cells
      unfold size at hle ⊢
      rw [htail, hnum] at hle ⊢
      split at hle <;> split at hle <;> simp only [*, if_true, if_false] <;> omega
    obtain ⟨k, hk, hhead⟩ := hdist
    have hcells : r'.contents = cellsFrom r.ring (r.head.toNat + k) r'.size.toNat := by
      rw [contents_eq_cellsFrom, hring]
      rcases hhead with h | h
      · rw [h]
      · rw [h, cellsFrom_round]
    rw [hcells, contents_eq_cellsFrom, hk, ← cellsFrom_drop]
    exact List.drop_suffix k _

/-- The number of items that `fp_ring_remove_n` removes. -/
def removed (r : Ring α) (n : Int) : Int := if n ≤ r.size then n else r.size

/-- `fp_ring_remove_n` where the sum is an `int`. -/
theorem Placed.removeN_eq (P : r.Placed) (hlo : intMin ≤ r.head + r.removed n) (hhi : r.head + r.removed n ≤ intMax) :
    r.removeN n = .ok ({ r with head :=
      if r.num ≤ r.head + r.removed n then r.head + r.removed n - r.num else r.head + r.removed n }, r.removed n) := by
  have hpos : 0 < r.num := lt_of_le_of_lt P.head_nonneg P.head_lt
  rw [removeN, P.count_eq, ok_bind]
  dsimp only
  rw [← removed, checkInt_ok hlo hhi, ok_bind]
  by_cases hround : r.num ≤ r.head + r.removed n
  · rw [if_pos hround, if_pos hround, checkInt_ok (by unfold intMin; omega) (by omega)]
    rfl
  · rw [if_neg hround, if_neg hround]
    rfl

/-- A removal that returned did not overflow. -/
theorem Placed.removeN_bounds (P : r.Placed) {k : Int} (h : r.removeN n = .ok (r', k)) :
    intMin ≤ r.head + r.removed n ∧ r.head + r.removed n ≤ intMax := by
  rw [removeN, P.count_eq, ok_bind] at h
  obtain ⟨head, hck, -⟩ := bind_eq_ok h
  exact checkInt_bounds hck

/-- The ring with its head at `h`. -/
def withHead (r : Ring α) (h : Int) : Ring α := { r with head := h }

theorem Placed.withHead (P : r.Placed) {h : Int} (hlo : 0 ≤ h) (hhi : h < r.num) : (r.withHead h).Placed :=
  ⟨hlo, hhi, P.tail_nonneg, P.tail_lt, P.num_le, P.cells⟩

theorem size_withHead (r : Ring α) (h : Int) :
    (r.withHead h).size = if r.tail < h then r.tail - h + r.num else r.tail - h := rfl

/-- A head that moves back by `n` places leaves no more in the ring only if it comes from behind the tail. -/
theorem Placed.back_iff (P : r.Placed) (hn : n < 0) (hlo : 0 ≤ r.head + n) :
    (r.withHead (r.head + n)).size ≤ r.size ↔ r.tail < r.head ∧ r.head + n ≤ r.tail := by
  have h₁ := P.head_lt
  have h₂ := P.tail_nonneg
  rw [size_withHead, size]
  by_cases hbehind : r.tail < r.head <;> by_cases hfront : r.tail < r.head + n
  · rw [if_pos hfront, if_pos hbehind]
    omega
  · rw [if_neg hfront, if_pos hbehind]
    omega
  · omega
  · rw [if_neg hfront, if_neg hbehind]
    omega

/-- A head that moves on by no more than the ring contains leaves that much less in it. -/
theorem Placed.on_size (P : r.Placed) {k h : Int} (hk : 0 ≤ k) (hle : k ≤ r.size)
    (hh : h = if r.num ≤ r.head + k then r.head + k - r.num else r.head + k) :
    0 ≤ h ∧ h < r.num ∧ (r.withHead h).size ≤ r.size := by
  have h₁ := P.head_nonneg
  have h₂ := P.head_lt
  have h₃ := P.tail_nonneg
  have h₄ := P.tail_lt
  unfold size at hle
  rw [size_withHead, size]
  by_cases hround : r.num ≤ r.head + k <;> by_cases hbehind : r.tail < r.head
  · rw [if_pos hround] at hh
    rw [if_pos hbehind] at hle ⊢
    rw [if_neg (by omega)]
    omega
  · rw [if_neg hbehind] at hle
    omega
  · rw [if_neg hround] at hh
    rw [if_pos hbehind] at hle ⊢
    split <;> omega
  · rw [if_neg hround] at hh
    rw [if_neg hbehind] at hle ⊢
    rw [if_neg (by omega)]
    omega

/-- **Removing any number of items.** The indices stay in range and what is left is the end of what was there, exactly when
    the number is not negative and the sum does not overflow, or it is negative and moves the head from behind the tail
    back to the tail or in front of it. -/
theorem removeN_keeps_iff (r : Ring α) (P : r.Placed) (n : Int) :
    (∃ r' k, r.removeN n = .ok (r', k) ∧ r'.Placed ∧ r'.contents <:+ r.contents) ↔
      (0 ≤ n ∧ (r.head ≤ r.tail ∨ r.head + n ≤ intMax ∨ r.tail + r.num ≤ intMax))
        ∨ (n < 0 ∧ r.tail < r.head ∧ 0 ≤ r.head + n ∧ r.head + n ≤ r.tail) := by
  have h₁ := P.head_nonneg
  have h₂ := P.head_lt
  have h₃ := P.tail_lt
  have h₄ := P.num_le
  have hsize := P.size_nonneg
  have hmin : intMin ≤ 0 := by decide
  by_cases hneg : n < 0
  · have hremoved : r.removed n = n := if_pos (by omega)
    have hround : ¬ r.num ≤ r.head + r.removed n := by omega
    constructor
    · rintro ⟨r', k, hrun, P', hsuffix⟩
      obtain ⟨hlo, hhi⟩ := P.removeN_bounds hrun
      rw [P.removeN_eq hlo hhi, if_neg hround, hremoved] at hrun
      obtain ⟨rfl, -⟩ := Prod.mk.inj (Except.ok.inj hrun)
      have hle := (suffix_iff P P' rfl rfl).mp hsuffix
      have hpos : 0 ≤ r.head + n := P'.head_nonneg
      obtain ⟨hbehind, hfront⟩ := (P.back_iff hneg hpos).mp hle
      exact Or.inr ⟨hneg, hbehind, hpos, hfront⟩
    · rintro (⟨hn, -⟩ | ⟨-, hbehind, hpos, hfront⟩)
      · omega
      · have P' := P.withHead hpos (by omega)
        have hrun := P.removeN_eq (n := n) (by omega) (by omega)
        rw [if_neg hround, hremoved] at hrun
        exact ⟨_, _, hrun, P', (suffix_iff P P' rfl rfl).mpr ((P.back_iff hneg hpos).mpr ⟨hbehind, hfront⟩)⟩
  · have hremoved : 0 ≤ r.removed n ∧ r.removed n ≤ n ∧ r.removed n ≤ r.size ∧ (r.removed n = n ∨ r.removed n = r.size) := by
      unfold removed
      split <;> omega
    obtain ⟨hk, hkn, hkc, hkcases⟩ := hremoved
    -- the sum overflows only where the contents go round
    have hsum : r.head + r.removed n ≤ intMax ↔ r.head ≤ r.tail ∨ r.head + n ≤ intMax ∨ r.tail + r.num ≤ intMax := by
      unfold size at hkc hkcases
      split at hkc <;> rename_i hbehind
      · rw [if_pos hbehind] at hkcases
        omega
      · rw [if_neg hbehind] at hkcases
        omega
    constructor
    · rintro ⟨r', k, hrun, -, -⟩
      exact Or.inl ⟨not_lt.mp hneg, hsum.mp (P.removeN_bounds hrun).2⟩
    · rintro (⟨-, hfits⟩ | ⟨hn, -⟩)
      · obtain ⟨hlo, hhi, hle⟩ := P.on_size hk hkc rfl
        have P' := P.withHead hlo hhi
        exact ⟨_, _, P.removeN_eq (by omega) (hsum.mpr hfits), P', (suffix_iff P P' rfl rfl).mpr hle⟩
      · exact absurd hn hneg

/-- Three items are removed from a ring that holds two. -/
theorem removeN_keeps_iff_three :
    ∃ r' k, (Ring.mk 2 1 3 [some 8, none, some 7]).removeN 3 = .ok (r', k) ∧ r'.Placed
      ∧ r'.contents <:+ (Ring.mk 2 1 3 [some 8, none, some 7]).contents :=
  (removeN_keeps_iff (Ring.mk 2 1 3 [some 8, none, some 7])
    ⟨by decide, by decide, by decide, by decide, by decide, by decide⟩ 3).mpr (Or.inl ⟨by decide, Or.inr (Or.inl (by decide))⟩)

/-- Removing -1 items takes the head of an empty ring out of range; and from another ring it shows an item again that was
    removed before. -/
theorem removeN_negative :
    (Ring.mk 0 0 3 [none, none, none] : Ring Nat).removeN (-1) = .ok (⟨-1, 0, 3, [none, none, none]⟩, -1)
      ∧ (¬ ∃ r' k, (Ring.mk 0 0 3 [none, none, none] : Ring Nat).removeN (-1) = .ok (r', k) ∧ r'.Placed
        ∧ r'.contents <:+ (Ring.mk 0 0 3 [none, none, none] : Ring Nat).contents)
      ∧ (Ring.mk 1 2 3 [some 7, some 8, none]).removeN (-1) = .ok (⟨0, 2, 3, [some 7, some 8, none]⟩, -1)
      ∧ (Ring.mk 1 2 3 [some 7, some 8, none]).contents = [some 8]
      ∧ (Ring.mk 0 2 3 [some 7, some 8, none]).contents = [some 7, some 8] := by
  have hrun : (Ring.mk 0 0 3 [none, none, none] : Ring Nat).removeN (-1) = .ok (⟨-1, 0, 3, [none, none, none]⟩, -1) := by
    decide
  refine ⟨hrun, ?_, by decide, by decide, by decide⟩
  rintro ⟨r', k, h, P', -⟩
  rw [hrun] at h
  obtain ⟨rfl, -⟩ := Prod.mk.inj (Except.ok.inj h)
  exact absurd P'.head_nonneg (by decide)

end Ring
end Flowpath
end Freeflow
