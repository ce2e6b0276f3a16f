import Mathlib.Algebra.BigOperators.Group.List.Basic
import Mathlib.Algebra.Order.BigOperators.Group.List
import Mathlib.Data.UInt
import Mathlib.Tactic.Common

/-!
# `Lib.Framing` — fixed-size records on a stream that is delivered in pieces

A stream of records of `N` cells arrives in pieces of 1 to `N` cells. A receiver that takes every piece for a
record sees the records that were sent only if every piece is one. Both facts below are about lengths.

## Contents
- `eq_of_flatten_eq`: two sequences of records that make the same stream are the same.
- `length_of_filter`: if as many pieces as there are records are complete, all are.
-/

namespace Freeflow

variable {α δ : Type} {N : Nat}

/-- The stream of records of `N` cells is `N` times as long as there are records. -/
theorem length_flatten_of_length {xs : List (List α)} (hx : ∀ x ∈ xs, x.length = N) :
    xs.flatten.length = N * xs.length := by
  induction xs with
  | nil => rfl
  | cons x xs ih =>
      rw [List.flatten_cons, List.length_append, hx x (by simp),
        ih (fun y hy => hx y (List.mem_cons_of_mem x hy)), List.length_cons, Nat.mul_succ, Nat.add_comm]

/-- Records of one size are determined by their stream. -/
theorem eq_of_flatten_eq (hN : 0 < N) {xs ys : List (List α)} (hx : ∀ x ∈ xs, x.length = N)
    (hy : ∀ y ∈ ys, y.length = N) (h : xs.flatten = ys.flatten) : xs = ys := by
  have hlen : xs.length = ys.length := by
    have hsum := congrArg List.length h
    rw [length_flatten_of_length hx, length_flatten_of_length hy] at hsum
    exact Nat.eq_of_mul_eq_mul_left hN hsum
  have hrep : ∀ {zs : List (List α)}, (∀ z ∈ zs, z.length = N) →
      zs.map List.length = List.replicate zs.length N := by
    intro zs hz
    rw [List.eq_replicate_iff]
    refine ⟨List.length_map _, fun n hn => ?_⟩
    obtain ⟨z, hmem, rfl⟩ := List.mem_map.mp hn
    exact hz z hmem
  rw [List.eq_iff_flatten_eq]
  exact ⟨h, by rw [hrep hx, hrep hy, hlen]⟩

variable (size : δ → Nat) (p : δ → Bool)

/-- The cells of the pieces, split by a property of the pieces. -/
theorem sum_filter_add (ds : List δ) :
    ((ds.filter p).map size).sum + ((ds.filter (fun d => !p d)).map size).sum = (ds.map size).sum := by
  induction ds with
  | nil => rfl
  | cons d ds ih =>
      cases hp : p d with
      | true => simp only [hp, List.filter_cons, List.map_cons, List.sum_cons, if_true, Bool.not_true,
          Bool.false_eq_true, if_false]; omega
      | false => simp only [hp, List.filter_cons, List.map_cons, List.sum_cons, if_true, Bool.not_false,
          Bool.false_eq_true, if_false]; omega

/-- **No room for incomplete pieces.** If the pieces with property `p` are as many as the records and are complete,
    then nothing is left of the stream, so every piece is one of them. -/
theorem length_of_filter {ds : List δ} {n : Nat} (hpos : ∀ d ∈ ds, 1 ≤ size d)
    (hsum : (ds.map size).sum = N * n) (hlen : (ds.filter p).length = n)
    (hfull : ∀ d ∈ ds.filter p, size d = N) : ∀ d ∈ ds, size d = N := by
  have hp : ((ds.filter p).map size).sum = N * n := by
    have hrep : (ds.filter p).map size = List.replicate n N := by
      rw [List.eq_replicate_iff]
      refine ⟨by rw [List.length_map, hlen], fun m hm => ?_⟩
      obtain ⟨d, hd, rfl⟩ := List.mem_map.mp hm
      exact hfull d hd
    rw [hrep, List.sum_replicate_nat, Nat.mul_comm]
  have hrest : ((ds.filter (fun d => !p d)).map size).sum = 0 := by
    have := sum_filter_add size p ds
    omega
  intro d hd
  cases hpd : p d with
  | true => exact hfull d (List.mem_filter.mpr ⟨hd, hpd⟩)
  | false =>
      have hmem : size d ∈ (ds.filter (fun d => !p d)).map size :=
        List.mem_map_of_mem (List.mem_filter.mpr ⟨hd, by simp [hpd]⟩)
      have hzero : size d = 0 := List.sum_eq_zero_iff_forall_eq_nat.mp hrest _ hmem
      exact absurd (hpos d hd) (by rw [hzero]; exact Nat.not_succ_le_zero 0)

end Freeflow
