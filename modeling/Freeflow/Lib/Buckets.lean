import Mathlib.Data.List.Perm.Basic
import Mathlib.Data.List.TakeDrop
import Mathlib.Data.List.Nodup
import Freeflow.Lib.Fault

/-!
# `Lib.Buckets` — arrays of chains

An array of buckets is a list of chains. `Located place data` says that every element sits in the bucket
that `place` assigns to it, which is what lets a lookup search one bucket instead of all. The contents of
the array are its chains in order, `data.flatten`; the operations are described by what they do to that
list up to permutation.

## Contents
- `Located`, its introduction for empty arrays and its preservation by `List.set`.
- `flatten_set_perm`: replacing one chain exchanges its elements.
- `flatten_set_sublist`, `ne_of_nodup_flatten`: chains without a common element.
- `take_eq_singletons`: as many elements as chains that are not empty.
- `foldlM_range_flatten`: a loop over the buckets with a loop over each chain is one loop over the
  contents.
-/

namespace Freeflow

variable {α : Type} {data : List (List α)} {place : α → Nat}

/-- Every element of bucket `i` is one that belongs there. -/
def Located (place : α → Nat) (data : List (List α)) : Prop :=
  ∀ i c, data[i]? = some c → ∀ x ∈ c, place x = i

theorem located_replicate (place : α → Nat) (n : Nat) : Located place (List.replicate n []) := by
  intro i c hc x hx
  rw [List.getElem?_replicate] at hc
  split at hc
  · cases hc; simp at hx
  · simp at hc

theorem Located.set {i : Nat} {c : List α} (hloc : Located place data)
    (hc : ∀ x ∈ c, place x = i) : Located place (data.set i c) := by
  intro j d hd x hx
  rw [List.getElem?_set] at hd
  split at hd
  · next hij =>
      split at hd
      · cases hd; exact hij ▸ hc x hx
      · simp at hd
  · exact hloc j d hd x hx

/-- An element of the contents is in the bucket it belongs to. -/
theorem Located.mem_bucket {x : α} (hloc : Located place data) (hx : x ∈ data.flatten) :
    ∃ c, data[place x]? = some c ∧ x ∈ c := by
  obtain ⟨c, hc, hxc⟩ := List.mem_flatten.mp hx
  obtain ⟨i, hi, rfl⟩ := List.getElem_of_mem hc
  have hget : data[i]? = some data[i] := List.getElem?_eq_getElem hi
  have hplace := hloc i _ hget x hxc
  exact ⟨data[i], by rw [hplace, hget], hxc⟩

theorem mem_flatten_of_getElem? {x : α} {i : Nat} {c : List α} (hc : data[i]? = some c)
    (hx : x ∈ c) : x ∈ data.flatten :=
  List.mem_flatten.mpr ⟨c, List.mem_of_getElem? hc, hx⟩

/-- The placement may change as long as it stays the same on the elements that are there. -/
theorem Located.congr {place' : α → Nat} (hloc : Located place data)
    (h : ∀ x ∈ data.flatten, place' x = place x) : Located place' data := by
  intro i c hc x hx
  rw [h x (mem_flatten_of_getElem? hc hx)]
  exact hloc i c hc x hx

/-- Replacing the chain of one bucket exchanges its elements for the new ones. -/
theorem flatten_set_perm {i : Nat} {c : List α} (hc : data[i]? = some c) (d : List α) :
    ((data.set i d).flatten ++ c).Perm (data.flatten ++ d) := by
  induction data generalizing i with
  | nil => simp at hc
  | cons b data ih =>
      cases i with
      | zero =>
          simp only [List.getElem?_cons_zero, Option.some.injEq] at hc
          subst hc
          simp only [List.set_cons_zero, List.flatten_cons, List.append_assoc]
          calc
            (d ++ (data.flatten ++ b)).Perm (data.flatten ++ (d ++ b)) := List.perm_append_comm_assoc _ _ _
            List.Perm _ (data.flatten ++ (b ++ d)) := List.perm_append_comm.append_left _
            List.Perm _ (b ++ (data.flatten ++ d)) := List.perm_append_comm_assoc _ _ _
      | succ i =>
          simp only [List.getElem?_cons_succ] at hc
          simp only [List.set_cons_succ, List.flatten_cons, List.append_assoc]
          exact (ih hc).append_left b

/-- Prepending to one chain adds one element. -/
theorem flatten_set_cons_perm {i : Nat} {c : List α} (hc : data[i]? = some c) (x : α) :
    (data.set i (x :: c)).flatten.Perm (x :: data.flatten) := by
  have h := flatten_set_perm hc (x :: c)
  have h' : (data.flatten ++ x :: c).Perm ((x :: data.flatten) ++ c) := List.perm_middle
  exact List.perm_append_right_iff c |>.mp (h.trans h')

/-- Taking elements out of one chain takes them out of the contents. -/
theorem flatten_set_sublist {i : Nat} {c d : List α} (hc : data[i]? = some c) (hd : d.Sublist c) :
    (data.set i d).flatten.Sublist data.flatten := by
  induction data generalizing i with
  | nil => simp at hc
  | cons b data ih =>
      cases i with
      | zero =>
          cases hc
          exact hd.append (List.Sublist.refl _)
      | succ i => exact (List.Sublist.refl b).append (ih hc)

/-- Where nothing is in the contents twice, two chains have no element in common. -/
theorem ne_of_nodup_flatten {β : Type} {f : α → β} (h : (data.flatten.map f).Nodup) {i j : Nat} {c d : List α}
    (hc : data[i]? = some c) (hd : data[j]? = some d) (hij : i ≠ j) : ∀ x ∈ c, ∀ y ∈ d, f x ≠ f y := by
  have hlt : ∀ {i j : Nat} {c d : List α}, data[i]? = some c → data[j]? = some d → i < j →
      ∀ x ∈ c, ∀ y ∈ d, f x ≠ f y := by
    intro i j c d hc hd hij x hx y hy heq
    rw [List.map_flatten, List.nodup_flatten] at h
    obtain ⟨hi, rfl⟩ := List.getElem?_eq_some_iff.mp hc
    obtain ⟨hj, rfl⟩ := List.getElem?_eq_some_iff.mp hd
    have hdisj := List.pairwise_iff_getElem.mp h.2 i j (by simpa using hi) (by simpa using hj) hij
    rw [List.getElem_map, List.getElem_map] at hdisj
    exact hdisj (List.mem_map_of_mem hx) (heq ▸ List.mem_map_of_mem hy)
  intro x hx y hy
  rcases Nat.lt_or_gt_of_ne hij with h | h
  · exact hlt hc hd h x hx y hy
  · exact (hlt hd hc h y hy x hx).symm

/-- When every element's bucket lies among the first `n`, the later ones are empty. -/
theorem Located.flatten_take {n : Nat} (hloc : Located place data)
    (h : ∀ x ∈ data.flatten, place x < n) : (data.take n).flatten = data.flatten := by
  have hdrop : (data.drop n).flatten = [] := by
    rw [List.flatten_eq_nil_iff]
    intro c hc
    obtain ⟨i, hi⟩ := List.mem_iff_getElem?.mp hc
    rw [List.getElem?_drop] at hi
    rw [List.eq_nil_iff_forall_not_mem]
    intro x hx
    have hplace := hloc _ c hi x hx
    have hlt := h x (mem_flatten_of_getElem? hi hx)
    omega
  conv_rhs => rw [← List.take_append_drop n data, List.flatten_append, hdrop, List.append_nil]

/-- Elements that all belong in one bucket are found there, in the order of its chain. -/
theorem Located.filter_flatten {i : Nat} {c : List α} {p : α → Bool} (hloc : Located place data)
    (hc : data[i]? = some c) (hp : ∀ x ∈ data.flatten, p x = true → place x = i) :
    data.flatten.filter p = c.filter p := by
  have hother : ∀ j d, j ≠ i → data[j]? = some d → d.filter p = [] := by
    intro j d hj hd
    rw [List.filter_eq_nil_iff]
    intro x hx hpx
    exact hj ((hloc j d hd x hx).symm.trans (hp x (mem_flatten_of_getElem? hd hx) hpx))
  have hnil : ∀ cs : List (List α), (∀ d ∈ cs, d.filter p = []) → cs.flatten.filter p = [] := by
    intro cs hcs
    rw [List.filter_flatten, List.flatten_eq_nil_iff]
    intro d hd
    obtain ⟨d', hd', rfl⟩ := List.mem_map.mp hd
    exact hcs d' hd'
  obtain ⟨hlt, hget⟩ := List.getElem?_eq_some_iff.mp hc
  have hsplit : data = data.take i ++ c :: data.drop (i + 1) := by
    rw [← hget, List.getElem_cons_drop, List.take_append_drop]
  have htake : (data.take i).flatten.filter p = [] := by
    apply hnil
    intro d hd
    obtain ⟨j, hj, rfl⟩ := List.getElem_of_mem hd
    rw [List.length_take] at hj
    exact hother j _ (by omega) (by rw [List.getElem_take]; exact List.getElem?_eq_getElem (by omega))
  have hdrop : (data.drop (i + 1)).flatten.filter p = [] := by
    apply hnil
    intro d hd
    obtain ⟨j, hj⟩ := List.mem_iff_getElem?.mp hd
    rw [List.getElem?_drop] at hj
    exact hother _ d (by omega) hj
  rw [hsplit, List.flatten_append, List.flatten_cons, List.filter_append, List.filter_append, htake, hdrop,
    List.nil_append, List.append_nil]

/-- **A loop over buckets and chains is a loop over the contents.** -/
theorem foldlM_range_flatten {β : Type} (get : Nat → Checked (List α)) (f : β → α → Checked β)
    (b : β) (n : Nat) (hget : ∀ i c, i < n → data[i]? = some c → get i = .ok c)
    (hn : n ≤ data.length) :
    (List.range n).foldlM (fun b i => get i >>= fun c => c.foldlM f b) b
      = (data.take n).flatten.foldlM f b := by
  induction n with
  | zero => rfl
  | succ n ih =>
      have hlt : n < data.length := hn
      rw [List.range_succ, List.foldlM_append, ih (fun i c hi => hget i c (by omega)) (by omega),
        List.take_succ_eq_append_getElem hlt, List.flatten_append, List.foldlM_append]
      congr 1
      funext b'
      have hn' := hget n data[n] (by omega) (List.getElem?_eq_getElem hlt)
      simp only [List.foldlM_cons, List.foldlM_nil, hn', ok_bind, bind_pure, List.flatten_cons,
        List.flatten_nil, List.append_nil]

/-! ## Chains of one element -/

theorem length_le_length_flatten : ∀ {cs : List (List α)}, (∀ c ∈ cs, c ≠ []) → cs.length ≤ cs.flatten.length
  | [], _ => Nat.le_refl 0
  | c :: cs, hne => by
      have hpos : 0 < c.length := List.length_pos_of_ne_nil (hne c (by simp))
      have hrest := length_le_length_flatten (fun d hd => hne d (List.mem_cons_of_mem c hd))
      rw [List.flatten_cons, List.length_append, List.length_cons]
      omega

/-- With as many elements as chains, and no chain empty, every chain is one element. -/
theorem exists_singletons : ∀ {cs : List (List α)}, (∀ c ∈ cs, c ≠ []) → cs.flatten.length ≤ cs.length →
    ∃ xs : List α, cs = xs.map (fun x => [x])
  | [], _, _ => ⟨[], rfl⟩
  | c :: cs, hne, hlen => by
      have hne' : ∀ d ∈ cs, d ≠ [] := fun d hd => hne d (List.mem_cons_of_mem c hd)
      have hrest := length_le_length_flatten hne'
      have hpos : 0 < c.length := List.length_pos_of_ne_nil (hne c (by simp))
      rw [List.flatten_cons, List.length_append, List.length_cons] at hlen
      obtain ⟨x, rfl⟩ := List.length_eq_one_iff.mp (show c.length = 1 by omega)
      obtain ⟨xs, hxs⟩ := exists_singletons hne' (show cs.flatten.length ≤ cs.length by omega)
      exact ⟨x :: xs, by rw [List.map_cons, ← hxs]⟩

theorem flatten_map_singleton (xs : List α) : (xs.map (fun x => [x])).flatten = xs := by
  induction xs with
  | nil => rfl
  | cons x xs ih => rw [List.map_cons, List.flatten_cons, ih, List.singleton_append]

/-- An array with `n` elements whose first `n` chains are not empty: they have one element each, and there are no
    others. -/
theorem take_eq_singletons {n : Nat} (hlen : data.flatten.length = n) (hne : ∀ i < n, ∃ c, data[i]? = some c ∧ c ≠ []) :
    data.take n = data.flatten.map (fun x => [x]) := by
  have hle : n ≤ data.length := by
    rcases Nat.eq_zero_or_pos n with h | h
    · omega
    · obtain ⟨c, hc, -⟩ := hne (n - 1) (by omega)
      have := (List.getElem?_eq_some_iff.mp hc).1
      omega
  have hsplit : (data.take n).flatten ++ (data.drop n).flatten = data.flatten := by
    rw [← List.flatten_append, List.take_append_drop]
  have hcount : (data.take n).flatten.length + (data.drop n).flatten.length = n := by
    rw [← List.length_append, hsplit, hlen]
  have hne' : ∀ c ∈ data.take n, c ≠ [] := by
    intro c hc
    obtain ⟨i, hi, rfl⟩ := List.getElem_of_mem hc
    rw [List.length_take] at hi
    obtain ⟨d, hd, hdne⟩ := hne i (by omega)
    rw [List.getElem_take, (List.getElem?_eq_some_iff.mp hd).2]
    exact hdne
  obtain ⟨xs, hxs⟩ := exists_singletons hne' (by rw [List.length_take]; omega)
  have hlenxs : xs.length = n := by
    have := congrArg List.length hxs
    rw [List.length_take, List.length_map] at this
    omega
  rw [hxs, flatten_map_singleton] at hsplit hcount
  have hdrop : (data.drop n).flatten = [] := List.eq_nil_of_length_eq_zero (by omega)
  rw [hxs, ← hsplit, hdrop, List.append_nil]

end Freeflow
