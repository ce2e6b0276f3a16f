import Freeflow.Flowpath.Correctness.HashLog

/-!
# `Flowpath.Correctness.HashTermination` — insertion and resize end

`insert` and `resize` call each other, and each resize inserts all entries into a new table, which resizes in turn. The new
table is always made for the next prime, so the nesting is at most as deep as there are larger primes: that much fuel is
enough, and more changes nothing (`insertFuel_within`).
-/

namespace Freeflow
namespace Flowpath
namespace ChainedHashTable

open Traced

variable {K V : Type}

/-! ## Fuel -/

section Fuel

variable {ins ins' : ChainedHashTable K V → K → V → Checked (ChainedHashTable K V × List (HashEntry K V))}

theorem resizeWith_within (h : ∀ t k v, Within (ins t k v) (ins' t k v)) (t : ChainedHashTable K V) :
    Within (t.resizeWith ins) (t.resizeWith ins') := by
  unfold resizeWith
  by_cases hz : nextPrime t.buckets = 0
  · rw [if_pos hz, if_pos hz]
    exact Within.refl _
  · rw [if_neg hz, if_neg hz]
    refine Within.bind ?_ (fun t₂ => Within.refl _)
    refine Within.foldlM (fun t₂ i => (Within.refl _).bind (fun chain => ?_)) _ _
    exact Within.foldlM (fun t₂ e => (h t₂ e.key e.value).bind (fun r => Within.refl _)) chain t₂

/-- More fuel changes nothing. -/
theorem insertFuel_within : ∀ (fuel : Nat) (t : ChainedHashTable K V) (k : K) (v : V),
    Within (insertFuel fuel t k v) (insertFuel (fuel + 1) t k v) := by
  intro fuel
  induction fuel with
  | zero => intro t k v; exact Or.inl rfl
  | succ fuel ih =>
      intro t k v
      rw [insertFuel, insertFuel]
      by_cases hload : t.loadAtLeastThreeQuarters = true
      · rw [if_pos hload, if_pos hload]
        exact (resizeWith_within ih t).bind (fun t' => Within.refl _)
      · rw [if_neg hload, if_neg hload]
        exact Within.refl _

theorem insertFuel_le {fuel fuel' : Nat} (h : fuel ≤ fuel') (t : ChainedHashTable K V) (k : K) (v : V) :
    Within (insertFuel fuel t k v) (insertFuel fuel' t k v) := by
  induction h with
  | refl => exact Within.refl _
  | step _ ih => exact ih.trans (insertFuel_within _ t k v)

end Fuel

/-! ## One call -/

/-- The new entry of an insertion takes no fuel. -/
theorem prepend_ne_outOfFuel (t : ChainedHashTable K V) (k : K) (v : V) : t.prepend k v ≠ .error .outOfFuel := by
  have hindex : t.hashIndex k ≠ .error .outOfFuel := by
    unfold hashIndex
    split
    · exact fun h => by cases h
    · exact fun h => by cases h
  refine bind_ne_outOfFuel (bind_ne_outOfFuel hindex (fun i => ?_)) (fun r => ?_)
  · exact bind_ne_outOfFuel (load_ne_outOfFuel _ _) (fun chain h => by cases h)
  · exact bind_ne_outOfFuel (store_ne_outOfFuel _ _ _) (fun data h => by cases h)

/-- The new entry makes no temporary table. -/
theorem prependTraced_writes (t : ChainedHashTable K V) (k : K) (v : V) :
    Writes (fun e => e.weight = 0) (t.prependTraced k v) := by
  refine Writes.bind (Writes.bind (Writes.ofChecked _) (fun i => ?_)) (fun r => ?_)
  · exact Writes.note_bind (TableEvent.weight_index _ _) ((Writes.ofChecked _).bind (fun _ => Writes.pure _))
  · exact Writes.note_bind (TableEvent.weight_table _) ((Writes.ofChecked _).bind (fun _ =>
      Writes.note_bind (TableEvent.weight_table _) (Writes.pure _)))

/-- **NestsWithin.** Every temporary table has more buckets than the table it is built for, which is below the last prime;
    no more of them are alive at once than there are primes above `b`; and if there are none, none is built. -/
structure NestsWithin (b : Nat) (log : List (TableEvent K V)) : Prop where
  grows : ∀ old new, .build old new ∈ log → old < new ∧ old < lastPrime
  alive : ∀ m, level TableEvent.weight (log.take m) ≤ (primesAbove b).length
  last : lastPrime ≤ b → ∀ old new, .build old new ∉ log

/-- A log without temporary tables. -/
theorem nestsWithin_of_weight {b : Nat} {log : List (TableEvent K V)} (h : ∀ e ∈ log, e.weight = 0) :
    NestsWithin b log := by
  have hnone : ∀ old new, .build old new ∉ log := by
    intro old new hmem
    have hone : (1 : Int) = 0 := h _ hmem
    cases hone
  exact ⟨fun old new hmem => absurd hmem (hnone old new), (Nested.of_forall h).depth, fun _ => hnone⟩

theorem Logged.nestsWithin {b : Nat} {c : Prop} {log : List (TableEvent K V)} (h : Logged (primesAbove b).length c log)
    (hb : b < lastPrime) : NestsWithin b log := by
  refine ⟨fun old new hmem => ?_, h.nested.depth, fun hle => by omega⟩
  obtain ⟨hnext, hlt⟩ := h.grows _ hmem
  refine ⟨hlt, ?_⟩
  by_contra hle
  rw [(nextPrime_eq_zero_iff old).mpr (by omega)] at hnext
  omega

section Enough

variable {t : ChainedHashTable K V} (hpos : 1 ≤ t.buckets) (hroom : t.buckets ≤ t.data.length)
include hpos hroom

/-- Below the last prime a table is sound. -/
theorem sound_of_lt (hlt : t.buckets < lastPrime) : Sound t := by
  refine ⟨hpos, hroom, ?_⟩
  unfold lastPrime at hlt
  omega

/-- **Enough fuel for an insertion.** -/
theorem insertFuel_ends {fuel : Nat} (hfuel : t.primesLeft < fuel) (k : K) (v : V) :
    insertFuel fuel t k v ≠ .error .outOfFuel ∧ NestsWithin t.buckets (logOf (insertTraced fuel t k v)) := by
  by_cases hlt : t.buckets < lastPrime
  · have hlogs := insertTraced_logs fuel t k v (sound_of_lt hpos hroom hlt) hfuel
    obtain ⟨r, es, hrun, -⟩ := hlogs []
    obtain ⟨-, hlog, -⟩ := hlogs.logOf
    refine ⟨?_, hlog.nestsWithin hlt⟩
    rw [(insertTraced_forgets fuel t k v).ok hrun]
    exact fun h => by cases h
  · have hz : nextPrime t.buckets = 0 := (nextPrime_eq_zero_iff t.buckets).mpr (Nat.le_of_not_lt hlt)
    obtain ⟨fuel, rfl⟩ : ∃ n, fuel = n + 1 := ⟨fuel - 1, by omega⟩
    constructor
    · rw [insertFuel, resizeWith_last hz, ok_bind, ite_self]
      exact prepend_ne_outOfFuel t k v
    · refine nestsWithin_of_weight (Writes.logOf ?_)
      refine Writes.note_bind (TableEvent.weight_table t) ?_
      split
      · refine Writes.bind ?_ (fun t' => prependTraced_writes t' k v)
        rw [resizeTraced, if_pos hz]
        exact Writes.pure t
      · exact prependTraced_writes t k v

/-- **Enough fuel for a resize.** -/
theorem resizeWith_ends {fuel : Nat} (hfuel : t.primesLeft ≤ fuel) :
    t.resizeWith (insertFuel fuel) ≠ .error .outOfFuel ∧
      NestsWithin t.buckets (logOf (t.resizeTraced (insertTraced fuel))) := by
  by_cases hlt : t.buckets < lastPrime
  · have hlogs := resizeTraced_logs (insertTraced_logs fuel) (sound_of_lt hpos hroom hlt) (Nat.lt_succ_of_le hfuel)
    obtain ⟨t', es, hrun, -⟩ := hlogs []
    obtain ⟨-, hlog, -⟩ := hlogs.logOf
    refine ⟨?_, hlog.nestsWithin hlt⟩
    rw [(resizeTraced_forgets (insertTraced_forgets fuel) t).ok hrun]
    exact fun h => by cases h
  · have hz : nextPrime t.buckets = 0 := (nextPrime_eq_zero_iff t.buckets).mpr (Nat.le_of_not_lt hlt)
    constructor
    · rw [resizeWith_last hz]
      exact fun h => by cases h
    · refine nestsWithin_of_weight (Writes.logOf ?_)
      rw [resizeTraced, if_pos hz]
      exact Writes.pure t

end Enough

/-- **Insertion and resize end.** Fuel for as many nested tables as there are larger primes is enough, and more gives the
    same result; and that many temporary tables at most are alive at once, each larger than the one it is built for. -/
theorem insert_and_resize_end (t : ChainedHashTable K V) (hpos : 1 ≤ t.buckets) (hroom : t.buckets ≤ t.data.length)
    (k : K) (v : V) :
    (t.insert k v ≠ .error .outOfFuel ∧ ∀ fuel, (primesAbove t.buckets).length < fuel →
      insertFuel fuel t k v = t.insert k v ∧ NestsWithin t.buckets (logOf (insertTraced fuel t k v))) ∧
    (t.resize ≠ .error .outOfFuel ∧ ∀ fuel, (primesAbove t.buckets).length ≤ fuel →
      t.resizeWith (insertFuel fuel) = t.resize ∧
      NestsWithin t.buckets (logOf (t.resizeTraced (insertTraced fuel)))) := by
  have hall := primesAbove_length_le t.buckets
  have hinsert := fun {fuel : Nat} (h : (primesAbove t.buckets).length < fuel) => insertFuel_ends hpos hroom h k v
  have hresize := fun {fuel : Nat} (h : (primesAbove t.buckets).length ≤ fuel) => resizeWith_ends hpos hroom h
  refine ⟨⟨(hinsert (Nat.lt_succ_of_le hall)).1, fun fuel hfuel => ⟨?_, (hinsert hfuel).2⟩⟩,
    (hresize hall).1, fun fuel hfuel => ⟨?_, (hresize hfuel).2⟩⟩
  · -- of two amounts that are enough the larger one gives what the smaller one gives
    rcases Nat.le_total fuel (primes.length + 1) with h | h
    · exact (insertFuel_le h t k v).eq_of_ne (hinsert hfuel).1
    · exact ((insertFuel_le h t k v).eq_of_ne (hinsert (Nat.lt_succ_of_le hall)).1).symm
  · rcases Nat.le_total fuel primes.length with h | h
    · exact (resizeWith_within (insertFuel_le h) t).eq_of_ne (hresize hfuel).1
    · exact ((resizeWith_within (insertFuel_le h) t).eq_of_ne (hresize hall).1).symm

/-- Three entries in 53 buckets, two of them in one chain. -/
def threeEntries : ChainedHashTable Nat Nat where
  size := 3
  buckets := 53
  hash := uintHash
  comp := uintEq
  data := ((List.replicate 53 []).set 1 [⟨54, 8⟩, ⟨1, 7⟩]).set 2 [⟨2, 9⟩]

/-- The three entries are inserted again, each into a table that grows for it. -/
theorem insert_and_resize_end_three :
    (threeEntries.insert 5 7 ≠ .error .outOfFuel ∧ ∀ fuel, (primesAbove 53).length < fuel →
      insertFuel fuel threeEntries 5 7 = threeEntries.insert 5 7 ∧
      NestsWithin 53 (logOf (insertTraced fuel threeEntries 5 7))) ∧
    (threeEntries.resize ≠ .error .outOfFuel ∧ ∀ fuel, (primesAbove 53).length ≤ fuel →
      threeEntries.resizeWith (insertFuel fuel) = threeEntries.resize ∧
      NestsWithin 53 (logOf (threeEntries.resizeTraced (insertTraced fuel)))) :=
  insert_and_resize_end threeEntries (by decide) (by decide) 5 7

end ChainedHashTable
end Flowpath
end Freeflow
