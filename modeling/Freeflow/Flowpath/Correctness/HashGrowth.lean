import Freeflow.Flowpath.Correctness.HashSafety

/-!
# `Flowpath.Correctness.HashGrowth` — when the hash table grows

The load of `fp_chained_hash_table_load` is the number of buckets for each entry, so it is high while the table is
empty, and the high-water test of an insertion lets the table grow until the primes are used up. Along a run from a new
table the first insertion grows it, unless no prime is left (`run_grows_iff`).
-/

namespace Freeflow
namespace Flowpath
namespace ChainedHashTable

variable {K V : Type}

/-- The greatest of the primes. -/
def lastPrime : Nat := 1610612741

/-- No prime is left exactly from the last one on. -/
theorem nextPrime_eq_zero_iff (b : Nat) : nextPrime b = 0 ↔ lastPrime ≤ b := by
  have hle : ∀ p ∈ primes, p ≤ lastPrime := by decide
  have hpos : ∀ p ∈ primes, 0 < p := by decide
  have hlast : lastPrime ∈ primes := by decide
  constructor
  · intro h
    by_contra hlt
    cases hf : primes.find? (fun p => decide (b < p)) with
    | none =>
        have := List.find?_eq_none.mp hf lastPrime hlast
        rw [decide_eq_true_eq] at this
        omega
    | some p =>
        have := hpos p (List.mem_of_find?_eq_some hf)
        rw [nextPrime, hf, Option.getD_some] at h
        omega
  · intro h
    by_contra hne
    obtain ⟨hmem, hlt⟩ := nextPrime_mem hne
    have := hle _ hmem
    omega

/-- The table is at its high-water mark: `size >= .75 * buckets`. -/
def AtHighWater (t : ChainedHashTable K V) : Prop := 3 * t.buckets ≤ 4 * t.size

/-- A step changes the bucket count only at the high-water mark. -/
def GrowsAtHighWater (t : ChainedHashTable K V) (op : Op K V) : Prop :=
  ∀ t', step t op = .ok (t', ()) → t'.buckets ≠ t.buckets → AtHighWater t

/-- **RunGrowsAtHighWater.** Every step of the run changes the bucket count only at the high-water mark; and if no state
    of the run holds three quarters of the initial bucket count, then all of them have that bucket count. -/
def RunGrowsAtHighWater (t : ChainedHashTable K V) (ops : List (Op K V)) : Prop :=
  Guarded step GrowsAtHighWater t ops ∧
  ((∀ n t' os, runAll step t (ops.take n) = .ok (t', os) → 4 * t'.size < 3 * t.buckets) →
    ∀ n t' os, runAll step t (ops.take n) = .ok (t', os) → t'.buckets = t.buckets)

/-- An operation is an insertion. -/
def Op.IsInsert : Op K V → Prop
  | .insert _ _ => True
  | .remove _ => False

/-! ## One step -/

/-- The bucket count after an insertion. -/
theorem insert_buckets {t t' : ChainedHashTable K V} {k : K} {v : V} {c : List (HashEntry K V)}
    (h : t.insert k v = .ok (t', c)) : t'.buckets =
      if t.loadAtLeastThreeQuarters ∧ nextPrime t.buckets ≠ 0 then nextPrime t.buckets else t.buckets := by
  change (if t.loadAtLeastThreeQuarters = true then _ else _) = _ at h
  by_cases hload : t.loadAtLeastThreeQuarters = true
  · rw [if_pos hload] at h
    obtain ⟨t₁, hres, h⟩ := bind_eq_ok h
    obtain ⟨data, rfl⟩ := prepend_cases h
    rcases resizeWith_cases hres with ⟨hz, rfl⟩ | ⟨hz, data', rfl⟩
    · rw [if_neg (fun hc => hc.2 hz)]
    · rw [if_pos ⟨hload, hz⟩]
  · rw [if_neg hload] at h
    obtain ⟨data, rfl⟩ := prepend_cases h
    rw [if_neg (fun hc => hload hc.1)]

/-- A step keeps the bucket count when it is a removal or no prime is left. -/
theorem step_buckets {t t' : ChainedHashTable K V} {op : Op K V} {o : Unit} (h : step t op = .ok (t', o))
    (hop : ¬ op.IsInsert ∨ nextPrime t.buckets = 0) : t'.buckets = t.buckets := by
  cases op with
  | insert k v =>
      obtain ⟨⟨t₁, c⟩, hins, h⟩ := bind_eq_ok h
      cases h
      have hz : nextPrime t.buckets = 0 := hop.resolve_left (fun hn => hn trivial)
      rw [insert_buckets hins, if_neg (fun hc => hc.2 hz)]
  | remove k =>
      obtain ⟨t₁, hrem, h⟩ := bind_eq_ok h
      cases h
      rcases remove_cases hrem with rfl | ⟨data, rfl⟩ <;> rfl

/-- A removal from a shaped table without entries leaves it as it is. -/
theorem Shaped.step_remove {t : ChainedHashTable K V} (S : Shaped t) (h : t.data.flatten = []) (k : K) :
    step t (.remove k) = .ok (t, ()) := by
  obtain ⟨n, hbucket⟩ := S.bucket_of_flatten_eq_nil h k
  show (t.remove k >>= _) = _
  rw [remove, hbucket]
  rfl

/-- **What lets an insertion grow the table.** It keeps to the high-water mark exactly when the table is at it, or no
    prime is left: below the mark, every insertion takes the next prime. -/
theorem Shaped.growsAtHighWater_insert_iff {t : ChainedHashTable K V} (S : Shaped t) (k : K) (v : V) :
    GrowsAtHighWater t (.insert k v) ↔ AtHighWater t ∨ nextPrime t.buckets = 0 := by
  obtain ⟨t', c, hins, -⟩ := S.insert_prepended k v
  have hstep : step t (.insert k v) = .ok (t', ()) := by
    show (t.insert k v >>= _) = _
    rw [hins]
    rfl
  have hpos := S.pos
  have hbuckets := insert_buckets hins
  constructor
  · intro h
    by_cases hw : AtHighWater t
    · exact Or.inl hw
    · refine Or.inr ?_
      by_contra hz
      -- below the mark the quotient of `buckets` by `size` is above it
      have hload : t.loadAtLeastThreeQuarters = true := by
        unfold AtHighWater at hw
        unfold loadAtLeastThreeQuarters
        split
        · exact decide_eq_true hpos
        · exact decide_eq_true (by omega)
      rw [if_pos ⟨hload, hz⟩] at hbuckets
      exact hw (h t' hstep (by rw [hbuckets]; exact Nat.ne_of_gt (nextPrime_mem hz).2))
  · rintro (hw | hz) t₁ h₁ hne
    · exact hw
    · exact absurd (step_buckets h₁ (Or.inr hz)) hne

/-! ## Runs -/

/-- A step keeps the bucket count. -/
def KeepsBuckets (t : ChainedHashTable K V) (op : Op K V) : Prop :=
  ∀ t', step t op = .ok (t', ()) → t'.buckets = t.buckets

/-- Where nothing is inserted, or no prime is left, every step keeps the bucket count. -/
theorem guarded_keepsBuckets : ∀ (ops : List (Op K V)) (t : ChainedHashTable K V),
    (∀ op ∈ ops, ¬ op.IsInsert) ∨ nextPrime t.buckets = 0 → Guarded step KeepsBuckets t ops
  | [], _, _ => trivial
  | op :: ops, t, h => by
      have hop : ¬ op.IsInsert ∨ nextPrime t.buckets = 0 := h.imp_left (fun h => h op (by simp))
      refine ⟨fun t' ht' => step_buckets ht' hop, fun t' o ht' => guarded_keepsBuckets ops t' ?_⟩
      rw [step_buckets ht' hop]
      exact h.imp_left (fun h op' hop' => h op' (List.mem_cons_of_mem op hop'))

/-- A run whose steps all keep the bucket count keeps it. -/
theorem run_keepsBuckets {t t' : ChainedHashTable K V} {ops : List (Op K V)} {os : List Unit}
    (h : Guarded step KeepsBuckets t ops) (hrun : runAll step t ops = .ok (t', os)) : t'.buckets = t.buckets := by
  have hstep : ∀ (s : ChainedHashTable K V) (op : Op K V) (s' : ChainedHashTable K V) (o : Unit),
      s.buckets = t.buckets → KeepsBuckets s op → step s op = .ok (s', o) → s'.buckets = t.buckets := by
    intro s op s' o hs hkeep hstep
    exact (hkeep s' hstep).trans hs
  exact runAll_invariant hstep ops t t' os rfl h hrun

/-- The first insertion of a run from an empty table that has a prime left is below the high-water mark. -/
theorem no_insert_of_guarded {t : ChainedHashTable K V} (S : Shaped t) (hempty : t.data.flatten = [])
    (hsize : t.size = 0) (hz : nextPrime t.buckets ≠ 0) :
    ∀ (ops : List (Op K V)), Guarded step GrowsAtHighWater t ops → ∀ op ∈ ops, ¬ op.IsInsert := by
  intro ops
  induction ops with
  | nil => simp
  | cons op ops ih =>
      rintro ⟨hfirst, hrest⟩
      cases op with
      | insert k v =>
          rcases (S.growsAtHighWater_insert_iff k v).mp hfirst with hw | h
          · unfold AtHighWater at hw
            have := S.pos
            omega
          · exact absurd h hz
      | remove k =>
          -- there is nothing to remove, so the run goes on from the same table
          rw [List.forall_mem_cons]
          exact ⟨fun h => h, ih (hrest t () (S.step_remove hempty k))⟩

/-- **When a run grows the table at the high-water mark only**: when nothing is inserted, or the table is made with the
    last prime or more as its bucket count, so that it does not grow at all. -/
theorem run_grows_iff (hash : K → Nat) (comp : K → K → Bool) (b : Nat) (hb : 1 ≤ b) (ops : List (Op K V)) :
    RunGrowsAtHighWater (new b hash comp) ops ↔ (∀ op ∈ ops, ¬ op.IsInsert) ∨ lastPrime ≤ b := by
  have hnext : nextPrime (new b hash comp : ChainedHashTable K V).buckets = 0 ↔ lastPrime ≤ b := nextPrime_eq_zero_iff b
  constructor
  · rintro ⟨hguard, -⟩
    by_cases hz : lastPrime ≤ b
    · exact Or.inr hz
    -- a count below the last prime is an `int`, so that every index of the new table is one
    · have hfits : ∀ k, 0 ≤ toInt (hash k % b) := by
        intro k
        have hlt : hash k % b < b := Nat.mod_lt _ hb
        unfold lastPrime at hz
        rw [toInt_of_lt (by omega)]
        omega
      exact Or.inl (no_insert_of_guarded (new_placed hb hfits).shaped (by simp [new]) rfl
        (fun h => hz (hnext.mp h)) ops hguard)
  · intro h
    have hkeep := guarded_keepsBuckets ops (new b hash comp) (h.imp_right hnext.mpr)
    refine ⟨hkeep.mono (fun t op hk t' ht' hne => absurd (hk t' ht') hne), fun _ n t' os hrun => ?_⟩
    exact run_keepsBuckets (hkeep.take n) hrun

theorem run_grows_removing : RunGrowsAtHighWater (new 1 uintHash uintEq : ChainedHashTable Nat Nat)
    [.remove 3, .remove 4] :=
  (run_grows_iff uintHash uintEq 1 (by decide) _).mpr (Or.inl (by simp [Op.IsInsert]))

/-- A table of 17 buckets has 53 after one insertion, and 97 after two. -/
theorem insert_grows_empty : ¬ RunGrowsAtHighWater (new 17 uintHash uintEq : ChainedHashTable Nat Nat)
      [.insert 1 2, .insert 3 4] ∧
    ((runAll step (new 17 uintHash uintEq : ChainedHashTable Nat Nat) [.insert 1 2, .insert 3 4]).map
      (fun r => (r.1.size, r.1.buckets)) = .ok (2, 97)) := by
  have hrun : (runAll step (new 17 uintHash uintEq : ChainedHashTable Nat Nat) [.insert 1 2, .insert 3 4]).map
      (fun r => (r.1.size, r.1.buckets)) = .ok (2, 97) := by
    decide +kernel
  refine ⟨fun h => ?_, hrun⟩
  have hone : (step (new 17 uintHash uintEq : ChainedHashTable Nat Nat) (.insert 1 2)).map
      (fun r => r.1.buckets) = .ok 53 := by
    decide +kernel
  obtain ⟨⟨t', o⟩, hstep, hbuckets⟩ := map_eq_ok hone
  have hw : 3 * 17 ≤ 4 * 0 := h.1.1 t' hstep (by rw [hbuckets]; decide)
  omega

end ChainedHashTable
end Flowpath
end Freeflow
