import Freeflow.Flowpath.Correctness.HashMap

/-!
# `Flowpath.Correctness.HashSafety` — the hash table never faults, and finds what it has just inserted

`HashMap` says when a lookup finds every stored key. What holds of every run, whatever keys a resize loses:
a shaped table has a chain for every index that `hash_index` can give, and an insertion keeps the shape through all
nested resizes (`insertFuel_shaped`). The entry inserted last goes to the bucket that the table's own count assigns, so the
next lookup finds it.
-/

namespace Freeflow
namespace Flowpath
namespace ChainedHashTable

variable {K V : Type}

/-- The table of numbers that `fp_dataplane_create` makes. -/
theorem newUint_placed : Placed (new 17 uintHash uintEq : ChainedHashTable Nat V) := by
  refine new_placed (by decide) (fun k => ?_)
  have hlt : k % 17 < 17 := Nat.mod_lt k (by decide)
  show 0 ≤ toInt (k % 17)
  rw [toInt_of_lt (by omega)]
  omega

/-- A shaped table without entries is placed. -/
theorem Shaped.placed_of_flatten_eq_nil {t : ChainedHashTable K V} (S : Shaped t) (h : t.data.flatten = []) :
    Placed t := by
  refine ⟨S.pos, S.room, S.fits, fun i c hc e he => ?_⟩
  have hmem := mem_flatten_of_getElem? hc he
  rw [h] at hmem
  cases hmem

/-- A lookup searches the bucket of the key. -/
theorem Shaped.find_eq {t : ChainedHashTable K V} (S : Shaped t) (k : K) :
    ∃ chain, t.data[t.place k]? = some chain ∧ t.find k = .ok (chain.dropWhile (fun e => !t.comp e.key k)) := by
  obtain ⟨chain, hget, hbucket⟩ := S.bucket_eq k
  exact ⟨chain, hget, by rw [find, hbucket]; rfl⟩

/-- In a shaped table without entries every bucket is empty. -/
theorem Shaped.bucket_of_flatten_eq_nil {t : ChainedHashTable K V} (S : Shaped t) (h : t.data.flatten = []) (k : K) :
    ∃ n, t.bucket k = .ok (n, []) := by
  obtain ⟨chain, hget, hbucket⟩ := S.bucket_eq k
  have hchain : chain = [] := by
    rw [List.eq_nil_iff_forall_not_mem]
    intro e he
    have hmem := mem_flatten_of_getElem? hget he
    rw [h] at hmem
    cases hmem
  rw [hchain] at hbucket
  exact ⟨_, hbucket⟩

/-- What an insertion leaves behind: a shaped table with the same functions, whose bucket for `k` begins with the new
    entry. -/
structure Prepended (t : ChainedHashTable K V) (k : K) (v : V) (t' : ChainedHashTable K V) : Prop where
  shaped : Shaped t'
  hash : t'.hash = t.hash
  comp : t'.comp = t.comp
  head : ∃ rest, t'.data[t'.place k]? = some (⟨k, v⟩ :: rest)
  grown : t'.buckets = t.buckets ∨ (t'.buckets ∈ primes ∧ t.buckets < t'.buckets)

/-- The key inserted last is found. -/
theorem Prepended.find_eq {t t' : ChainedHashTable K V} {k : K} {v : V} (P : Prepended t k v t')
    (hrefl : t.comp k k = true) : ∃ rest, t'.find k = .ok (⟨k, v⟩ :: rest) := by
  obtain ⟨chain, hget, hfind⟩ := P.shaped.find_eq k
  obtain ⟨rest, hhead⟩ := P.head
  rw [hget] at hhead
  cases hhead
  refine ⟨rest, ?_⟩
  rw [hfind, P.comp, List.dropWhile_cons_of_neg (by simp [hrefl])]

theorem Shaped.prepend_prepended {t : ChainedHashTable K V} (S : Shaped t) (k : K) (v : V) :
    ∃ t' c, t.prepend k v = .ok (t', c) ∧ Prepended t k v t' := by
  obtain ⟨chain, hget, hprepend⟩ := S.prepend_eq k v
  have hlt : t.place k < t.data.length := Nat.lt_of_lt_of_le (S.place_lt k) S.room
  refine ⟨_, _, hprepend, ⟨S.pos, by simpa using S.room, S.fits⟩, rfl, rfl, ⟨chain, ?_⟩, Or.inl rfl⟩
  exact List.getElem?_set_self hlt

theorem Prepended.le {t t' : ChainedHashTable K V} {k : K} {v : V} (P : Prepended t k v t') :
    t.buckets ≤ t'.buckets := by
  rcases P.grown with h | h
  · exact Nat.le_of_eq h.symm
  · exact Nat.le_of_lt h.2

/-- **Resizing keeps the shape**, if the insertion into the new table does. The new table only grows, so its array has
    a chain for every index below the count that is written back. -/
theorem resizeWith_shaped {fuel : Nat} {t : ChainedHashTable K V} (S : Shaped t)
    (hins : ∀ (t : ChainedHashTable K V) (k : K) (v : V), Shaped t → (primesAbove t.buckets).length < fuel →
      ∃ t' c, insertFuel fuel t k v = .ok (t', c) ∧ Prepended t k v t')
    (hfuel : (primesAbove t.buckets).length < fuel + 1) :
    ∃ t', t.resizeWith (insertFuel fuel) = .ok t' ∧ Shaped t' ∧ t'.hash = t.hash ∧ t'.comp = t.comp ∧
      (t'.buckets = t.buckets ∨ (t'.buckets ∈ primes ∧ t.buckets < t'.buckets)) := by
  by_cases hz : nextPrime t.buckets = 0
  · exact ⟨t, resizeWith_last hz, S, rfl, rfl, Or.inl rfl⟩
  · obtain ⟨hp, hlt⟩ := nextPrime_mem hz
    have hless := primesAbove_length_lt hp hlt
    -- what each of the insertions keeps true of the new table
    have hloop : ∃ t₂, rehash (insertFuel fuel) t (new (nextPrime t.buckets) t.hash t.comp) = .ok t₂ ∧
        Shaped t₂ ∧ nextPrime t.buckets ≤ t₂.buckets := by
      refine foldlM_ok (fun t₂ : ChainedHashTable K V => Shaped t₂ ∧ nextPrime t.buckets ≤ t₂.buckets) _ _ ?_
        ⟨(new_placed (by omega) (prime_fits hp t.hash)).shaped, Nat.le_refl _⟩
      intro i hi t₂ h₂
      have hi' : i < t.data.length := Nat.lt_of_lt_of_le (List.mem_range.mp hi) S.room
      rw [load_natCast (List.getElem?_eq_getElem hi'), ok_bind]
      refine foldlM_ok (fun t₂ : ChainedHashTable K V => Shaped t₂ ∧ nextPrime t.buckets ≤ t₂.buckets) _ _ ?_ h₂
      rintro e - t₃ ⟨S₃, hle₃⟩
      obtain ⟨t', c, hins', P⟩ := hins t₃ e.key e.value S₃
        (by have := primesAbove_length_mono hle₃; omega)
      exact ⟨t', by rw [reinsert, hins']; rfl, P.shaped, Nat.le_trans hle₃ P.le⟩
    obtain ⟨t₂, h₂, S₂, hle⟩ := hloop
    exact ⟨_, resizeWith_eq hz h₂,
      ⟨Nat.lt_of_le_of_lt (Nat.zero_le _) hlt, Nat.le_trans hle S₂.room, prime_fits hp t.hash⟩, rfl, rfl,
      Or.inr ⟨hp, hlt⟩⟩

/-- **Insertion never faults**, by induction on the fuel, which counts the primes left. -/
theorem insertFuel_shaped : ∀ (fuel : Nat) (t : ChainedHashTable K V) (k : K) (v : V), Shaped t →
    (primesAbove t.buckets).length < fuel →
    ∃ t' c, insertFuel fuel t k v = .ok (t', c) ∧ Prepended t k v t' := by
  intro fuel
  induction fuel with
  | zero => intro t k v _ h; exact absurd h (Nat.not_lt_zero _)
  | succ fuel ih =>
      intro t k v S hfuel
      rw [insertFuel]
      by_cases hload : t.loadAtLeastThreeQuarters = true
      · obtain ⟨t₁, h₁, S₁, hhash, hcomp, hgrown⟩ := resizeWith_shaped S ih hfuel
        obtain ⟨t', c, h', P⟩ := S₁.prepend_prepended k v
        refine ⟨t', c, by rw [if_pos hload, h₁]; exact h', P.shaped, P.hash.trans hhash, P.comp.trans hcomp,
          P.head, ?_⟩
        rcases P.grown with h | h
        · rw [h]; exact hgrown
        · rcases hgrown with hg | hg
          · exact Or.inr (hg ▸ h)
          · exact Or.inr ⟨h.1, Nat.lt_trans hg.2 h.2⟩
      · rw [if_neg hload]
        exact S.prepend_prepended k v

theorem Shaped.insert_prepended {t : ChainedHashTable K V} (S : Shaped t) (k : K) (v : V) :
    ∃ t' c, t.insert k v = .ok (t', c) ∧ Prepended t k v t' :=
  insertFuel_shaped (primes.length + 1) t k v S (Nat.lt_succ_of_le (primesAbove_length_le t.buckets))

/-- What an insertion that returned left behind. -/
theorem Shaped.prepended_of_eq {t t' : ChainedHashTable K V} {k : K} {v : V} {c : List (HashEntry K V)} (S : Shaped t)
    (h : t.insert k v = .ok (t', c)) : Prepended t k v t' := by
  obtain ⟨t₁, c₁, h₁, P⟩ := S.insert_prepended k v
  exact of_exists_ok (P := fun r => Prepended t k v r.1) ⟨(t₁, c₁), h₁, P⟩ h

end ChainedHashTable
end Flowpath
end Freeflow
