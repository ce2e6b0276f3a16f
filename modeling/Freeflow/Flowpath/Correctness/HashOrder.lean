import Freeflow.Flowpath.Correctness.HashGrowth

/-!
# `Flowpath.Correctness.HashOrder` — the order of equal keys across a resize

A resize reads the chains from the head and inserts at the head, into a table that is itself resized on the way. So the
entries come out permuted, and those that a nested resize puts beyond the bucket count are lost. What is kept of the
order is what a permutation keeps: where all stored keys stay below the new bucket count modulo every prime that may be
used (`FitsBelow`), the entries are the same up to order (`resize_stored`), and so are the values of a key that has one
value only (`resize_keeps_order`). The entry that is read last always comes to the front (`resize_front`).
-/

namespace Freeflow
namespace Flowpath
namespace ChainedHashTable

variable {K V : Type}

/-- The entries of a table, read bucket by bucket and each chain from head to tail. -/
def stored (t : ChainedHashTable K V) : List (HashEntry K V) := (t.data.take t.buckets).flatten

/-- The values stored under keys equal to `k`, in that order. -/
def valuesOf (t : ChainedHashTable K V) (k : K) : List V :=
  (t.stored.filter (fun e => t.comp e.key k)).map HashEntry.value

/-- **KeepsOrder.** The resize returns, and leaves the values of every key in their order. -/
def KeepsOrder (t : ChainedHashTable K V) : Prop :=
  ∃ t', t.resize = .ok t' ∧ ∀ k, t'.valuesOf k = t.valuesOf k

/-- The residues of `k` modulo the primes above `b` are below `n`. -/
def FitsBelow (hash : K → Nat) (b n : Nat) (k : K) : Prop := ∀ p ∈ primes, b < p → hash k % p < n

/-- No key has two different values. -/
def OneValue (t : ChainedHashTable K V) : Prop :=
  ∀ k, ∀ e ∈ t.stored, ∀ e' ∈ t.stored, t.comp e.key k = true → t.comp e'.key k = true → e.value = e'.value

/-! ## Entries in the first buckets -/

/-- **Low.** The bucket count is a prime above `b`, the array has a chain for every index below it, and all entries are
    in the first `n` chains. -/
structure Low (b n : Nat) (t : ChainedHashTable K V) : Prop where
  prime : t.buckets ∈ primes
  above : b < t.buckets
  le : n ≤ t.buckets
  room : t.buckets ≤ t.data.length
  low : (t.data.drop n).flatten = []

/-- A table with its entries in the first buckets has no others. -/
theorem flatten_take_of_low {α : Type} {data : List (List α)} {n m : Nat} (hlow : (data.drop n).flatten = [])
    (hnm : n ≤ m) : (data.take m).flatten = data.flatten := by
  have hdrop : (data.drop m).flatten = [] := by
    rw [List.flatten_eq_nil_iff] at hlow ⊢
    exact fun c hc => hlow c ((List.drop_suffix_drop_left data hnm).subset hc)
  conv_rhs => rw [← List.take_append_drop m data, List.flatten_append, hdrop, List.append_nil]

theorem new_low {b p : Nat} (hash : K → Nat) (comp : K → K → Bool) (hp : p ∈ primes) (hb : b < p) {n : Nat}
    (hn : n ≤ p) : Low b n (new p hash comp : ChainedHashTable K V) where
  prime := hp
  above := hb
  le := hn
  room := by simp [new]
  low := by simp [new]

/-- What an insertion leaves behind. -/
structure LowInserted (b n : Nat) (t : ChainedHashTable K V) (k : K) (v : V) (t' : ChainedHashTable K V) : Prop where
  low : Low b n t'
  contents : t'.data.flatten.Perm (⟨k, v⟩ :: t.data.flatten)
  hash : t'.hash = t.hash
  le : t.buckets ≤ t'.buckets

/-- An entry whose residue fits goes to one of the first chains. -/
theorem Low.prepend_inserted {b n : Nat} {t : ChainedHashTable K V} (L : Low b n t) {k : K} (v : V)
    (hk : FitsBelow t.hash b n k) : ∃ t' c, t.prepend k v = .ok (t', c) ∧ LowInserted b n t k v t' := by
  have S : Shaped t := ⟨Nat.lt_of_le_of_lt (Nat.zero_le b) L.above, L.room, prime_fits L.prime t.hash⟩
  obtain ⟨chain, hget, hprepend⟩ := S.prepend_eq k v
  have hplace : t.place k < n := by
    rw [place_prime L.prime]
    exact hk _ L.prime L.above
  refine ⟨_, _, hprepend, ⟨L.prime, L.above, L.le, ?_, ?_⟩, flatten_set_cons_perm hget _, rfl, Nat.le_refl _⟩
  · show t.buckets ≤ (t.data.set _ _).length
    rw [List.length_set]
    exact L.room
  · show ((t.data.set _ _).drop n).flatten = []
    rw [List.drop_set_of_lt hplace]
    exact L.low

/-- **Rehashing.** The entries of a list that fit go to the first chains of the new table, if each insertion puts its
    entry there. -/
theorem rehash_low {fuel b n : Nat} {hash : K → Nat}
    (hins : ∀ (t : ChainedHashTable K V) (k : K) (v : V), Low b n t → (primesAbove t.buckets).length < fuel →
      FitsBelow t.hash b n k → (∀ e ∈ t.data.flatten, FitsBelow t.hash b n e.key) →
      ∃ t' c, insertFuel fuel t k v = .ok (t', c) ∧ LowInserted b n t k v t') :
    ∀ (es : List (HashEntry K V)) (t : ChainedHashTable K V), Low b n t → t.hash = hash →
      (primesAbove t.buckets).length < fuel → (∀ e ∈ es, FitsBelow hash b n e.key) →
      (∀ e ∈ t.data.flatten, FitsBelow hash b n e.key) →
      ∃ t', es.foldlM (reinsert (insertFuel fuel)) t = .ok t' ∧ Low b n t' ∧
        t'.data.flatten.Perm (es ++ t.data.flatten) ∧ t.buckets ≤ t'.buckets := by
  intro es
  induction es with
  | nil =>
      intro t L _ _ _ _
      exact ⟨t, rfl, L, List.Perm.refl _, Nat.le_refl _⟩
  | cons e es ih =>
      intro t L hhash hfuel hes hold
      obtain ⟨t₁, c, h₁, I⟩ := hins t e.key e.value L hfuel (hhash ▸ hes e (by simp)) (hhash ▸ hold)
      have hfuel₁ : (primesAbove t₁.buckets).length < fuel := Nat.lt_of_le_of_lt (primesAbove_length_mono I.le) hfuel
      have hold₁ : ∀ x ∈ t₁.data.flatten, FitsBelow hash b n x.key := fun x hx => by
        rcases List.mem_cons.mp (I.contents.mem_iff.mp hx) with rfl | hx
        · exact hes e (by simp)
        · exact hold x hx
      obtain ⟨t', h', L', hperm, hle⟩ := ih t₁ I.low (I.hash.trans hhash) hfuel₁
        (fun x hx => hes x (List.mem_cons_of_mem e hx)) hold₁
      refine ⟨t', ?_, L', ?_, Nat.le_trans I.le hle⟩
      · rw [List.foldlM_cons, reinsert, h₁]
        exact h'
      · exact hperm.trans ((I.contents.append_left es).trans List.perm_middle)

/-- **Resizing keeps the entries**, in the first buckets, if the insertions do. -/
theorem resizeWith_low {fuel b n : Nat} {t : ChainedHashTable K V}
    (hins : ∀ (t : ChainedHashTable K V) (k : K) (v : V), Low b n t → (primesAbove t.buckets).length < fuel →
      FitsBelow t.hash b n k → (∀ e ∈ t.data.flatten, FitsBelow t.hash b n e.key) →
      ∃ t' c, insertFuel fuel t k v = .ok (t', c) ∧ LowInserted b n t k v t')
    (hroom : t.buckets ≤ t.data.length) (hz : nextPrime t.buckets ≠ 0) (hb : b ≤ t.buckets)
    (hn : n ≤ nextPrime t.buckets) (hfuel : (primesAbove t.buckets).length < fuel + 1)
    (hes : ∀ e ∈ t.stored, FitsBelow t.hash b n e.key) :
    ∃ t', t.resizeWith (insertFuel fuel) = .ok t' ∧ Low b n t' ∧ t'.data.flatten.Perm t.stored ∧
      t'.hash = t.hash ∧ t'.comp = t.comp ∧ t'.buckets = nextPrime t.buckets := by
  obtain ⟨hp, hlt⟩ := nextPrime_mem hz
  have hless := primesAbove_length_lt hp hlt
  obtain ⟨t₂, h₂, L₂, hperm, hle⟩ := rehash_low hins t.stored (new (nextPrime t.buckets) t.hash t.comp)
    (new_low t.hash t.comp hp (Nat.lt_of_le_of_lt hb hlt) hn) rfl
    (Nat.lt_of_lt_of_le hless (Nat.le_of_lt_succ hfuel)) hes (by rw [flatten_new]; exact List.forall_mem_nil _)
  rw [flatten_new, List.append_nil] at hperm
  have hle' : nextPrime t.buckets ≤ t₂.buckets := hle
  exact ⟨_, resizeWith_eq hz ((rehash_eq_foldlM hroom _ _).trans h₂),
    ⟨hp, Nat.lt_of_le_of_lt hb hlt, hn, Nat.le_trans hle' L₂.room, L₂.low⟩, hperm, rfl, rfl, rfl⟩

/-- **An insertion keeps the entries**, by induction on the fuel, which counts the primes left. -/
theorem insertFuel_low {b n : Nat} : ∀ (fuel : Nat) (t : ChainedHashTable K V) (k : K) (v : V), Low b n t →
    (primesAbove t.buckets).length < fuel → FitsBelow t.hash b n k →
    (∀ e ∈ t.data.flatten, FitsBelow t.hash b n e.key) →
    ∃ t' c, insertFuel fuel t k v = .ok (t', c) ∧ LowInserted b n t k v t' := by
  intro fuel
  induction fuel with
  | zero => intro t k v _ h; exact absurd h (Nat.not_lt_zero _)
  | succ fuel ih =>
      intro t k v L hfuel hk hold
      have hstored : t.stored = t.data.flatten := flatten_take_of_low L.low L.le
      rw [insertFuel]
      by_cases hload : t.loadAtLeastThreeQuarters = true
      · rw [if_pos hload]
        by_cases hz : nextPrime t.buckets = 0
        · obtain ⟨t', c, h', I⟩ := L.prepend_inserted v hk
          exact ⟨t', c, by rw [resizeWith_last hz]; exact h', I⟩
        -- the tables that the resize fills have a prime less to go, so the hypothesis covers their insertions
        · obtain ⟨t₁, h₁, L₁, hperm, hhash, -, hbuckets⟩ := resizeWith_low ih L.room hz (Nat.le_of_lt L.above)
            (Nat.le_trans L.le (Nat.le_of_lt (nextPrime_mem hz).2)) hfuel (by rw [hstored]; exact hold)
          obtain ⟨t', c, h', I⟩ := L₁.prepend_inserted v (hhash ▸ hk)
          refine ⟨t', c, by rw [h₁]; exact h', I.low, ?_, I.hash.trans hhash, ?_⟩
          · exact I.contents.trans ((hperm.trans (List.Perm.of_eq hstored)).cons _)
          · exact Nat.le_trans (hbuckets ▸ Nat.le_of_lt (nextPrime_mem hz).2) I.le
      · rw [if_neg hload]
        exact L.prepend_inserted v hk

/-! ## One resize -/

/-- **A resize keeps the entries** up to order, when the residues of the stored keys fit. -/
theorem resize_stored {t : ChainedHashTable K V} (hroom : t.buckets ≤ t.data.length)
    (hes : ∀ e ∈ t.stored, FitsBelow t.hash t.buckets (nextPrime t.buckets) e.key) :
    ∃ t', t.resize = .ok t' ∧ t'.comp = t.comp ∧ t'.stored.Perm t.stored := by
  by_cases hz : nextPrime t.buckets = 0
  · exact ⟨t, resizeWith_last hz, rfl, List.Perm.refl _⟩
  · obtain ⟨t', h', L', hperm, -, hcomp, hbuckets⟩ := resizeWith_low (b := t.buckets) (insertFuel_low primes.length)
      hroom hz (Nat.le_refl _) (Nat.le_refl _) (Nat.lt_succ_of_le (primesAbove_length_le _)) hes
    refine ⟨t', h', hcomp, ?_⟩
    rw [stored, flatten_take_of_low L'.low L'.le]
    exact hperm

/-- Lists with the same elements, all equal, are the same. -/
theorem perm_eq_of_forall_eq {α : Type} {xs ys : List α} (h : xs.Perm ys) (heq : ∀ x ∈ ys, ∀ y ∈ ys, x = y) :
    xs = ys := by
  cases ys with
  | nil => exact h.eq_nil
  | cons y ys =>
      have hrep : y :: ys = List.replicate (y :: ys).length y :=
        List.eq_replicate_iff.mpr ⟨rfl, fun x hx => heq x hx y (by simp)⟩
      rw [hrep] at h ⊢
      exact List.perm_replicate.mp h

/-- **A resize that keeps the order.** No prime is left; or the residues of the stored keys modulo the primes above the
    bucket count are all below the next one, and no key has two different values. -/
theorem resize_keeps_order (t : ChainedHashTable K V) (hroom : t.buckets ≤ t.data.length)
    (h : lastPrime ≤ t.buckets ∨
      ((∀ e ∈ t.stored, FitsBelow t.hash t.buckets (nextPrime t.buckets) e.key) ∧ t.OneValue)) :
    KeepsOrder t := by
  rcases h with h | ⟨hfits, hone⟩
  · have hz := (nextPrime_eq_zero_iff t.buckets).mpr h
    exact ⟨t, resizeWith_last hz, fun k => rfl⟩
  · obtain ⟨t', h', hcomp, hperm⟩ := resize_stored hroom hfits
    refine ⟨t', h', fun k => ?_⟩
    unfold valuesOf
    rw [hcomp]
    -- the values of one key are all the same, so a permutation of them is the same list
    apply perm_eq_of_forall_eq ((hperm.filter _).map _)
    intro v hv v' hv'
    obtain ⟨e, he, rfl⟩ := List.mem_map.mp hv
    obtain ⟨e', he', rfl⟩ := List.mem_map.mp hv'
    rw [List.mem_filter] at he he'
    exact hone k e he.1 e' he'.1 he.2 he'.2

/-- No key of the three has two values: the resize keeps the order, and the ids stay in the first 53 buckets. -/
theorem resize_keeps_order_three :
    KeepsOrder (⟨3, 2, uintHash, uintEq, [[⟨2, 7⟩, ⟨4, 8⟩], [⟨3, 9⟩]]⟩ : ChainedHashTable Nat Nat) := by
  refine resize_keeps_order _ (by decide) (Or.inr ⟨?_, ?_⟩)
  · have hall : ∀ e ∈ ([⟨2, 7⟩, ⟨4, 8⟩, ⟨3, 9⟩] : List (HashEntry Nat Nat)), ∀ p ∈ primes, e.key % p < 53 := by
      decide
    exact fun e he p hp _ => hall e he p hp
  · have hall : ∀ e ∈ ([⟨2, 7⟩, ⟨4, 8⟩, ⟨3, 9⟩] : List (HashEntry Nat Nat)), ∀ e' ∈
        ([⟨2, 7⟩, ⟨4, 8⟩, ⟨3, 9⟩] : List (HashEntry Nat Nat)), e.key = e'.key → e.value = e'.value := by
      decide
    intro k e he e' he' hk hk'
    exact hall e he e' he' ((beq_iff_eq.mp hk).trans (beq_iff_eq.mp hk').symm)

/-- A resize that brings a shadowed value to the front: 1 was stored under the id 5 after 2. -/
theorem resize_reverses : ∃ t : ChainedHashTable Nat Nat,
    t.data.length = t.buckets ∧ Located (fun e => t.hash e.key % t.buckets) t.data ∧
    t.valuesOf 5 = [1, 2] ∧ (∃ t', t.resize = .ok t' ∧ t'.valuesOf 5 = [2, 1]) ∧ ¬ KeepsOrder t := by
  have hresize : (resize (⟨2, 17, uintHash, uintEq, (List.replicate 17 []).set 5 [⟨5, 1⟩, ⟨5, 2⟩]⟩ :
      ChainedHashTable Nat Nat)).map (fun t' => t'.valuesOf 5) = .ok [2, 1] := by
    decide +kernel
  obtain ⟨t', h', hvalues⟩ := map_eq_ok hresize
  refine ⟨_, rfl, (located_replicate _ 17).set ?_, rfl, ⟨t', h', hvalues⟩, ?_⟩
  · intro e he
    rcases List.mem_cons.mp he with rfl | he
    · rfl
    · rw [List.mem_singleton.mp he]
      rfl
  · rintro ⟨t₁, h₁, hkeep⟩
    rw [h'] at h₁
    cases h₁
    have h5 := hkeep 5
    rw [hvalues] at h5
    exact absurd h5 (by decide)

/-! ## The entry read last -/

/-- **The entry that is read last comes to the front**, when the residues of the stored keys do not depend on the
    prime: it is the first one found under its key after the resize, whatever was in front of it before. -/
theorem resize_front {t : ChainedHashTable K V} (P : Placed t)
    (hcong : ∀ a b, t.comp a b = true → t.hash a = t.hash b)
    (hagree : ∀ e ∈ t.data.flatten, Agrees t.hash t.buckets e.key) (hz : nextPrime t.buckets ≠ 0)
    {es : List (HashEntry K V)} {e : HashEntry K V} (hlast : t.stored = es ++ [e])
    (hself : t.comp e.key e.key = true) :
    ∃ t', t.resize = .ok t' ∧ (t'.valuesOf e.key).head? = some e.value := by
  obtain ⟨hp, hlt⟩ := nextPrime_mem hz
  have hall : t.data.flatten = es ++ [e] := by
    rw [← hlast, stored, P.located.flatten_take (fun e _ => P.place_lt e.key)]
  have hless : (primesAbove (nextPrime t.buckets)).length < primes.length :=
    Nat.lt_of_lt_of_le (primesAbove_length_lt hp hlt) (primesAbove_length_le t.buckets)
  have hes : ∀ x ∈ es, Agrees t.hash t.buckets x.key := fun x hx => hagree x (by rw [hall]; simp [hx])
  -- all entries but the last, and then the last
  obtain ⟨t₁, h₁, P₁, hperm, hhash₁, hp₁, hle₁⟩ := rehash_placed (b := t.buckets)
    (fun t k v P hf ha => insertFuel_placed primes.length t k v P hf (fun _ => ha)) es
    (new (nextPrime t.buckets) t.hash t.comp) (new_placed (by omega) (prime_fits hp t.hash)) rfl hp hlt hless hes
    (by rw [flatten_new]; exact List.forall_mem_nil _)
  rw [flatten_new, List.append_nil] at hperm
  have hlt₁ : t.buckets < t₁.buckets := Nat.lt_of_lt_of_le hlt hle₁
  have hfuel₁ : (primesAbove t₁.buckets).length < primes.length :=
    Nat.lt_of_le_of_lt (primesAbove_length_mono hle₁) hless
  have hagree₁ : ∀ x ∈ t₁.data.flatten, Agrees t₁.hash t₁.buckets x.key := fun x hx => by
    rw [hhash₁]
    exact (hes x (hperm.mem_iff.mp hx)).mono (Nat.le_of_lt hlt₁)
  obtain ⟨t₂, c, h₂, I⟩ := insertFuel_placed primes.length t₁ e.key e.value P₁ hfuel₁ (fun _ => hagree₁)
  obtain ⟨t₂', c', h₂', F⟩ := insertFuel_shaped primes.length t₁ e.key e.value P₁.shaped hfuel₁
  rw [h₂] at h₂'
  cases h₂'
  have hp₂ : t₂.buckets ∈ primes := by
    rcases I.grown with h | h
    · exact h ▸ hp₁
    · exact h.1
  have hle₂ : nextPrime t.buckets ≤ t₂.buckets := Nat.le_trans hle₁ F.le
  have hhash₂ : t₂.hash = t.hash := I.hash.trans hhash₁
  -- in the new array every entry is in the bucket that the count written back gives it
  have hplace : ∀ x ∈ t₂.data.flatten, t₂.place x.key = t.hash x.key % nextPrime t.buckets := by
    intro x hx
    have hmem : x ∈ t.data.flatten := by
      rw [hall]
      rcases List.mem_cons.mp (I.contents.mem_iff.mp hx) with rfl | hx
      · simp
      · simp [hperm.mem_iff.mp hx]
    rw [place_prime hp₂, hhash₂]
    exact hagree x hmem _ hp₂ _ hp (Nat.lt_of_lt_of_le hlt hle₂) hlt
  obtain ⟨rest, hhead⟩ := F.head
  have hloop : rehash (insertFuel primes.length) t (new (nextPrime t.buckets) t.hash t.comp) = .ok t₂ := by
    rw [P.rehash_eq, hall, List.foldlM_append, h₁, ok_bind, List.foldlM_cons, reinsert, h₂]
    rfl
  refine ⟨_, resizeWith_eq hz hloop, ?_⟩
  have hstored : (t₂.data.take (nextPrime t.buckets)).flatten = t₂.data.flatten :=
    I.placed.located.flatten_take (fun x hx => by
      rw [hplace x hx]
      exact Nat.mod_lt _ (Nat.lt_of_le_of_lt (Nat.zero_le _) hlt))
  have hsame : ∀ x ∈ t₂.data.flatten, t.comp x.key e.key = true → t₂.place x.key = t₂.place e.key := by
    intro x _ hx
    rw [place, place, hhash₂, hcong _ _ hx]
  show (((t₂.data.take (nextPrime t.buckets)).flatten.filter (fun x => t.comp x.key e.key)).map _).head? = _
  rw [hstored, I.placed.located.filter_flatten hhead hsame, List.filter_cons, if_pos hself]
  rfl

/-- So a table of such keys keeps its order only if the last value of that key is also its first. -/
theorem KeepsOrder.head?_valuesOf {t : ChainedHashTable K V} (hkeep : KeepsOrder t) (P : Placed t)
    (hcong : ∀ a b, t.comp a b = true → t.hash a = t.hash b)
    (hagree : ∀ e ∈ t.data.flatten, Agrees t.hash t.buckets e.key) (hz : nextPrime t.buckets ≠ 0)
    {es : List (HashEntry K V)} {e : HashEntry K V} (hlast : t.stored = es ++ [e])
    (hself : t.comp e.key e.key = true) : (t.valuesOf e.key).head? = some e.value := by
  obtain ⟨t', h', hfront⟩ := resize_front P hcong hagree hz hlast hself
  obtain ⟨t₁, h₁, hvalues⟩ := hkeep
  rw [h'] at h₁
  cases h₁
  rw [← hvalues, hfront]

end ChainedHashTable
end Flowpath
end Freeflow
