import Mathlib.Data.List.TakeWhile
import Freeflow.Flowpath.Hash
import Freeflow.Lib.KeyMap

/-!
# `Flowpath.Correctness.HashMap` — when the chained hash table is a finite map

`resize` rehashes into a fresh table through `insert`. That table is empty, so its load is infinite, so the
first insertion resizes it at once; `resize` then writes back the bucket count the fresh table started
with, beside the array it ended with. A stored key whose residues modulo the two counts differ is lost
(`insert_loses_key`).

The positive half finds the invariant that survives this: `Placed` puts every entry in the bucket that
the *table's own* count assigns to its key. Rehashing keeps it exactly because, and as long as, the
residues of the stored keys do not depend on which prime is used (`Agrees`). `insertFuel_placed` carries
this through the mutual recursion by induction on the fuel, which counts the primes left.
-/

namespace Freeflow
namespace Flowpath

/-! ## The prime table -/

/-- The primes a table of `b` buckets may still grow to. -/
def primesAbove (b : Nat) : List Nat := primes.filter (fun p => b < p)

/-- A prime that was found is in the table and larger than the old bucket count. -/
theorem nextPrime_mem {b : Nat} (h : nextPrime b ≠ 0) : nextPrime b ∈ primes ∧ b < nextPrime b := by
  unfold nextPrime at h ⊢
  cases hf : primes.find? (fun p => decide (b < p)) with
  | none => simp [hf] at h
  | some p =>
      have hp := List.find?_some hf
      exact ⟨List.mem_of_find?_eq_some hf, by simpa using hp⟩

/-- Every prime of the table fits a 32-bit `int`. -/
theorem prime_lt {p : Nat} (hp : p ∈ primes) : p < 2147483648 := by
  have h : ∀ p ∈ primes, p < 2147483648 := by decide
  exact h p hp

/-- The primes above a larger count are among those above a smaller one. -/
theorem primesAbove_eq_filter {b c : Nat} (hbc : b ≤ c) : primesAbove c = (primesAbove b).filter (fun p => c < p) := by
  unfold primesAbove
  rw [List.filter_filter]
  congr 1
  funext p
  by_cases hp : c < p
  · simp [hp, Nat.lt_of_le_of_lt hbc hp]
  · simp [hp]

/-- Growing uses up a prime. -/
theorem primesAbove_length_lt {b p : Nat} (hp : p ∈ primes) (hb : b < p) :
    (primesAbove p).length < (primesAbove b).length := by
  rw [primesAbove_eq_filter (Nat.le_of_lt hb), List.length_filter_lt_length_iff_exists]
  exact ⟨p, List.mem_filter.mpr ⟨hp, by simpa using hb⟩, by simp⟩

theorem primesAbove_length_mono {b c : Nat} (hbc : b ≤ c) : (primesAbove c).length ≤ (primesAbove b).length := by
  rw [primesAbove_eq_filter hbc]
  exact List.length_filter_le _ _

theorem primesAbove_length_le (b : Nat) : (primesAbove b).length ≤ primes.length :=
  List.length_filter_le _ _

/-- Below `2^31` the conversion to `int` changes nothing. -/
theorem toInt_of_lt {n : Nat} (h : n < 2147483648) : toInt n = n := by
  unfold toInt
  exact Int.bmod_eq_of_le (by omega) (by omega)

/-- The conversion to `int` never makes an index larger. -/
theorem toInt_toNat_le (n : Nat) : (toInt n).toNat ≤ n := by
  unfold toInt
  have hle : Int.bmod (n : Int) 4294967296 ≤ (n : Int) % ((4294967296 : Nat) : Int) := by
    unfold Int.bmod
    dsimp only
    split <;> omega
  omega

namespace ChainedHashTable

variable {K V : Type}

/-! ## What the operations do -/

/-- A new table has no entries. -/
theorem flatten_new (b : Nat) (hash : K → Nat) (comp : K → K → Bool) :
    (new b hash comp : ChainedHashTable K V).data.flatten = [] := by
  simp [new]

/-- The two loops of `resize` are one loop over the entries of the first buckets. -/
theorem rehash_eq_foldlM {t : ChainedHashTable K V} (hroom : t.buckets ≤ t.data.length)
    (ins : ChainedHashTable K V → K → V → Checked (ChainedHashTable K V × List (HashEntry K V)))
    (t₂ : ChainedHashTable K V) : rehash ins t t₂ = (t.data.take t.buckets).flatten.foldlM (reinsert ins) t₂ :=
  foldlM_range_flatten (fun i => load t.data i) _ t₂ t.buckets (fun _ _ _ hc => load_natCast hc) hroom

section Resize

variable {ins : ChainedHashTable K V → K → V → Checked (ChainedHashTable K V × List (HashEntry K V))}
  {t t' : ChainedHashTable K V}

/-- With no prime left a resize leaves the table as it is. -/
theorem resizeWith_last (hz : nextPrime t.buckets = 0) : t.resizeWith ins = .ok t := by
  rw [resizeWith, if_pos hz]
  rfl

/-- A resize fills a new table and takes over its array, under the count that it was made with. -/
theorem resizeWith_eq (hz : nextPrime t.buckets ≠ 0) {t₂ : ChainedHashTable K V}
    (h₂ : rehash ins t (new (nextPrime t.buckets) t.hash t.comp) = .ok t₂) :
    t.resizeWith ins = .ok { t with buckets := nextPrime t.buckets, data := t₂.data } := by
  show (if nextPrime t.buckets = 0 then _ else _) = _
  rw [if_neg hz, h₂]
  rfl

/-- **What a resize does**: nothing, or it puts another array there, under the next count. -/
theorem resizeWith_cases (h : t.resizeWith ins = .ok t') :
    (nextPrime t.buckets = 0 ∧ t' = t) ∨
    (nextPrime t.buckets ≠ 0 ∧ ∃ data, t' = { t with buckets := nextPrime t.buckets, data }) := by
  by_cases hz : nextPrime t.buckets = 0
  · rw [resizeWith_last hz] at h
    cases h
    exact Or.inl ⟨hz, rfl⟩
  · change (if nextPrime t.buckets = 0 then _ else _) = _ at h
    rw [if_neg hz] at h
    obtain ⟨t₂, -, h⟩ := bind_eq_ok h
    cases h
    exact Or.inr ⟨hz, t₂.data, rfl⟩

/-- What the new entry of an insertion changes: the size and the array. -/
theorem prepend_cases {k : K} {v : V} {c : List (HashEntry K V)} (h : t.prepend k v = .ok (t', c)) :
    ∃ data, t' = { t with size := t.size + 1, data } := by
  obtain ⟨⟨n, chain⟩, -, h⟩ := bind_eq_ok h
  obtain ⟨data, -, h⟩ := bind_eq_ok h
  cases h
  exact ⟨data, rfl⟩

/-- **What a removal does**: nothing, or it changes the size and the array. -/
theorem remove_cases {k : K} (h : t.remove k = .ok t') :
    t' = t ∨ ∃ data, t' = { t with size := decSize t.size, data } := by
  obtain ⟨⟨n, chain⟩, -, h⟩ := bind_eq_ok h
  cases hun : unlink t.comp k chain with
  | none =>
      simp only [hun] at h
      cases h
      exact Or.inl rfl
  | some rest =>
      simp only [hun] at h
      obtain ⟨data, -, h⟩ := bind_eq_ok h
      cases h
      exact Or.inr ⟨data, rfl⟩

end Resize

/-! ## The invariant -/

/-- The bucket of key `k`, when its index does not turn negative as an `int`. -/
def place (t : ChainedHashTable K V) (k : K) : Nat := (toInt (t.hash k % t.buckets)).toNat

/-- **Shaped.** There are buckets, the array has at least as many chains, and every index is a non-negative `int`. -/
structure Shaped (t : ChainedHashTable K V) : Prop where
  pos : 0 < t.buckets
  room : t.buckets ≤ t.data.length
  fits : ∀ k, 0 ≤ toInt (t.hash k % t.buckets)

theorem Shaped.place_lt {t : ChainedHashTable K V} (S : Shaped t) (k : K) : t.place k < t.buckets :=
  Nat.lt_of_le_of_lt (toInt_toNat_le _) (Nat.mod_lt _ S.pos)

/-- In a shaped table the bucket of `k` is read without a fault. -/
theorem Shaped.bucket_eq {t : ChainedHashTable K V} (S : Shaped t) (k : K) :
    ∃ chain, t.data[t.place k]? = some chain ∧ t.bucket k = .ok ((t.place k : Int), chain) := by
  have hlt : t.place k < t.data.length := Nat.lt_of_lt_of_le (S.place_lt k) S.room
  have hcast : toInt (t.hash k % t.buckets) = (t.place k : Int) := by
    have := S.fits k
    unfold place
    omega
  refine ⟨t.data[t.place k], List.getElem?_eq_getElem hlt, ?_⟩
  unfold bucket hashIndex
  rw [if_neg (by have := S.pos; omega), ok_bind]
  simp only [hcast, load_natCast (List.getElem?_eq_getElem hlt), ok_bind, pure_eq_ok]

/-- A shaped table takes a new entry at the front of its bucket. -/
theorem Shaped.prepend_eq {t : ChainedHashTable K V} (S : Shaped t) (k : K) (v : V) :
    ∃ chain, t.data[t.place k]? = some chain ∧ t.prepend k v =
      .ok ({ t with size := t.size + 1, data := t.data.set (t.place k) (⟨k, v⟩ :: chain) }, ⟨k, v⟩ :: chain) := by
  obtain ⟨chain, hget, hbucket⟩ := S.bucket_eq k
  refine ⟨chain, hget, ?_⟩
  rw [prepend, hbucket, ok_bind]
  show (store t.data (t.place k : Int) _ >>= _) = _
  rw [store_natCast _ (Nat.lt_of_lt_of_le (S.place_lt k) S.room)]
  rfl

/-- **Placed.** There are buckets, the array has at least as many chains, every key's index is a
    non-negative `int`, and every stored entry sits in the bucket of its key. -/
structure Placed (t : ChainedHashTable K V) : Prop where
  pos : 0 < t.buckets
  room : t.buckets ≤ t.data.length
  fits : ∀ k, 0 ≤ toInt (t.hash k % t.buckets)
  located : Located (fun e => t.place e.key) t.data

theorem Placed.shaped {t : ChainedHashTable K V} (P : Placed t) : Shaped t := ⟨P.pos, P.room, P.fits⟩

theorem Placed.place_lt {t : ChainedHashTable K V} (P : Placed t) (k : K) : t.place k < t.buckets :=
  P.shaped.place_lt k

/-- In a placed table the bucket of `k` is read without a fault. -/
theorem Placed.bucket_eq {t : ChainedHashTable K V} (P : Placed t) (k : K) :
    ∃ chain, t.data[t.place k]? = some chain ∧ t.bucket k = .ok ((t.place k : Int), chain) :=
  P.shaped.bucket_eq k

/-- An entry with the key `k` is in the bucket of `k`. -/
theorem Placed.mem_chain {t : ChainedHashTable K V} (P : Placed t)
    (hcong : ∀ a b, t.comp a b = true → t.hash a = t.hash b) {k : K} {chain : List (HashEntry K V)}
    (hget : t.data[t.place k]? = some chain) {e : HashEntry K V} (he : e ∈ t.data.flatten)
    (hk : t.comp e.key k = true) : e ∈ chain := by
  obtain ⟨c, hc, hec⟩ := P.located.mem_bucket he
  have hplace : t.place e.key = t.place k := by
    unfold place
    rw [hcong _ _ hk]
  rw [hplace, hget] at hc
  cases hc
  exact hec

/-- **A lookup finds an entry with the key if there is one.** -/
theorem Placed.find_cases {t : ChainedHashTable K V} (P : Placed t)
    (hcong : ∀ a b, t.comp a b = true → t.hash a = t.hash b) (k : K) :
    (t.find k = .ok [] ∧ ∀ e ∈ t.data.flatten, t.comp e.key k = false) ∨
    ∃ e rest, t.find k = .ok (e :: rest) ∧ e ∈ t.data.flatten ∧ t.comp e.key k = true := by
  obtain ⟨chain, hget, hbucket⟩ := P.bucket_eq k
  have hfind : t.find k = .ok (chain.dropWhile (fun e => !t.comp e.key k)) := by
    rw [find, hbucket]
    rfl
  cases hrest : chain.dropWhile (fun e => !t.comp e.key k) with
  | nil =>
      rw [hrest] at hfind
      refine Or.inl ⟨hfind, fun e he => ?_⟩
      by_contra hk
      rw [Bool.not_eq_false] at hk
      have hnot := List.dropWhile_eq_nil_iff.mp hrest e (P.mem_chain hcong hget he hk)
      simp [hk] at hnot
  | cons e rest =>
      rw [hrest] at hfind
      have hmem : e ∈ chain := (List.dropWhile_suffix _).subset (by rw [hrest]; simp)
      have hhead : (!t.comp e.key k) = false := by
        have h := List.head?_dropWhile_not (fun e : HashEntry K V => !t.comp e.key k) chain
        rw [hrest] at h
        simpa using h
      exact Or.inr ⟨e, rest, hfind, mem_flatten_of_getElem? hget hmem, by simpa using hhead⟩

/-- The residues of `k` do not depend on which of the primes above `b` is used. -/
def Agrees (hash : K → Nat) (b : Nat) (k : K) : Prop :=
  ∀ p ∈ primes, ∀ q ∈ primes, b < p → b < q → hash k % p = hash k % q

theorem Agrees.mono {hash : K → Nat} {b c : Nat} {k : K} (h : Agrees hash b k) (hbc : b ≤ c) :
    Agrees hash c k :=
  fun p hp q hq hcp hcq => h p hp q hq (Nat.lt_of_le_of_lt hbc hcp) (Nat.lt_of_le_of_lt hbc hcq)

/-- A hash below the least prime is its own residue modulo all of them. -/
theorem Agrees.of_lt {hash : K → Nat} {b : Nat} {k : K} (h : hash k < 53) : Agrees hash b k := by
  have hle : ∀ p ∈ primes, 53 ≤ p := by decide
  intro p hp q hq _ _
  rw [Nat.mod_eq_of_lt (Nat.lt_of_lt_of_le h (hle p hp)), Nat.mod_eq_of_lt (Nat.lt_of_lt_of_le h (hle q hq))]

theorem new_placed {b : Nat} {hash : K → Nat} {comp : K → K → Bool} (hb : 0 < b)
    (hfits : ∀ k, 0 ≤ toInt (hash k % b)) : Placed (new b hash comp : ChainedHashTable K V) :=
  ⟨hb, by simp [new], hfits, located_replicate _ _⟩

theorem prime_fits {p : Nat} (hp : p ∈ primes) (hash : K → Nat) (k : K) :
    0 ≤ toInt (hash k % p) := by
  have hpos : 0 < p := by
    have h : ∀ p ∈ primes, 0 < p := by decide
    exact h p hp
  have hlt : hash k % p < p := Nat.mod_lt _ hpos
  rw [toInt_of_lt (by have := prime_lt hp; omega)]
  omega

/-- With a prime as bucket count, the bucket of a key is its residue. -/
theorem place_prime {t : ChainedHashTable K V} (hp : t.buckets ∈ primes) (k : K) :
    t.place k = t.hash k % t.buckets := by
  have hpos : 0 < t.buckets := by
    have h : ∀ p ∈ primes, 0 < p := by decide
    exact h _ hp
  have hlt : t.hash k % t.buckets < t.buckets := Nat.mod_lt _ hpos
  unfold place
  rw [toInt_of_lt (by have := prime_lt hp; omega)]
  rfl

/-! ## Insertion and growth -/

/-- What an insertion of `k` leaves behind, as far as the invariant is concerned. -/
structure Inserted (t : ChainedHashTable K V) (k : K) (v : V) (t' : ChainedHashTable K V) : Prop where
  placed : Placed t'
  contents : t'.data.flatten.Perm (⟨k, v⟩ :: t.data.flatten)
  size : t'.size = t.size + 1
  hash : t'.hash = t.hash
  comp : t'.comp = t.comp
  grown : t'.buckets = t.buckets ∨ (t'.buckets ∈ primes ∧ t.buckets < t'.buckets)

/-- What a resize leaves behind. -/
structure Resized (t t' : ChainedHashTable K V) : Prop where
  placed : Placed t'
  contents : t'.data.flatten.Perm t.data.flatten
  size : t'.size = t.size
  hash : t'.hash = t.hash
  comp : t'.comp = t.comp
  grown : t'.buckets = t.buckets ∨ (t'.buckets ∈ primes ∧ t.buckets < t'.buckets)

/-- The insertion into a bucket, once the table has its final size. -/
theorem Placed.prepend_inserted {t : ChainedHashTable K V} (P : Placed t) (k : K) (v : V) :
    ∃ t' c, t.prepend k v = .ok (t', c) ∧ Inserted t k v t' := by
  obtain ⟨chain, hget, hprepend⟩ := P.shaped.prepend_eq k v
  refine ⟨_, _, hprepend, ⟨P.pos, by simpa using P.room, P.fits, ?_⟩, flatten_set_cons_perm hget _, rfl, rfl, rfl,
    Or.inl rfl⟩
  apply P.located.set
  intro e he
  rcases List.mem_cons.mp he with rfl | he
  · rfl
  · exact P.located _ chain hget e he

/-- In a placed table these are all entries. -/
theorem Placed.rehash_eq {t : ChainedHashTable K V} (P : Placed t)
    (ins : ChainedHashTable K V → K → V → Checked (ChainedHashTable K V × List (HashEntry K V)))
    (t₂ : ChainedHashTable K V) :
    rehash ins t t₂ = t.data.flatten.foldlM (reinsert ins) t₂ := by
  rw [rehash_eq_foldlM P.room, P.located.flatten_take (fun e _ => P.place_lt e.key)]

/-- **Rehashing.** If the stored keys agree on the primes above `b`, and each insertion into a table of
    at least the next size keeps the invariant, then so does the whole loop. -/
theorem rehash_placed {fuel b : Nat} {hash : K → Nat}
    (hins : ∀ (t : ChainedHashTable K V) (k : K) (v : V), Placed t →
      (primesAbove t.buckets).length < fuel → (∀ e ∈ t.data.flatten, Agrees t.hash t.buckets e.key) →
      ∃ t' c, insertFuel fuel t k v = .ok (t', c) ∧ Inserted t k v t') :
    ∀ (es : List (HashEntry K V)) (t : ChainedHashTable K V), Placed t → t.hash = hash →
      t.buckets ∈ primes → b < t.buckets → (primesAbove t.buckets).length < fuel →
      (∀ e ∈ es, Agrees hash b e.key) → (∀ e ∈ t.data.flatten, Agrees hash b e.key) →
      ∃ t', es.foldlM (reinsert (insertFuel fuel)) t = .ok t' ∧ Placed t' ∧
        t'.data.flatten.Perm (es ++ t.data.flatten) ∧ t'.hash = hash ∧
        t'.buckets ∈ primes ∧ t.buckets ≤ t'.buckets := by
  intro es
  induction es with
  | nil =>
      intro t P hhash hp hb _ _ _
      exact ⟨t, rfl, P, List.Perm.refl _, hhash, hp, Nat.le_refl _⟩
  | cons e es ih =>
      intro t P hhash hp hb hfuel hes hold
      have hagree : ∀ x ∈ t.data.flatten, Agrees t.hash t.buckets x.key := fun x hx => by
        rw [hhash]; exact (hold x hx).mono (Nat.le_of_lt hb)
      obtain ⟨t₁, c, h₁, I⟩ := hins t e.key e.value P hfuel hagree
      have hp₁ : t₁.buckets ∈ primes := by
        rcases I.grown with h | h
        · exact h ▸ hp
        · exact h.1
      have hle : t.buckets ≤ t₁.buckets := by
        rcases I.grown with h | h
        · omega
        · exact Nat.le_of_lt h.2
      have hfuel₁ : (primesAbove t₁.buckets).length < fuel := by
        rcases I.grown with h | h
        · rw [h]; exact hfuel
        · exact Nat.lt_trans (primesAbove_length_lt h.1 h.2) hfuel
      have hold₁ : ∀ x ∈ t₁.data.flatten, Agrees hash b x.key := fun x hx => by
        rcases List.mem_cons.mp (I.contents.mem_iff.mp hx) with rfl | hx
        · exact hes e (by simp)
        · exact hold x hx
      obtain ⟨t', h', P', hperm, hhash', hp', hle'⟩ := ih t₁ I.placed (I.hash.trans hhash) hp₁
        (by omega) hfuel₁ (fun x hx => hes x (List.mem_cons_of_mem e hx)) hold₁
      refine ⟨t', ?_, P', ?_, hhash', hp', Nat.le_trans hle hle'⟩
      · rw [List.foldlM_cons, reinsert, h₁]
        exact h'
      · exact hperm.trans ((I.contents.append_left es).trans List.perm_middle)

/-- **Resizing keeps the invariant** when the stored keys agree on the primes above the bucket count: the
    count written back and the count the array was filled under then assign the same buckets. -/
theorem resizeWith_placed {fuel : Nat} {t : ChainedHashTable K V} (P : Placed t)
    (hins : ∀ (t : ChainedHashTable K V) (k : K) (v : V), Placed t →
      (primesAbove t.buckets).length < fuel → (∀ e ∈ t.data.flatten, Agrees t.hash t.buckets e.key) →
      ∃ t' c, insertFuel fuel t k v = .ok (t', c) ∧ Inserted t k v t')
    (hfuel : (primesAbove t.buckets).length < fuel + 1)
    (hagree : ∀ e ∈ t.data.flatten, Agrees t.hash t.buckets e.key) :
    ∃ t', t.resizeWith (insertFuel fuel) = .ok t' ∧ Resized t t' := by
  by_cases hz : nextPrime t.buckets = 0
  · exact ⟨t, resizeWith_last hz, P, List.Perm.refl _, rfl, rfl, rfl, Or.inl rfl⟩
  · obtain ⟨hp, hlt⟩ := nextPrime_mem hz
    obtain ⟨t₂, h₂, P₂, hperm, hhash, hp₂, hle⟩ := rehash_placed (b := t.buckets) hins t.data.flatten
      (new (nextPrime t.buckets) t.hash t.comp) (new_placed (by omega) (prime_fits hp t.hash)) rfl hp hlt
      (by have := primesAbove_length_lt hp hlt; exact Nat.lt_of_lt_of_le this (by omega)) hagree
      (by rw [flatten_new]; exact List.forall_mem_nil _)
    have hnew : (new (nextPrime t.buckets) t.hash t.comp : ChainedHashTable K V).buckets
        = nextPrime t.buckets := rfl
    rw [hnew] at hle
    rw [flatten_new, List.append_nil] at hperm
    refine ⟨_, resizeWith_eq hz ((P.rehash_eq _ _).trans h₂), ?_, hperm, rfl, rfl, rfl, Or.inr ⟨hp, hlt⟩⟩
    · refine ⟨by show 0 < nextPrime t.buckets; omega, Nat.le_trans hle P₂.room, prime_fits hp t.hash, ?_⟩
      -- both counts are primes above `t.buckets`, so they place the moved keys alike
      apply P₂.located.congr
      intro e he
      have hmem := hperm.mem_iff.mp he
      rw [place_prime (t := { t with buckets := nextPrime t.buckets, data := t₂.data }) hp,
        place_prime hp₂, hhash]
      exact hagree e hmem _ hp _ hp₂ hlt (Nat.lt_of_lt_of_le hlt hle)

/-- **Insertion keeps the invariant**, by induction on the fuel: an insertion into a table of `b`
    buckets nests only tables with more buckets, so `primesAbove b` bounds the depth. -/
theorem insertFuel_placed : ∀ (fuel : Nat) (t : ChainedHashTable K V) (k : K) (v : V), Placed t →
    (primesAbove t.buckets).length < fuel →
    (t.loadAtLeastThreeQuarters = true → ∀ e ∈ t.data.flatten, Agrees t.hash t.buckets e.key) →
    ∃ t' c, insertFuel fuel t k v = .ok (t', c) ∧ Inserted t k v t' := by
  intro fuel
  induction fuel with
  | zero => intro t k v _ h _; exact absurd h (Nat.not_lt_zero _)
  | succ fuel ih =>
      intro t k v P hfuel hagree
      rw [insertFuel]
      by_cases hload : t.loadAtLeastThreeQuarters = true
      · obtain ⟨t₁, h₁, Z⟩ := resizeWith_placed P
          (fun t k v P hf ha => ih t k v P hf (fun _ => ha)) hfuel (hagree hload)
        obtain ⟨t', c, h', I⟩ := Z.placed.prepend_inserted k v
        refine ⟨t', c, ?_, I.placed, I.contents.trans (Z.contents.cons _), ?_, I.hash.trans Z.hash,
          I.comp.trans Z.comp, ?_⟩
        · rw [if_pos hload, h₁]
          exact h'
        · rw [I.size, Z.size]
        · rcases I.grown with hg | hg
          · rw [hg]; exact Z.grown
          · rcases Z.grown with hz | hz
            · exact Or.inr (hz ▸ hg)
            · exact Or.inr ⟨hg.1, Nat.lt_trans hz.2 hg.2⟩
      · rw [if_neg hload]
        exact P.prepend_inserted k v

/-! ## The table as a map -/

/-- The key and the value of an entry. -/
def toPair (e : HashEntry K V) : K × V := (e.key, e.value)

variable {hash : K → Nat} {comp : K → K → Bool}

/-- The table `t`, with functions `hash` and `comp`, stands for the map `m`. -/
structure Stands (hash : K → Nat) (t : ChainedHashTable K V) (m : KeyMap K V comp) : Prop where
  placed : Placed t
  hash_eq : t.hash = hash
  comp_eq : t.comp = comp
  size : t.size = t.data.flatten.length
  contents : (t.data.flatten.map toPair).Perm m.entries

theorem Stands.size_eq_card {t : ChainedHashTable K V} {m : KeyMap K V comp} (S : Stands hash t m) :
    t.size = m.card := by
  rw [S.size, KeyMap.card, ← S.contents.length_eq, List.length_map]

theorem Stands.mem_entries {t : ChainedHashTable K V} {m : KeyMap K V comp} (S : Stands hash t m)
    {e : HashEntry K V} (he : e ∈ t.data.flatten) : toPair e ∈ m.entries :=
  S.contents.mem_iff.mp (List.mem_map_of_mem he)

theorem new_stands {b : Nat} (hb : 0 < b) (hfits : ∀ k, 0 ≤ toInt (hash k % b)) :
    Stands hash (new b hash comp : ChainedHashTable K V) (KeyMap.empty : KeyMap K V comp) := by
  refine ⟨new_placed hb hfits, rfl, rfl, ?_, ?_⟩
  · simp [new]
  · simp [new]

/-- A key that no stored entry has is not in the map. -/
theorem Stands.get?_eq_none_of {t : ChainedHashTable K V} {m : KeyMap K V comp} (S : Stands hash t m) {k : K}
    (hnone : ∀ e ∈ t.data.flatten, comp e.key k = false) : m.get? k = none := by
  rw [KeyMap.get?_eq_none]
  intro x hx
  obtain ⟨e, he, rfl⟩ := List.mem_map.mp (S.contents.mem_iff.mpr hx)
  exact hnone e he

section Map

variable (heq : Equivalence (fun a b => comp a b = true))
  (hcong : ∀ a b, comp a b = true → hash a = hash b)
include hcong

/-- What `comp` matches hashes alike, in the table too. -/
theorem Stands.hash_congr {t : ChainedHashTable K V} {m : KeyMap K V comp} (S : Stands hash t m) :
    ∀ a b, t.comp a b = true → t.hash a = t.hash b := by
  rw [S.hash_eq, S.comp_eq]
  exact hcong

/-- A key that no entry of its bucket has is not in the map. -/
theorem Stands.get?_eq_none {t : ChainedHashTable K V} {m : KeyMap K V comp} (S : Stands hash t m) {k : K}
    {chain : List (HashEntry K V)} (hget : t.data[t.place k]? = some chain)
    (hnone : ∀ e ∈ chain, comp e.key k = false) : m.get? k = none := by
  refine S.get?_eq_none_of (fun e he => ?_)
  by_contra hk
  rw [Bool.not_eq_false] at hk
  have hmem := S.placed.mem_chain (S.hash_congr hcong) hget he (by rw [S.comp_eq]; exact hk)
  rw [hnone e hmem] at hk
  cases hk

include heq

/-- **`find` is the lookup of the map.** -/
theorem Stands.find_eq {t : ChainedHashTable K V} {m : KeyMap K V comp} (S : Stands hash t m) (k : K) :
    ∃ chain, t.find k = .ok chain ∧ chain.head?.map HashEntry.value = m.get? k := by
  rcases S.placed.find_cases (S.hash_congr hcong) k with ⟨hfind, hnone⟩ | ⟨e, rest, hfind, he, hk⟩
  · rw [S.comp_eq] at hnone
    exact ⟨[], hfind, (S.get?_eq_none_of hnone).symm⟩
  · rw [S.comp_eq] at hk
    exact ⟨e :: rest, hfind, ((KeyMap.get?_eq_some heq).mpr ⟨toPair e, S.mem_entries he, hk, rfl⟩).symm⟩

omit heq hcong in
/-- A chain in which nothing matches is not relinked. -/
theorem unlink_eq_none {k : K} {chain : List (HashEntry K V)} (h : unlink comp k chain = none) :
    ∀ e ∈ chain, comp e.key k = false := by
  induction chain with
  | nil => simp
  | cons p next ih =>
      rw [unlink] at h
      cases hp : comp p.key k with
      | true => simp [hp] at h
      | false =>
          simp only [hp, Bool.false_eq_true, if_false, Option.map_eq_none_iff] at h
          intro e he
          rcases List.mem_cons.mp he with rfl | he
          · exact hp
          · exact ih h e he

omit heq hcong in
/-- A chain that is relinked loses one entry, and that one matched. -/
theorem unlink_eq_some {k : K} {chain rest : List (HashEntry K V)}
    (h : unlink comp k chain = some rest) : ∃ e, comp e.key k = true ∧ chain.Perm (e :: rest) := by
  induction chain generalizing rest with
  | nil => simp [unlink] at h
  | cons p next ih =>
      rw [unlink] at h
      cases hp : comp p.key k with
      | true =>
          simp only [hp, if_true, Option.some.injEq] at h
          exact ⟨p, hp, h ▸ List.Perm.refl _⟩
      | false =>
          simp only [hp, Bool.false_eq_true, if_false] at h
          obtain ⟨r, hr, rfl⟩ := Option.map_eq_some_iff.mp h
          obtain ⟨e, he, hperm⟩ := ih hr
          exact ⟨e, he, (hperm.cons p).trans (List.Perm.swap e p r)⟩

/-- **`remove` is the removal of the map.** -/
theorem Stands.remove_eq {t : ChainedHashTable K V} {m : KeyMap K V comp} (S : Stands hash t m) (k : K) :
    ∃ t', t.remove k = .ok t' ∧ Stands hash t' (m.erase k) := by
  obtain ⟨chain, hget, hbucket⟩ := S.placed.bucket_eq k
  have hlt : t.place k < t.data.length := Nat.lt_of_lt_of_le (S.placed.place_lt k) S.placed.room
  cases hun : unlink comp k chain with
  | none =>
      refine ⟨t, ?_, ?_⟩
      · rw [remove, hbucket, ok_bind]
        simp only [S.comp_eq, hun]
        rfl
      · have hnone := S.get?_eq_none hcong hget (unlink_eq_none hun)
        refine ⟨S.placed, S.hash_eq, S.comp_eq, S.size, ?_⟩
        rw [KeyMap.erase_of_get?_eq_none hnone]
        exact S.contents
  | some rest =>
      obtain ⟨e, hk, hchain⟩ := unlink_eq_some hun
      have hperm : t.data.flatten.Perm (e :: (t.data.set (t.place k) rest).flatten) := by
        have h₁ := flatten_set_perm hget rest
        have h₂ : ((t.data.set (t.place k) rest).flatten ++ chain).Perm
            ((e :: (t.data.set (t.place k) rest).flatten) ++ rest) :=
          (hchain.append_left _).trans List.perm_middle
        exact (List.perm_append_right_iff rest).mp (h₁.symm.trans h₂)
      refine ⟨{ t with size := decSize t.size, data := t.data.set (t.place k) rest }, ?_, ?_⟩
      · rw [remove, hbucket, ok_bind]
        simp only [S.comp_eq, hun]
        rw [store_natCast _ hlt]
        rfl
      · refine ⟨⟨S.placed.pos, by simpa using S.placed.room, S.placed.fits, ?_⟩, S.hash_eq, S.comp_eq,
          ?_, ?_⟩
        · apply S.placed.located.set
          intro x hx
          exact S.placed.located _ chain hget x (hchain.mem_iff.mpr (List.mem_cons_of_mem e hx))
        · have hlen := hperm.length_eq
          rw [List.length_cons, ← S.size] at hlen
          show decSize t.size = _
          rw [decSize, if_neg (by omega), hlen, Nat.add_sub_cancel]
        · have hpairs := (hperm.map toPair).symm.trans S.contents
          exact KeyMap.erase_perm heq hpairs hk

omit heq hcong in
/-- **`insert` is the insertion of the map**, for a key that is not there and a table that grows safely. -/
theorem Stands.insert_eq {t : ChainedHashTable K V} {m : KeyMap K V comp} (S : Stands hash t m) {k : K}
    {v : V} (hnew : m.get? k = none)
    (hgrow : t.loadAtLeastThreeQuarters = true → ∀ e ∈ t.data.flatten, Agrees t.hash t.buckets e.key) :
    ∃ t' c, t.insert k v = .ok (t', c) ∧ Stands hash t' (m.insert k v) := by
  obtain ⟨t', c, h, I⟩ := insertFuel_placed (primes.length + 1) t k v S.placed
    (Nat.lt_succ_of_le (primesAbove_length_le t.buckets)) hgrow
  refine ⟨t', c, h, I.placed, I.hash.trans S.hash_eq, I.comp.trans S.comp_eq, ?_, ?_⟩
  · rw [I.size, S.size, I.contents.length_eq, List.length_cons]
  · rw [KeyMap.entries_insert_of_get?_eq_none hnew]
    exact (I.contents.map toPair).trans (S.contents.cons _)

end Map

/-! ## Runs -/

/-- The operation on the map. -/
def mapStep (m : KeyMap K V comp) : Op K V → KeyMap K V comp × Unit
  | .insert k v => (m.insert k v, ())
  | .remove k => (m.erase k, ())

/-- The table answers every lookup like the map, and counts its keys. -/
def Represents (t : ChainedHashTable K V) (m : KeyMap K V comp) : Prop :=
  (∀ k, ∃ chain, t.find k = .ok chain ∧ chain.head?.map HashEntry.value = m.get? k) ∧ t.size = m.card

/-- A key is inserted only while it is absent. -/
def Op.Fresh (m : KeyMap K V comp) : Op K V → Prop
  | .insert k _ => m.get? k = none
  | .remove _ => True

/-- If the operation resizes the table, the residues of the stored keys do not depend on the prime. -/
def GrowsSafely (t : ChainedHashTable K V) : Op K V → Prop
  | .insert _ _ => t.loadAtLeastThreeQuarters = true →
      ∀ e ∈ t.data.flatten, Agrees t.hash t.buckets e.key
  | .remove _ => True

theorem step_stands (heq : Equivalence (fun a b => comp a b = true))
    (hcong : ∀ a b, comp a b = true → hash a = hash b) {t : ChainedHashTable K V} {m : KeyMap K V comp}
    (S : Stands hash t m) (op : Op K V) (hgrow : GrowsSafely t op) (hfresh : op.Fresh m) :
    ∃ t', step t op = .ok (t', (mapStep m op).2) ∧ Stands hash t' (mapStep m op).1 := by
  cases op with
  | insert k v =>
      obtain ⟨t', c, h, S'⟩ := S.insert_eq hfresh hgrow
      refine ⟨t', ?_, S'⟩
      show (t.insert k v >>= _) = _
      rw [h]
      rfl
  | remove k =>
      obtain ⟨t', h, S'⟩ := S.remove_eq heq hcong k
      refine ⟨t', ?_, S'⟩
      show (t.remove k >>= _) = _
      rw [h]
      rfl

/-- No operation changes the hash function. -/
theorem step_hash {t t' : ChainedHashTable K V} {op : Op K V} {o : Unit}
    (h : step t op = .ok (t', o)) : t'.hash = t.hash := by
  cases op with
  | insert k v =>
      obtain ⟨⟨t₁, c⟩, hins, h⟩ := bind_eq_ok h
      cases h
      change (if t.loadAtLeastThreeQuarters = true then _ else _) = _ at hins
      split at hins
      · obtain ⟨t₂, hres, hins⟩ := bind_eq_ok hins
        obtain ⟨data, rfl⟩ := prepend_cases hins
        rcases resizeWith_cases hres with ⟨-, rfl⟩ | ⟨-, data', rfl⟩ <;> rfl
      · obtain ⟨data, rfl⟩ := prepend_cases hins
        rfl
  | remove k =>
      obtain ⟨t₁, hrem, h⟩ := bind_eq_ok h
      cases h
      rcases remove_cases hrem with rfl | ⟨data, rfl⟩ <;> rfl

/-- With hashes below the least prime every run grows safely. -/
theorem growsSafely_of_lt (hash : K → Nat) (hsmall : ∀ k, hash k < 53) (ops : List (Op K V))
    (t : ChainedHashTable K V) (ht : t.hash = hash) : Guarded step GrowsSafely t ops := by
  refine Guarded.of_invariant (fun t => t.hash = hash)
    (fun t op t' o ht h => (step_hash h).trans ht) (fun t op ht => ?_) ops t ht
  cases op with
  | insert k v => exact fun _ e _ => Agrees.of_lt (ht ▸ hsmall e.key)
  | remove k => trivial

/-- The value last inserted under `k` and not removed since, from `v` on. -/
def lastInserted (comp : K → K → Bool) (k : K) (v : Option V) : List (Op K V) → Option V
  | [] => v
  | .insert k' v' :: ops => lastInserted comp k (if comp k' k then some v' else v) ops
  | .remove k' :: ops => lastInserted comp k (if comp k' k then none else v) ops

/-- The map after a run holds what was inserted last. -/
theorem get?_specAll (heq : Equivalence (fun a b => comp a b = true)) (k : K) :
    ∀ (ops : List (Op K V)) (m : KeyMap K V comp),
      (specAll mapStep m ops).1.get? k = lastInserted comp k (m.get? k) ops := by
  intro ops
  induction ops with
  | nil => intro m; rfl
  | cons op ops ih =>
      intro m
      show (specAll mapStep (mapStep m op).1 ops).1.get? k = _
      rw [ih]
      cases op with
      | insert k' v =>
          show lastInserted comp k ((m.insert k' v).get? k) ops = _
          rw [KeyMap.get?_insert heq]
          rfl
      | remove k' =>
          show lastInserted comp k ((m.erase k').get? k) ops = _
          rw [KeyMap.get?_erase heq]
          rfl

section Runs

variable (heq : Equivalence (fun a b => comp a b = true))
  (hcong : ∀ a b, comp a b = true → hash a = hash b) {b : Nat} (hb : 1 ≤ b)
  (hfits : ∀ k, 0 ≤ toInt (hash k % b)) (ops : List (Op K V))
  (hfresh : Guarded (fun m op => .ok (mapStep m op)) (fun (m : KeyMap K V comp) op => op.Fresh m)
    KeyMap.empty ops)
  (hgrow : Guarded step GrowsSafely (new b hash comp) ops)
include heq hcong hb hfits hfresh hgrow

/-- Along a run that grows the table safely the table stands for the map. -/
theorem run_stands : ∃ t outs, runAll step (new b hash comp) ops = .ok (t, outs) ∧
    Stands hash t (specAll mapStep (KeyMap.empty : KeyMap K V comp) ops).1 := by
  obtain ⟨t, h, S⟩ := runAll_refines (Stands hash) GrowsSafely (fun m op => op.Fresh m)
    (fun t m op S hg hf => step_stands heq hcong S op hg hf) ops _ _ (new_stands hb hfits) hgrow hfresh
  exact ⟨t, _, h, S⟩

/-- **A lookup after a run finds the value that was inserted last**, if the run grows the table safely. -/
theorem find_last_inserted (k : K) : ∃ t outs chain, runAll step (new b hash comp) ops = .ok (t, outs) ∧
    t.find k = .ok chain ∧ chain.head?.map HashEntry.value = lastInserted comp k none ops := by
  obtain ⟨t, outs, hrun, S⟩ := run_stands heq hcong hb hfits ops hfresh hgrow
  obtain ⟨chain, hfind, hvalue⟩ := S.find_eq heq hcong k
  refine ⟨t, outs, chain, hrun, hfind, ?_⟩
  rw [hvalue, get?_specAll heq]
  rfl

end Runs

/-- **The table is a finite map along every run that grows it safely.** The run starts from a new table of
    at least one bucket whose bucket indices are non-negative `int`s, and inserts absent keys only; `n` counts
    the steps taken so far. -/
theorem table_refines_map (heq : Equivalence (fun a b => comp a b = true))
    (hcong : ∀ a b, comp a b = true → hash a = hash b) {b : Nat} (hb : 1 ≤ b)
    (hfits : ∀ k, 0 ≤ toInt (hash k % b)) (ops : List (Op K V))
    (hfresh : Guarded (fun m op => .ok (mapStep m op)) (fun (m : KeyMap K V comp) op => op.Fresh m)
      KeyMap.empty ops)
    (hgrow : Guarded step GrowsSafely (new b hash comp) ops) (n : Nat) :
    ∃ t outs, runAll step (new b hash comp) (ops.take n) = .ok (t, outs) ∧
      Represents t (specAll mapStep (KeyMap.empty : KeyMap K V comp) (ops.take n)).1 := by
  obtain ⟨t, outs, hrun, S⟩ := run_stands heq hcong hb hfits (ops.take n) (hfresh.take n) (hgrow.take n)
  exact ⟨t, outs, hrun, S.find_eq heq hcong, S.size_eq_card⟩

theorem table_refines_map_three :
    ∃ t outs, runAll step (new 1 (fun k : Nat => k % 50) (fun a b => a == b))
        ([.insert 100 7, .insert 1 8, .remove 100].take 3) = .ok (t, outs) ∧
      Represents t (specAll mapStep (KeyMap.empty : KeyMap Nat Nat (fun a b => a == b))
        ([.insert 100 7, .insert 1 8, .remove 100].take 3)).1 := by
  refine table_refines_map ?_ ?_ (by decide) ?_ _ ?_ ?_ 3
  · exact ⟨fun a => by simp, fun h => by simpa using (by simpa using h : _ = _).symm,
      fun h h' => by simpa using (by simpa using h : _ = _).trans (by simpa using h' : _ = _)⟩
  · intro a b h
    rw [show a = b by simpa using h]
  · intro k
    rw [Nat.mod_one]
    decide
  · refine ⟨rfl, fun m _ h => ?_⟩
    cases h
    exact ⟨rfl, fun _ _ _ => ⟨trivial, fun _ _ _ => trivial⟩⟩
  · exact growsSafely_of_lt _ (fun k => Nat.lt_of_lt_of_le (Nat.mod_lt k (by decide)) (by decide)) _ _ rfl

/-- Growing a second time loses a key: the table of one bucket takes the keys 100 and 0, and then has 97
    buckets beside the array of 193 in which 100 was placed. -/
theorem insert_loses_key :
    Guarded (fun m op => .ok (mapStep m op))
      (fun (m : KeyMap Nat Nat (fun a b => a == b)) op => op.Fresh m) KeyMap.empty
      [.insert 100 7, .insert 0 8] ∧
    ∃ t outs, runAll step (new 1 (fun k : Nat => k) (fun a b => a == b))
        [.insert 100 7, .insert 0 8] = .ok (t, outs) ∧
      t.find 100 = .ok [] ∧
      ¬ Represents t (specAll mapStep (KeyMap.empty : KeyMap Nat Nat (fun a b => a == b))
        [.insert 100 7, .insert 0 8]).1 := by
  refine ⟨⟨rfl, fun m _ h => ?_⟩, ?_⟩
  · cases h
    exact ⟨rfl, fun _ _ _ => trivial⟩
  · have hlost : (runAll step (new 1 (fun k : Nat => k) (fun a b => a == b))
        [.insert 100 7, .insert 0 8] >>= fun r => r.1.find 100) = .ok ([] : List (HashEntry Nat Nat)) := by
      decide +kernel
    obtain ⟨⟨t, outs⟩, hrun, hfind⟩ := bind_eq_ok hlost
    refine ⟨t, outs, hrun, hfind, fun h => ?_⟩
    obtain ⟨chain, hc, hv⟩ := h.1 100
    rw [hfind] at hc
    cases hc
    exact absurd hv (by decide)

end ChainedHashTable
end Flowpath
end Freeflow
