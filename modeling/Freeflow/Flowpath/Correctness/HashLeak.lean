import Mathlib.Data.List.Flatten
import Freeflow.Flowpath.Correctness.HashGrowth
import Freeflow.Flowpath.Correctness.HashMemory

/-!
# `Flowpath.Correctness.HashLeak` — how much memory the hash table loses

A resize leaves the nodes of the table behind and inserts their entries into a temporary table, which loses nodes in its
turn: it is new, and takes the next prime with each insertion. Both of a table matter, the number of its entries and the number of
the primes that are left, so the loss is a function of these two (`lost`, `rebuilt`). A table grows with every insertion
until the primes are used up (`Young.load`). So the loss has an end, and 1677 nodes are the most that any run can lose.
-/

namespace Freeflow
namespace Flowpath

/-! ## The loss as a number -/

/-- The nodes that are lost while a new table, for which there are `d` larger primes, takes `s` entries. -/
def rebuilt : Nat → Nat → Nat
  | 0, _ => 0
  | s + 1, d => rebuilt s d + (if d - s = 0 then 0 else s + rebuilt s (d - s - 1))

/-- The nodes that an insertion loses, with `d` larger primes and `s` entries: these, and those of the temporary table. -/
def lost (d s : Nat) : Nat := if d = 0 then 0 else s + rebuilt s (d - 1)

theorem rebuilt_succ (s d : Nat) : rebuilt (s + 1) d = rebuilt s d + lost (d - s) s := rfl

/-- More entries, or more primes, do not lose less. -/
theorem rebuilt_mono {s s' : Nat} (hs : s ≤ s') : ∀ {d d' : Nat}, d ≤ d' → rebuilt s d ≤ rebuilt s' d' := by
  -- first the primes, by induction on the entries
  have hprimes : ∀ s d d', d ≤ d' → rebuilt s d ≤ rebuilt s d' := by
    intro s
    induction s with
    | zero => intro d d' _; exact Nat.le_refl _
    | succ s ih =>
        intro d d' hd
        rw [rebuilt, rebuilt]
        have h₁ := ih d d' hd
        have h₂ := ih (d - s - 1) (d' - s - 1) (by omega)
        split <;> split <;> omega
  intro d d' hd
  refine Nat.le_trans (hprimes s d d' hd) ?_
  induction hs with
  | refl => exact Nat.le_refl _
  | step _ ih =>
      rw [rebuilt]
      omega

theorem lost_mono {d s s' : Nat} (hs : s ≤ s') : lost d s ≤ lost d s' := by
  unfold lost
  split
  · exact Nat.le_refl _
  · have := rebuilt_mono hs (Nat.le_refl (d - 1))
    omega

/-- With the primes used up nothing more is lost. -/
theorem rebuilt_le (d : Nat) : ∀ s, rebuilt s d ≤ rebuilt d d := by
  intro s
  rcases Nat.le_total s d with h | h
  · exact rebuilt_mono h (Nat.le_refl d)
  · induction h with
    | refl => exact Nat.le_refl _
    | @step s h ih =>
        have hz : d - s = 0 := Nat.sub_eq_zero_of_le h
        rw [rebuilt, if_pos hz]
        exact ih

/-- The largest loss. -/
theorem rebuilt_primes : rebuilt primes.length primes.length = 1677 := by decide +kernel

/-! ## Primes -/

/-- The primes are in order, so the next one is the only one that is not above it any more. -/
theorem primesAbove_next {b : Nat} (hz : nextPrime b ≠ 0) :
    (primesAbove b).length = (primesAbove (nextPrime b)).length + 1 := by
  have hsorted : primes.Pairwise (fun p q => p < q) := by decide
  cases hf : primes.find? (fun p => decide (b < p)) with
  | none => simp [nextPrime, hf] at hz
  | some p =>
      have hnext : nextPrime b = p := by rw [nextPrime, hf, Option.getD_some]
      obtain ⟨hp, small, large, hsplit, hsmall⟩ := List.find?_eq_some_iff_append.mp hf
      rw [decide_eq_true_eq] at hp
      rw [hnext, primesAbove, primesAbove, hsplit]
      rw [hsplit, List.pairwise_append, List.pairwise_cons] at hsorted
      obtain ⟨-, ⟨hlarge, -⟩, hless⟩ := hsorted
      have hnil : ∀ c, b ≤ c → small.filter (fun q => decide (c < q)) = [] := by
        intro c hc
        rw [List.filter_eq_nil_iff]
        intro q hq
        have hq' := hsmall q hq
        simp only [decide_eq_true_eq, Bool.not_eq_true', decide_eq_false_iff_not] at hq' ⊢
        omega
      have hall : ∀ c, c ≤ p → large.filter (fun q => decide (c < q)) = large := by
        intro c hc
        rw [List.filter_eq_self]
        intro q hq
        have := hlarge q hq
        exact decide_eq_true (by omega)
      simp only [List.filter_append, List.filter_cons, hnil b (Nat.le_refl b), hnil p (Nat.le_of_lt hp), hall p (Nat.le_refl p),
        hall b (Nat.le_of_lt hp), decide_eq_true hp, Nat.lt_irrefl, decide_false, if_true, List.nil_append,
        Bool.false_eq_true, if_false, List.length_cons]

/-- There is a next prime exactly as long as there are primes left. -/
theorem primesAbove_eq_zero_iff (b : Nat) : (primesAbove b).length = 0 ↔ nextPrime b = 0 := by
  constructor
  · intro h
    by_contra hz
    have := primesAbove_next hz
    omega
  · intro hz
    have hle : ∀ p ∈ primes, p ≤ ChainedHashTable.lastPrime := by decide
    have hlast := (ChainedHashTable.nextPrime_eq_zero_iff b).mp hz
    rw [List.length_eq_zero_iff, primesAbove, List.filter_eq_nil_iff]
    intro p hp
    have := hle p hp
    simp only [decide_eq_true_eq]
    omega

/-- Below the first prime all of them are left. -/
theorem primesAbove_of_lt {b : Nat} (hb : b < 53) : (primesAbove b).length = primes.length := by
  have hle : ∀ p ∈ primes, 53 ≤ p := by decide
  rw [primesAbove, List.filter_eq_self.mpr]
  intro p hp
  have := hle p hp
  exact decide_eq_true (by omega)

namespace ChainedHashTable

variable {K V : Type} {t t' : ChainedHashTable K V}

/-! ## The growth of a table -/

/-- **Young.** As long as there are primes left, the table has taken one with every entry. -/
def Young (t : ChainedHashTable K V) : Prop := t.primesLeft ≠ 0 → t.size + t.primesLeft ≤ primes.length

/-- **Until the primes are used up a young table grows with every insertion**: it has many more buckets than entries, which
    is what the test looks for. -/
theorem Young.load (Y : Young t) (hpos : 1 ≤ t.buckets) (hz : nextPrime t.buckets ≠ 0) :
    t.loadAtLeastThreeQuarters = true := by
  have hleft : t.primesLeft ≠ 0 := fun h => hz ((primesAbove_eq_zero_iff t.buckets).mp h)
  have hsum := Y hleft
  have hlen : primes.length = 26 := rfl
  unfold loadAtLeastThreeQuarters
  split
  · exact decide_eq_true hpos
  · have hbuckets : 53 ≤ t.buckets := by
      by_contra hlt
      have := primesAbove_of_lt (b := t.buckets) (by omega)
      unfold primesLeft at hsum
      omega
    exact decide_eq_true (by omega)

/-- The bucket count after an insertion into a young table. -/
theorem Young.buckets_eq (Y : Young t) (hpos : 1 ≤ t.buckets) {fuel : Nat} {k : K} {v : V} {c : List (HashEntry K V)}
    (h : insertFuel (fuel + 1) t k v = .ok (t', c)) :
    t'.buckets = if nextPrime t.buckets = 0 then t.buckets else nextPrime t.buckets := by
  rw [insertFuel] at h
  by_cases hz : nextPrime t.buckets = 0
  · rw [if_pos hz]
    rw [resizeWith_last hz, ok_bind, ite_self] at h
    obtain ⟨data, rfl⟩ := prepend_cases h
    rfl
  · rw [if_neg hz]
    rw [if_pos (Y.load hpos hz)] at h
    obtain ⟨t₁, hres, h⟩ := bind_eq_ok h
    obtain ⟨data, rfl⟩ := prepend_cases h
    rcases resizeWith_cases hres with ⟨h0, -⟩ | ⟨-, data', rfl⟩
    · exact absurd h0 hz
    · rfl

/-- **Grown.** What is true of every table on the way: the indexes are in range, no more entries than the size, young. -/
structure Grown (t : ChainedHashTable K V) : Prop where
  sound : Sound t
  bounded : Bounded t
  young : Young t

/-- **An insertion takes a prime**, as long as there is one. -/
theorem Grown.insertFuel_ok (G : Grown t) {fuel : Nat} (hfuel : t.primesLeft < fuel) {k : K} {v : V}
    {c : List (HashEntry K V)} (h : insertFuel fuel t k v = .ok (t', c)) :
    Grown t' ∧ t'.size = t.size + 1 ∧ t'.primesLeft = t.primesLeft - 1 := by
  obtain ⟨r, es, hrun, -, hstored⟩ := insertTraced_logs fuel t k v G.sound hfuel []
  have hr := (insertTraced_forgets fuel t k v).ok hrun
  rw [h] at hr
  cases hr
  have hleft : t'.primesLeft = t.primesLeft - 1 := by
    cases fuel with
    | zero => cases h
    | succ fuel =>
        have hbuckets := G.young.buckets_eq G.sound.pos h
        unfold primesLeft
        by_cases hz : nextPrime t.buckets = 0
        · rw [if_pos hz] at hbuckets
          rw [hbuckets, (primesAbove_eq_zero_iff t.buckets).mpr hz]
        · rw [if_neg hz] at hbuckets
          rw [hbuckets, primesAbove_next hz, Nat.add_sub_cancel]
  refine ⟨⟨hstored.sound, hstored.bounded G.bounded, fun hne => ?_⟩, hstored.size, hleft⟩
  have hsum := G.young (by omega)
  rw [hstored.size, hleft]
  omega

/-- A call that leaves the buckets as they are, and makes the table no larger. -/
theorem Grown.call_ok (G : Grown t) {c : Call K V} (h : call t c = .ok t') (hsize : t'.size ≤ t.size)
    (hbuckets : t'.buckets = t.buckets) : Grown t' ∧ t'.primesLeft = t.primesLeft := by
  obtain ⟨r, es, hrun, -, S, hbounded⟩ := callTraced_logs G.sound G.bounded c []
  have hr := (callTraced_forgets t c).ok hrun
  rw [h] at hr
  cases hr
  have hleft : t'.primesLeft = t.primesLeft := by rw [primesLeft, hbuckets, primesLeft]
  refine ⟨⟨S, hbounded, fun hne => ?_⟩, hleft⟩
  rw [hleft] at hne ⊢
  exact Nat.le_trans (Nat.add_le_add_right hsize _) (G.young hne)

/-- An update changes the array only. -/
theorem update_cases {k : K} {v : V} (h : t.update k v = .ok t') : ∃ data, t' = { t with data } := by
  obtain ⟨⟨n, chain⟩, -, h⟩ := bind_eq_ok h
  cases chain with
  | nil =>
      cases h
      exact ⟨t.data, rfl⟩
  | cons e rest =>
      obtain ⟨data, -, h⟩ := bind_eq_ok h
      cases h
      exact ⟨data, rfl⟩

/-- A removal that does something finds an entry, so that the size is not zero. -/
theorem Grown.remove_size (G : Grown t) {k : K} (h : t.remove k = .ok t') :
    t'.buckets = t.buckets ∧ (t' = t ∨ t'.size + 1 = t.size) := by
  rcases remove_cases h with rfl | ⟨data, rfl⟩
  · exact ⟨rfl, Or.inl rfl⟩
  · refine ⟨rfl, ?_⟩
    by_cases hz : t.size = 0
    · -- a table of size zero has nothing to remove
      have hnil : t.data.flatten = [] := List.eq_nil_of_length_eq_zero (Nat.le_zero.mp (hz ▸ G.bounded))
      obtain ⟨n, hbucket⟩ := G.sound.shaped.bucket_of_flatten_eq_nil hnil k
      rw [remove, hbucket] at h
      exact Or.inl (Except.ok.inj h).symm
    · refine Or.inr ?_
      show decSize t.size + 1 = t.size
      rw [decSize, if_neg hz]
      omega

theorem new_grown {b : Nat} (hash : K → Nat) (comp : K → K → Bool) (hb : 1 ≤ b) (hsmall : b < 2147483648) :
    Grown (new b hash comp : ChainedHashTable K V) := by
  refine ⟨new_sound hash comp hb hsmall, new_bounded b hash comp, fun _ => ?_⟩
  show 0 + (primesAbove b).length ≤ primes.length
  rw [Nat.zero_add]
  exact primesAbove_length_le b

/-- **Intact.** No entry got lost, and none will: each is in the bucket of its key, and the keys go to the same bucket in every
    larger table. -/
structure Intact (t : ChainedHashTable K V) : Prop where
  placed : Placed t
  agree : ∀ e ∈ t.data.flatten, Agrees t.hash t.buckets e.key
  size : t.data.flatten.length = t.size

theorem Intact.insertFuel_ok (W : Intact t) {fuel : Nat} (hfuel : t.primesLeft < fuel) {k : K} {v : V}
    (hk : Agrees t.hash t.buckets k) {c : List (HashEntry K V)} (h : insertFuel fuel t k v = .ok (t', c)) :
    Intact t' ∧ t'.hash = t.hash ∧ t.buckets ≤ t'.buckets := by
  obtain ⟨t₁, c₁, h₁, I⟩ := insertFuel_placed fuel t k v W.placed hfuel (fun _ => W.agree)
  rw [h] at h₁
  cases h₁
  have hle : t.buckets ≤ t'.buckets := by
    rcases I.grown with h | h
    · exact Nat.le_of_eq h.symm
    · exact Nat.le_of_lt h.2
  refine ⟨⟨I.placed, fun e he => ?_, ?_⟩, I.hash, hle⟩
  · rw [I.hash]
    rcases List.mem_cons.mp (I.contents.mem_iff.mp he) with rfl | he
    · exact hk.mono hle
    · exact (W.agree e he).mono hle
  · rw [I.contents.length_eq, I.size, List.length_cons, W.size]

theorem new_intact {b : Nat} (hash : K → Nat) (comp : K → K → Bool) (hb : 1 ≤ b) (hsmall : b < 2147483648) :
    Intact (new b hash comp : ChainedHashTable K V) := by
  have S := (new_sound (V := V) hash comp hb hsmall).shaped
  refine ⟨new_placed hb S.fits, ?_, ?_⟩
  · rw [flatten_new]
    exact List.forall_mem_nil _
  · rw [flatten_new]
    rfl

end ChainedHashTable

namespace LinkedTable

open ChainedHashTable

variable {K V : Type} {t t' : LinkedTable K V} {nodes nodes' : Nodes K V}

/-! ## The memory of an insertion -/

/-- The new entry of an insertion is one more live node. -/
theorem prepend_live {k : K} {v : V} {p : Ptr} (h : t.prepend k v = .ok (t', p)) : t'.heap.live = t.heap.live + 1 := by
  obtain ⟨r, hhead, -⟩ := bind_eq_ok h
  obtain ⟨i, hi, H⟩ := home_of_headOf hhead
  obtain ⟨heap, heq, -, hlive⟩ := prepend_eq v H (List.getElem?_eq_getElem hi)
  rw [h] at heq
  cases heq
  exact hlive

theorem table_flatten (t : LinkedTable K V) (nodes : Nodes K V) :
    (t.table nodes).data.flatten = nodes.flatten.map Prod.snd := by
  rw [List.map_flatten]
  rfl

/-- In an intact table a resize goes through all nodes. -/
theorem moved (W : Intact (t.table nodes)) : (nodes.take t.buckets).flatten.length = t.size := by
  have htake := W.placed.located.flatten_take (fun e _ => W.placed.place_lt e.key)
  have hlength := congrArg List.length htake
  rw [W.size] at hlength
  rw [← show (t.table nodes).size = t.size from rfl, ← hlength]
  show _ = ((nodes.map entries).take t.buckets).flatten.length
  rw [← List.map_take]
  rw [List.length_flatten, List.length_flatten, List.map_map]
  congr 2
  funext xs
  exact (List.length_map _).symm

/-- **Costs.** An insertion loses no more nodes than `lost` says, and just as many if the table is intact. -/
def Costs (fuel : Nat) : Prop :=
  ∀ (t : LinkedTable K V) (nodes : Nodes K V) k v L c t' p, Chains t nodes → Grown (t.table nodes) →
    (t.table nodes).primesLeft < fuel → ChainedHashTable.insertFuel fuel (t.table nodes) k v = .ok (L, c) →
    insertFuel fuel t k v = .ok (t', p) →
    t'.heap.live ≤ t.heap.live + 1 + lost (t.table nodes).primesLeft t.size ∧
      (Intact (t.table nodes) → t'.heap.live = t.heap.live + 1 + lost (t.table nodes).primesLeft t.size)

/-- **Filling.** A temporary table that was made for `d` larger primes, when there were `m` nodes, and has taken `n` entries.
    `E` says of the old table that it is intact. -/
structure Filling (m d : Nat) (hash : K → Nat) (b : Nat) (E : Prop) (n : Nat) (t : LinkedTable K V)
    (nodes : Nodes K V) : Prop where
  grown : Grown (t.table nodes)
  size : t.size = n
  left : (t.table nodes).primesLeft = d - n
  few : t.heap.live ≤ m + n + rebuilt n d
  intact : E → Intact (t.table nodes) ∧ t.hash = hash ∧ b ≤ t.buckets ∧ t.heap.live = m + n + rebuilt n d

/-- **Filling goes on** with every insertion that costs what is said. -/
theorem Costs.simulates {fuel : Nat} (hcosts : Costs (K := K) (V := V) fuel) {m d : Nat} (hd : d < fuel) (hash : K → Nat)
    (b : Nat) (E : Prop) : Simulates (Filling m d hash b E) (fun k => E → Agrees hash b k)
      (insertFuel (V := V) fuel) (ChainedHashTable.insertFuel fuel) := by
  intro n t nodes k v L c C F hk h
  obtain ⟨t', nodes', a, q, hins, B, rfl, hnew, hc, -⟩ := insertFuel_table fuel n t nodes k v L c C trivial trivial h
  have hleft := F.left
  have hfuel : (t.table nodes).primesLeft < fuel := by omega
  obtain ⟨G, hsize, hleft'⟩ := F.grown.insertFuel_ok hfuel h
  obtain ⟨hle, heq⟩ := hcosts t nodes k v _ c t' _ C F.grown hfuel h hins
  have hsize' : t'.size = n + 1 := hsize.trans (congrArg Nat.succ F.size)
  rw [hleft, F.size] at hle heq
  have hsucc := rebuilt_succ n d
  have hfew := F.few
  refine ⟨t', nodes', a, q, hins, B, rfl, hnew, hc, ⟨G, hsize', by omega, by omega, fun hE => ?_⟩⟩
  obtain ⟨W, hhash, hb, hexact⟩ := F.intact hE
  have hagree : Agrees t.hash t.buckets k := by
    rw [hhash]
    exact (hk hE).mono hb
  obtain ⟨W', hhash', hb'⟩ := W.insertFuel_ok hfuel hagree h
  have heq' := heq W
  exact ⟨W', hhash'.trans hhash, Nat.le_trans hb hb', by omega⟩

/-- **What an insertion costs**, by induction on the fuel. -/
theorem insertFuel_costs : ∀ fuel : Nat, Costs (K := K) (V := V) fuel := by
  intro fuel
  induction fuel with
  | zero =>
      intro t nodes k v L c t' p _ _ _ h
      cases h
  | succ fuel ih =>
      intro t nodes k v L c t' p C G hfuel h hins
      by_cases hz : nextPrime t.buckets = 0
      · -- no prime is left, and nothing is lost
        have hleft : (t.table nodes).primesLeft = 0 := (primesAbove_eq_zero_iff t.buckets).mpr hz
        rw [insertFuel, resizeWith_last hz, ok_bind, ite_self] at hins
        rw [hleft, prepend_live hins]
        exact ⟨Nat.le_refl _, fun _ => rfl⟩
      · have hload : (t.table nodes).loadAtLeastThreeQuarters = true := G.young.load G.sound.pos hz
        rw [ChainedHashTable.insertFuel, if_pos hload] at h
        rw [insertFuel, if_pos (show t.loadAtLeastThreeQuarters = true from hload)] at hins
        obtain ⟨L₁, hres, -⟩ := bind_eq_ok h
        obtain ⟨t₁, hres₁, hprepend⟩ := bind_eq_ok hins
        have hnext := primesAbove_next hz
        obtain ⟨hmem, hlt⟩ := nextPrime_mem hz
        have hd : (primesAbove (nextPrime t.buckets)).length < fuel := by
          unfold primesLeft at hfuel
          have : (primesAbove t.buckets).length < fuel + 1 := hfuel
          omega
        have hnew := newIn_table t.heap (nextPrime t.buckets) t.hash t.comp
        have F₀ : Filling t.heap.live (primesAbove (nextPrime t.buckets)).length t.hash t.buckets
            (Intact (t.table nodes)) 0 (newIn t.heap (nextPrime t.buckets) t.hash t.comp)
            (List.replicate (nextPrime t.buckets) []) := by
          refine ⟨?_, rfl, rfl, Nat.le_refl _, fun _ => ⟨?_, rfl, Nat.le_of_lt hlt, rfl⟩⟩
          · rw [hnew]
            exact new_grown _ _ (by omega) (prime_lt hmem)
          · rw [hnew]
            exact new_intact _ _ (by omega) (prime_lt hmem)
        have hagree : ∀ x ∈ nodes.flatten, Intact (t.table nodes) → Agrees t.hash t.buckets x.2.key := by
          intro x hx W
          apply W.agree
          rw [table_flatten]
          exact List.mem_map_of_mem hx
        obtain ⟨t₂, nodes₂, hres₂, -, -, F⟩ := C.resizeWith_table (ih.simulates hd t.hash t.buckets _) hz hagree F₀ hres
        rw [hres₁] at hres₂
        cases hres₂
        have hlive := prepend_live hprepend
        have hfew := F.few
        dsimp only at hlive
        have hlost : ∀ s, lost (t.table nodes).primesLeft s = s + rebuilt s (primesAbove (nextPrime t.buckets)).length := by
          intro s
          rw [show (t.table nodes).primesLeft = _ from hnext, lost, if_neg (Nat.succ_ne_zero _), Nat.add_sub_cancel]
        have hmoved : (nodes.take t.buckets).flatten.length ≤ t.size := by
          refine Nat.le_trans (List.take_sublist _ _).flatten.length_le ?_
          have hbounded := G.bounded
          rw [Bounded, table_flatten, List.length_map] at hbounded
          exact hbounded
        have hmono := rebuilt_mono hmoved (Nat.le_refl (primesAbove (nextPrime t.buckets)).length)
        rw [hlost]
        refine ⟨by omega, fun W => ?_⟩
        have hsame := moved W
        obtain ⟨-, -, -, hexact⟩ := F.intact W
        rw [hsame] at hexact
        omega

/-! ## Runs -/

/-- The number of the insertions among some calls. -/
def insertions : List (Call K V) → Nat
  | [] => 0
  | .insert _ _ :: calls => insertions calls + 1
  | _ :: calls => insertions calls

/-- **Used.** A table that was made for `d` larger primes and has seen `n` insertions. -/
structure Used (d n : Nat) (t : LinkedTable K V) (nodes : Nodes K V) : Prop where
  chains : Chains t nodes
  grown : Grown (t.table nodes)
  size_le : t.size ≤ n
  left : (t.table nodes).primesLeft = d - n
  few : t.heap.live ≤ t.size + rebuilt n d

/-- An insertion is one more. -/
theorem Used.insert {d n : Nat} (U : Used d n t nodes) {k : K} {v : V} {t' : LinkedTable K V} {nodes' : Nodes K V}
    {o : Option (HashEntry K V)} (h : t.answer (.insert k v) = .ok (t', o)) (C' : Chains t' nodes')
    (hL : (t.table nodes).answer (.insert k v) = .ok (t'.table nodes', o)) : Used d (n + 1) t' nodes' := by
  obtain ⟨⟨t₁, p⟩, hins, h⟩ := bind_eq_ok h
  obtain ⟨e, -, h⟩ := bind_eq_ok h
  simp only [pure_eq_ok, Except.ok.injEq, Prod.mk.injEq] at h
  obtain ⟨rfl, -⟩ := h
  obtain ⟨⟨L, c⟩, hinsL, hL⟩ := bind_eq_ok hL
  simp only [pure_eq_ok, Except.ok.injEq, Prod.mk.injEq] at hL
  obtain ⟨rfl, -⟩ := hL
  have hfuel : (t.table nodes).primesLeft < primes.length + 1 := Nat.lt_succ_of_le (primesAbove_length_le _)
  obtain ⟨G, hsize, hleft⟩ := U.grown.insertFuel_ok hfuel hinsL
  obtain ⟨hle, -⟩ := insertFuel_costs _ t nodes k v _ c _ p U.chains U.grown hfuel hinsL hins
  have hsize' : t₁.size = t.size + 1 := hsize
  have h₁ := U.size_le
  have h₂ := U.few
  have h₃ := U.left
  have hmono := lost_mono (d := d - n) h₁
  have hsucc := rebuilt_succ n d
  rw [h₃] at hle
  exact ⟨C', G, by omega, by omega, by omega⟩

/-- A call that inserts nothing, and takes as many nodes out of memory as entries out of the table. -/
theorem Used.other {d n : Nat} (U : Used d n t nodes) {c : Call K V} {t' : LinkedTable K V} {nodes' : Nodes K V}
    (C' : Chains t' nodes') (h : call (t.table nodes) c = .ok (t'.table nodes'))
    (hsize : t'.size ≤ t.size) (hbuckets : t'.buckets = t.buckets)
    (hlive : t'.heap.live + t.size ≤ t.heap.live + t'.size) : Used d n t' nodes' := by
  obtain ⟨G, hleft⟩ := U.grown.call_ok h hsize hbuckets
  have h₁ := U.size_le
  have h₂ := U.few
  exact ⟨C', G, by omega, hleft.trans U.left, by omega⟩

/-- **Used goes on** with every call. -/
theorem Used.answer {d n : Nat} (U : Used d n t nodes) {c : Call K V} {t' : LinkedTable K V} {nodes' : Nodes K V}
    {o : Option (HashEntry K V)} (h : t.answer c = .ok (t', o)) (C' : Chains t' nodes')
    (hL : (t.table nodes).answer c = .ok (t'.table nodes', o)) : Used d (n + insertions [c]) t' nodes' := by
  cases c with
  | insert k v => exact U.insert h C' hL
  | update k v =>
      obtain ⟨t₁, hupd, h⟩ := bind_eq_ok h
      simp only [pure_eq_ok, Except.ok.injEq, Prod.mk.injEq] at h
      obtain ⟨rfl, -⟩ := h
      obtain ⟨L, hupdL, hL⟩ := bind_eq_ok hL
      simp only [pure_eq_ok, Except.ok.injEq, Prod.mk.injEq] at hL
      obtain ⟨rfl, -⟩ := hL
      obtain ⟨t₂, nodes₂, hupd₂, -, -, hlive, -⟩ := U.chains.update_table hupdL
      rw [hupd] at hupd₂
      cases hupd₂
      obtain ⟨data, heq⟩ := update_cases hupdL
      have hsize : t₁.size = t.size := congrArg ChainedHashTable.size heq
      have hbuckets : t₁.buckets = t.buckets := congrArg ChainedHashTable.buckets heq
      exact U.other (c := .update k v) C' hupdL (Nat.le_of_eq hsize) hbuckets (by omega)
  | remove k =>
      obtain ⟨t₁, hrem, h⟩ := bind_eq_ok h
      simp only [pure_eq_ok, Except.ok.injEq, Prod.mk.injEq] at h
      obtain ⟨rfl, -⟩ := h
      obtain ⟨L, hremL, hL⟩ := bind_eq_ok hL
      simp only [pure_eq_ok, Except.ok.injEq, Prod.mk.injEq] at hL
      obtain ⟨rfl, -⟩ := hL
      obtain ⟨hbuckets, hsize⟩ := U.grown.remove_size hremL
      have hsize' : t₁.size = t.size ∨ t₁.size + 1 = t.size := by
        rcases hsize with heq | hsize
        · exact Or.inl (congrArg ChainedHashTable.size heq)
        · exact Or.inr hsize
      refine U.other (c := .remove k) C' hremL (by omega) hbuckets ?_
      rcases remove_live hrem with rfl | hlive
      · exact Nat.le_refl _
      · omega
  | find k =>
      obtain ⟨p, -, h⟩ := bind_eq_ok h
      obtain ⟨e, -, h⟩ := bind_eq_ok h
      simp only [pure_eq_ok, Except.ok.injEq, Prod.mk.injEq] at h
      obtain ⟨rfl, -⟩ := h
      rw [C'.unique U.chains]
      exact U

/-- **A run** of a table that was new. -/
theorem Used.run {d : Nat} : ∀ (calls : List (Call K V)) (n : Nat) (t : LinkedTable K V) (nodes : Nodes K V),
    Used d n t nodes → ∃ t' nodes' os, runAll LinkedTable.answer t calls = .ok (t', os) ∧
      Used d (n + insertions calls) t' nodes' := by
  intro calls
  induction calls with
  | nil =>
      intro n t nodes U
      exact ⟨t, nodes, [], rfl, U⟩
  | cons c calls ih =>
      intro n t nodes U
      obtain ⟨L, o, hL, -⟩ := U.grown.sound.shaped.answer_ok c
      obtain ⟨t₁, nodes₁, hstep, C₁, rfl, -, -⟩ := U.chains.answer_table hL
      obtain ⟨t', nodes', os, hrun, U'⟩ := ih _ t₁ nodes₁ (U.answer hstep C₁ hL)
      refine ⟨t', nodes', o :: os, ?_, ?_⟩
      · rw [runAll_cons_ok hstep, hrun]
        rfl
      · have hsum : insertions (c :: calls) = insertions [c] + insertions calls := by
          cases c with
          | insert k v => exact Nat.add_comm _ _
          | update k v => exact (Nat.zero_add _).symm
          | remove k => exact (Nat.zero_add _).symm
          | find k => exact (Nat.zero_add _).symm
        rw [hsum, ← Nat.add_assoc]
        exact U'

/-- **Exactly used.** A table that was made for `d` larger primes and has only seen `n` insertions, of keys that get lost in
    no resize. -/
structure ExactlyUsed (d : Nat) (hash : K → Nat) (b n : Nat) (t : LinkedTable K V) (nodes : Nodes K V) : Prop where
  used : Used d n t nodes
  intact : Intact (t.table nodes)
  hash : t.hash = hash
  buckets : b ≤ t.buckets
  size : t.size = n
  live : t.heap.live = n + rebuilt n d

theorem ExactlyUsed.insert {d b n : Nat} {hash : K → Nat} (U : ExactlyUsed d hash b n t nodes) {k : K} {v : V}
    (hk : Agrees hash b k) {t' : LinkedTable K V} {nodes' : Nodes K V} {o : Option (HashEntry K V)}
    (h : t.answer (.insert k v) = .ok (t', o)) (C' : Chains t' nodes')
    (hL : (t.table nodes).answer (.insert k v) = .ok (t'.table nodes', o)) : ExactlyUsed d hash b (n + 1) t' nodes' := by
  have U' := U.used.insert h C' hL
  obtain ⟨⟨t₁, p⟩, hins, h⟩ := bind_eq_ok h
  obtain ⟨e, -, h⟩ := bind_eq_ok h
  simp only [pure_eq_ok, Except.ok.injEq, Prod.mk.injEq] at h
  obtain ⟨rfl, -⟩ := h
  obtain ⟨⟨L, c⟩, hinsL, hL⟩ := bind_eq_ok hL
  simp only [pure_eq_ok, Except.ok.injEq, Prod.mk.injEq] at hL
  obtain ⟨rfl, -⟩ := hL
  have hfuel : (t.table nodes).primesLeft < primes.length + 1 := Nat.lt_succ_of_le (primesAbove_length_le _)
  have hagree : Agrees t.hash t.buckets k := by
    rw [U.hash]
    exact hk.mono U.buckets
  obtain ⟨-, hsize, -⟩ := U.used.grown.insertFuel_ok hfuel hinsL
  obtain ⟨W, hhash, hle⟩ := U.intact.insertFuel_ok hfuel hagree hinsL
  obtain ⟨-, hlive⟩ := insertFuel_costs _ t nodes k v _ c _ p U.used.chains U.used.grown hfuel hinsL hins
  have hlive' := hlive U.intact
  rw [U.used.left, U.size, U.live] at hlive'
  have hsize' : t₁.size = t.size + 1 := hsize
  have hsucc := rebuilt_succ n d
  exact ⟨U', W, hhash.trans U.hash, Nat.le_trans U.buckets hle, by rw [hsize', U.size], by omega⟩

/-- **A run of insertions** of keys that get lost in no resize. -/
theorem ExactlyUsed.run {d b : Nat} {hash : K → Nat} : ∀ (calls : List (Call K V)) (n : Nat) (t : LinkedTable K V)
    (nodes : Nodes K V), ExactlyUsed d hash b n t nodes → (∀ c ∈ calls, ∃ k v, c = .insert k v ∧ Agrees hash b k) →
    ∃ t' nodes' os, runAll LinkedTable.answer t calls = .ok (t', os) ∧
      ExactlyUsed d hash b (n + calls.length) t' nodes' := by
  intro calls
  induction calls with
  | nil =>
      intro n t nodes U _
      exact ⟨t, nodes, [], rfl, U⟩
  | cons c calls ih =>
      intro n t nodes U hcalls
      rw [List.forall_mem_cons] at hcalls
      obtain ⟨⟨k, v, rfl, hk⟩, hcalls⟩ := hcalls
      obtain ⟨L, o, hL, -⟩ := U.used.grown.sound.shaped.answer_ok (.insert k v)
      obtain ⟨t₁, nodes₁, hstep, C₁, rfl, -, -⟩ := U.used.chains.answer_table hL
      obtain ⟨t', nodes', os, hrun, U'⟩ := ih (n + 1) t₁ nodes₁ (U.insert hk hstep C₁ hL) hcalls
      refine ⟨t', nodes', o :: os, ?_, ?_⟩
      · rw [runAll_cons_ok hstep, hrun]
        rfl
      · rwa [List.length_cons, Nat.add_comm calls.length, ← Nat.add_assoc]

/-- A new table has been made for the primes above its bucket count. -/
theorem new_exactlyUsed (hash : K → Nat) (comp : K → K → Bool) {b : Nat} (hb : 1 ≤ b) (hsmall : b < 2147483648) :
    ExactlyUsed (primesAbove b).length hash b 0 (new b hash comp : LinkedTable K V) (List.replicate b []) := by
  have htable : (new b hash comp : LinkedTable K V).table (List.replicate b []) = ChainedHashTable.new b hash comp :=
    newIn_table .empty b hash comp
  refine ⟨⟨new_chains b hash comp, ?_, Nat.le_refl _, rfl, Nat.le_refl _⟩, ?_, rfl, Nat.le_refl _, rfl, rfl⟩
  · rw [htable]
    exact new_grown hash comp hb hsmall
  · rw [htable]
    exact new_intact hash comp hb hsmall

/-- **How much memory the hash table loses.** After any run there are, beside one node for each entry that the size counts,
    at most `rebuilt` many nodes, and never more than 1677; after insertions of keys that stay in their buckets there are just as
    many. -/
theorem run_loses (hash : K → Nat) (comp : K → K → Bool) (b : Nat) (hb : 1 ≤ b) (hsmall : b < 2147483648)
    (calls : List (Call K V)) : ∃ t nodes os, runAll LinkedTable.answer (new b hash comp) calls = .ok (t, os) ∧
      Chains t nodes ∧ t.heap.live ≤ t.size + rebuilt (insertions calls) (primesAbove b).length ∧
      t.heap.live ≤ t.size + 1677 ∧
      ((∀ c ∈ calls, ∃ k v, c = .insert k v ∧ Agrees hash b k) →
        t.heap.live = calls.length + rebuilt calls.length (primesAbove b).length) := by
  have U₀ := new_exactlyUsed (V := V) hash comp hb hsmall
  obtain ⟨t, nodes, os, hrun, U⟩ := Used.run calls 0 _ _ U₀.used
  have hfew := U.few
  rw [Nat.zero_add] at hfew
  refine ⟨t, nodes, os, hrun, U.chains, hfew, ?_, fun hcalls => ?_⟩
  · have hle : rebuilt (insertions calls) (primesAbove b).length ≤ 1677 := by
      calc rebuilt (insertions calls) (primesAbove b).length
          ≤ rebuilt (primesAbove b).length (primesAbove b).length := rebuilt_le _ _
        _ ≤ rebuilt primes.length primes.length := rebuilt_mono (primesAbove_length_le b) (primesAbove_length_le b)
        _ = 1677 := rebuilt_primes
    omega
  · obtain ⟨t₁, nodes₁, os₁, hrun₁, U₁⟩ := ExactlyUsed.run calls 0 _ _ U₀ hcalls
    rw [hrun] at hrun₁
    cases hrun₁
    have hlive := U₁.live
    rwa [Nat.zero_add] at hlive

/-- Six ports in the table of a data plane: 57 nodes are lost beside the six. -/
theorem run_loses_six : ∃ t nodes os, runAll LinkedTable.answer (new 17 uintHash uintEq)
      ((List.range 6).map (fun k => .insert k k) : List (Call Nat Nat)) = .ok (t, os) ∧ Chains t nodes ∧
    t.heap.live ≤ t.size + rebuilt 6 26 ∧ t.heap.live ≤ t.size + 1677 ∧
    ((∀ c ∈ (List.range 6).map (fun k => (.insert k k : Call Nat Nat)), ∃ k v, c = .insert k v ∧ Agrees uintHash 17 k) →
      t.heap.live = 6 + rebuilt 6 26) :=
  run_loses uintHash uintEq 17 (by decide) (by decide) _

end LinkedTable

end Flowpath
end Freeflow
