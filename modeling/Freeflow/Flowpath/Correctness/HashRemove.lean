import Freeflow.Flowpath.HashNodes
import Freeflow.Flowpath.Correctness.HashSafety

/-!
# `Flowpath.Correctness.HashRemove` — what a removal takes out of the hash table

A removal goes along the home chain of the key as a lookup does, and stitches around the entry that the lookup finds. The
two loops are related to the list of nodes that the chain consists of (`findFrom_eq`, `seek_some`), and the stitching to what
is left of that list (`Chains.stitch_eq`). So the entry found is what goes, everything else stays where it is, and the table
of `Flowpath.Hash` is the same design without the pointers (`Chains.remove_table`).
-/

namespace Freeflow
namespace Flowpath
namespace LinkedTable

variable {K V : Type} {t t' : LinkedTable K V} {nodes : Nodes K V}

/-- The key of a node is equal to `k`. -/
def hit (t : LinkedTable K V) (k : K) (x : Nat × HashEntry K V) : Bool := t.comp x.2.key k

/-! ## The two loops -/

section Loops

variable {p : Ptr} {k : K} {xs front rest : List (Nat × HashEntry K V)}

/-- A lookup gives the first node of the chain that has the key. -/
theorem findFrom_eq (h : Linked entryLinking t.heap.Has p xs) (k : K) :
    ∀ fuel, xs.length ≤ fuel → findFrom t k fuel p = .ok ((xs.find? (t.hit k)).map Prod.fst) := by
  induction h with
  | nil => intro fuel _; cases fuel <;> rfl
  | @cons a e next xs ha hrest ih =>
      intro fuel hfuel
      cases fuel with
      | zero => simp at hfuel
      | succ fuel =>
          rw [findFrom, entryLinking.load_eq ha, ok_bind, List.find?_cons]
          cases hk : t.comp e.key k with
          | true => simp [hit, hk]
          | false =>
              simp only [hit, hk, Bool.false_eq_true, if_false]
              exact ih fuel (Nat.le_of_succ_le_succ hfuel)

/-- Without the key in the chain the loop of a removal runs to its end. -/
theorem seek_none (h : Linked entryLinking t.heap.Has p xs) (hnone : ∀ x ∈ xs, t.hit k x = false) :
    ∀ fuel q, xs.length ≤ fuel → ∃ q', seek t k fuel q p = .ok (q', none) := by
  induction h with
  | nil => intro fuel q _; exact ⟨q, by cases fuel <;> rfl⟩
  | @cons a e next xs ha hrest ih =>
      intro fuel q hfuel
      rw [List.forall_mem_cons] at hnone
      cases fuel with
      | zero => simp at hfuel
      | succ fuel =>
          obtain ⟨q', h'⟩ := ih hnone.2 fuel (some a) (Nat.le_of_succ_le_succ hfuel)
          refine ⟨q', ?_⟩
          rw [seek, entryLinking.load_eq ha, ok_bind, ← h']
          exact if_neg (by rw [show t.comp e.key k = false from hnone.1]; decide)

/-- Otherwise it stops with `p` at the first node that has the key and `q` at the one before. -/
theorem seek_some {a : Nat} {e : HashEntry K V} (h : Linked entryLinking t.heap.Has p (front ++ (a, e) :: rest))
    (hfront : ∀ x ∈ front, t.hit k x = false) (he : t.comp e.key k = true) :
    ∀ fuel q, front.length < fuel → seek t k fuel q p = .ok ((lastNode front).or q, some a) := by
  induction front generalizing p with
  | nil =>
      intro fuel q hfuel
      cases fuel with
      | zero => simp at hfuel
      | succ fuel =>
          cases h with
          | cons ha hrest =>
              rw [seek, entryLinking.load_eq ha, ok_bind]
              exact if_pos he
  | cons x front ih =>
      intro fuel q hfuel
      rw [List.forall_mem_cons] at hfront
      cases fuel with
      | zero => simp at hfuel
      | succ fuel =>
          cases h with
          | @cons b y next _ hb hrest =>
              have hlast : (lastNode ((b, y) :: front)).or q = (lastNode front).or (some b) := by
                rw [lastNode, lastNode, List.getLast?_cons]
                cases front.getLast? <;> rfl
              rw [seek, entryLinking.load_eq hb, ok_bind, hlast,
                ← ih hrest hfront.2 fuel (some b) (Nat.lt_of_succ_lt_succ hfuel)]
              exact if_neg (by rw [show t.comp y.key k = false from hfront.1]; decide)

end Loops

/-! ## Lookups -/

/-- The home chain of `k` is the one at index `i`. -/
structure Home (t : LinkedTable K V) (k : K) (i : Nat) : Prop where
  buckets_ne : t.buckets ≠ 0
  index_eq : toInt (t.hash k % t.buckets) = i

theorem Home.headOf_eq {k : K} {i : Nat} {p : Ptr} (H : Home t k i) (hp : t.data[i]? = some p) :
    t.headOf k = .ok ((i : Int), p) := by
  rw [headOf, if_neg H.buckets_ne, H.index_eq]
  dsimp only
  rw [load_natCast hp]
  rfl

/-- The home chain depends on the hash function and the bucket count only. -/
theorem Home.congr {k : K} {i : Nat} (H : Home t k i) (hhash : t'.hash = t.hash) (hbuckets : t'.buckets = t.buckets) :
    Home t' k i :=
  ⟨by rw [hbuckets]; exact H.buckets_ne, by rw [hhash, hbuckets]; exact H.index_eq⟩

/-- A key has a home chain in the array, or its lookup is outside the array in every table of that shape. -/
theorem home_cases (t : LinkedTable K V) (k : K) :
    (∃ i < t.data.length, Home t k i) ∨ ∃ f, ∀ t' : LinkedTable K V, t'.hash = t.hash → t'.buckets = t.buckets →
      t'.data.length = t.data.length → t'.headOf k = .error f := by
  by_cases hz : t.buckets = 0
  · exact Or.inr ⟨.divideByZero, fun t' _ hb _ => if_pos (hb.trans hz)⟩
  by_cases hn : 0 ≤ toInt (t.hash k % t.buckets) ∧ (toInt (t.hash k % t.buckets)).toNat < t.data.length
  · exact Or.inl ⟨_, hn.2, hz, (Int.toNat_of_nonneg hn.1).symm⟩
  · refine Or.inr ⟨.outOfBounds, fun t' hh hb hlen => ?_⟩
    have hload := load_error (a := t'.data) (i := toInt (t.hash k % t.buckets)) (by rw [hlen]; exact hn)
    rw [headOf, if_neg (by rw [hb]; exact hz), hh, hb]
    simp only [hload, error_bind]

/-- A head that was read is the one of a chain of the array. -/
theorem home_of_headOf {k : K} {r : Int × Ptr} (h : t.headOf k = .ok r) : ∃ i < t.data.length, Home t k i := by
  rcases home_cases t k with hhome | ⟨f, herror⟩
  · exact hhome
  · rw [herror t rfl rfl rfl] at h
    cases h

/-- A chain of the array. -/
theorem Chains.chain (C : Chains t nodes) {i : Nat} (hi : i < t.data.length) :
    ∃ p xs, t.data[i]? = some p ∧ nodes[i]? = some xs ∧ Linked entryLinking t.heap.Has p xs := by
  have hp := List.getElem?_eq_getElem hi
  have hxs := List.getElem?_eq_getElem (C.length ▸ hi)
  exact ⟨_, _, hp, hxs, C.linked i _ _ hp hxs⟩

/-- A lookup searches the home chain. -/
theorem Chains.find_eq (C : Chains t nodes) {k : K} {i : Nat} {xs : List (Nat × HashEntry K V)} (H : Home t k i)
    (hxs : nodes[i]? = some xs) : t.find k = .ok ((xs.find? (t.hit k)).map Prod.fst) := by
  have hi : i < t.data.length := by
    rw [C.length]
    exact (List.getElem?_eq_some_iff.mp hxs).1
  have hp := List.getElem?_eq_getElem hi
  have hlinked := C.linked i _ xs hp hxs
  rw [find, H.headOf_eq hp]
  exact findFrom_eq hlinked k _ (Nat.le_succ_of_le hlinked.length_le)

/-! ## Removals -/

section Removal

variable {i a : Nat} {p : Ptr} {e : HashEntry K V} {front rest : List (Nat × HashEntry K V)}

/-- **Removed.** The node at `a` is gone from chain `i` and from memory; the other nodes are as they were, in their order. -/
structure Removed (t : LinkedTable K V) (nodes : Nodes K V) (i a : Nat) (front rest : List (Nat × HashEntry K V))
    (t' : LinkedTable K V) : Prop where
  chains : Chains t' (nodes.set i (front ++ rest))
  gone : t'.heap.cells a = none
  size : t'.size = ChainedHashTable.decSize t.size
  buckets : t'.buckets = t.buckets
  hash : t'.hash = t.hash
  comp : t'.comp = t.comp
  length : t'.data.length = t.data.length

/-- **Stitching.** It leaves chain `i` without the node at `a`, which is still there, and no other node changes. -/
theorem Chains.stitch_eq (C : Chains t nodes) (hp : t.data[i]? = some p)
    (hxs : nodes[i]? = some (front ++ (a, e) :: rest)) :
    ∃ heap q, t.stitch i (lastNode front) (firstNode rest) = .ok { t with heap, data := t.data.set i q } ∧
      heap.Has a (e, firstNode rest) ∧
      Linked entryLinking (fun c n => c ≠ a ∧ heap.Has c n) q (front ++ rest) ∧
      ∀ c n, c ∉ (front ++ (a, e) :: rest).map Prod.fst → t.heap.Has c n → heap.Has c n := by
  have hchain := C.linked i p _ hp hxs
  have hnodup := hchain.nodup (fun a n m hn hm => hn.unique hm)
  rw [List.map_append, List.map_cons, List.nodup_middle, List.nodup_cons, ← List.map_append] at hnodup
  have ha : t.heap.Has a (e, firstNode rest) := hchain.node
  have hne : ∀ x ∈ front ++ rest, x.1 ≠ a := by
    intro x hx heq
    have hmem : x.1 ∈ (front ++ rest).map Prod.fst := List.mem_map_of_mem hx
    rw [heq] at hmem
    exact hnodup.1 hmem
  rcases List.eq_nil_or_concat front with rfl | ⟨front, ⟨b, y⟩, rfl⟩
  · -- there is no `q`: the rest becomes the chain
    refine ⟨t.heap, firstNode rest, ?_, ha, ?_, fun c n _ hn => hn⟩
    · show (store t.data i _ >>= _) = _
      rw [store_natCast _ (List.getElem?_eq_some_iff.mp hp).1]
      rfl
    · have hsplit : Linked entryLinking t.heap.Has p ([(a, e)] ++ rest) := hchain
      exact hsplit.suffix.mono_on (fun x hx n hn => ⟨hne x hx, hn⟩)
  · rw [List.concat_eq_append, List.append_assoc, List.singleton_append] at hchain hxs hnodup hne ⊢
    have hb : t.heap.Has b (y, some a) := hchain.node
    obtain ⟨heap, hwrite, hcells, -⟩ := Heap.write_eq hb (y, firstNode rest)
    have hself : heap.Has b (y, firstNode rest) := by rw [Heap.Has, hcells, Function.update_self]
    have hother : ∀ c n, c ≠ b → t.heap.Has c n → heap.Has c n := by
      intro c n hc hn
      rw [Heap.Has, hcells, Function.update_of_ne hc]
      exact hn
    have hab : b ≠ a := hne (b, y) (by simp)
    have hbnot : b ∉ (front ++ rest).map Prod.fst := by
      have h := hnodup.2
      rw [List.map_append, List.map_cons, List.nodup_middle, List.nodup_cons, ← List.map_append] at h
      exact h.1
    refine ⟨heap, p, ?_, hother a _ (Ne.symm hab) ha, ?_, ?_⟩
    · have hlast : lastNode (front ++ [(b, y)]) = some b := by simp [lastNode]
      show t.stitch i (lastNode (front ++ [(b, y)])) _ = _
      rw [hlast]
      show (entryLinking.load t.heap (some b) >>= _) = _
      rw [entryLinking.load_eq hb, ok_bind]
      show (t.heap.write b (y, firstNode rest) >>= _) = _
      have hdata : t.data.set i p = t.data := by
        obtain ⟨hi, rfl⟩ := List.getElem?_eq_some_iff.mp hp
        exact List.set_getElem_self hi
      rw [hwrite, ok_bind, hdata]
      rfl
    · refine hchain.skip (fun c hc n hn => ?_) ⟨hab, hself⟩
      have hcb : c ≠ b := fun h => hbnot (h ▸ hc)
      obtain ⟨x, hx, rfl⟩ := List.mem_map.mp hc
      refine ⟨hne x ?_, hother x.1 n hcb hn⟩
      rcases List.mem_append.mp hx with h | h <;> simp [h]
    · intro c n hc hn
      refine hother c n (fun h => hc ?_) hn
      simp [h]

/-- Without the key in its home chain a removal does nothing. -/
theorem Chains.remove_none (C : Chains t nodes) {k : K} {xs : List (Nat × HashEntry K V)} (H : Home t k i)
    (hp : t.data[i]? = some p) (hxs : nodes[i]? = some xs) (hnone : ∀ x ∈ xs, t.hit k x = false) :
    t.remove k = .ok t := by
  have hlinked := C.linked i p xs hp hxs
  obtain ⟨q, hseek⟩ := seek_none hlinked hnone (t.heap.next + 1) none (Nat.le_succ_of_le hlinked.length_le)
  rw [remove, H.headOf_eq hp, ok_bind]
  dsimp only
  rw [hseek]
  rfl

/-- The chains once the node is freed, in a heap in which no node of the other chains has changed. -/
theorem Chains.freed (C : Chains t nodes) (hp : t.data[i]? = some p) (hxs : nodes[i]? = some (front ++ (a, e) :: rest))
    {q : Ptr} (hdata : t'.data = t.data.set i q) (hchain : Linked entryLinking t'.heap.Has q (front ++ rest))
    (hother : ∀ c n, c ∉ (front ++ (a, e) :: rest).map Prod.fst → t.heap.Has c n → t'.heap.Has c n) :
    Chains t' (nodes.set i (front ++ rest)) := by
  have hi := (List.getElem?_eq_some_iff.mp hp).1
  refine ⟨by rw [hdata, List.length_set, List.length_set, C.length], ?_, ?_⟩
  · intro j p' xs hp' hxs'
    rw [hdata] at hp'
    by_cases hij : i = j
    · subst hij
      rw [List.getElem?_set_self hi] at hp'
      rw [List.getElem?_set_self (C.length ▸ hi)] at hxs'
      cases hp'
      cases hxs'
      exact hchain
    · rw [List.getElem?_set_ne hij] at hp' hxs'
      -- the nodes of another chain are not among those of this one
      have hne := ne_of_nodup_flatten C.disjoint hxs' hxs (Ne.symm hij)
      refine (C.linked j p' xs hp' hxs').mono_on (fun x hx n hn => hother x.1 n (fun hmem => ?_) hn)
      obtain ⟨y, hy, heq⟩ := List.mem_map.mp hmem
      exact hne x hx y hy heq.symm
  · have hsub : (front ++ rest).Sublist (front ++ (a, e) :: rest) :=
      (List.Sublist.refl front).append (List.sublist_cons_self (a, e) rest)
    exact C.disjoint.sublist ((flatten_set_sublist hxs hsub).map Prod.fst)

/-- **A removal takes the first node that has the key.** -/
theorem Chains.remove_some (C : Chains t nodes) {k : K} (H : Home t k i) (hp : t.data[i]? = some p)
    (hxs : nodes[i]? = some (front ++ (a, e) :: rest))
    (hfront : ∀ x ∈ front, t.hit k x = false) (he : t.comp e.key k = true) :
    ∃ t', t.remove k = .ok t' ∧ Removed t nodes i a front rest t' := by
  have hchain := C.linked i p _ hp hxs
  have hfuel : front.length < t.heap.next + 1 := by
    have := hchain.length_le
    rw [List.length_append] at this
    omega
  have hseek := seek_some hchain hfront he (t.heap.next + 1) none hfuel
  rw [Option.or_none] at hseek
  obtain ⟨heap, q, hstitch, ha, hrest, hother⟩ := C.stitch_eq hp hxs
  obtain ⟨heap', hfree, hcells, -⟩ := Heap.free_eq ha
  have hlive : ∀ c n, c ≠ a → heap.Has c n → heap'.Has c n := by
    intro c n hc hn
    rw [Heap.Has, hcells, Function.update_of_ne hc]
    exact hn
  refine ⟨{ t with heap := heap', data := t.data.set i q, size := ChainedHashTable.decSize t.size }, ?_,
    C.freed hp hxs rfl ?_ ?_, ?_, rfl, rfl, rfl, rfl, List.length_set⟩
  · rw [remove, H.headOf_eq hp, ok_bind]
    dsimp only
    rw [hseek, ok_bind]
    show (entryLinking.load t.heap (some a) >>= _) = _
    rw [entryLinking.load_eq hchain.node, ok_bind]
    show (t.stitch i (lastNode front) (firstNode rest) >>= _) = _
    rw [hstitch, ok_bind, hfree]
    rfl
  · exact hrest.mono (fun c n hn => hlive c n hn.1 hn.2)
  · intro c n hc hn
    refine hlive c n ?_ (hother c n hc hn)
    rintro rfl
    exact hc (by simp)
  · rw [hcells, Function.update_self]

end Removal

/-! ## The lookups after a removal -/

section Lookup

variable {i a : Nat} {e : HashEntry K V} {front rest : List (Nat × HashEntry K V)} {k : K}

theorem Removed.hit_eq (R : Removed t nodes i a front rest t') (k : K) : t'.hit k = t.hit k := by
  funext x
  rw [hit, R.comp]
  rfl

/-- The key itself is found in what is left behind the node. -/
theorem Removed.find_self (R : Removed t nodes i a front rest t') (H : Home t k i) (hi : i < nodes.length)
    (hfront : ∀ x ∈ front, t.hit k x = false) : t'.find k = .ok ((rest.find? (t.hit k)).map Prod.fst) := by
  have hnil : front.find? (t.hit k) = none := List.find?_eq_none.mpr (fun x hx => by rw [hfront x hx]; decide)
  rw [R.chains.find_eq (H.congr R.hash R.buckets) (List.getElem?_set_self hi), R.hit_eq, List.find?_append, hnil,
    Option.none_or]

/-- The lookups of the keys that the node does not have are as they were. -/
theorem Removed.find_other (R : Removed t nodes i a front rest t') (C : Chains t nodes)
    (hxs : nodes[i]? = some (front ++ (a, e) :: rest)) {k' : K} (hk' : t.comp e.key k' = false) :
    t'.find k' = t.find k' := by
  have hi := (List.getElem?_eq_some_iff.mp hxs).1
  rcases home_cases t k' with ⟨j, hj, H⟩ | ⟨f, herror⟩
  · obtain ⟨p, ys, hp, hys, -⟩ := C.chain hj
    have H' := H.congr R.hash R.buckets
    by_cases hij : i = j
    · subst hij
      rw [R.chains.find_eq H' (List.getElem?_set_self hi), C.find_eq H hxs, R.hit_eq, List.find?_append, List.find?_append,
        List.find?_cons, show t.hit k' (a, e) = false from hk']
    · rw [R.chains.find_eq H' (by rw [List.getElem?_set_ne hij]; exact hys), C.find_eq H hys, R.hit_eq]
  · rw [find, find, herror t rfl rfl rfl, herror t' R.hash R.buckets R.length]
    rfl

end Lookup

/-! ## The first match -/

/-- **RemovesFirst.** Where the lookup of `k` finds nothing the removal changes nothing. Otherwise the node that the lookup
    finds is removed, and the size is one less; then the lookup of `k` finds the next node of the chain that has the key,
    and the lookup of any other key what it found before. -/
def RemovesFirst (t : LinkedTable K V) (nodes : Nodes K V) (k : K) : Prop :=
  (t.find k = .ok none ∧ t.remove k = .ok t) ∨
  ∃ (i : Nat) (front : List (Nat × HashEntry K V)) (a : Nat) (e : HashEntry K V) (rest : List (Nat × HashEntry K V))
    (t' : LinkedTable K V), nodes[i]? = some (front ++ (a, e) :: rest) ∧ t.find k = .ok (some a) ∧
      t.remove k = .ok t' ∧ Removed t nodes i a front rest t' ∧ t'.size + 1 = t.size ∧
      t'.find k = .ok ((rest.find? (t.hit k)).map Prod.fst) ∧
      ∀ k', t.comp k' k = false → t'.find k' = t.find k'

/-- Where a removal does that, the index of the key is that of a chain. -/
theorem RemovesFirst.fits {k : K} (h : RemovesFirst t nodes k) : 0 ≤ toInt (t.hash k % t.buckets) := by
  have hfind : ∃ p, t.find k = .ok p := by
    rcases h with h | ⟨_, _, a, _, _, _, -, h, -⟩
    · exact ⟨none, h.1⟩
    · exact ⟨some a, h⟩
  obtain ⟨p, hp⟩ := hfind
  obtain ⟨r, hhead, -⟩ := bind_eq_ok hp
  obtain ⟨i, -, H⟩ := home_of_headOf hhead
  rw [H.index_eq]
  exact Int.natCast_nonneg i

/-- **When a removal takes out exactly the first match**: when the index of the key is not negative as an `int`. The table
    has buckets, a chain for each of them, and no more entries than its size; keys are compared by an equivalence. -/
theorem removes_first_iff (C : Chains t nodes) (hpos : 1 ≤ t.buckets) (hroom : t.buckets ≤ t.data.length)
    (hsize : nodes.flatten.length ≤ t.size) (heq : Equivalence (fun a b => t.comp a b = true)) (k : K) :
    RemovesFirst t nodes k ↔ 0 ≤ toInt (t.hash k % t.buckets) := by
  constructor
  · exact RemovesFirst.fits
  · intro hfits
    have H : Home t k (toInt (t.hash k % t.buckets)).toNat := ⟨by omega, (Int.toNat_of_nonneg hfits).symm⟩
    have hlt : (toInt (t.hash k % t.buckets)).toNat < t.data.length := by
      have h₁ := toInt_toNat_le (t.hash k % t.buckets)
      have h₂ : t.hash k % t.buckets < t.buckets := Nat.mod_lt _ hpos
      omega
    obtain ⟨p, xs, hp, hxs, -⟩ := C.chain hlt
    have hfind := C.find_eq H hxs
    cases hfirst : xs.find? (t.hit k) with
    | none =>
        have hnone : ∀ x ∈ xs, t.hit k x = false := fun x hx => by
          simpa using List.find?_eq_none.mp hfirst x hx
        rw [hfirst] at hfind
        exact Or.inl ⟨hfind, C.remove_none H hp hxs hnone⟩
    | some x =>
        obtain ⟨a, e⟩ := x
        obtain ⟨he, front, rest, rfl, hfront⟩ := List.find?_eq_some_iff_append.mp hfirst
        have hfront' : ∀ x ∈ front, t.hit k x = false := fun x hx => by simpa using hfront x hx
        rw [hfirst] at hfind
        obtain ⟨t', hremove, R⟩ := C.remove_some H hp hxs hfront' he
        refine Or.inr ⟨_, front, a, e, rest, t', hxs, hfind, hremove, R, ?_, ?_, fun k' hk' => ?_⟩
        · have hmem : (a, e) ∈ nodes.flatten := mem_flatten_of_getElem? hxs (by simp)
          have := List.length_pos_of_mem hmem
          rw [R.size, ChainedHashTable.decSize, if_neg (by omega)]
          omega
        · exact R.find_self H (C.length ▸ hlt) hfront'
        · refine R.find_other C hxs ?_
          -- a key equal to that of the entry would be equal to `k`
          cases hek : t.comp e.key k' with
          | false => rfl
          | true => rw [heq.trans (heq.symm hek) he] at hk'; cases hk'

/-- Two entries in one chain: 4 is the second one, and is removed behind 2. -/
def twoEntries : LinkedTable Nat Nat where
  heap := (Heap.empty.alloc (⟨2, 7⟩, some 1)).alloc (⟨4, 8⟩, none)
  size := 2
  buckets := 2
  hash := uintHash
  comp := uintEq
  data := [some 0, none]

theorem twoEntries_chains : Chains twoEntries [[(0, ⟨2, 7⟩), (1, ⟨4, 8⟩)], []] := by
  refine ⟨rfl, fun i p xs hp hxs => ?_, by decide⟩
  match i with
  | 0 =>
      cases hp
      cases hxs
      exact .cons rfl (.cons rfl .nil)
  | 1 =>
      cases hp
      cases hxs
      exact .nil
  | i + 2 => cases hp

/-- Numbers are compared by an equivalence. -/
theorem uintEq_equivalence : Equivalence (fun a b => uintEq a b = true) :=
  ⟨fun a => beq_self_eq_true a, fun h => beq_iff_eq.mpr (beq_iff_eq.mp h).symm,
    fun h h' => beq_iff_eq.mpr ((beq_iff_eq.mp h).trans (beq_iff_eq.mp h'))⟩

theorem removes_first_inner : RemovesFirst twoEntries [[(0, ⟨2, 7⟩), (1, ⟨4, 8⟩)], []] 4 :=
  (removes_first_iff twoEntries_chains (by decide) (by decide) (by decide) uintEq_equivalence 4).mpr (by decide)

/-- The chains of a new table are empty. -/
theorem new_chains (b : Nat) (hash : K → Nat) (comp : K → K → Bool) :
    Chains (new b hash comp : LinkedTable K V) (List.replicate b []) := by
  refine ⟨by simp [new], fun i p xs hp hxs => ?_, by simp⟩
  rw [new, List.getElem?_replicate] at hp
  rw [List.getElem?_replicate] at hxs
  split at hp
  · next hi =>
      rw [if_pos hi] at hxs
      cases hp
      cases hxs
      exact .nil
  · cases hp

/-- In a new table nothing is removed under a key whose index is negative as an `int`. -/
theorem new_not_removesFirst {b : Nat} (hash : K → Nat) (comp : K → K → Bool) {k : K} (hneg : toInt (hash k % b) < 0) :
    ¬ RemovesFirst (new b hash comp : LinkedTable K V) (List.replicate b []) k :=
  fun h => absurd h.fits (Int.not_le.mpr hneg)

/-- A new table of `2^31 + 1` buckets, and a key of the last of them: its index turns negative as an `int`. -/
theorem removal_beyond_int : ∃ (t : LinkedTable Nat Nat) (nodes : Nodes Nat Nat) (k : Nat), Chains t nodes ∧
    1 ≤ t.buckets ∧ t.buckets ≤ t.data.length ∧ nodes.flatten.length ≤ t.size ∧
    Equivalence (fun a b => t.comp a b = true) ∧ (∀ a b, t.comp a b = true → t.hash a = t.hash b) ∧
    ¬ RemovesFirst t nodes k := by
  obtain ⟨b, hb⟩ : ∃ b, b = 2147483649 := ⟨_, rfl⟩
  refine ⟨new b uintHash uintEq, List.replicate b [], 2147483648, new_chains _ _ _, ?_, ?_, by simp,
    uintEq_equivalence, fun a b h => beq_iff_eq.mp h, new_not_removesFirst uintHash uintEq ?_⟩
  · show 1 ≤ b
    omega
  · show b ≤ (List.replicate b none).length
    rw [List.length_replicate]
  · rw [hb]
    decide

/-! ## The table without pointers -/

section Table

variable {k : K} {i : Nat} {xs : List (Nat × HashEntry K V)}

theorem Home.bucket_eq (H : Home t k i) (hxs : nodes[i]? = some xs) :
    (t.table nodes).bucket k = .ok ((i : Int), entries xs) := by
  have hload : load (t.table nodes).data (i : Int) = .ok (entries xs) := by
    apply load_natCast
    show (nodes.map entries)[i]? = _
    rw [List.getElem?_map, hxs]
    rfl
  have hindex : toInt ((t.table nodes).hash k % (t.table nodes).buckets) = i := H.index_eq
  unfold ChainedHashTable.bucket ChainedHashTable.hashIndex
  rw [if_neg (show (t.table nodes).buckets ≠ 0 from H.buckets_ne), ok_bind]
  simp only [hindex, hload, ok_bind, pure_eq_ok]

/-- Where nothing matches there is nothing to unlink. -/
theorem unlink_none {comp : K → K → Bool} : ∀ {chain : List (HashEntry K V)}, (∀ e ∈ chain, comp e.key k = false) →
    ChainedHashTable.unlink comp k chain = none
  | [], _ => rfl
  | e :: chain, h => by
      rw [List.forall_mem_cons] at h
      rw [ChainedHashTable.unlink, h.1, unlink_none h.2]
      rfl

/-- Otherwise the first match is left out. -/
theorem unlink_some {comp : K → K → Bool} {e : HashEntry K V} {rest : List (HashEntry K V)} (he : comp e.key k = true) :
    ∀ {front : List (HashEntry K V)}, (∀ e ∈ front, comp e.key k = false) →
      ChainedHashTable.unlink comp k (front ++ e :: rest) = some (front ++ rest)
  | [], _ => if_pos he
  | x :: front, h => by
      rw [List.forall_mem_cons] at h
      rw [List.cons_append, ChainedHashTable.unlink, h.1, unlink_some he h.2]
      rfl

/-- A lookup finds the same entry without the pointers. -/
theorem Chains.find_table (C : Chains t nodes) {k : K} {p : Ptr} (h : t.find k = .ok p) :
    ∃ ys, p = firstNode ys ∧ (t.table nodes).find k = .ok (entries ys) := by
  obtain ⟨r, hhead, -⟩ := bind_eq_ok h
  obtain ⟨i, hi, H⟩ := home_of_headOf hhead
  obtain ⟨-, xs, -, hxs, -⟩ := C.chain hi
  rw [C.find_eq H hxs] at h
  cases h
  refine ⟨xs.dropWhile (fun x => !t.hit k x), ?_, ?_⟩
  · rw [firstNode, List.find?_eq_head?_dropWhile_not]
  · rw [ChainedHashTable.find, H.bucket_eq hxs, ok_bind]
    show Except.ok ((xs.map Prod.snd).dropWhile _) = _
    rw [List.dropWhile_map]
    rfl

/-- **A removal is the removal without the pointers**: it leaves chains whose entries are those of the other. -/
theorem Chains.remove_table (C : Chains t nodes) {k : K} (h : t.remove k = .ok t') :
    ∃ nodes', Chains t' nodes' ∧ (t.table nodes).remove k = .ok (t'.table nodes') := by
  obtain ⟨r, hhead, -⟩ := bind_eq_ok h
  obtain ⟨i, hi, H⟩ := home_of_headOf hhead
  obtain ⟨p, xs, hp, hxs, -⟩ := C.chain hi
  have hbucket := H.bucket_eq hxs
  cases hfirst : xs.find? (t.hit k) with
  | none =>
      have hnone : ∀ x ∈ xs, t.hit k x = false := fun x hx => by simpa using List.find?_eq_none.mp hfirst x hx
      rw [C.remove_none H hp hxs hnone] at h
      cases h
      have hunlink : ChainedHashTable.unlink t.comp k (entries xs) = none := by
        apply unlink_none
        intro e he
        obtain ⟨x, hx, rfl⟩ := List.mem_map.mp he
        exact hnone x hx
      refine ⟨nodes, C, ?_⟩
      rw [ChainedHashTable.remove, hbucket, ok_bind]
      simp only [table, hunlink]
      rfl
  | some x =>
      obtain ⟨a, e⟩ := x
      obtain ⟨he, front, rest, rfl, hfront⟩ := List.find?_eq_some_iff_append.mp hfirst
      have hfront' : ∀ x ∈ front, t.hit k x = false := fun x hx => by simpa using hfront x hx
      obtain ⟨t₁, h₁, R⟩ := C.remove_some H hp hxs hfront' he
      rw [h₁] at h
      cases h
      have hunlink : ChainedHashTable.unlink t.comp k (entries (front ++ (a, e) :: rest))
          = some (entries (front ++ rest)) := by
        rw [entries, entries, List.map_append, List.map_append, List.map_cons]
        apply unlink_some he
        intro e' he'
        obtain ⟨x, hx, rfl⟩ := List.mem_map.mp he'
        exact hfront' x hx
      refine ⟨_, R.chains, ?_⟩
      rw [ChainedHashTable.remove, hbucket, ok_bind]
      simp only [table, hunlink]
      rw [store_natCast _ (by rw [List.length_map, ← C.length]; exact hi), ok_bind, ← List.map_set, R.size, R.buckets,
        R.hash, R.comp]
      rfl

end Table

end LinkedTable
end Flowpath
end Freeflow
