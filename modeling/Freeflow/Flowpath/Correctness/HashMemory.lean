import Freeflow.Flowpath.HashMemory
import Freeflow.Flowpath.Correctness.HashLog
import Freeflow.Flowpath.Correctness.HashRemove

/-!
# `Flowpath.Correctness.HashMemory` — the hash table in memory, and what it leaves there

Every operation on the nodes is the operation of `Flowpath.Hash` on the entries: where that one returns, this one does, and
the chains it leaves have the entries of the other (`insertFuel_table`, `Chains.answer_table`). A resize makes its new nodes
beside the old ones, so an insertion changes none of the nodes that are there (`Built.extends`); the loop along an old chain
is not disturbed by the insertions into the temporary table.

As the old nodes are not freed, they stay in memory once the table has taken over the array of the temporary one. The nodes
of the chains are counted against the live ones: `Built.spare` says that this difference never gets smaller.
-/

namespace Freeflow
namespace Flowpath

/-! ## The table without pointers -/

namespace ChainedHashTable

variable {K V : Type} {t : ChainedHashTable K V}

/-- A table with an `int` for its bucket count has the shape that lookups and insertions need. -/
theorem Sound.shaped (S : Sound t) : Shaped t := by
  refine ⟨S.pos, S.room, fun k => ?_⟩
  have hlt : t.hash k % t.buckets < t.buckets := Nat.mod_lt _ S.pos
  rw [toInt_of_lt (Nat.lt_trans hlt S.small)]
  exact Int.natCast_nonneg _

/-- Another chain in the place of one leaves the shape as it is. -/
theorem Shaped.set (S : Shaped t) (size i : Nat) (chain : List (HashEntry K V)) :
    Shaped { t with size, data := t.data.set i chain } :=
  ⟨S.pos, by rw [List.length_set]; exact S.room, S.fits⟩

/-- **Every call returns** on a shaped table, and leaves one. -/
theorem Shaped.answer_ok (S : Shaped t) (call : Call K V) : ∃ t' o, t.answer call = .ok (t', o) ∧ Shaped t' := by
  have hlt : ∀ k, t.place k < t.data.length := fun k => Nat.lt_of_lt_of_le (S.place_lt k) S.room
  cases call with
  | insert k v =>
      obtain ⟨t', c, hins, P⟩ := S.insert_prepended k v
      refine ⟨t', c.head?, ?_, P.shaped⟩
      rw [answer, hins]
      rfl
  | update k v =>
      obtain ⟨chain, -, hbucket⟩ := S.bucket_eq k
      cases chain with
      | nil =>
          refine ⟨t, none, ?_, S⟩
          rw [answer, update, hbucket]
          rfl
      | cons e rest =>
          refine ⟨_, none, ?_, S.set t.size (t.place k) ({ e with value := v } :: rest)⟩
          rw [answer, update, hbucket, ok_bind]
          dsimp only
          rw [store_natCast _ (hlt k)]
          rfl
  | remove k =>
      obtain ⟨chain, -, hbucket⟩ := S.bucket_eq k
      cases hun : unlink t.comp k chain with
      | none =>
          refine ⟨t, none, ?_, S⟩
          rw [answer, remove, hbucket, ok_bind]
          dsimp only
          rw [hun]
          rfl
      | some rest =>
          refine ⟨_, none, ?_, S.set (decSize t.size) (t.place k) rest⟩
          rw [answer, remove, hbucket, ok_bind]
          dsimp only
          rw [hun]
          dsimp only
          rw [store_natCast _ (hlt k)]
          rfl
  | find k =>
      obtain ⟨chain, -, hfind⟩ := S.find_eq k
      refine ⟨t, (chain.dropWhile (fun e => !t.comp e.key k)).head?, ?_, S⟩
      rw [answer, hfind]
      rfl

end ChainedHashTable

namespace LinkedTable

variable {K V : Type} {t t' t₁ t₂ t₃ : LinkedTable K V} {nodes nodes' nodes₁ nodes₂ nodes₃ : Nodes K V}

/-! ## What an operation builds -/

/-- **Built.** The chains `nodes'` of `t'` came to be out of the chains `nodes` of `t`: all that was in memory is there
    still, and no more nodes got into the chains than into memory. -/
structure Built (t : LinkedTable K V) (nodes : Nodes K V) (t' : LinkedTable K V) (nodes' : Nodes K V) : Prop where
  chains : Chains t' nodes'
  extends_heap : t.heap.Extends t'.heap
  spare : t.heap.live + nodes'.flatten.length ≤ t'.heap.live + nodes.flatten.length

theorem Built.refl (C : Chains t nodes) : Built t nodes t nodes := ⟨C, Heap.Extends.refl _, Nat.le_refl _⟩

theorem Built.trans (h₁₂ : Built t₁ nodes₁ t₂ nodes₂) (h₂₃ : Built t₂ nodes₂ t₃ nodes₃) : Built t₁ nodes₁ t₃ nodes₃ := by
  refine ⟨h₂₃.chains, h₁₂.extends_heap.trans h₂₃.extends_heap, ?_⟩
  have h₁ := h₁₂.spare
  have h₂ := h₂₃.spare
  omega

/-- One chain gets other nodes, and the nodes of the others are as they were. -/
theorem Chains.set (C : Chains t nodes) {i : Nat} {xs ys : List (Nat × HashEntry K V)} {q : Ptr}
    (hxs : nodes[i]? = some xs) (hdata : t'.data = t.data.set i q) (hchain : Linked entryLinking t'.heap.Has q ys)
    (hother : ∀ c n, c ∉ xs.map Prod.fst → t.heap.Has c n → t'.heap.Has c n)
    (hnodup : ((nodes.set i ys).flatten.map Prod.fst).Nodup) : Chains t' (nodes.set i ys) := by
  have hi := (List.getElem?_eq_some_iff.mp hxs).1
  refine ⟨by rw [hdata, List.length_set, List.length_set, C.length], ?_, hnodup⟩
  intro j p' zs hp' hzs
  rw [hdata] at hp'
  by_cases hij : i = j
  · subst hij
    rw [List.getElem?_set_self (C.length ▸ hi)] at hp'
    rw [List.getElem?_set_self hi] at hzs
    cases hp'
    cases hzs
    exact hchain
  · rw [List.getElem?_set_ne hij] at hp' hzs
    have hne := ne_of_nodup_flatten C.disjoint hzs hxs (Ne.symm hij)
    refine (C.linked j p' zs hp' hzs).mono_on (fun x hx n hn => hother x.1 n (fun hmem => ?_) hn)
    obtain ⟨y, hy, heq⟩ := List.mem_map.mp hmem
    exact hne x hx y hy heq.symm

/-- Every node of the chains is live. -/
theorem Chains.live (C : Chains t nodes) {a : Nat} (ha : a ∈ nodes.flatten.map Prod.fst) :
    (t.heap.cells a).isSome = true := by
  obtain ⟨⟨b, e⟩, hx, rfl⟩ := List.mem_map.mp ha
  obtain ⟨xs, hxs, hmem⟩ := List.mem_flatten.mp hx
  obtain ⟨i, hi, rfl⟩ := List.mem_iff_getElem.mp hxs
  obtain ⟨before, after, hsplit⟩ := List.append_of_mem hmem
  obtain ⟨p, ys, -, hys, hlinked⟩ := C.chain (C.length ▸ hi)
  rw [List.getElem?_eq_getElem hi, hsplit] at hys
  cases hys
  have hcell : t.heap.cells b = some _ := hlinked.node
  rw [hcell]
  rfl

/-- The chains of a table are one list of nodes each. -/
theorem Chains.unique (C : Chains t nodes) (C' : Chains t nodes') : nodes = nodes' := by
  apply List.ext_getElem?
  intro i
  by_cases hi : i < t.data.length
  · obtain ⟨p, xs, hp, hxs, hlinked⟩ := C.chain hi
    obtain ⟨p', xs', hp', hxs', hlinked'⟩ := C'.chain hi
    rw [hp] at hp'
    cases hp'
    rw [hxs, hxs', hlinked.unique (fun a n m hn hm => hn.unique hm) hlinked']
  · rw [List.getElem?_eq_none (by rw [← C.length]; omega), List.getElem?_eq_none (by rw [← C'.length]; omega)]

/-- A home chain that is read without the pointers is read with them. -/
theorem Chains.home (C : Chains t nodes) {k : K} {r : Int × List (HashEntry K V)}
    (h : (t.table nodes).bucket k = .ok r) : ∃ (i : Nat) (p : Ptr) (xs : List (Nat × HashEntry K V)), Home t k i ∧
      t.data[i]? = some p ∧ nodes[i]? = some xs ∧ Linked entryLinking t.heap.Has p xs ∧ r = ((i : Int), entries xs) := by
  obtain ⟨j, hindex, hchain⟩ := bind_eq_ok h
  unfold ChainedHashTable.hashIndex at hindex
  by_cases hz : t.buckets = 0
  · rw [if_pos (show (t.table nodes).buckets = 0 from hz)] at hindex
    cases hindex
  · rw [if_neg (show (t.table nodes).buckets ≠ 0 from hz)] at hindex
    cases hindex
    obtain ⟨chain, hload, -⟩ := bind_eq_ok hchain
    obtain ⟨hpos, hget⟩ := load_ok hload
    have H : Home t k (toInt (t.hash k % t.buckets)).toNat := ⟨hz, (Int.toNat_of_nonneg hpos).symm⟩
    have hlt : (toInt (t.hash k % t.buckets)).toNat < t.data.length := by
      rw [C.length, ← List.length_map (f := entries)]
      exact (List.getElem?_eq_some_iff.mp hget).1
    obtain ⟨p, xs, hp, hxs, hlinked⟩ := C.chain hlt
    rw [H.bucket_eq hxs] at h
    cases h
    exact ⟨_, p, xs, H, hp, hxs, hlinked, rfl⟩

/-! ## The new entry -/

/-- **The new entry** is a new node in front of the home chain, whether there was a chain or not. -/
theorem prepend_eq {k : K} (v : V) {i : Nat} {p : Ptr} (H : Home t k i) (hp : t.data[i]? = some p) :
    ∃ heap, t.prepend k v = .ok ({ t with heap, size := t.size + 1, data := t.data.set i (some t.heap.next) },
        some t.heap.next) ∧
      heap.cells = Function.update t.heap.cells t.heap.next (some (⟨k, v⟩, p)) ∧ heap.live = t.heap.live + 1 := by
  have hi := (List.getElem?_eq_some_iff.mp hp).1
  unfold prepend
  rw [H.headOf_eq hp, ok_bind]
  cases p with
  | none =>
      refine ⟨t.heap.alloc (⟨k, v⟩, none), ?_, rfl, t.heap.live_alloc _⟩
      show (store t.data (i : Int) (some t.heap.next) >>= _) = _
      rw [store_natCast _ hi, ok_bind]
      rfl
  | some b =>
      have hnew : (t.heap.alloc (⟨k, v⟩, none)).cells t.heap.next = some (⟨k, v⟩, none) := by
        rw [Heap.cells_alloc, Function.update_self]
      obtain ⟨heap, hwrite, hcells, -⟩ := Heap.write_eq hnew (⟨k, v⟩, some b)
      refine ⟨heap, ?_, ?_, ?_⟩
      · show (load t.data (i : Int) >>= _) = _
        rw [load_natCast hp, ok_bind]
        show ((t.heap.alloc (⟨k, v⟩, none)).write t.heap.next (⟨k, v⟩, some b) >>= _) = _
        rw [hwrite, ok_bind]
        show (store t.data (i : Int) (some t.heap.next) >>= _) = _
        rw [store_natCast _ hi, ok_bind]
        rfl
      · rw [hcells, Heap.cells_alloc, Function.update_idem]
      · rw [Heap.live_write hwrite, Heap.live_alloc]

/-- What a node in front of one chain does to the chains, where its address is free. -/
theorem Chains.cons (C : Chains t nodes) {i a : Nat} {p : Ptr} {xs : List (Nat × HashEntry K V)} {e : HashEntry K V}
    (hp : t.data[i]? = some p) (hxs : nodes[i]? = some xs) (ha : t.heap.cells a = none)
    (hdata : t'.data = t.data.set i (some a)) (hcells : t'.heap.cells = Function.update t.heap.cells a (some (e, p))) :
    Chains t' (nodes.set i ((a, e) :: xs)) ∧ t.heap.Extends t'.heap := by
  have hext : t.heap.Extends t'.heap := by
    intro c n hc
    rw [Heap.Has, hcells, Function.update_of_ne (hc.ne ha)]
    exact hc
  have hself : t'.heap.Has a (e, p) := by rw [Heap.Has, hcells, Function.update_self]
  refine ⟨C.set hxs hdata (.cons hself ((C.linked i p xs hp hxs).mono (fun c n => hext c n)))
    (fun c n _ => hext c n) ?_, hext⟩
  have hperm := (flatten_set_cons_perm hxs (a, e)).map Prod.fst
  rw [hperm.nodup_iff, List.map_cons, List.nodup_cons]
  refine ⟨fun hmem => ?_, C.disjoint⟩
  have hlive := C.live hmem
  rw [ha] at hlive
  cases hlive

/-- **Simulates.** Where the insertion without pointers returns, the one with pointers does: it builds the chains of that
    table, and returns a pointer to the new entry. This is said of tables with `I n`, for the number `n` of insertions so
    far, and of keys with `A`; then `I (n + 1)` is kept. -/
def Simulates (I : Nat → LinkedTable K V → Nodes K V → Prop) (A : K → Prop)
    (ins : LinkedTable K V → K → V → Checked (LinkedTable K V × Ptr))
    (insL : ChainedHashTable K V → K → V → Checked (ChainedHashTable K V × List (HashEntry K V))) : Prop :=
  ∀ n t nodes k v L c, Chains t nodes → I n t nodes → A k → insL (t.table nodes) k v = .ok (L, c) →
    ∃ t' nodes' a q, ins t k v = .ok (t', some a) ∧ Built t nodes t' nodes' ∧ L = t'.table nodes' ∧
      t'.heap.Has a (⟨k, v⟩, q) ∧ c.head? = some ⟨k, v⟩ ∧ I (n + 1) t' nodes'

/-- The new entry, with as many nodes more in the chains as in memory. -/
theorem Chains.prepend_table (C : Chains t nodes) {k : K} {v : V} {L : ChainedHashTable K V} {c : List (HashEntry K V)}
    (h : (t.table nodes).prepend k v = .ok (L, c)) : ∃ t' nodes' a q, t.prepend k v = .ok (t', some a) ∧
      Built t nodes t' nodes' ∧ t.heap.live + nodes'.flatten.length = t'.heap.live + nodes.flatten.length ∧
      L = t'.table nodes' ∧ t'.heap.Has a (⟨k, v⟩, q) ∧ c.head? = some ⟨k, v⟩ := by
  obtain ⟨r, hbucket, hrest⟩ := bind_eq_ok h
  obtain ⟨i, p, xs, H, hp, hxs, hlinked, rfl⟩ := C.home hbucket
  obtain ⟨heap, heq, hcells, hlive⟩ := prepend_eq v H hp
  have hi : i < (nodes.map entries).length := by
    rw [List.length_map]
    exact (List.getElem?_eq_some_iff.mp hxs).1
  obtain ⟨C', hext⟩ : Chains { t with heap, size := t.size + 1, data := t.data.set i (some t.heap.next) }
      (nodes.set i ((t.heap.next, ⟨k, v⟩) :: xs)) ∧ t.heap.Extends heap :=
    C.cons hp hxs t.heap.cells_next rfl hcells
  have hcount : (nodes.set i ((t.heap.next, ⟨k, v⟩) :: xs)).flatten.length = nodes.flatten.length + 1 := by
    rw [(flatten_set_cons_perm hxs _).length_eq, List.length_cons]
  have hsame : t.heap.live + (nodes.set i ((t.heap.next, ⟨k, v⟩) :: xs)).flatten.length
      = heap.live + nodes.flatten.length := by
    rw [hcount, hlive]
    omega
  change (store (nodes.map entries) (i : Int) _ >>= _) = _ at hrest
  rw [store_natCast _ hi, ok_bind] at hrest
  cases hrest
  refine ⟨_, _, _, p, heq, ⟨C', hext, Nat.le_of_eq hsame⟩, hsame, ?_, ?_, rfl⟩
  · unfold table
    rw [List.map_set]
    rfl
  · rw [Heap.Has, hcells, Function.update_self]

/-! ## The loops of a resize -/

section Resize

variable {I : Nat → LinkedTable K V → Nodes K V → Prop} {A : K → Prop}
  {ins : LinkedTable K V → K → V → Checked (LinkedTable K V × Ptr)}
  {insL : ChainedHashTable K V → K → V → Checked (ChainedHashTable K V × List (HashEntry K V))}

/-- **The inner loop** inserts the entries of the chain one after the other: what it inserts leaves the chain alone. -/
theorem rehashChain_table (hins : Simulates I A ins insL) {h₁ : Heap (EntryNode K V)} {p : Ptr}
    {xs : List (Nat × HashEntry K V)} (hx : Linked entryLinking h₁.Has p xs) (hA : ∀ x ∈ xs, A x.2.key) :
    ∀ fuel n (t₂ : LinkedTable K V) (nodes₂ : Nodes K V) (L : ChainedHashTable K V), xs.length ≤ fuel →
      Chains t₂ nodes₂ → I n t₂ nodes₂ → h₁.Extends t₂.heap →
      (entries xs).foldlM (ChainedHashTable.reinsert insL) (t₂.table nodes₂) = .ok L →
      ∃ t₃ nodes₃, rehashChain ins fuel t₂ p = .ok t₃ ∧ L = t₃.table nodes₃ ∧ Built t₂ nodes₂ t₃ nodes₃ ∧
        I (n + xs.length) t₃ nodes₃ := by
  induction hx with
  | nil =>
      intro fuel n t₂ nodes₂ L _ C₂ I₂ _ hL
      cases hL
      exact ⟨t₂, nodes₂, by cases fuel <;> rfl, rfl, Built.refl C₂, I₂⟩
  | @cons a e next xs ha hrest ih =>
      intro fuel n t₂ nodes₂ L hfuel C₂ I₂ hext hL
      rw [List.forall_mem_cons] at hA
      cases fuel with
      | zero => simp at hfuel
      | succ fuel =>
          obtain ⟨L₃, hfirst, hL⟩ := bind_eq_ok hL
          obtain ⟨⟨_, c⟩, hinsL, hpure⟩ := bind_eq_ok hfirst
          cases hpure
          obtain ⟨t₃, nodes₃, b, q, hins₃, B₃, rfl, -, -, I₃⟩ := hins n t₂ nodes₂ e.key e.value _ c C₂ I₂ hA.1 hinsL
          have hext₃ := hext.trans B₃.extends_heap
          obtain ⟨t₄, nodes₄, hloop, hL₄, B₄, I₄⟩ := ih hA.2 fuel (n + 1) t₃ nodes₃ L (Nat.le_of_succ_le_succ hfuel)
            B₃.chains I₃ hext₃ hL
          refine ⟨t₄, nodes₄, ?_, hL₄, B₃.trans B₄, ?_⟩
          · rw [rehashChain, entryLinking.load_eq (hext a _ ha), ok_bind]
            dsimp only
            rw [hins₃, ok_bind]
            dsimp only
            rw [entryLinking.load_eq (hext₃ a _ ha), ok_bind]
            exact hloop
          · rwa [List.length_cons, Nat.add_comm xs.length, ← Nat.add_assoc]

/-- The number of nodes in the chains at some indexes. -/
def nodesAt (nodes : Nodes K V) : List Nat → Nat
  | [] => 0
  | i :: is => (nodes[i]?.getD []).length + nodesAt nodes is

theorem nodesAt_append (nodes : Nodes K V) (is js : List Nat) :
    nodesAt nodes (is ++ js) = nodesAt nodes is + nodesAt nodes js := by
  induction is with
  | nil => exact (Nat.zero_add _).symm
  | cons i is ih => rw [List.cons_append, nodesAt, nodesAt, ih, Nat.add_assoc]

/-- The chains at the first indexes are the first chains. -/
theorem nodesAt_range (nodes : Nodes K V) : ∀ m, nodesAt nodes (List.range m) = (nodes.take m).flatten.length := by
  intro m
  induction m with
  | zero => simp [nodesAt]
  | succ m ih =>
      rw [List.range_succ, nodesAt_append, ih, List.take_add_one, List.flatten_append, List.length_append]
      cases hm : nodes[m]? with
      | none => simp [nodesAt, hm]
      | some xs => simp [nodesAt, hm]

/-- **The outer loop** goes through the array of the old table. -/
theorem rehash_table (hins : Simulates I A ins insL) (C₁ : Chains t₁ nodes₁) (hA : ∀ x ∈ nodes₁.flatten, A x.2.key) :
    ∀ (is : List Nat) n (t₂ : LinkedTable K V) (nodes₂ : Nodes K V) (L : ChainedHashTable K V), Chains t₂ nodes₂ →
      I n t₂ nodes₂ → t₁.heap.Extends t₂.heap →
      is.foldlM (fun L (i : Nat) => do
        let chain ← load (t₁.table nodes₁).data i
        chain.foldlM (ChainedHashTable.reinsert insL) L) (t₂.table nodes₂) = .ok L →
      ∃ t₃ nodes₃, is.foldlM (fun t₂ (i : Nat) => do
          let p ← load t₁.data i
          rehashChain ins (t₁.heap.next + 1) t₂ p) t₂ = .ok t₃ ∧
        L = t₃.table nodes₃ ∧ Built t₂ nodes₂ t₃ nodes₃ ∧ I (n + nodesAt nodes₁ is) t₃ nodes₃ := by
  intro is
  induction is with
  | nil =>
      intro n t₂ nodes₂ L C₂ I₂ _ hL
      cases hL
      exact ⟨t₂, nodes₂, rfl, rfl, Built.refl C₂, I₂⟩
  | cons i is ih =>
      intro n t₂ nodes₂ L C₂ I₂ hext hL
      obtain ⟨L₃, hround, hL⟩ := bind_eq_ok hL
      obtain ⟨chain, hload, hchain⟩ := bind_eq_ok hround
      have hget := (load_ok hload).2
      have hlt : i < t₁.data.length := by
        rw [C₁.length, ← List.length_map (f := entries)]
        exact (List.getElem?_eq_some_iff.mp hget).1
      obtain ⟨p, xs, hp, hxs, hlinked⟩ := C₁.chain hlt
      have hentries : (t₁.table nodes₁).data[i]? = some (entries xs) := by
        show (nodes₁.map entries)[i]? = _
        rw [List.getElem?_map, hxs]
        rfl
      rw [load_natCast hentries] at hload
      cases hload
      obtain ⟨t₃, nodes₃, hloop, rfl, B₃, I₃⟩ := rehashChain_table hins hlinked
        (fun x hx => hA x (mem_flatten_of_getElem? hxs hx)) _ n t₂ nodes₂ L₃ (Nat.le_succ_of_le hlinked.length_le) C₂ I₂
        hext hchain
      obtain ⟨t₄, nodes₄, hloops, hL₄, B₄, I₄⟩ := ih (n + xs.length) t₃ nodes₃ L B₃.chains I₃
        (hext.trans B₃.extends_heap) hL
      refine ⟨t₄, nodes₄, ?_, hL₄, B₃.trans B₄, ?_⟩
      · rw [List.foldlM_cons, load_natCast hp, ok_bind, hloop, ok_bind]
        exact hloops
      · rw [nodesAt, hxs, Option.getD_some, ← Nat.add_assoc]
        exact I₄

/-- A new table has empty chains, whatever is in memory. -/
theorem newIn_chains (heap : Heap (EntryNode K V)) (b : Nat) (hash : K → Nat) (comp : K → K → Bool) :
    Chains (newIn heap b hash comp) (List.replicate b []) := by
  have C := new_chains (V := V) b hash comp
  refine ⟨C.length, fun i p xs hp hxs => (C.linked i p xs hp hxs).mono (fun a n hn => ?_), C.disjoint⟩
  cases hn

theorem newIn_table (heap : Heap (EntryNode K V)) (b : Nat) (hash : K → Nat) (comp : K → K → Bool) :
    (newIn heap b hash comp).table (List.replicate b []) = ChainedHashTable.new b hash comp := by
  unfold table ChainedHashTable.new
  rw [List.map_replicate]
  rfl

/-- With no prime left a resize leaves the table as it is. -/
theorem resizeWith_last (hz : nextPrime t.buckets = 0) : t.resizeWith ins = .ok t := by
  rw [resizeWith, if_pos hz]
  rfl

/-- **Resized.** The nodes of the chains are all new ones; `t₂` is the temporary table. -/
structure Resized (t t₂ : LinkedTable K V) (nodes' : Nodes K V) : Prop where
  chains : Chains { t with heap := t₂.heap, buckets := nextPrime t.buckets, data := t₂.data } nodes'
  extends_heap : t.heap.Extends t₂.heap
  spare : t.heap.live + nodes'.flatten.length ≤ t₂.heap.live

/-- **A resize** with a prime left: it leaves the old nodes in memory, in no chain. -/
theorem Chains.resizeWith_table (hins : Simulates I A ins insL) (C : Chains t nodes) (hz : nextPrime t.buckets ≠ 0)
    (hA : ∀ x ∈ nodes.flatten, A x.2.key)
    (I₀ : I 0 (newIn t.heap (nextPrime t.buckets) t.hash t.comp) (List.replicate (nextPrime t.buckets) []))
    {L : ChainedHashTable K V} (h : (t.table nodes).resizeWith insL = .ok L) :
    ∃ t₂ nodes', t.resizeWith ins = .ok { t with heap := t₂.heap, buckets := nextPrime t.buckets, data := t₂.data } ∧
      L = table { t with heap := t₂.heap, buckets := nextPrime t.buckets, data := t₂.data } nodes' ∧
      Resized t t₂ nodes' ∧ I (nodes.take t.buckets).flatten.length t₂ nodes' := by
  have hn : nextPrime (t.table nodes).buckets ≠ 0 := hz
  unfold ChainedHashTable.resizeWith at h
  dsimp only at h
  rw [if_neg hn] at h
  obtain ⟨L₂, hrehash, h⟩ := bind_eq_ok h
  cases h
  have C₀ := newIn_chains t.heap (nextPrime t.buckets) t.hash t.comp
  rw [show ChainedHashTable.new (nextPrime (t.table nodes).buckets) (t.table nodes).hash (t.table nodes).comp
      = (newIn t.heap (nextPrime t.buckets) t.hash t.comp).table (List.replicate (nextPrime t.buckets) []) from
    (newIn_table _ _ _ _).symm] at hrehash
  obtain ⟨t₂, nodes₂, hloops, rfl, B, I₂⟩ := rehash_table hins C hA (List.range t.buckets) 0 _ _ L₂ C₀ I₀
    (Heap.Extends.refl _) hrehash
  rw [Nat.zero_add, nodesAt_range] at I₂
  refine ⟨t₂, nodes₂, ?_, rfl, ⟨⟨B.chains.length, B.chains.linked, B.chains.disjoint⟩, B.extends_heap, ?_⟩, I₂⟩
  · unfold resizeWith
    dsimp only
    rw [if_neg hz]
    show (rehash ins t _ >>= _) = _
    rw [rehash, hloops]
    rfl
  · have hspare := B.spare
    have hempty : (List.replicate (nextPrime t.buckets) ([] : List (Nat × HashEntry K V))).flatten.length = 0 := by simp
    rw [hempty] at hspare
    exact hspare

/-- The chains are empty exactly where the array has null pointers only. -/
theorem Chains.flatten_eq_nil_iff (C : Chains t nodes) : nodes.flatten = [] ↔ ∀ p ∈ t.data, p = none := by
  rw [List.flatten_eq_nil_iff]
  constructor
  · intro h p hp
    obtain ⟨i, hi, rfl⟩ := List.mem_iff_getElem.mp hp
    obtain ⟨p, xs, hp, hxs, hlinked⟩ := C.chain hi
    obtain rfl := h xs (List.mem_of_getElem? hxs)
    rw [List.getElem?_eq_getElem hi] at hp
    cases hp
    exact hlinked.eq_firstNode
  · intro h xs hxs
    obtain ⟨i, hi, rfl⟩ := List.mem_iff_getElem.mp hxs
    obtain ⟨p, ys, hp, hys, hlinked⟩ := C.chain (C.length ▸ hi)
    rw [List.getElem?_eq_getElem hi] at hys
    cases hys
    obtain rfl := h p (List.mem_of_getElem? hp)
    generalize nodes[i] = ys at hlinked
    cases hlinked
    rfl

/-- A resize of a table without entries makes no nodes. -/
theorem resizeWith_empty (hnone : ∀ p ∈ t.data, p = none) (hz : nextPrime t.buckets ≠ 0) (h : t.resizeWith ins = .ok t') :
    t'.heap = t.heap ∧ ∀ p ∈ t'.data, p = none := by
  unfold resizeWith at h
  dsimp only at h
  rw [if_neg hz] at h
  obtain ⟨t₂, hloops, h⟩ := bind_eq_ok h
  cases h
  have hsame : t₂ = newIn t.heap (nextPrime t.buckets) t.hash t.comp := by
    refine foldlM_invariant (fun _ s => s = newIn t.heap (nextPrime t.buckets) t.hash t.comp) ?_ _ [] _ t₂ rfl rfl hloops
    rintro done i rest s s' - rfl hround
    obtain ⟨p, hload, hchain⟩ := bind_eq_ok hround
    obtain rfl := hnone p (List.mem_of_getElem? (load_ok hload).2)
    cases hchain
    rfl
  rw [hsame]
  exact ⟨rfl, fun p hp => (List.mem_replicate.mp hp).2⟩

/-- **What a resize loses** is what the old chains had: nothing only where they were empty. -/
theorem Resized.spare_iff (R : Resized t t₂ nodes') (C : Chains t nodes) (hz : nextPrime t.buckets ≠ 0)
    (h : t.resizeWith ins = .ok { t with heap := t₂.heap, buckets := nextPrime t.buckets, data := t₂.data }) :
    t.heap.live + nodes'.flatten.length = t₂.heap.live + nodes.flatten.length ↔ ∀ p ∈ t.data, p = none := by
  rw [← C.flatten_eq_nil_iff]
  constructor
  · intro heq
    have hspare := R.spare
    exact List.eq_nil_of_length_eq_zero (by omega)
  · intro hnil
    obtain ⟨hheap, hnone⟩ := resizeWith_empty (C.flatten_eq_nil_iff.mp hnil) hz h
    dsimp only at hheap
    rw [hheap, hnil, R.chains.flatten_eq_nil_iff.mpr hnone]

end Resize

/-! ## Insertion -/

/-- **Frugal.** An insertion does not let a table grow that has entries. -/
def Frugal (t : LinkedTable K V) : ChainedHashTable.Call K V → Prop
  | .insert _ _ => t.loadAtLeastThreeQuarters = true → nextPrime t.buckets ≠ 0 → ∀ p ∈ t.data, p = none
  | _ => True

/-- What is asked of a table where nothing but the simulation is of interest. -/
def AnyTable (_ : Nat) (_ : LinkedTable K V) (_ : Nodes K V) : Prop := True

/-- **An insertion over a resize that builds its temporary table.** Nodes are lost exactly where the old table had some. -/
theorem Chains.insertWith_table {fuel : Nat}
    (ih : Simulates (V := V) AnyTable (fun _ : K => True) (insertFuel fuel) (ChainedHashTable.insertFuel fuel))
    (C : Chains t nodes) {k : K} {v : V} {L : ChainedHashTable K V} {c : List (HashEntry K V)}
    (h : ChainedHashTable.insertFuel (fuel + 1) (t.table nodes) k v = .ok (L, c)) :
    ∃ t' nodes' a q, insertFuel (fuel + 1) t k v = .ok (t', some a) ∧ Built t nodes t' nodes' ∧ L = t'.table nodes' ∧
      t'.heap.Has a (⟨k, v⟩, q) ∧ c.head? = some ⟨k, v⟩ ∧
      (t.heap.live + nodes'.flatten.length = t'.heap.live + nodes.flatten.length ↔ Frugal t (.insert k v)) := by
  rw [ChainedHashTable.insertFuel] at h
  rw [insertFuel]
  by_cases hload : t.loadAtLeastThreeQuarters = true
  · rw [if_pos hload]
    rw [if_pos (show (t.table nodes).loadAtLeastThreeQuarters = true from hload)] at h
    obtain ⟨L₁, hres, h⟩ := bind_eq_ok h
    by_cases hz : nextPrime t.buckets = 0
    · rw [ChainedHashTable.resizeWith_last (show nextPrime (t.table nodes).buckets = 0 from hz)] at hres
      cases hres
      obtain ⟨t', nodes', a, q, hins, B, hsame, hL, hnew, hc⟩ := C.prepend_table h
      refine ⟨t', nodes', a, q, ?_, B, hL, hnew, hc, iff_of_true hsame (fun _ hn => absurd hz hn)⟩
      rw [resizeWith_last hz, ok_bind]
      exact hins
    · obtain ⟨t₂, nodes₁, hres₁, rfl, R, -⟩ := C.resizeWith_table ih hz (fun _ _ => trivial) trivial hres
      obtain ⟨t', nodes', a, q, hins, B, hsame, hL, hnew, hc⟩ := R.chains.prepend_table h
      have hspare := R.spare
      dsimp only at hsame
      refine ⟨t', nodes', a, q, ?_, ⟨B.chains, R.extends_heap.trans B.extends_heap, by omega⟩, hL, hnew, hc, ?_⟩
      · rw [hres₁, ok_bind]
        exact hins
      · rw [show Frugal t (.insert k v) ↔ ∀ p ∈ t.data, p = none from ⟨fun hf => hf hload hz, fun hn _ _ => hn⟩,
          ← R.spare_iff C hz hres₁]
        omega
  · rw [if_neg hload]
    rw [if_neg (show ¬ (t.table nodes).loadAtLeastThreeQuarters = true from hload)] at h
    obtain ⟨t', nodes', a, q, hins, B, hsame, hL, hnew, hc⟩ := C.prepend_table h
    exact ⟨t', nodes', a, q, hins, B, hL, hnew, hc, iff_of_true hsame (fun hl => absurd hl hload)⟩

/-- **Insertion**, by induction on the fuel. -/
theorem insertFuel_table : ∀ fuel : Nat,
    Simulates (V := V) AnyTable (fun _ : K => True) (insertFuel fuel) (ChainedHashTable.insertFuel fuel) := by
  intro fuel
  induction fuel with
  | zero =>
      intro n t nodes k v L c _ _ _ h
      cases h
  | succ fuel ih =>
      intro n t nodes k v L c C _ _ h
      obtain ⟨t', nodes', a, q, hins, B, hL, hnew, hc, -⟩ := C.insertWith_table ih h
      exact ⟨t', nodes', a, q, hins, B, hL, hnew, hc, trivial⟩

/-! ## The other operations -/

/-- A chain with the same addresses leaves the addresses of the table as they are. -/
theorem addresses_set {i : Nat} {xs ys : List (Nat × HashEntry K V)} (hxs : nodes[i]? = some xs)
    (heq : ys.map Prod.fst = xs.map Prod.fst) : (nodes.set i ys).flatten.map Prod.fst = nodes.flatten.map Prod.fst := by
  obtain ⟨hi, rfl⟩ := List.getElem?_eq_some_iff.mp hxs
  have hset : (nodes.set i ys).map (List.map Prod.fst) = nodes.map (List.map Prod.fst) := by
    rw [List.map_set, heq]
    apply List.ext_getElem?
    intro j
    by_cases hij : i = j
    · subst hij
      rw [List.getElem?_set_self (by rw [List.length_map]; exact hi), List.getElem?_map, List.getElem?_eq_getElem hi]
      rfl
    · rw [List.getElem?_set_ne hij]
  rw [List.map_flatten, List.map_flatten, hset]

/-- **Update** writes a value into the first node of the home chain. -/
theorem Chains.update_table (C : Chains t nodes) {k : K} {v : V} {L : ChainedHashTable K V}
    (h : (t.table nodes).update k v = .ok L) : ∃ t' nodes', t.update k v = .ok t' ∧ Chains t' nodes' ∧
      L = t'.table nodes' ∧ t'.heap.live = t.heap.live ∧ nodes'.flatten.length = nodes.flatten.length := by
  obtain ⟨r, hbucket, hrest⟩ := bind_eq_ok h
  obtain ⟨i, p, xs, H, hp, hxs, hlinked, rfl⟩ := C.home hbucket
  unfold update
  rw [H.headOf_eq hp, ok_bind]
  cases hlinked with
  | nil =>
      cases hrest
      exact ⟨t, nodes, rfl, C, rfl, rfl, rfl⟩
  | @cons a e next rest ha hlinked =>
      have hi : i < (nodes.map entries).length := by
        rw [List.length_map]
        exact (List.getElem?_eq_some_iff.mp hxs).1
      change (store (nodes.map entries) (i : Int) _ >>= _) = _ at hrest
      rw [store_natCast _ hi, ok_bind] at hrest
      cases hrest
      obtain ⟨heap, hwrite, hcells, -⟩ := Heap.write_eq ha ({ e with value := v }, next)
      have hother : ∀ c n, c ≠ a → t.heap.Has c n → heap.Has c n := by
        intro c n hc hn
        rw [Heap.Has, hcells, Function.update_of_ne hc]
        exact hn
      have hwhole : Linked entryLinking t.heap.Has (some a) ((a, e) :: rest) := .cons ha hlinked
      have hnodup := hwhole.nodup (fun a n m hn hm => hn.unique hm)
      rw [List.map_cons, List.nodup_cons] at hnodup
      have hself : heap.Has a ({ e with value := v }, next) := by rw [Heap.Has, hcells, Function.update_self]
      have haddr : (nodes.set i ((a, { e with value := v }) :: rest)).flatten.map Prod.fst = nodes.flatten.map Prod.fst :=
        addresses_set hxs rfl
      have hdata : t.data = t.data.set i (some a) := by
        obtain ⟨hi, hget⟩ := List.getElem?_eq_some_iff.mp hp
        rw [← hget, List.set_getElem_self]
      refine ⟨{ t with heap }, nodes.set i ((a, { e with value := v }) :: rest), ?_, ?_, ?_, Heap.live_write hwrite, ?_⟩
      · show (entryLinking.load t.heap (some a) >>= _) = _
        rw [entryLinking.load_eq ha, ok_bind]
        show (t.heap.write a ({ e with value := v }, next) >>= _) = _
        rw [hwrite]
        rfl
      · refine C.set hxs hdata (.cons hself (hlinked.mono_on (fun x hx n hn => hother x.1 n ?_ hn))) ?_ ?_
        · intro heq
          exact hnodup.1 (List.mem_map.mpr ⟨x, hx, heq⟩)
        · intro c n hc hn
          exact hother c n (fun heq => hc (by simp [heq])) hn
        · rw [haddr]
          exact C.disjoint
      · unfold table
        rw [List.map_set]
        rfl
      · have hlength := congrArg List.length haddr
        rwa [List.length_map, List.length_map] at hlength

/-- A lookup that returns without the pointers returns with them, a pointer to the entry that the other one finds. -/
theorem Chains.find_entry (C : Chains t nodes) {k : K} {c : List (HashEntry K V)} (h : (t.table nodes).find k = .ok c) :
    ∃ p, t.find k = .ok p ∧ t.entryAt p = .ok c.head? := by
  obtain ⟨r, hbucket, hrest⟩ := bind_eq_ok h
  obtain ⟨i, p, xs, H, hp, hxs, hlinked, rfl⟩ := C.home hbucket
  cases hrest
  have hhead : ((entries xs).dropWhile (fun e => !t.comp e.key k)).head? = (xs.find? (t.hit k)).map Prod.snd := by
    rw [← List.find?_eq_head?_dropWhile_not, entries, List.find?_map]
    rfl
  refine ⟨_, C.find_eq H hxs, ?_⟩
  show entryAt t _ = .ok ((entries xs).dropWhile (fun e => !t.comp e.key k)).head?
  rw [hhead]
  cases hfirst : xs.find? (t.hit k) with
  | none => rfl
  | some x =>
      obtain ⟨before, after, rfl⟩ := List.append_of_mem (List.mem_of_find?_eq_some hfirst)
      show (entryLinking.load t.heap (some x.1) >>= _) = _
      rw [entryLinking.load_eq hlinked.node]
      rfl

/-- A removal that returns took one node out of memory, or did nothing. -/
theorem remove_live {k : K} (h : t.remove k = .ok t') : t' = t ∨ t'.heap.live + 1 = t.heap.live := by
  obtain ⟨⟨n, p⟩, -, h⟩ := bind_eq_ok h
  obtain ⟨⟨q, p'⟩, -, h⟩ := bind_eq_ok h
  cases p' with
  | none =>
      cases h
      exact Or.inl rfl
  | some a =>
      obtain ⟨⟨e, next⟩, -, h⟩ := bind_eq_ok h
      obtain ⟨t₁, hstitch, h⟩ := bind_eq_ok h
      obtain ⟨heap, hfree, h⟩ := bind_eq_ok h
      cases h
      have hstitched : t₁.heap.live = t.heap.live := by
        cases q with
        | none =>
            obtain ⟨data, -, h⟩ := bind_eq_ok hstitch
            cases h
            rfl
        | some b =>
            obtain ⟨⟨y, next'⟩, -, h⟩ := bind_eq_ok hstitch
            obtain ⟨heap', hwrite, h⟩ := bind_eq_ok h
            cases h
            exact Heap.live_write hwrite
      refine Or.inr ?_
      rw [← hstitched]
      exact Heap.live_free hfree

/-- A removal returns where the home chain is in the array, and takes a node out of memory with the one out of the chain. -/
theorem Chains.remove_spare (C : Chains t nodes) {k : K} {i : Nat} (H : Home t k i) (hi : i < t.data.length) :
    ∃ t', t.remove k = .ok t' ∧
      ∀ nodes', Chains t' nodes' → t.heap.live + nodes'.flatten.length = t'.heap.live + nodes.flatten.length := by
  obtain ⟨p, xs, hp, hxs, hlinked⟩ := C.chain hi
  cases hfirst : xs.find? (t.hit k) with
  | none =>
      have hnone : ∀ x ∈ xs, t.hit k x = false := fun x hx => by simpa using List.find?_eq_none.mp hfirst x hx
      refine ⟨t, C.remove_none H hp hxs hnone, fun nodes' C' => ?_⟩
      rw [C'.unique C]
  | some x =>
      obtain ⟨a, e⟩ := x
      obtain ⟨he, front, rest, rfl, hfront⟩ := List.find?_eq_some_iff_append.mp hfirst
      have hfront' : ∀ x ∈ front, t.hit k x = false := fun x hx => by simpa using hfront x hx
      obtain ⟨t', hremove, R⟩ := C.remove_some H hp hxs hfront' he
      refine ⟨t', hremove, fun nodes' C' => ?_⟩
      rw [C'.unique R.chains]
      have hlength := (flatten_set_perm hxs (front ++ rest)).length_eq
      simp only [List.length_append, List.length_cons] at hlength
      rcases remove_live hremove with heq | hlive
      · -- the node was there, and is gone
        have hcell : t.heap.cells a = some _ := hlinked.node
        rw [← heq, R.gone] at hcell
        cases hcell
      · omega

/-- **Removal** is the removal without pointers, and loses no node. -/
theorem Chains.remove_entry (C : Chains t nodes) {k : K} {L : ChainedHashTable K V}
    (h : (t.table nodes).remove k = .ok L) : ∃ t' nodes', t.remove k = .ok t' ∧ Chains t' nodes' ∧
      L = t'.table nodes' ∧ t.heap.live + nodes'.flatten.length = t'.heap.live + nodes.flatten.length := by
  obtain ⟨r, hbucket, -⟩ := bind_eq_ok h
  obtain ⟨i, p, xs, H, hp, -, -, rfl⟩ := C.home hbucket
  obtain ⟨t', hremove, hlive⟩ := C.remove_spare H (List.getElem?_eq_some_iff.mp hp).1
  obtain ⟨nodes', C', htable⟩ := C.remove_table hremove
  rw [h] at htable
  cases htable
  exact ⟨t', nodes', hremove, C', rfl, hlive nodes' C'⟩

/-! ## Calls -/

/-- **One call.** Where the table without pointers answers, the nodes give the same answer. No node gets lost in it exactly
    if it does not let a table grow that has entries. -/
theorem Chains.answer_table (C : Chains t nodes) {call : ChainedHashTable.Call K V} {L : ChainedHashTable K V}
    {o : Option (HashEntry K V)} (h : (t.table nodes).answer call = .ok (L, o)) :
    ∃ t' nodes', t.answer call = .ok (t', o) ∧ Chains t' nodes' ∧ L = t'.table nodes' ∧
      t.heap.live + nodes'.flatten.length ≤ t'.heap.live + nodes.flatten.length ∧
      (t.heap.live + nodes'.flatten.length = t'.heap.live + nodes.flatten.length ↔ Frugal t call) := by
  cases call with
  | insert k v =>
      obtain ⟨⟨L', c⟩, hinsL, h⟩ := bind_eq_ok h
      cases h
      obtain ⟨t', nodes', a, q, hins, B, hL, hnew, hc, hfrugal⟩ := C.insertWith_table (insertFuel_table primes.length) hinsL
      refine ⟨t', nodes', ?_, B.chains, hL, B.spare, hfrugal⟩
      show (t.insert k v >>= _) = _
      rw [show t.insert k v = .ok (t', some a) from hins, ok_bind]
      show ((entryLinking.load t'.heap (some a) >>= _) >>= _) = _
      rw [entryLinking.load_eq hnew, hc]
      rfl
  | update k v =>
      obtain ⟨L', hupdL, h⟩ := bind_eq_ok h
      cases h
      obtain ⟨t', nodes', hupd, C', hL, hlive, hlength⟩ := C.update_table hupdL
      refine ⟨t', nodes', ?_, C', hL, by omega, iff_of_true (by omega) trivial⟩
      show (t.update k v >>= _) = _
      rw [hupd]
      rfl
  | remove k =>
      obtain ⟨L', hremL, h⟩ := bind_eq_ok h
      cases h
      obtain ⟨t', nodes', hrem, C', hL, hlive⟩ := C.remove_entry hremL
      refine ⟨t', nodes', ?_, C', hL, Nat.le_of_eq hlive, iff_of_true hlive trivial⟩
      show (t.remove k >>= _) = _
      rw [hrem]
      rfl
  | find k =>
      obtain ⟨c, hfindL, h⟩ := bind_eq_ok h
      cases h
      obtain ⟨p, hfind, hentry⟩ := C.find_entry hfindL
      refine ⟨t, nodes, ?_, C, rfl, Nat.le_refl _, iff_of_true rfl trivial⟩
      show (t.find k >>= _) = _
      rw [hfind, ok_bind, hentry]
      rfl

/-! ## Runs -/

/-- **A run**: the nodes give the answers of the table without pointers, and no node gets lost exactly if every insertion is
    frugal. -/
theorem Chains.run_table : ∀ (calls : List (ChainedHashTable.Call K V)) (t : LinkedTable K V) (nodes : Nodes K V),
    Chains t nodes → ChainedHashTable.Shaped (t.table nodes) → ∃ t' nodes' os, runAll answer t calls = .ok (t', os) ∧
      runAll ChainedHashTable.answer (t.table nodes) calls = .ok (t'.table nodes', os) ∧ Chains t' nodes' ∧
      t.heap.live + nodes'.flatten.length ≤ t'.heap.live + nodes.flatten.length ∧
      (t.heap.live + nodes'.flatten.length = t'.heap.live + nodes.flatten.length ↔ Guarded answer Frugal t calls) := by
  intro calls
  induction calls with
  | nil =>
      intro t nodes C _
      exact ⟨t, nodes, [], rfl, rfl, C, Nat.le_refl _, iff_of_true rfl trivial⟩
  | cons call calls ih =>
      intro t nodes C S
      obtain ⟨L, o, hL, S₁⟩ := S.answer_ok call
      obtain ⟨t₁, nodes₁, hstep, C₁, rfl, hspare₁, hfrugal₁⟩ := C.answer_table hL
      obtain ⟨t', nodes', os, hrun, hrunL, C', hspare, hfrugal⟩ := ih t₁ nodes₁ C₁ S₁
      refine ⟨t', nodes', o :: os, ?_, ?_, C', by omega, ?_⟩
      · rw [runAll_cons_ok hstep, hrun]
        rfl
      · rw [runAll_cons_ok hL, hrunL]
        rfl
      · have hguard : Guarded answer Frugal t (call :: calls) ↔ Frugal t call ∧ Guarded answer Frugal t₁ calls := by
          refine and_congr_right (fun _ => ⟨fun h => h t₁ o hstep, fun h s o' hs => ?_⟩)
          rw [hstep] at hs
          cases hs
          exact h
        rw [hguard, ← hfrugal₁, ← hfrugal]
        omega

/-- The live nodes are all in the chains exactly if there are no more of them than the chains have. -/
theorem Chains.live_iff (C : Chains t nodes) :
    (∀ a, (t.heap.cells a).isSome = true → a ∈ nodes.flatten.map Prod.fst) ↔ t.heap.live ≤ nodes.flatten.length := by
  have hsub : (nodes.flatten.map Prod.fst).toFinset ⊆ t.heap.inUse := by
    intro a ha
    exact Heap.mem_inUse.mpr (C.live (List.mem_toFinset.mp ha))
  have hcard : (nodes.flatten.map Prod.fst).toFinset.card = nodes.flatten.length := by
    rw [List.toFinset_card_of_nodup C.disjoint, List.length_map]
  constructor
  · intro h
    rw [← hcard]
    exact Finset.card_le_card (fun a ha => List.mem_toFinset.mpr (h a (Heap.mem_inUse.mp ha)))
  · intro h a ha
    rw [← List.mem_toFinset, Finset.eq_of_subset_of_card_le hsub (by rw [hcard]; exact h)]
    exact Heap.mem_inUse.mpr ha

/-- A new table has the shape, and no nodes. -/
theorem new_run (hash : K → Nat) (comp : K → K → Bool) {b : Nat} (hb : 1 ≤ b) (hsmall : b < 2147483648)
    (calls : List (ChainedHashTable.Call K V)) : ∃ t nodes os, runAll answer (new b hash comp) calls = .ok (t, os) ∧
      runAll ChainedHashTable.answer (ChainedHashTable.new b hash comp) calls = .ok (t.table nodes, os) ∧ Chains t nodes ∧
      nodes.flatten.length ≤ t.heap.live ∧
      (nodes.flatten.length = t.heap.live ↔ Guarded answer Frugal (new b hash comp) calls) := by
  have htable : (new b hash comp : LinkedTable K V).table (List.replicate b []) = ChainedHashTable.new b hash comp :=
    newIn_table .empty b hash comp
  have S := (ChainedHashTable.new_sound (V := V) hash comp hb hsmall).shaped
  rw [← htable] at S
  obtain ⟨t, nodes, os, hrun, hrunL, C, hspare, hfrugal⟩ := Chains.run_table calls (new b hash comp) _ (new_chains b hash comp) S
  rw [htable] at hrunL
  have hempty : (List.replicate b ([] : List (Nat × HashEntry K V))).flatten.length = 0 := by simp
  have hnone : (new b hash comp : LinkedTable K V).heap.live = 0 := Heap.live_empty
  rw [hempty, hnone, Nat.zero_add] at hspare hfrugal
  exact ⟨t, nodes, os, hrun, hrunL, C, hspare, hfrugal⟩

/-- **The nodes of the hash table are the hash table.** Every run of insertions, updates, removals and lookups returns: it
    dereferences no null or dangling pointer and frees nothing twice. It gives the answers of the table without pointers and
    ends in chains of the entries of that table, no node of which is in two places. -/
theorem nodes_refine_table (hash : K → Nat) (comp : K → K → Bool) (b : Nat) (hb : 1 ≤ b) (hsmall : b < 2147483648)
    (calls : List (ChainedHashTable.Call K V)) : ∃ t nodes os, runAll answer (new b hash comp) calls = .ok (t, os) ∧
      Chains t nodes ∧
      runAll ChainedHashTable.answer (ChainedHashTable.new b hash comp) calls = .ok (t.table nodes, os) := by
  obtain ⟨t, nodes, os, hrun, hrunL, C, -, -⟩ := new_run hash comp hb hsmall calls
  exact ⟨t, nodes, os, hrun, C, hrunL⟩

theorem nodes_refine_table_five : ∃ t nodes os, runAll answer (new 17 uintHash uintEq)
      ([.insert 5 7, .insert 22 8, .update 22 9, .remove 5, .find 22] : List (ChainedHashTable.Call Nat Nat)) = .ok (t, os) ∧
    Chains t nodes ∧ runAll ChainedHashTable.answer (ChainedHashTable.new 17 uintHash uintEq)
      [.insert 5 7, .insert 22 8, .update 22 9, .remove 5, .find 22] = .ok (t.table nodes, os) :=
  nodes_refine_table uintHash uintEq 17 (by decide) (by decide) _

/-- **When the hash table leaks no memory**: after a run every live node is in a chain of the table exactly if no insertion
    of the run let the table grow while it had entries. -/
theorem run_leaks_nothing_iff (hash : K → Nat) (comp : K → K → Bool) (b : Nat) (hb : 1 ≤ b) (hsmall : b < 2147483648)
    (calls : List (ChainedHashTable.Call K V)) : ∃ t nodes os, runAll answer (new b hash comp) calls = .ok (t, os) ∧
      Chains t nodes ∧ ((∀ a, (t.heap.cells a).isSome = true → a ∈ nodes.flatten.map Prod.fst) ↔
        Guarded answer Frugal (new b hash comp) calls) := by
  obtain ⟨t, nodes, os, hrun, -, C, hle, hfrugal⟩ := new_run hash comp hb hsmall calls
  refine ⟨t, nodes, os, hrun, C, ?_⟩
  rw [C.live_iff, ← hfrugal]
  omega

theorem run_leaks_nothing_iff_two : ∃ t nodes os, runAll answer (new 17 uintHash uintEq)
      ([.insert 5 7, .insert 22 8] : List (ChainedHashTable.Call Nat Nat)) = .ok (t, os) ∧ Chains t nodes ∧
    ((∀ a, (t.heap.cells a).isSome = true → a ∈ nodes.flatten.map Prod.fst) ↔
      Guarded answer Frugal (new 17 uintHash uintEq) [.insert 5 7, .insert 22 8]) :=
  run_leaks_nothing_iff uintHash uintEq 17 (by decide) (by decide) _

end LinkedTable
end Flowpath
end Freeflow
