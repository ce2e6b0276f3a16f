import Freeflow.Flowpath.HashNodes
import Freeflow.Flowpath.HashTrace

/-!
# `Flowpath.HashMemory` — what the hash table takes from memory

`Flowpath.HashNodes` has the lookups and the removals along the nodes of a chain; here are the operations that make nodes or
write into them. `fp_chained_hash_table_resize` goes along the chains of the old table and makes new nodes for their entries
in a temporary one, which is in the same memory. It frees the old array and the record of the temporary table, which are not
among the nodes, and none of the old nodes.

As in `Flowpath.Hash` the recursion between `insert` and `resize` goes through `insertFuel`.

## Contents
- `newIn`, `entryNew`, `entryInsert`, `prepend`, `insert`/`resize`, `update`.
- `answer`: one call, with the entry behind the pointer that it returns; the same for the table without pointers.
-/

namespace Freeflow
namespace Flowpath

variable {K V : Type}

namespace LinkedTable

/-- `fp_chained_hash_table_load(t) >= .75`. -/
def loadAtLeastThreeQuarters (t : LinkedTable K V) : Bool :=
  if t.size = 0 then 0 < t.buckets else 3 * t.size ≤ 4 * t.buckets

/-- `fp_chained_hash_table_new`, in memory that may have entries in it. -/
def newIn (heap : Heap (EntryNode K V)) (buckets : Nat) (hash : K → Nat) (comp : K → K → Bool) : LinkedTable K V where
  heap := heap
  size := 0
  buckets := buckets
  hash := hash
  comp := comp
  data := List.replicate buckets none

/-- `fp_chained_hash_entry_new`: the memory with the entry, and its address. -/
def entryNew (h : Heap (EntryNode K V)) (k : K) (v : V) : Heap (EntryNode K V) × Nat :=
  (h.alloc (entryLinking.node ⟨k, v⟩ none), h.next)

/-- `fp_chained_hash_entry_insert`, with `&t->data[n]` for the head. -/
def entryInsert (t : LinkedTable K V) (n : Int) (k : K) (v : V) : Checked (LinkedTable K V × Ptr) := do
  let (heap, ent) := entryNew t.heap k v
  let head ← load t.data n
  let heap ← heap.write ent (entryLinking.node ⟨k, v⟩ head)
  let data ← store t.data n (some ent)
  return ({ t with heap, data }, some ent)

/-- The end of `fp_chained_hash_table_insert`, behind the test of the high-water mark. -/
def prepend (t : LinkedTable K V) (k : K) (v : V) : Checked (LinkedTable K V × Ptr) := do
  let (n, p) ← t.headOf k
  let t := { t with size := t.size + 1 }
  match p with
  | none => do
      let (heap, ent) := entryNew t.heap k v
      let data ← store t.data n (some ent)
      return ({ t with heap, data }, some ent)
  | some _ => t.entryInsert n k v

/-- The inner loop of `fp_chained_hash_table_resize`, from the entry `p` on. The insertion is a parameter, here and below. -/
def rehashChain (ins : LinkedTable K V → K → V → Checked (LinkedTable K V × Ptr)) :
    Nat → LinkedTable K V → Ptr → Checked (LinkedTable K V)
  | _, t₂, none => .ok t₂
  | 0, _, some _ => .error .outOfFuel
  | fuel + 1, t₂, some p => do
      let (e, _) ← entryLinking.load t₂.heap (some p)
      let (t₂, _) ← ins t₂ e.key e.value
      -- the pointer to the next entry is read once the insertion is done
      let (_, next) ← entryLinking.load t₂.heap (some p)
      rehashChain ins fuel t₂ next

/-- The two loops of `fp_chained_hash_table_resize`. -/
def rehash (ins : LinkedTable K V → K → V → Checked (LinkedTable K V × Ptr)) (t₁ t₂ : LinkedTable K V) :
    Checked (LinkedTable K V) :=
  (List.range t₁.buckets).foldlM (fun t₂ (i : Nat) => do
    let p ← load t₁.data i
    rehashChain ins (t₁.heap.next + 1) t₂ p) t₂

/-- `fp_chained_hash_table_resize`. -/
def resizeWith (ins : LinkedTable K V → K → V → Checked (LinkedTable K V × Ptr)) (t₁ : LinkedTable K V) :
    Checked (LinkedTable K V) :=
  let n := nextPrime t₁.buckets
  if n = 0 then return t₁ else do
    let t₂ ← rehash ins t₁ (newIn t₁.heap n t₁.hash t₁.comp)
    return { t₁ with heap := t₂.heap, buckets := n, data := t₂.data }

/-- `fp_chained_hash_table_insert`, allowed to nest `fuel` tables deep. -/
def insertFuel : Nat → LinkedTable K V → K → V → Checked (LinkedTable K V × Ptr)
  | 0, _, _, _ => .error .outOfFuel
  | fuel + 1, t, k, v =>
      if t.loadAtLeastThreeQuarters then do
        let t ← t.resizeWith (insertFuel fuel)
        t.prepend k v
      else t.prepend k v

/-- `fp_chained_hash_table_insert`. -/
def insert (t : LinkedTable K V) (k : K) (v : V) : Checked (LinkedTable K V × Ptr) :=
  insertFuel (primes.length + 1) t k v

/-- `fp_chained_hash_table_update`. -/
def update (t : LinkedTable K V) (k : K) (v : V) : Checked (LinkedTable K V) := do
  let (_, ent) ← t.headOf k
  match ent with
  | none => return t
  | some a => do
      let (e, next) ← entryLinking.load t.heap ent
      let heap ← t.heap.write a (entryLinking.node { e with value := v } next)
      return { t with heap }

/-- The entry that a returned pointer points at. -/
def entryAt (t : LinkedTable K V) : Ptr → Checked (Option (HashEntry K V))
  | none => return none
  | some a => do
      let (e, _) ← entryLinking.load t.heap (some a)
      return some e

/-- One call: the table after it, and the entry behind the pointer that it returns. -/
def answer (t : LinkedTable K V) : ChainedHashTable.Call K V → Checked (LinkedTable K V × Option (HashEntry K V))
  | .insert k v => do
      let (t, p) ← t.insert k v
      let e ← t.entryAt p
      return (t, e)
  | .update k v => do
      let t ← t.update k v
      return (t, none)
  | .remove k => do
      let t ← t.remove k
      return (t, none)
  | .find k => do
      let p ← t.find k
      let e ← t.entryAt p
      return (t, e)

end LinkedTable

/-- One call on the table without pointers. -/
def ChainedHashTable.answer (t : ChainedHashTable K V) :
    Call K V → Checked (ChainedHashTable K V × Option (HashEntry K V))
  | .insert k v => do
      let (t, chain) ← t.insert k v
      return (t, chain.head?)
  | .update k v => do
      let t ← t.update k v
      return (t, none)
  | .remove k => do
      let t ← t.remove k
      return (t, none)
  | .find k => do
      let chain ← t.find k
      return (t, chain.head?)

end Flowpath
end Freeflow
