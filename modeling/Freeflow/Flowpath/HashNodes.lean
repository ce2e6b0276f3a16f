import Freeflow.Flowpath.Hash
import Freeflow.Lib.Chain

/-!
# `Flowpath.HashNodes` — the chains of the hash table as nodes in memory

In `Flowpath.Hash` a chain is the list of its entries. Here every entry is a node with its `next` pointer, a chain is the
pointer to its first node, and `fp_chained_hash_table_find` and `fp_chained_hash_table_remove` follow and write these
pointers as the source does: a removal trails a pointer `q` behind `p`, and stitches around `p` through `q`, or through the
array where there is no `q`.

A loop along a chain is allowed one round more than there are addresses in use; a chain that ends has no more nodes.

## Contents
- `LinkedTable`, `new`, `headOf`, `find`, `remove`.
- `Chains`: which nodes the chains of a table consist of. `table`: the table of `Flowpath.Hash` that they make.
-/

namespace Freeflow
namespace Flowpath

variable {K V : Type}

/-- `struct fp_chained_hash_entry`: an entry and its link. -/
abbrev EntryNode (K V : Type) := HashEntry K V × Ptr

/-- An entry has a key and a value, and points at the next one. -/
def entryLinking : Linking (EntryNode K V) (HashEntry K V) where
  node e next := (e, next)
  link n := some n
  link_node _ _ := rfl

/-- `struct fp_chained_hash_table`, with the memory that its entries are in. -/
structure LinkedTable (K V : Type) where
  heap : Heap (EntryNode K V)
  size : Nat
  buckets : Nat
  hash : K → Nat
  comp : K → K → Bool
  data : List Ptr

namespace LinkedTable

/-- `fp_chained_hash_table_new`, in memory without entries. -/
def new (buckets : Nat) (hash : K → Nat) (comp : K → K → Bool) : LinkedTable K V where
  heap := .empty
  size := 0
  buckets := buckets
  hash := hash
  comp := comp
  data := List.replicate buckets none

/-- `int n = hash_index(t, k)`, and the pointer `t->data[n]`. -/
def headOf (t : LinkedTable K V) (k : K) : Checked (Int × Ptr) :=
  if t.buckets = 0 then .error .divideByZero
  else do
    let n := toInt (t.hash k % t.buckets)
    let p ← load t.data n
    return (n, p)

/-- The loop of `fp_chained_hash_table_find`, from the entry `p` on. -/
def findFrom (t : LinkedTable K V) (k : K) : Nat → Ptr → Checked Ptr
  | _, none => .ok none
  | 0, some _ => .error .outOfFuel
  | fuel + 1, some p => do
      let (e, next) ← entryLinking.load t.heap (some p)
      if t.comp e.key k then return some p else findFrom t k fuel next

/-- `fp_chained_hash_table_find`. -/
def find (t : LinkedTable K V) (k : K) : Checked Ptr := do
  let (_, p) ← t.headOf k
  findFrom t k (t.heap.next + 1) p

/-- The loop of `fp_chained_hash_table_remove`: `q` and `p` behind it. -/
def seek (t : LinkedTable K V) (k : K) : Nat → Ptr → Ptr → Checked (Ptr × Ptr)
  | _, q, none => .ok (q, none)
  | 0, _, some _ => .error .outOfFuel
  | fuel + 1, q, some p => do
      let (e, next) ← entryLinking.load t.heap (some p)
      if t.comp e.key k then return (q, some p) else seek t k fuel (some p) next

/-- The stitching of `fp_chained_hash_table_remove`: `next` gets linked to `q`, or becomes the head of chain `n`. -/
def stitch (t : LinkedTable K V) (n : Int) (q next : Ptr) : Checked (LinkedTable K V) :=
  match q with
  | some b => do
      let (e, _) ← entryLinking.load t.heap q
      let heap ← t.heap.write b (entryLinking.node e next)
      return { t with heap }
  | none => do
      let data ← store t.data n next
      return { t with data }

/-- `fp_chained_hash_table_remove`. -/
def remove (t : LinkedTable K V) (k : K) : Checked (LinkedTable K V) := do
  let (n, p) ← t.headOf k
  let (q, p) ← seek t k (t.heap.next + 1) none p
  match p with
  | none => return t
  | some _ => do
      let (_, next) ← entryLinking.load t.heap p
      let t ← t.stitch n q next
      let heap ← t.heap.free p
      return { t with heap, size := ChainedHashTable.decSize t.size }

/-! ## The chains of a table -/

/-- The nodes of one chain after the other: the address and the entry of each. -/
abbrev Nodes (K V : Type) := List (List (Nat × HashEntry K V))

/-- **Chains.** The array has a chain for each list of `nodes`, of just these nodes, and no node is in two of them. -/
structure Chains (t : LinkedTable K V) (nodes : Nodes K V) : Prop where
  length : t.data.length = nodes.length
  linked : ∀ (i : Nat) p xs, t.data[i]? = some p → nodes[i]? = some xs → Linked entryLinking t.heap.Has p xs
  disjoint : (nodes.flatten.map Prod.fst).Nodup

/-- The entries of a chain, without their addresses. -/
def entries (xs : List (Nat × HashEntry K V)) : List (HashEntry K V) := xs.map Prod.snd

/-- The table with these chains, as `Flowpath.Hash` has it. -/
def table (t : LinkedTable K V) (nodes : Nodes K V) : ChainedHashTable K V where
  size := t.size
  buckets := t.buckets
  hash := t.hash
  comp := t.comp
  data := nodes.map entries

end LinkedTable

end Flowpath
end Freeflow
