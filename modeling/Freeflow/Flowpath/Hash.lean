import Freeflow.Lib.Buckets
import Freeflow.Lib.Run

/-!
# `Flowpath.Hash` — the separately chained hash table of `hash.c`

A `struct fp_chained_hash_entry *` is the chain it points at: the list of the entry and everything its
`next` field links, with `[]` for `NULL`. Keys and values stay generic, the table carrying its hash and
comparison functions as the source does; a `size_t` is a `Nat`.

`insert` and `resize` call each other. The recursion goes through `insertFuel`, whose fuel is the number
of nested tables that may still be built; `insert` supplies one more than there are primes.
`Flowpath.Correctness.HashMap` proves that this is enough.

## Contents
- `nextPrime`, `toInt`, `ChainedHashTable.hashIndex`, `uintHash` and `uintEq`.
- `new`, `find`, `insert`/`resize`, `update`, `remove`.
- `Op`, `step`: runs of insertions and removals.
-/

namespace Freeflow
namespace Flowpath

/-- The table `primes` of `hash.c`. -/
def primes : List Nat := [
  53, 97, 193, 389, 769,
  1543, 3079, 6151, 12289, 24593,
  49157, 98317, 196613, 393241, 786433,
  1572869, 3145739, 6291469, 12582917, 25165843,
  50331653, 100663319, 201326611, 402653189, 805306457,
  1610612741]

/-- `next_prime`: the first entry of `primes` above `n`, or `0`. -/
def nextPrime (n : Nat) : Nat := (primes.find? (fun p => n < p)).getD 0

/-- The conversion of a `size_t` to a 32-bit `int`. -/
def toInt (n : Nat) : Int := Int.bmod n 4294967296

/-- `fp_uint_hash`. -/
def uintHash (n : Nat) : Nat := n

/-- `fp_uint_eq`. -/
def uintEq (a b : Nat) : Bool := a == b

/-- `struct fp_chained_hash_entry`, without its link. -/
structure HashEntry (K V : Type) where
  key : K
  value : V
deriving DecidableEq, Repr

/-- `struct fp_chained_hash_table`. -/
structure ChainedHashTable (K V : Type) where
  size : Nat
  buckets : Nat
  hash : K → Nat
  comp : K → K → Bool
  data : List (List (HashEntry K V))

namespace ChainedHashTable

variable {K V : Type}

/-- `fp_chained_hash_table_new`. -/
def new (buckets : Nat) (hash : K → Nat) (comp : K → K → Bool) : ChainedHashTable K V where
  size := 0
  buckets := buckets
  hash := hash
  comp := comp
  data := List.replicate buckets []

/-- `hash_index`. -/
def hashIndex (t : ChainedHashTable K V) (k : K) : Checked Nat :=
  if t.buckets = 0 then .error .divideByZero else .ok (t.hash k % t.buckets)

/-- `int n = hash_index(t, k)`, and the chain `t->data[n]`. -/
def bucket (t : ChainedHashTable K V) (k : K) : Checked (Int × List (HashEntry K V)) := do
  let i ← t.hashIndex k
  let n := toInt i
  let chain ← load t.data n
  return (n, chain)

/-- `fp_chained_hash_table_load(t) >= .75`. The load is the quotient of `buckets` by `size`, which is
    infinite for an empty table with buckets. -/
def loadAtLeastThreeQuarters (t : ChainedHashTable K V) : Bool :=
  if t.size = 0 then 0 < t.buckets else 3 * t.size ≤ 4 * t.buckets

/-- `fp_chained_hash_table_find`: the rest of the chain from the entry found on. -/
def find (t : ChainedHashTable K V) (k : K) : Checked (List (HashEntry K V)) := do
  let (_, chain) ← t.bucket k
  return chain.dropWhile (fun e => !t.comp e.key k)

/-- One round of the inner loop of `fp_chained_hash_table_resize`. The insertion it goes through is a
    parameter, here and below. -/
def reinsert (ins : ChainedHashTable K V → K → V → Checked (ChainedHashTable K V × List (HashEntry K V)))
    (t₂ : ChainedHashTable K V) (e : HashEntry K V) : Checked (ChainedHashTable K V) := do
  let r ← ins t₂ e.key e.value
  return r.1

/-- The two loops of `fp_chained_hash_table_resize`: the entries of `t₁`, bucket by bucket, into `t₂`. -/
def rehash (ins : ChainedHashTable K V → K → V → Checked (ChainedHashTable K V × List (HashEntry K V)))
    (t₁ t₂ : ChainedHashTable K V) : Checked (ChainedHashTable K V) :=
  (List.range t₁.buckets).foldlM (fun t₂ (i : Nat) => do
    let chain ← load t₁.data i
    chain.foldlM (reinsert ins) t₂) t₂

/-- `fp_chained_hash_table_resize`. -/
def resizeWith (ins : ChainedHashTable K V → K → V → Checked (ChainedHashTable K V × List (HashEntry K V)))
    (t₁ : ChainedHashTable K V) : Checked (ChainedHashTable K V) :=
  let n := nextPrime t₁.buckets
  if n = 0 then return t₁ else do
    let t₂ ← rehash ins t₁ (new n t₁.hash t₁.comp)
    -- `n` is written back, not `t2->buckets`, whatever array `t2` has by now
    return { t₁ with buckets := n, data := t₂.data }

/-- The new entry goes to the front of its chain. -/
def prepend (t : ChainedHashTable K V) (k : K) (v : V) :
    Checked (ChainedHashTable K V × List (HashEntry K V)) := do
  let (n, chain) ← t.bucket k
  let data ← store t.data n (⟨k, v⟩ :: chain)
  return ({ t with size := t.size + 1, data }, ⟨k, v⟩ :: chain)

/-- `fp_chained_hash_table_insert`, allowed to nest `fuel` tables deep. -/
def insertFuel : Nat → ChainedHashTable K V → K → V →
    Checked (ChainedHashTable K V × List (HashEntry K V))
  | 0, _, _, _ => .error .outOfFuel
  | fuel + 1, t, k, v =>
      if t.loadAtLeastThreeQuarters then do
        let t ← t.resizeWith (insertFuel fuel)
        t.prepend k v
      else t.prepend k v

/-- `fp_chained_hash_table_insert`: the table and the chain headed by the new entry. -/
def insert (t : ChainedHashTable K V) (k : K) (v : V) :
    Checked (ChainedHashTable K V × List (HashEntry K V)) :=
  insertFuel (primes.length + 1) t k v

/-- `fp_chained_hash_table_resize`. -/
def resize (t : ChainedHashTable K V) : Checked (ChainedHashTable K V) :=
  t.resizeWith (insertFuel primes.length)

/-- `fp_chained_hash_table_update`: the head of the chain gets the value, whatever its key. -/
def update (t : ChainedHashTable K V) (k : K) (v : V) : Checked (ChainedHashTable K V) := do
  let (n, chain) ← t.bucket k
  match chain with
  | [] => return t
  | ent :: rest => do
      let data ← store t.data n ({ ent with value := v } :: rest)
      return { t with data }

/-- The chain without its first entry that `comp` matches with `k`, or `none` when there is no match:
    the search of `fp_chained_hash_table_remove` and the stitching around the node found. -/
def unlink (comp : K → K → Bool) (k : K) : List (HashEntry K V) → Option (List (HashEntry K V))
  | [] => none
  | p :: next => if comp p.key k then some next else (unlink comp k next).map (p :: ·)

/-- `--t->size`, on a `size_t`. -/
def decSize (size : Nat) : Nat := if size = 0 then 18446744073709551615 else size - 1

/-- `fp_chained_hash_table_remove`. -/
def remove (t : ChainedHashTable K V) (k : K) : Checked (ChainedHashTable K V) := do
  let (n, chain) ← t.bucket k
  match unlink t.comp k chain with
  | none => return t
  | some chain => do
      let data ← store t.data n chain
      return { t with size := decSize t.size, data }

/-- An insertion or a removal. -/
inductive Op (K V : Type) where
  | insert (k : K) (v : V)
  | remove (k : K)

/-- Execute one operation. -/
def step (t : ChainedHashTable K V) : Op K V → Checked (ChainedHashTable K V × Unit)
  | .insert k v => do let (t, _) ← t.insert k v; return (t, ())
  | .remove k => do let t ← t.remove k; return (t, ())

end ChainedHashTable

end Flowpath
end Freeflow
