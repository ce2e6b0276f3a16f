import Freeflow.Flowpath.Hash
import Freeflow.Lib.Trace

/-!
# `Flowpath.HashTrace` — what the hash table does on the way

The operations of `Flowpath.Hash` once more, with a log: every table there is, as a call finds it and after each write to
it, the tables inside nested resizes included; every index into an array, before its conversion to `int`, with the length
of that array; what `--t->size` counts down from; and when a resize builds its temporary table and gets rid of it.

## Contents
- `TableEvent`.
- `findTraced`, `insertTraced`/`resizeTraced`, `updateTraced`, `removeTraced`.
- `Call`, `call`, `callTraced`, `runTraced`: runs of all operations.
-/

namespace Freeflow
namespace Flowpath

variable {K V : Type}

/-- An entry of the log. -/
inductive TableEvent (K V : Type) where
  | table (t : ChainedHashTable K V)
  | index (i length : Nat)
  | decrement (size : Nat)
  | build (old new : Nat)
  | release

namespace ChainedHashTable

open Traced

/-- `int n = hash_index(t, k)`, and the chain `t->data[n]`. -/
def bucketTraced (t : ChainedHashTable K V) (k : K) : Traced (TableEvent K V) (Int × List (HashEntry K V)) := do
  let i ← ofChecked (t.hashIndex k)
  note (.index i t.data.length)
  let chain ← ofChecked (load t.data (toInt i))
  return (toInt i, chain)

/-- `fp_chained_hash_table_find`. -/
def findTraced (t : ChainedHashTable K V) (k : K) : Traced (TableEvent K V) (List (HashEntry K V)) := do
  note (.table t)
  let (_, chain) ← t.bucketTraced k
  return chain.dropWhile (fun e => !t.comp e.key k)

/-- One round of the inner loop of `fp_chained_hash_table_resize`. -/
def reinsertTraced
    (ins : ChainedHashTable K V → K → V → Traced (TableEvent K V) (ChainedHashTable K V × List (HashEntry K V)))
    (t₂ : ChainedHashTable K V) (e : HashEntry K V) : Traced (TableEvent K V) (ChainedHashTable K V) := do
  let r ← ins t₂ e.key e.value
  return r.1

/-- One round of the outer loop. -/
def roundTraced
    (ins : ChainedHashTable K V → K → V → Traced (TableEvent K V) (ChainedHashTable K V × List (HashEntry K V)))
    (t₁ t₂ : ChainedHashTable K V) (i : Nat) : Traced (TableEvent K V) (ChainedHashTable K V) := do
  note (.index i t₁.data.length)
  let chain ← ofChecked (load t₁.data i)
  chain.foldlM (reinsertTraced ins) t₂

/-- `fp_chained_hash_table_resize`. The old table takes over the count and the array at once. -/
def resizeTraced
    (ins : ChainedHashTable K V → K → V → Traced (TableEvent K V) (ChainedHashTable K V × List (HashEntry K V)))
    (t₁ : ChainedHashTable K V) : Traced (TableEvent K V) (ChainedHashTable K V) :=
  let n := nextPrime t₁.buckets
  if n = 0 then return t₁ else do
    note (.build t₁.buckets n)
    note (.table (new n t₁.hash t₁.comp))
    let t₂ ← (List.range t₁.buckets).foldlM (roundTraced ins t₁) (new n t₁.hash t₁.comp)
    let t₁ := { t₁ with buckets := n, data := t₂.data }
    note (.table t₁)
    note .release
    return t₁

/-- The new entry goes to the front of its chain. -/
def prependTraced (t : ChainedHashTable K V) (k : K) (v : V) :
    Traced (TableEvent K V) (ChainedHashTable K V × List (HashEntry K V)) := do
  let (n, chain) ← t.bucketTraced k
  note (.table { t with size := t.size + 1 })
  let data ← ofChecked (store t.data n (⟨k, v⟩ :: chain))
  note (.table { t with size := t.size + 1, data })
  return ({ t with size := t.size + 1, data }, ⟨k, v⟩ :: chain)

/-- `fp_chained_hash_table_insert`, allowed to nest `fuel` tables deep. -/
def insertTraced : Nat → ChainedHashTable K V → K → V →
    Traced (TableEvent K V) (ChainedHashTable K V × List (HashEntry K V))
  | 0, _, _, _ => ofChecked (.error .outOfFuel)
  | fuel + 1, t, k, v => do
      note (.table t)
      if t.loadAtLeastThreeQuarters then do
        let t ← t.resizeTraced (insertTraced fuel)
        t.prependTraced k v
      else t.prependTraced k v

/-- `fp_chained_hash_table_update`. -/
def updateTraced (t : ChainedHashTable K V) (k : K) (v : V) : Traced (TableEvent K V) (ChainedHashTable K V) := do
  note (.table t)
  let (n, chain) ← t.bucketTraced k
  match chain with
  | [] => return t
  | ent :: rest => do
      let data ← ofChecked (store t.data n ({ ent with value := v } :: rest))
      note (.table { t with data })
      return { t with data }

/-- `fp_chained_hash_table_remove`. -/
def removeTraced (t : ChainedHashTable K V) (k : K) : Traced (TableEvent K V) (ChainedHashTable K V) := do
  note (.table t)
  let (n, chain) ← t.bucketTraced k
  match unlink t.comp k chain with
  | none => return t
  | some chain => do
      let data ← ofChecked (store t.data n chain)
      note (.table { t with data })
      note (.decrement t.size)
      note (.table { t with size := decSize t.size, data })
      return { t with size := decSize t.size, data }

/-! ## Runs -/

/-- A call of one operation. -/
inductive Call (K V : Type) where
  | insert (k : K) (v : V)
  | update (k : K) (v : V)
  | remove (k : K)
  | find (k : K)

/-- The table after a call. -/
def call (t : ChainedHashTable K V) : Call K V → Checked (ChainedHashTable K V)
  | .insert k v => do let (t, _) ← t.insert k v; return t
  | .update k v => t.update k v
  | .remove k => t.remove k
  | .find k => do let _ ← t.find k; return t

/-- The same with the log. -/
def callTraced (t : ChainedHashTable K V) : Call K V → Traced (TableEvent K V) (ChainedHashTable K V)
  | .insert k v => do let (t, _) ← insertTraced (primes.length + 1) t k v; return t
  | .update k v => t.updateTraced k v
  | .remove k => t.removeTraced k
  | .find k => do let _ ← t.findTraced k; return t

/-- A run of calls on a new table. -/
def runTraced (buckets : Nat) (hash : K → Nat) (comp : K → K → Bool) (calls : List (Call K V)) :
    Traced (TableEvent K V) (ChainedHashTable K V) := do
  note (.table (new buckets hash comp))
  calls.foldlM callTraced (new buckets hash comp)

end ChainedHashTable

end Flowpath
end Freeflow
