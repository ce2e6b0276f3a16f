import Freeflow.Lib.Fifo
import Freeflow.Lib.Run

/-!
# `Flowpath.Ring` — the pointer ring of `util.c`

`struct fp_ring` and its operations, and what a bounded queue answers to the same calls. Indices are C
`int`s, so every increment goes through `checkInt`, and every access to `ring[]` or to an argument array
through `load`/`store`. A pointer is an `Option`, `none` being `NULL`; the ring stores null pointers like
any others.

The refinement between the two is in `Flowpath.Correctness.RingFifo`.
-/

namespace Freeflow
namespace Flowpath

variable {α : Type}

/-- `struct fp_ring`. -/
structure Ring (α : Type) where
  head : Int
  tail : Int
  num : Int
  ring : List (Option α)
deriving DecidableEq, Repr

namespace Ring

/-! ## The operations -/

/-- `fp_ring_init`. -/
def init (r : Ring α) : Ring α := { r with head := 0, tail := 0 }

/-- `fp_ring_new`, where `malloc` left `cells` in `ring[]`. -/
def new (num : Int) (cells : List (Option α)) : Ring α :=
  init { head := 0, tail := 0, num := num, ring := cells }

/-- `fp_ring_count`. -/
def count (r : Ring α) : Checked Int := do
  let count ← checkInt (r.tail - r.head)
  if count < 0 then checkInt (count + r.num) else return count

/-- `fp_ring_free`. -/
def free (r : Ring α) : Checked Int := do
  let count ← r.count
  checkInt (r.num - count)

/-- `r->ring[r->tail++] = x; if (r->tail == r->num) r->tail = 0;` -/
def pushSlot (r : Ring α) (x : Option α) : Checked (Ring α) := do
  let ring ← store r.ring r.tail x
  let tail ← checkInt (r.tail + 1)
  return { r with ring, tail := if tail = r.num then 0 else tail }

/-- `... = r->ring[r->head++]; if (r->head == r->num) r->head = 0;` -/
def popSlot (r : Ring α) : Checked (Ring α × Option α) := do
  let ret ← load r.ring r.head
  let head ← checkInt (r.head + 1)
  return ({ r with head := if head = r.num then 0 else head }, ret)

/-- `fp_ring_push`. -/
def push (r : Ring α) (x : Option α) : Checked (Ring α × Int) := do
  let count ← r.count
  let limit ← checkInt (r.num - 1)
  if count < limit then
    let r ← r.pushSlot x
    return (r, 1)
  else
    return (r, 0)

/-- The first `i` iterations of the loop of `fp_ring_push_n`. -/
def pushLoop (r : Ring α) (x : List (Option α)) : Nat → Checked (Ring α)
  | 0 => return r
  | i + 1 => do
      let r ← pushLoop r x i
      let xi ← load x i
      r.pushSlot xi

/-- `fp_ring_push_n`. -/
def pushN (r : Ring α) (x : List (Option α)) (n : Int) : Checked (Ring α × Int) := do
  let free ← r.free
  let free ← checkInt (free - 1)
  let items := if n ≤ free then n else free
  let r ← r.pushLoop x items.toNat
  return (r, items)

/-- `fp_ring_pop`. -/
def pop (r : Ring α) : Checked (Ring α × Option α) :=
  if r.head ≠ r.tail then r.popSlot else return (r, none)

/-- The first `i` iterations of the loop of `fp_ring_pop_n`, with the array `x` it fills. -/
def popLoop (r : Ring α) (x : List (Option α)) : Nat → Checked (Ring α × List (Option α))
  | 0 => return (r, x)
  | i + 1 => do
      let (r, x) ← popLoop r x i
      let (r, ret) ← r.popSlot
      let x ← store x i ret
      return (r, x)

/-- `fp_ring_pop_n`. -/
def popN (r : Ring α) (x : List (Option α)) (n : Int) :
    Checked (Ring α × Int × List (Option α)) := do
  let count ← r.count
  let items := if n ≤ count then n else count
  let (r, x) ← r.popLoop x items.toNat
  return (r, items, x)

/-- `fp_ring_top`. -/
def top (r : Ring α) : Checked (Option α) := do
  let count ← r.count
  if count > 0 then load r.ring r.head else return none

/-- The first `i` iterations of the loop of `fp_ring_top_n`: `tmp_head` and the array filled so far. -/
def topLoop (r : Ring α) (x : List (Option α)) : Nat → Checked (Int × List (Option α))
  | 0 => return (r.head, x)
  | i + 1 => do
      let (tmpHead, x) ← topLoop r x i
      let ret ← load r.ring tmpHead
      let x ← store x i ret
      let tmpHead ← checkInt (tmpHead + 1)
      return (if tmpHead = r.num then 0 else tmpHead, x)

/-- `fp_ring_top_n`. -/
def topN (r : Ring α) (x : List (Option α)) (n : Int) : Checked (Int × List (Option α)) := do
  let count ← r.count
  let items := if n ≤ count then n else count
  let (_, x) ← r.topLoop x items.toNat
  return (items, x)

/-- `fp_ring_remove_n`. -/
def removeN (r : Ring α) (n : Int) : Checked (Ring α × Int) := do
  let count ← r.count
  let items := if n ≤ count then n else count
  let head ← checkInt (r.head + items)
  if head ≥ r.num then
    let head ← checkInt (head - r.num)
    return ({ r with head }, items)
  else
    return ({ r with head }, items)

/-- The pointers in the ring, oldest first: the cells from `head` round to `tail`. -/
def contents (r : Ring α) : List (Option α) :=
  let count := if r.tail < r.head then r.tail - r.head + r.num else r.tail - r.head
  (List.range count.toNat).map (fun i => (r.ring[(r.head.toNat + i) % r.ring.length]?).join)

/-! ## Calls and what they return -/

/-- A call of one ring operation, with its arguments. -/
inductive Op (α : Type) where
  | push (x : Option α)
  | pushN (x : List (Option α)) (n : Int)
  | pop
  | popN (x : List (Option α)) (n : Int)
  | top
  | topN (x : List (Option α)) (n : Int)
  | removeN (n : Int)

/-- What a call gives back: a count, a pointer, or a count and the array it filled. -/
inductive Ret (α : Type) where
  | count (n : Int)
  | ptr (p : Option α)
  | filled (n : Int) (x : List (Option α))
deriving DecidableEq, Repr

/-- Counts are not negative and argument arrays have at least that many slots. -/
def Op.Legal : Op α → Prop
  | .pushN x n | .popN x n | .topN x n => 0 ≤ n ∧ n ≤ x.length
  | .removeN n => 0 ≤ n
  | .push _ | .pop | .top => True

/-- Execute one call. -/
def step (r : Ring α) : Op α → Checked (Ring α × Ret α)
  | .push x => do let (r, c) ← r.push x; return (r, .count c)
  | .pushN x n => do let (r, c) ← r.pushN x n; return (r, .count c)
  | .pop => do let (r, p) ← r.pop; return (r, .ptr p)
  | .popN x n => do let (r, c, x) ← r.popN x n; return (r, .filled c x)
  | .top => do let p ← r.top; return (r, .ptr p)
  | .topN x n => do let (c, x) ← r.topN x n; return (r, .filled c x)
  | .removeN n => do let (r, c) ← r.removeN n; return (r, .count c)

end Ring

/-! ## The queue's answers to the same calls -/

/-- The caller's array `x` after a queue wrote `out` into its first slots. -/
def overwrite (x out : List (Option α)) : List (Option α) := out ++ x.drop out.length

/-- How a FIFO queue of at most `cap` pointers answers a call. -/
def fifoStep {cap : Nat} (q : Fifo (Option α) cap) : Ring.Op α → Fifo (Option α) cap × Ring.Ret α
  | .push x => (q.push x, .count (if q.items.length < cap then 1 else 0))
  | .pushN x n => (q.pushMany (x.take n.toNat), .count (min n.toNat q.room : Nat))
  | .pop => (q.discard 1, .ptr q.items.head?.join)
  | .popN x n =>
      (q.discard n.toNat,
        .filled (q.oldest n.toNat).length (overwrite x (q.oldest n.toNat)))
  | .top => (q, .ptr q.items.head?.join)
  | .topN x n => (q, .filled (q.oldest n.toNat).length (overwrite x (q.oldest n.toNat)))
  | .removeN n => (q.discard n.toNat, .count (q.oldest n.toNat).length)

end Flowpath
end Freeflow
