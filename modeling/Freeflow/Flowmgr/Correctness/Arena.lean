import Freeflow.Json.Correctness.Nodes
import Freeflow.Json.Correctness.Tally
import Freeflow.Flowmgr.Loop

/-!
# `Flowmgr.Correctness.Arena` — which commands fit the arena of a request

`request` parses into a buffer of 4096 bytes, which holds 170 nodes. A message may have 1023 characters, and two of them are
enough for two nodes, so the limit on messages does not keep the buffer from being exhausted; the number of nodes that the
text asks for does.
-/

namespace Freeflow
namespace Flowmgr

open Freeflow.Json

/-- `limit`, the size of the arena of `request`. -/
def arenaLimit : Int := 4096

/-- The nodes that a parse allocated. -/
def allocated : Parsed Byte Value → Nat
  | .value _ _ n => n
  | .thrown _ _ n => n
  | .overrun => 0
  | .outOfFuel => 0

/-- A parse that stays inside its buffer allocates what is counted in its text. -/
theorem allocated_eq {s : Text} (h : Json.Parsed.InBounds s (parse s)) :
    allocated (parse s) = tally nodes .value [] s := by
  have hnodes := parse_nodes s
  cases hp : parse s with
  | value v rest n => exact hnodes.of_value hp
  | thrown what rest n => exact hnodes.of_thrown hp
  | overrun =>
      rw [hp] at h
      exact h.elim
  | outOfFuel =>
      rw [hp] at h
      exact h.elim

/-- **A command fits the arena exactly when its text asks for at most 170 nodes.** -/
theorem request_fits_iff {s : Text} (h : Json.Parsed.InBounds s (parse s)) :
    (allocateNodes (allocated (parse s)) ⟨arenaLimit, 0⟩).isSome ↔ tally nodes .value [] s ≤ 170 := by
  have hlimit : arenaLimit = 4096 := rfl
  have hsizeof : sizeofRep = 24 := rfl
  rw [allocated_eq h, allocateNodes_isSome_iff _ _ (by decide), hsizeof, hlimit]
  dsimp only
  omega

/-- The object `{"a":1}`. -/
theorem request_fits_iff_object :
    (allocateNodes (allocated (parse [123, 34, 97, 34, 58, 49, 125])) ⟨arenaLimit, 0⟩).isSome ↔
      tally nodes .value [] [123, 34, 97, 34, 58, 49, 125] ≤ 170 :=
  request_fits_iff ((parse_safe_iff _).mpr (by decide))

/-- An array of ones. -/
def ones (n : Nat) : Text := openBracket :: (joined comma (List.replicate n [49]) ++ [closeBracket])

/-- **A message of 173 characters** exhausts the arena. -/
theorem request_exhausts : (ones 86).length < bufsize ∧ Json.Parsed.InBounds (ones 86) (parse (ones 86)) ∧
    allocateNodes (allocated (parse (ones 86))) ⟨arenaLimit, 0⟩ = none := by
  have hlen : (ones 86).length < bufsize := by decide +kernel
  have hawaits : awaits .value [] (ones 86) = false := by decide +kernel
  have hcount : allocated (parse (ones 86)) = 172 := by decide +kernel
  rw [parse_safe_iff, hcount]
  exact ⟨hlen, hawaits, by decide +kernel⟩

end Flowmgr
end Freeflow
