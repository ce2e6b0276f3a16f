import Freeflow.Json.Object
import Freeflow.Json.Correctness.Completeness
import Freeflow.Json.Correctness.Soundness

/-!
# `Json.Correctness.Build` — the text of `make_object` is read back

`make_object` writes its strings between quotes as they are. When each of them is the raw body of a string its text is a
text of the grammar, and the parser gives the pairs back in order; and a string that is in the tree of some text is always
a raw body, so that no other strings can be read back at all.
-/

namespace Freeflow
namespace Json

/-- The keys and values of raw bodies are the members of an object. -/
theorem derives_members : ∀ (e : Text × Text) (es : List (Text × Text)),
    (∀ x ∈ e :: es, rawBody x.1 = true ∧ rawBody x.2 = true) →
    Derives readable (.members ((e :: es).map (fun e => .mk e.1 (.string e.2))))
      (joined comma ((e :: es).map formatPair)) := by
  have hpair : ∀ x : Text × Text, rawBody x.1 = true ∧ rawBody x.2 = true →
      Derives readable (.member (.mk x.1 (.string x.2))) (formatPair x) :=
    fun x hx => Derives.bareMember hx.1 (Derives.string hx.2).bare
  intro e es
  induction es generalizing e with
  | nil => exact fun h => .oneMember (hpair e (h e (by simp)))
  | cons e' es ih =>
      intro h
      exact .moreMembers (hpair e (h e (by simp))) (ih e' (fun x hx => h x (List.mem_cons_of_mem e hx)))

/-- The text of `make_object` is an object, if its strings are raw bodies. -/
theorem derives_makeObject {map : List (Text × Text)} (h : ∀ e ∈ map, rawBody e.1 = true ∧ rawBody e.2 = true) :
    Derives readable (.value (.object (map.map (fun e => .mk e.1 (.string e.2))))) (makeObject map) := by
  cases map with
  | nil =>
      have hnil : readable.Blanks [] := fun _ hc => absurd hc List.not_mem_nil
      exact Derives.emptyObject hnil
  | cons e es => exact .object (derives_members e es h)

/-- **`make_object` and the parser are inverse on raw bodies.** -/
theorem parse_makeObject (map : List (Text × Text)) (h : ∀ e ∈ map, rawBody e.1 = true ∧ rawBody e.2 = true) :
    ∃ n, parse (makeObject map) = .value (.object (map.map (fun e => .mk e.1 (.string e.2)))) [] n := by
  apply parse_readable
  exact (derives_makeObject h).bare

/-- A key twice, with an escaped quote in one of the values. -/
theorem parse_makeObject_twice :
    ∃ n, parse (makeObject [([97], [92, 34]), ([97], [])])
      = .value (.object [.mk [97] (.string [92, 34]), .mk [97] (.string [])]) [] n :=
  parse_makeObject [([97], [92, 34]), ([97], [])] (by decide)

/-- The terminals of a pair are terminals of its object. -/
theorem mem_pairTerminals {p : Pair} {ps : List Pair} (hp : p ∈ ps) {x : Terminal} (hx : x ∈ p.terminals) :
    x ∈ pairTerminals ps := by
  induction ps with
  | nil => exact absurd hp List.not_mem_nil
  | cons q ps ih =>
      rw [pairTerminals, List.mem_append]
      cases List.mem_cons.mp hp with
      | inl heq => exact Or.inl (heq ▸ hx)
      | inr hp => exact Or.inr (ih hp)

/-- Every string in the tree of a parse is a raw body. -/
theorem rawBody_of_parse {s rest t : Text} {v : Value} {n : Nat} (h : parse s = .value v rest n)
    (ht : .string t ∈ v.terminals) : rawBody t = true := by
  obtain ⟨t', -, hv⟩ := parse_derives h
  exact hv.terminals _ ht

end Json
end Freeflow
