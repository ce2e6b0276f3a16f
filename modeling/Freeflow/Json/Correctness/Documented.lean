import Freeflow.Json.Correctness.Soundness
import Freeflow.Json.Correctness.Tally

/-!
# `Json.Correctness.Documented` — which texts are read as the documented language

The default branch of `parse_value` takes its first character for the beginning of an identifier without looking at it. A
stray comma, bracket or brace is read as an identifier where a value may stand, and this is the only way in which the
parser accepts what is not in the language: `strays` counts these characters in the text.
-/

namespace Freeflow
namespace Json

/-- The weights that count identifiers whose first character is not one of an identifier. -/
def strayWeights : Weights where
  identifier c := if isident c then 0 else 1
  number := 0
  string := 0
  key := 0
  item _ := 0

/-- **The stray characters of a text**: those that stand where a value begins, begin neither a number, a string nor a
    container, and do not belong to identifiers. -/
def strays (s : Text) : Nat := tally strayWeights .value [] s

/-- The terminal is an identifier that begins as one. -/
def Terminal.WellNamed : Terminal → Prop
  | .identifier t => isident (t.headD 0) = true
  | _ => True

mutual

/-- No identifier of a tree is stray if and only if all of them begin as one. -/
theorem weigh_strays : ∀ v : Value, weigh strayWeights v = 0 ↔ ∀ x ∈ v.terminals, x.WellNamed
  | .identifier t => by
      show (if isident (t.headD 0) then 0 else 1) = 0 ↔ ∀ x ∈ [Terminal.identifier t], x.WellNamed
      simp [Terminal.WellNamed]
  | .number t => by
      show 0 = 0 ↔ ∀ x ∈ [Terminal.number t], x.WellNamed
      simp [Terminal.WellNamed]
  | .string t => by
      show 0 = 0 ↔ ∀ x ∈ [Terminal.string t], x.WellNamed
      simp [Terminal.WellNamed]
  | .array vs => weighElements_strays vs
  | .object ps => weighPairs_strays ps

theorem weighPair_strays : ∀ p : Pair, weighPair strayWeights p = 0 ↔ ∀ x ∈ p.terminals, x.WellNamed
  | .mk k v => by
      have hv := weigh_strays v
      show 0 + weigh strayWeights v = 0 ↔ ∀ x ∈ Terminal.string k :: v.terminals, x.WellNamed
      rw [Nat.zero_add, hv, List.forall_mem_cons]
      exact (and_iff_right trivial).symm

theorem weighElements_strays : ∀ vs : List Value,
    weighElements strayWeights vs = 0 ↔ ∀ x ∈ elementTerminals vs, x.WellNamed
  | [] => by simp [weighElements, elementTerminals]
  | v :: vs => by
      have hv := weigh_strays v
      have hvs := weighElements_strays vs
      show weigh strayWeights v + 0 + weighElements strayWeights vs = 0 ↔ _
      rw [elementTerminals, List.forall_mem_append, Nat.add_zero, Nat.add_eq_zero_iff, hv, hvs]

theorem weighPairs_strays : ∀ ps : List Pair,
    weighPairs strayWeights ps = 0 ↔ ∀ x ∈ pairTerminals ps, x.WellNamed
  | [] => by simp [weighPairs, pairTerminals]
  | p :: ps => by
      have hp := weighPair_strays p
      have hps := weighPairs_strays ps
      show weighPair strayWeights p + 0 + weighPairs strayWeights ps = 0 ↔ _
      rw [pairTerminals, List.forall_mem_append, Nat.add_zero, Nat.add_eq_zero_iff, hp, hps]

end

/-- A terminal that the parser lets through, and that begins as it should, is one of the documented language. -/
theorem documented_of_accepted {x : Terminal} (h : accepted.terminal x) (hx : x.WellNamed) : documented.terminal x := by
  cases x with
  | number t => exact h
  | string t => exact h
  | identifier t =>
      cases t with
      | nil => exact h
      | cons c cs =>
          replace h : ((!isspace c && !named c) && cs.all isident) = true := h
          show (isident c && cs.all isident) = true
          rw [Bool.and_eq_true] at h ⊢
          exact ⟨hx, h.2⟩

/-- **Only texts of the documented language are accepted exactly when no character is stray**: then, and only then, is what
    was consumed a text of the language and every identifier of the tree one of its characters. -/
theorem parse_documented_iff {s rest : Text} {v : Value} {n : Nat} (h : parse s = .value v rest n) :
    ((∃ t, s = t ++ rest ∧ ∃ v', Derives documented (.element v') t) ∧
      ∀ name, .identifier name ∈ v.terminals → name ≠ [] ∧ ∀ c ∈ name, isident c = true) ↔ strays s = 0 := by
  obtain ⟨t, hs, ht⟩ := parse_derives h
  rw [strays, parse_tally h, weigh_strays]
  constructor
  · rintro ⟨-, hnames⟩ x hx
    cases x with
    | number t => trivial
    | string t => trivial
    | identifier name =>
        obtain ⟨hne, hall⟩ := hnames name hx
        cases name with
        | nil => exact absurd rfl hne
        | cons c cs => exact hall c (by simp)
  · intro hnamed
    have hdocumented : ∀ x ∈ v.terminals, documented.terminal x := fun x hx =>
      documented_of_accepted (ht.terminals x hx) (hnamed x hx)
    have hblank : ∀ c, accepted.blank c = true → documented.blank c = true := fun _ hc => hc
    have hdoc : Derives documented (.element v) t := ht.relex hblank hdocumented
    refine ⟨⟨t, hs, v, hdoc⟩, fun name hname => ?_⟩
    have hname := hdocumented _ hname
    cases name with
    | nil => cases hname
    | cons c cs =>
        replace hname : (isident c && cs.all isident) = true := hname
        rw [Bool.and_eq_true, List.all_eq_true] at hname
        exact ⟨List.cons_ne_nil c cs, List.forall_mem_cons.mpr hname⟩

/-- The array `[a, 1]`. -/
theorem parse_documented_iff_array :
    ((∃ t, [91, 97, 44, 32, 49, 93] = t ++ [] ∧ ∃ v', Derives documented (.element v') t) ∧
      ∀ name, .identifier name ∈ (Value.array [.identifier [97], .number [49]]).terminals →
        name ≠ [] ∧ ∀ c ∈ name, isident c = true) ↔ strays [91, 97, 44, 32, 49, 93] = 0 :=
  parse_documented_iff (s := [91, 97, 44, 32, 49, 93]) rfl

/-- **An element that is missing**: `[,]` is read as an array whose element is an identifier, the comma. -/
theorem parse_stray_comma : ∃ v n, parse [openBracket, comma, closeBracket] = .value v [] n ∧
    .identifier [comma] ∈ v.terminals ∧ isident comma = false :=
  ⟨.array [.identifier [comma]], 2, rfl, by decide, by decide⟩

end Json
end Freeflow
