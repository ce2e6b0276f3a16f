import Freeflow.Json.Object
import Freeflow.Json.Parser

/-!
# `Json.Correctness.Lookup` — when a lookup finds the key it is given

A key is compared over its own length only, so one that is a prefix of the string looked for passes for it, and so does one
that goes on behind the string with a NUL. `find_exact_iff` says that a lookup is exact as long as no such key comes first.
The map of an object compares keys over the shorter one; where no two of them are equivalent it holds all the pairs.
-/

namespace Freeflow
namespace Json

/-- The comparison stops at the end of a C string, or after so many characters. -/
theorem strncmpEq_eq_true_iff : ∀ (t str : Text), 0 ∉ str →
    (strncmpEq t.length t str = true ↔ t <+: str ∨ str ++ [0] <+: t) := by
  intro t
  induction t with
  | nil =>
      intro str _
      exact ⟨fun _ => Or.inl List.nil_prefix, fun _ => rfl⟩
  | cons c t ih =>
      intro str hstr
      rw [List.length_cons, strncmpEq]
      simp only [List.headD_cons, List.tail_cons, Bool.and_eq_true, Bool.or_eq_true, beq_iff_eq]
      cases str with
      | nil =>
          simp only [List.headD_nil, List.tail_nil, List.nil_append, List.cons_prefix_cons, List.nil_prefix, and_true]
          constructor
          · rintro ⟨h, -⟩
            exact Or.inr h.symm
          · rintro (h | h)
            · exact absurd (List.prefix_nil.mp h) (List.cons_ne_nil c t)
            · exact ⟨h.symm, Or.inl h.symm⟩
      | cons d str =>
          have hd : d ≠ 0 := fun h => hstr (by rw [h]; simp)
          have hrec := ih str (fun h => hstr (List.mem_cons_of_mem d h))
          simp only [List.headD_cons, List.tail_cons, List.cons_append, List.cons_prefix_cons, hrec]
          constructor
          · rintro ⟨rfl, h | h⟩
            · exact absurd h hd
            · exact h.imp (fun h => ⟨rfl, h⟩) (fun h => ⟨rfl, h⟩)
          · rintro (⟨rfl, h⟩ | ⟨rfl, h⟩)
            · exact ⟨rfl, Or.inr (Or.inl h)⟩
            · exact ⟨rfl, Or.inr (Or.inr h)⟩

/-- The key is not the string, and passes for it: a proper beginning of it, or one that goes on behind it with a NUL. -/
def PassesFor (key str : Text) : Prop := key ≠ str ∧ (key <+: str ∨ str ++ [0] <+: key)

theorem terminalEq_self (str : Text) : terminalEq str str = true := by
  unfold terminalEq
  induction str with
  | nil => rfl
  | cons c str ih =>
      rw [List.length_cons, strncmpEq]
      simp only [List.headD_cons, List.tail_cons, beq_self_eq_true, Bool.true_and, ih, Bool.or_true]

/-- A key that compares equal is the string or passes for it. -/
theorem terminalEq_of_ne {key str : Text} (hstr : 0 ∉ str) (hne : key ≠ str) :
    terminalEq key str = true ↔ PassesFor key str := by
  rw [terminalEq, strncmpEq_eq_true_iff key str hstr, PassesFor]
  exact (and_iff_right hne).symm

/-- **A lookup is exact if and only if no key passes for the string before the string itself is met**: then, and only then,
    `find` stops at the first pair whose key is the string, or finds none if there is none. -/
theorem find_exact_iff (ps : List Pair) {str : Text} (hstr : 0 ∉ str) :
    find ps str = ps.findIdx? (fun p => p.key = str) ↔
      ∀ p ∈ ps.takeWhile (fun p => p.key ≠ str), ¬ PassesFor p.key str := by
  induction ps with
  | nil =>
      refine ⟨fun _ => ?_, fun _ => rfl⟩
      simp
  | cons p ps ih =>
      rw [find, List.findIdx?_cons]
      by_cases hkey : p.key = str
      · rw [hkey, if_pos (terminalEq_self str), if_pos (decide_eq_true rfl),
          List.takeWhile_cons_of_neg (by simp [hkey])]
        simp
      · rw [if_neg (c := decide (p.key = str) = true) (by simpa using hkey),
          List.takeWhile_cons_of_pos (by simpa using hkey), List.forall_mem_cons]
        by_cases hpass : terminalEq p.key str = true
        · rw [if_pos hpass]
          constructor
          · intro h
            cases hrest : List.findIdx? (fun p => decide (p.key = str)) ps with
            | none => rw [hrest] at h; cases h
            | some i => rw [hrest] at h; cases h
          · rintro ⟨h, -⟩
            exact absurd ((terminalEq_of_ne hstr hkey).mp hpass) h
        · have hno : ¬ PassesFor p.key str := fun h => hpass ((terminalEq_of_ne hstr hkey).mpr h)
          rw [if_neg hpass, and_iff_right hno, ← ih]
          exact (Option.map_injective Nat.succ_injective).eq_iff

/-- The value that an exact lookup gives. -/
theorem objectGet_of_exact {ps : List Pair} {str : Text} (h : find ps str = ps.findIdx? (fun p => p.key = str)) :
    objectGet ps str = (ps.find? (fun p => p.key = str)).map Pair.value := by
  rw [objectGet, h, List.find?_eq_bind_findIdx?_getElem?, Option.map_bind]
  rfl

/-- Two keys, neither of them a beginning of the other. -/
theorem find_exact_iff_two :
    find [.mk [97] (.number [49]), .mk [98] (.number [50])] [98]
        = [Pair.mk [97] (.number [49]), .mk [98] (.number [50])].findIdx? (fun p => p.key = [98]) ↔
      ∀ p ∈ [Pair.mk [97] (.number [49]), .mk [98] (.number [50])].takeWhile (fun p => p.key ≠ [98]),
        ¬ PassesFor p.key [98] :=
  find_exact_iff _ (by decide)

/-- **A key that is not there is found**: the object `{"a":1}` has a value for `ab`. -/
theorem find_prefix : ∃ ps n, parse [123, 34, 97, 34, 58, 49, 125] = .value (.object ps) [] n ∧
    (∀ p ∈ ps, p.key ≠ [97, 98]) ∧ find ps [97, 98] = some 0 :=
  ⟨[.mk [97] (.number [49])], 4, rfl, by simp [Pair.key], rfl⟩

/-! ## The map of an object -/

section

variable (hash : Text → Nat)

theorem stringEq_self (t : Text) : stringEq t t = true := by
  rw [stringEq, Nat.min_self]
  exact terminalEq_self t

/-- A key that no key of the map is equivalent to is not found. -/
theorem Map.find_of_apart {m : Map} {k : Text} (h : ∀ e ∈ m, stringEq e.1 k = false) : m.find hash k = none := by
  rw [Map.find, List.find?_eq_none.mpr, Option.map_none]
  intro e he
  simp [h e he]

/-- Where no two keys are equivalent every entry is found. -/
theorem Map.find_of_mem {m : Map} (hm : m.Pairwise (fun a b => stringEq a.1 b.1 = false)) {e : Text × Value}
    (he : e ∈ m) : m.find hash e.1 = some e.2 := by
  induction m with
  | nil => exact absurd he List.not_mem_nil
  | cons a m ih =>
      obtain ⟨ha, hm⟩ := List.pairwise_cons.mp hm
      cases List.mem_cons.mp he with
      | inl heq =>
          subst heq
          simp [Map.find, stringEq_self]
      | inr he =>
          have hne : stringEq a.1 e.1 = false := ha e he
          have hrest := ih hm he
          rw [Map.find] at hrest ⊢
          rwa [List.find?_cons_of_neg (by simp [hne])]

/-- The pairs of an object in which no two keys are equivalent are all inserted. -/
theorem foldl_insert_of_apart : ∀ (ps : List Pair) (m : Map),
    (m ++ ps.map (fun p => (p.key, p.value))).Pairwise (fun a b => stringEq a.1 b.1 = false) →
    ps.foldl (fun m p => m.insert hash p.key p.value) m = m ++ ps.map (fun p => (p.key, p.value)) := by
  intro ps
  induction ps with
  | nil => exact fun m _ => (List.append_nil m).symm
  | cons p ps ih =>
      intro m hm
      have hnone : m.find hash p.key = none := by
        apply Map.find_of_apart
        intro e he
        exact (List.pairwise_append.mp hm).2.2 e he (p.key, p.value) (by simp)
      have hinsert : m.insert hash p.key p.value = m ++ [(p.key, p.value)] := by
        rw [Map.insert, hnone]
        simp
      rw [List.map_cons, List.append_cons] at hm ⊢
      rw [List.foldl_cons, hinsert]
      exact ih _ hm

theorem objectMap_of_apart {ps : List Pair}
    (h : (ps.map (fun p => (p.key, p.value))).Pairwise (fun a b => stringEq a.1 b.1 = false)) :
    objectMap hash ps = ps.map (fun p => (p.key, p.value)) := foldl_insert_of_apart hash ps [] h

theorem Map.mem_insert {m : Map} {k : Text} {v : Value} {e : Text × Value} (h : e ∈ m.insert hash k v) :
    e ∈ m ∨ e = (k, v) := by
  unfold Map.insert at h
  split at h
  · exact Or.inl h
  · exact (List.mem_append.mp h).imp id List.mem_singleton.mp

theorem mem_foldl_insert : ∀ (ps : List Pair) (m : Map), ∀ e ∈ ps.foldl (fun m p => m.insert hash p.key p.value) m,
    e ∈ m ∨ ∃ p ∈ ps, e = (p.key, p.value) := by
  intro ps
  induction ps with
  | nil => exact fun m e he => Or.inl he
  | cons p ps ih =>
      intro m e he
      cases ih _ e he with
      | inr hps =>
          obtain ⟨q, hq, heq⟩ := hps
          exact Or.inr ⟨q, List.mem_cons_of_mem p hq, heq⟩
      | inl hm =>
          cases Map.mem_insert hash hm with
          | inl hm => exact Or.inl hm
          | inr heq => exact Or.inr ⟨p, List.mem_cons_self, heq⟩

/-- What is in the map of an object is in one of its pairs. -/
theorem mem_objectMap {ps : List Pair} {e : Text × Value} (he : e ∈ objectMap hash ps) :
    ∃ p ∈ ps, e = (p.key, p.value) :=
  (mem_foldl_insert hash ps [] e he).elim (fun hnil => absurd hnil List.not_mem_nil) id

end

end Json
end Freeflow
