import Freeflow.Json.Correctness.Lookup

/-!
# `Json.Correctness.MapKeys` — which texts the map of an object takes for one key

`String_eq` compares two strings over the length of the shorter one, and no further than a NUL: it takes a string for
every one that it begins (`stringEq_eq_true_iff`). A container that relies on it keeps the keys of an object apart
exactly when no two of them are confused so (`map_keyed_iff`); then its layout and the hash codes do not matter.
-/

namespace Freeflow
namespace Json

/-! ## The comparison of strings -/

/-- **What `String_eq` compares**: it stops at the end of the shorter string, or at a NUL that both have. -/
theorem stringEq_eq_true_iff : ∀ (a b : Text),
    stringEq a b = true ↔ a <+: b ∨ b <+: a ∨ ∃ p, p ++ [0] <+: a ∧ p ++ [0] <+: b
  | [], b => by
      rw [stringEq, List.length_nil, Nat.zero_min, strncmpEq]
      exact iff_of_true rfl (Or.inl List.nil_prefix)
  | c :: a, [] => by
      rw [stringEq, List.length_nil, Nat.min_zero, strncmpEq]
      exact iff_of_true rfl (Or.inr (Or.inl List.nil_prefix))
  | c :: a, d :: b => by
      have ih := stringEq_eq_true_iff a b
      rw [stringEq] at ih ⊢
      rw [List.length_cons, List.length_cons, Nat.succ_min_succ, strncmpEq]
      simp only [List.headD_cons, List.tail_cons, Bool.and_eq_true, Bool.or_eq_true, beq_iff_eq, ih,
        List.cons_prefix_cons]
      constructor
      · rintro ⟨rfl, h | h | h | ⟨p, hpa, hpb⟩⟩
        · refine Or.inr (Or.inr ⟨[], ?_, ?_⟩)
          · rw [h, List.nil_append, List.cons_prefix_cons]
            exact ⟨rfl, List.nil_prefix⟩
          · rw [h, List.nil_append, List.cons_prefix_cons]
            exact ⟨rfl, List.nil_prefix⟩
        · exact Or.inl ⟨rfl, h⟩
        · exact Or.inr (Or.inl ⟨rfl, h⟩)
        · exact Or.inr (Or.inr ⟨c :: p, List.cons_prefix_cons.mpr ⟨rfl, hpa⟩, List.cons_prefix_cons.mpr ⟨rfl, hpb⟩⟩)
      · rintro (⟨rfl, h⟩ | ⟨rfl, h⟩ | ⟨p, hpa, hpb⟩)
        · exact ⟨rfl, Or.inr (Or.inl h)⟩
        · exact ⟨rfl, Or.inr (Or.inr (Or.inl h))⟩
        · cases p with
          | nil =>
              rw [List.nil_append, List.cons_prefix_cons] at hpa hpb
              exact ⟨hpa.1.symm.trans hpb.1, Or.inl hpa.1.symm⟩
          | cons x p =>
              rw [List.cons_append, List.cons_prefix_cons] at hpa hpb
              exact ⟨hpa.1.symm.trans hpb.1, Or.inr (Or.inr (Or.inr ⟨p, hpa.2, hpb.2⟩))⟩

/-- Two texts that are not the same and compare equal: one begins the other, or they go on differently behind a NUL. -/
def Confused (a b : Text) : Prop := a ≠ b ∧ (a <+: b ∨ b <+: a ∨ ∃ p, p ++ [0] <+: a ∧ p ++ [0] <+: b)

theorem stringEq_iff_of_not_confused {a b : Text} (h : ¬ Confused a b) : stringEq a b = true ↔ a = b := by
  constructor
  · intro heq
    by_contra hne
    exact h ⟨hne, (stringEq_eq_true_iff a b).mp heq⟩
  · rintro rfl
    exact stringEq_self a

/-! ## The map of an object -/

/-- The keys of an object. -/
def keys (ps : List Pair) : List Text := ps.map Pair.key

/-- **KeyedByText.** The map has one entry for each key of the object, with the value of the first pair that has it. -/
def KeyedByText (m : Map) (ps : List Pair) : Prop :=
  (m.map Prod.fst).Nodup ∧ ∀ k v, (k, v) ∈ m ↔ (ps.find? (fun p => p.key = k)).map Pair.value = some v

/-- **LawfulKeys.** On the keys of the object the comparison is equality of texts, and equal keys have equal hash codes;
    and every container with this hash makes the map from it. -/
def LawfulKeys (hash : Text → Nat) (ps : List Pair) : Prop :=
  (∀ a ∈ keys ps, ∀ b ∈ keys ps, (stringEq a b = true ↔ a = b) ∧ (stringEq a b = true → hash a = hash b)) ∧
  ∀ s : Search hash, KeyedByText (objectMapIn s ps) ps

/-- A key of the map is a key of the object. -/
theorem KeyedByText.mem_keys {m : Map} {ps : List Pair} (K : KeyedByText m ps) {e : Text × Value} (he : e ∈ m) :
    e.1 ∈ keys ps := by
  obtain ⟨p, hfind, -⟩ := Option.map_eq_some_iff.mp ((K.2 e.1 e.2).mp he)
  have hkey : p.key = e.1 := by simpa using List.find?_some hfind
  exact hkey ▸ List.mem_map_of_mem (List.mem_of_find?_eq_some hfind)

/-- **One insertion.** A key that no key before it is confused with is found exactly when it is there, whatever else it
    is compared with. -/
theorem KeyedByText.insertIn {hash : Text → Nat} (s : Search hash) {m : Map} {ps : List Pair}
    (K : KeyedByText m ps) {k : Text} {v : Value} (hk : ∀ a ∈ keys ps, ¬ Confused a k) :
    KeyedByText (m.insertIn s k v) (ps ++ [.mk k v]) := by
  have hfound : (s.among m k).any (fun e => stringEq e.1 k) = true ↔ ∃ w, (k, w) ∈ m := by
    rw [List.any_eq_true]
    constructor
    · rintro ⟨e, he, heq⟩
      have hm := s.sub m k e he
      have hkey : e.1 = k := (stringEq_iff_of_not_confused (hk e.1 (K.mem_keys hm))).mp heq
      exact ⟨e.2, hkey ▸ hm⟩
    · rintro ⟨w, hw⟩
      exact ⟨(k, w), s.complete m k _ hw rfl, stringEq_self k⟩
  have hlast : ∀ k', (ps ++ [Pair.mk k v]).find? (fun p => p.key = k') =
      (ps.find? (fun p => p.key = k')).or (if k = k' then some (.mk k v) else none) := by
    intro k'
    rw [List.find?_append, List.find?_singleton]
    congr 1
    show (if decide (k = k') = true then _ else _) = _
    by_cases hkk : k = k'
    · rw [if_pos hkk, if_pos (decide_eq_true hkk)]
    · rw [if_neg hkk, if_neg (by simpa using hkk)]
  unfold Map.insertIn
  by_cases hin : ∃ w, (k, w) ∈ m
  -- an equal key keeps the value that it has, which is that of its first pair
  · rw [if_pos (hfound.mpr hin)]
    refine ⟨K.1, fun k' w' => ?_⟩
    rw [K.2, hlast]
    by_cases hkk : k = k'
    · obtain ⟨w, hw⟩ := hin
      obtain ⟨p, hfind, -⟩ := Option.map_eq_some_iff.mp ((K.2 k w).mp hw)
      rw [← hkk, hfind, Option.some_or]
    · rw [if_neg hkk, Option.or_none]
  · rw [if_neg (fun h => hin (hfound.mp h))]
    have hnone : ps.find? (fun p => p.key = k) = none := by
      cases hfind : ps.find? (fun p => p.key = k) with
      | none => rfl
      | some p => exact absurd ⟨p.value, (K.2 k p.value).mpr (by rw [hfind]; rfl)⟩ hin
    refine ⟨?_, fun k' w' => ?_⟩
    · rw [List.map_append, List.nodup_append]
      refine ⟨K.1, List.pairwise_singleton _ _, ?_⟩
      intro a ha b hb hab
      obtain ⟨e, he, rfl⟩ := List.mem_map.mp ha
      have hbk : b = k := by simpa using hb
      exact hin ⟨e.2, by rw [← hbk, ← hab]; exact he⟩
    · rw [List.mem_append, K.2, List.mem_singleton, hlast, Prod.mk.injEq]
      by_cases hkk : k = k'
      · subst hkk
        rw [hnone, Option.none_or, if_pos rfl]
        simp [Pair.value, eq_comm]
      · rw [if_neg hkk, Option.or_none]
        exact ⟨fun h => h.resolve_right (fun hc => hkk hc.1.symm), Or.inl⟩

/-- **The map of an object without confused keys**, by induction on the pairs inserted so far. -/
theorem objectMapIn_keyed {hash : Text → Nat} (s : Search hash) (ps : List Pair)
    (h : ∀ a ∈ keys ps, ∀ b ∈ keys ps, ¬ Confused a b) : KeyedByText (objectMapIn s ps) ps := by
  induction ps using List.reverseRecOn with
  | nil => exact ⟨List.nodup_nil, fun k v => by simp [objectMapIn]⟩
  | append_singleton ps p ih =>
      have hsub : ∀ a ∈ keys ps, a ∈ keys (ps ++ [p]) := fun a ha => by
        rw [keys, List.map_append]
        exact List.mem_append_left _ ha
      have hp : p.key ∈ keys (ps ++ [p]) := List.mem_map_of_mem (by simp)
      have K := ih (fun a ha b hb => h a (hsub a ha) b (hsub b hb))
      cases p with
      | mk k v =>
          have hstep := K.insertIn s (k := k) (v := v) (fun a ha => h a (hsub a ha) k hp)
          rw [objectMapIn, List.foldl_append]
          exact hstep

/-- **When the map of an object is keyed by text**: when no two keys of the object are confused. -/
theorem map_keyed_iff (hash : Text → Nat) (ps : List Pair) :
    LawfulKeys hash ps ↔ ∀ a ∈ keys ps, ∀ b ∈ keys ps, ¬ Confused a b := by
  constructor
  · rintro ⟨hlaw, -⟩ a ha b hb ⟨hne, heq⟩
    exact hne ((hlaw a ha b hb).1.mp ((stringEq_eq_true_iff a b).mpr heq))
  · intro h
    refine ⟨fun a ha b hb => ?_, fun s => objectMapIn_keyed s ps h⟩
    have heq := stringEq_iff_of_not_confused (h a ha b hb)
    exact ⟨heq, fun hab => by rw [heq.mp hab]⟩

/-- The container that compares hash codes first makes the map of an object that the handlers look into. -/
theorem objectMapIn_byCode (hash : Text → Nat) (ps : List Pair) :
    objectMapIn (Search.byCode hash) ps = objectMap hash ps := by
  have hinsert : ∀ (m : Map) (p : Pair),
      m.insertIn (Search.byCode hash) p.key p.value = m.insert hash p.key p.value := by
    intro m p
    have hfound : ((Search.byCode hash).among m p.key).any (fun e => stringEq e.1 p.key) =
        (m.find hash p.key).isSome := by
      rw [Map.find, Option.isSome_map, List.isSome_find?, Search.byCode, List.any_filter]
    unfold Map.insertIn Map.insert
    rw [hfound]
  unfold objectMapIn objectMap
  simp only [hinsert]

/-- **The comparison takes `a` for `ab`**, which are different keys, and takes the empty key for both `a` and `b`; and
    where the hash codes collide the map of the object with the keys `a` and `ab` has no entry for `ab`. -/
theorem map_confuses : (¬ ∃ hash, LawfulKeys hash [.mk [97] (.number [49]), .mk [97, 98] (.number [50])]) ∧
    stringEq [97] [] = true ∧ stringEq [] [98] = true ∧ stringEq [97] [98] = false ∧
    objectMap (fun _ => 0) [.mk [97] (.number [49]), .mk [97, 98] (.number [50])] = [([97], .number [49])] := by
  refine ⟨?_, rfl, rfl, rfl, rfl⟩
  rintro ⟨hash, hlaw, -⟩
  have h := ((hlaw [97] (by simp [keys, Pair.key]) [97, 98] (by simp [keys, Pair.key])).1).mp rfl
  exact absurd h (by decide)

end Json
end Freeflow
