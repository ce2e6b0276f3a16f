import Mathlib.Data.List.Perm.Basic

/-!
# `Lib.KeyMap` — finite maps whose keys are compared by an equivalence

A finite map from keys to values, where two keys count as the same key when `eqv` says so. It is a list
of entries no two of which have the same key; the order carries no meaning. The laws assume that `eqv` is
an equivalence relation, which the definitions do not need.

## Contents
- `KeyMap` with `get?`, `insert`, `erase`, `keyOf?`, `card`.
- `get?_eq_some`: what a lookup returns is the value of the one entry with that key.
- `get?_insert`, `get?_erase`: the laws of a map.
-/

namespace Freeflow

variable {K V : Type} {eqv : K → K → Bool}

/-- A finite map: entries with pairwise different keys. -/
structure KeyMap (K V : Type) (eqv : K → K → Bool) where
  entries : List (K × V)
  distinct : entries.Pairwise (fun a b => eqv b.1 a.1 = false)

namespace KeyMap

/-- The map without keys. -/
def empty : KeyMap K V eqv := ⟨[], List.Pairwise.nil⟩

/-- The value stored under `k`. -/
def get? (m : KeyMap K V eqv) (k : K) : Option V :=
  (m.entries.find? (fun e => eqv e.1 k)).map Prod.snd

/-- The map without the key `k`. -/
def erase (m : KeyMap K V eqv) (k : K) : KeyMap K V eqv where
  entries := m.entries.filter (fun e => !eqv e.1 k)
  distinct := m.distinct.filter _

/-- The map with `k` mapped to `v`. -/
def insert (m : KeyMap K V eqv) (k : K) (v : V) : KeyMap K V eqv where
  entries := (k, v) :: (m.erase k).entries
  distinct := List.pairwise_cons.mpr
    ⟨fun e he => by simpa [erase] using (List.mem_filter.mp he).2, (m.erase k).distinct⟩

/-- A key that `v` is stored under. -/
def keyOf? [DecidableEq V] (m : KeyMap K V eqv) (v : V) : Option K :=
  (m.entries.find? (fun e => e.2 = v)).map Prod.fst

/-- The number of keys. -/
def card (m : KeyMap K V eqv) : Nat := m.entries.length

@[simp] theorem entries_empty : (empty : KeyMap K V eqv).entries = [] := rfl

/-- A key without a value is on no entry. -/
theorem get?_eq_none {m : KeyMap K V eqv} {k : K} :
    m.get? k = none ↔ ∀ e ∈ m.entries, eqv e.1 k = false := by
  simp [get?, Option.map_eq_none_iff, List.find?_eq_none]

/-- Erasing a key that is not there changes nothing. -/
theorem erase_of_get?_eq_none {m : KeyMap K V eqv} {k : K} (h : m.get? k = none) :
    (m.erase k).entries = m.entries := by
  rw [get?_eq_none] at h
  simp only [erase, List.filter_eq_self]
  intro e he
  simp [h e he]

theorem entries_insert_of_get?_eq_none {m : KeyMap K V eqv} {k : K} {v : V} (h : m.get? k = none) :
    (m.insert k v).entries = (k, v) :: m.entries := by
  simp only [insert, erase_of_get?_eq_none h]

/-- A key that was found is stored with the value. -/
theorem mem_of_keyOf? [DecidableEq V] {m : KeyMap K V eqv} {k : K} {v : V} (h : m.keyOf? v = some k) :
    (k, v) ∈ m.entries := by
  obtain ⟨e, hfind, rfl⟩ := Option.map_eq_some_iff.mp h
  have hv : e.2 = v := by simpa using List.find?_some hfind
  rw [← hv]
  exact List.mem_of_find?_eq_some hfind

/-- A value that is stored has a key. -/
theorem keyOf?_ne_none [DecidableEq V] {m : KeyMap K V eqv} {k : K} {v : V} (h : (k, v) ∈ m.entries) :
    m.keyOf? v ≠ none := by
  intro hnone
  have hall := List.find?_eq_none.mp (Option.map_eq_none_iff.mp hnone) _ h
  simp at hall

/-! ## Lookups -/

section Laws

variable (heq : Equivalence (fun a b => eqv a b = true))
include heq

/-- Two entries with the same key are one entry. -/
theorem entry_unique {m : KeyMap K V eqv} {k : K} {e e' : K × V} (he : e ∈ m.entries)
    (he' : e' ∈ m.entries) (hk : eqv e.1 k = true) (hk' : eqv e'.1 k = true) : e = e' := by
  by_contra hne
  have hee : eqv e.1 e'.1 = true := heq.trans hk (heq.symm hk')
  have hee' : eqv e'.1 e.1 = true := heq.symm hee
  have hpair := List.pairwise_iff_getElem.mp m.distinct
  obtain ⟨i, hi, rfl⟩ := List.getElem_of_mem he
  obtain ⟨j, hj, rfl⟩ := List.getElem_of_mem he'
  rcases Nat.lt_trichotomy i j with h | h | h
  · exact absurd hee' (by simpa using hpair i j hi hj h)
  · subst h; exact hne rfl
  · exact absurd hee (by simpa using hpair j i hj hi h)

/-- **What a lookup returns.** The value of the entry with that key, of which there is at most one. -/
theorem get?_eq_some {m : KeyMap K V eqv} {k : K} {v : V} :
    m.get? k = some v ↔ ∃ e ∈ m.entries, eqv e.1 k = true ∧ e.2 = v := by
  constructor
  · intro h
    obtain ⟨e, hfind, hv⟩ := Option.map_eq_some_iff.mp h
    have hk := List.find?_some hfind
    exact ⟨e, List.mem_of_find?_eq_some hfind, hk, hv⟩
  · rintro ⟨e, he, hk, rfl⟩
    cases hfind : m.entries.find? (fun e => eqv e.1 k) with
    | none => exact absurd hk (by simpa using List.find?_eq_none.mp hfind e he)
    | some e' =>
        have hk' := List.find?_some hfind
        have hee := entry_unique heq he (List.mem_of_find?_eq_some hfind) hk hk'
        rw [get?, hfind, hee]
        rfl

/-- A lookup after an insertion. -/
theorem get?_insert (m : KeyMap K V eqv) (k k' : K) (v : V) :
    (m.insert k v).get? k' = if eqv k k' then some v else m.get? k' := by
  cases hk : eqv k k' with
  | true => simp [get?, insert, hk]
  | false =>
      simp only [get?, insert, List.find?_cons, hk, erase, List.find?_filter]
      congr 2
      funext e
      cases he : eqv e.1 k' with
      | false => simp
      | true =>
          have hne : eqv e.1 k ≠ true := fun h => by
            have := heq.trans (heq.symm h) he
            simp [hk] at this
          simp [hne]

/-- A lookup after a removal. -/
theorem get?_erase (m : KeyMap K V eqv) (k k' : K) :
    (m.erase k).get? k' = if eqv k k' then none else m.get? k' := by
  cases hk : eqv k k' with
  | true =>
      rw [if_pos rfl, get?_eq_none]
      intro e he
      have hne : eqv e.1 k = false := by simpa using (List.mem_filter.mp he).2
      by_contra h
      have := heq.trans (by simpa using h) (heq.symm hk)
      simp [hne] at this
  | false =>
      simp only [get?, erase, List.find?_filter]
      congr 2
      funext e
      cases he : eqv e.1 k' with
      | false => simp
      | true =>
          have hne : eqv e.1 k ≠ true := fun h => by
            have := heq.trans (heq.symm h) he
            simp [hk] at this
          simp [hne]

/-- Erasing the key of one entry leaves the others. -/
theorem erase_perm {m : KeyMap K V eqv} {k : K} {x : K × V} {es : List (K × V)}
    (hperm : (x :: es).Perm m.entries) (hk : eqv x.1 k = true) : es.Perm (m.erase k).entries := by
  have hsymm : ∀ {a b : K × V}, eqv b.1 a.1 = false → eqv a.1 b.1 = false := by
    intro a b hba
    by_contra hab
    have := heq.symm (by simpa using hab)
    simp [hba] at this
  have hdist : (x :: es).Pairwise (fun a b => eqv b.1 a.1 = false) :=
    (hperm.pairwise_iff hsymm).mpr m.distinct
  have hkeep : es.filter (fun e => !eqv e.1 k) = es := by
    rw [List.filter_eq_self]
    intro e he
    have hne : eqv e.1 x.1 = false := (List.pairwise_cons.mp hdist).1 e he
    have : eqv e.1 k ≠ true := fun h => by
      have := heq.trans h (heq.symm hk)
      simp [hne] at this
    simpa using this
  have hfilter := hperm.filter (fun e => !eqv e.1 k)
  rwa [List.filter_cons, hk, hkeep] at hfilter

end Laws

end KeyMap

end Freeflow
