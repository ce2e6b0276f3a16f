import Freeflow.Flowpath.Correctness.HashSafety

/-!
# `Flowpath.Correctness.HashUpdate` — which entry an update writes to

`fp_chained_hash_table_update` writes to the head of the home chain without comparing its key. `UpdatesFound` is what
the table is for: the entry that a lookup finds gets the value, and everything else is as it was. The two agree on the
chains whose head is the entry found, and beyond them only where both writes change nothing (`update_found_iff`).
-/

namespace Freeflow
namespace Flowpath
namespace ChainedHashTable

variable {K V : Type}

/-- The chain with the value of its first entry replaced. -/
def setHead (v : V) : List (HashEntry K V) → List (HashEntry K V)
  | [] => []
  | e :: rest => { e with value := v } :: rest

/-- **UpdatesFound.** The update gives `v` to the entry that the lookup finds; the entries in front of it, the rest of
    its chain, the other chains and the size stay. -/
def UpdatesFound (t : ChainedHashTable K V) (k : K) (v : V) : Prop :=
  ∃ n chain found, t.bucket k = .ok (n, chain) ∧ t.find k = .ok found ∧
    t.update k v = .ok { t with
      data := t.data.set n.toNat (chain.takeWhile (fun e => !t.comp e.key k) ++ setHead v found) }

/-- What a lookup finds in the home chain. -/
theorem find_of_bucket {t : ChainedHashTable K V} {k : K} {n : Int} {chain : List (HashEntry K V)}
    (h : t.bucket k = .ok (n, chain)) : t.find k = .ok (chain.dropWhile (fun e => !t.comp e.key k)) := by
  rw [find, h]
  rfl

/-- A bucket that was read is a chain of the array. -/
theorem getElem?_of_bucket {t : ChainedHashTable K V} {k : K} {n : Int} {chain : List (HashEntry K V)}
    (h : t.bucket k = .ok (n, chain)) : 0 ≤ n ∧ t.data[n.toNat]? = some chain := by
  unfold bucket at h
  obtain ⟨i, -, h⟩ := bind_eq_ok h
  obtain ⟨c, hload, h⟩ := bind_eq_ok h
  simp only [pure_eq_ok, Except.ok.injEq, Prod.mk.injEq] at h
  obtain ⟨rfl, rfl⟩ := h
  exact load_ok hload

/-- What an update writes back, once the home chain is read. -/
theorem update_of_bucket {t : ChainedHashTable K V} {k : K} {n : Int} {chain : List (HashEntry K V)}
    (h : t.bucket k = .ok (n, chain)) (v : V) :
    t.update k v = .ok { t with data := t.data.set n.toNat (setHead v chain) } := by
  obtain ⟨hpos, hget⟩ := getElem?_of_bucket h
  have hlt := (List.getElem?_eq_some_iff.mp hget).1
  rw [update, h, ok_bind]
  cases chain with
  | nil =>
      have hsame : t.data.set n.toNat [] = t.data := by
        rw [← (List.getElem?_eq_some_iff.mp hget).2, List.set_getElem_self]
      show Except.ok t = Except.ok { t with data := t.data.set n.toNat [] }
      rw [hsame]
  | cons ent rest =>
      show (store t.data n _ >>= _) = _
      rw [store, if_pos ⟨hpos, hlt⟩]
      rfl

/-- Writing to the head of a chain is writing to the head of its part from `found` on when the two are the same, or
    when neither write changes anything. -/
theorem setHead_eq_append_iff (v : V) (front found : List (HashEntry K V)) :
    setHead v (front ++ found) = front ++ setHead v found ↔
      front = [] ∨ ((front ++ found).head?.map HashEntry.value = some v ∧
        ∀ e, found.head? = some e → e.value = v) := by
  cases front with
  | nil => simp
  | cons e front =>
      have hhead : ∀ e : HashEntry K V, ({ e with value := v } = e) ↔ e.value = v := by
        intro e
        cases e
        simp [eq_comm]
      have hfound : ∀ x : HashEntry K V, (x = { x with value := v }) ↔ x.value = v := fun x =>
        eq_comm.trans (hhead x)
      cases found with
      | nil => simp [setHead, hhead]
      | cons x found => simp [setHead, hhead, hfound]

/-- **When an update writes to the entry it should.** The index of the key is one of the array, and the chain there
    begins with the entry that the lookup finds (or is empty); or else the value is already there, at the head of the
    chain and in the entry found, if there is one. -/
theorem update_found_iff (t : ChainedHashTable K V) (k : K) (v : V) :
    UpdatesFound t k v ↔ ∃ n chain found, t.bucket k = .ok (n, chain) ∧ t.find k = .ok found ∧
      (chain = found ∨ (chain.head?.map HashEntry.value = some v ∧ ∀ e, found.head? = some e → e.value = v)) := by
  have hcases : ∀ n chain, t.bucket k = .ok (n, chain) →
      (t.update k v = .ok { t with
          data := t.data.set n.toNat (chain.takeWhile (fun e => !t.comp e.key k) ++
            setHead v (chain.dropWhile (fun e => !t.comp e.key k))) } ↔
        chain = chain.dropWhile (fun e => !t.comp e.key k) ∨ (chain.head?.map HashEntry.value = some v ∧
          ∀ e, (chain.dropWhile (fun e => !t.comp e.key k)).head? = some e → e.value = v)) := by
    intro n chain hb
    obtain ⟨-, hget⟩ := getElem?_of_bucket hb
    have hlt := (List.getElem?_eq_some_iff.mp hget).1
    have hsplit := List.takeWhile_append_dropWhile (p := fun e : HashEntry K V => !t.comp e.key k) (l := chain)
    have hsame := setHead_eq_append_iff v (chain.takeWhile (fun e => !t.comp e.key k))
      (chain.dropWhile (fun e => !t.comp e.key k))
    rw [hsplit] at hsame
    have hfront : chain.takeWhile (fun e => !t.comp e.key k) = [] ↔
        chain = chain.dropWhile (fun e => !t.comp e.key k) := by
      conv_rhs => lhs; rw [← hsplit]
      rw [List.append_left_eq_self]
    rw [update_of_bucket hb, ← hfront, ← hsame]
    -- the two arrays can differ at `n` only
    constructor
    · intro h
      have hdata := congrArg (fun r => r.data[n.toNat]?) (Except.ok.inj h)
      simpa [hlt] using hdata
    · intro h
      rw [h]
  constructor
  · rintro ⟨n, chain, found, hb, hf, hu⟩
    rw [find_of_bucket hb] at hf
    cases hf
    exact ⟨n, chain, _, hb, find_of_bucket hb, (hcases n chain hb).mp hu⟩
  · rintro ⟨n, chain, found, hb, hf, hc⟩
    rw [find_of_bucket hb] at hf
    cases hf
    exact ⟨n, chain, _, hb, find_of_bucket hb, (hcases n chain hb).mpr hc⟩

/-- A table with the id 5 in it, updated at 58, which has the same bucket: the lookup of 58 finds nothing, and the value
    of 5 is lost. -/
theorem update_clobbers : ∃ t c, (new 17 uintHash uintEq : ChainedHashTable Nat Nat).insert 5 7 = .ok (t, c) ∧
    t.find 58 = .ok [] ∧ (∃ t', t.update 58 0 = .ok t' ∧ t'.find 5 = .ok [⟨5, 0⟩]) ∧ ¬ UpdatesFound t 58 0 := by
  have hseen : ((new 17 uintHash uintEq : ChainedHashTable Nat Nat).insert 5 7 >>= fun r => do
      let (_, chain) ← r.1.bucket 58
      let found ← r.1.find 58
      let t' ← r.1.update 58 0
      let lost ← t'.find 5
      return (chain, found, lost)) = .ok ([⟨5, 7⟩], [], [⟨5, 0⟩]) := by
    decide +kernel
  obtain ⟨⟨t, c⟩, hins, hseen⟩ := bind_eq_ok hseen
  obtain ⟨⟨n, chain⟩, hb, hseen⟩ := bind_eq_ok hseen
  obtain ⟨found, hf, hseen⟩ := bind_eq_ok hseen
  obtain ⟨t', hu, hseen⟩ := bind_eq_ok hseen
  obtain ⟨lost, hl, hseen⟩ := bind_eq_ok hseen
  simp only [pure_eq_ok, Except.ok.injEq, Prod.mk.injEq] at hseen
  obtain ⟨rfl, rfl, rfl⟩ := hseen
  refine ⟨t, c, hins, hf, ⟨t', hu, hl⟩, ?_⟩
  rintro ⟨n', chain', found', hb', hf', hu'⟩
  rw [hb] at hb'
  cases hb'
  rw [hf] at hf'
  cases hf'
  have hsplit := List.takeWhile_append_dropWhile
    (p := fun e : HashEntry Nat Nat => !t.comp e.key 58) (l := [⟨5, 7⟩])
  rw [Except.ok.inj ((find_of_bucket hb).symm.trans hf), List.append_nil] at hsplit
  rw [update_of_bucket hb, hsplit] at hu'
  obtain ⟨-, hget⟩ := getElem?_of_bucket hb
  have hlt : n.toNat < t.data.length := (List.getElem?_eq_some_iff.mp hget).1
  have hdata := congrArg (fun r => r.data[n.toNat]?) (Except.ok.inj hu')
  simp [hlt, setHead] at hdata

end ChainedHashTable
end Flowpath
end Freeflow
