import Freeflow.Flowpath.Dataplane

/-!
# `Flowpath.Correctness.PortList` — which ports a listing lists

`fp_dataplane_list_ports` takes the head of the chain of bucket `i` as the `i`-th port, for `i` below the number of
entries. It lists every port once exactly when the entries fill the first buckets, one in each.
-/

namespace Freeflow
namespace Flowpath
namespace Dataplane

variable {ν ω : Type}

/-- **ListsAll.** The listing returns, and what it returns is every value that the table stores, each as often as it is
    stored. -/
def ListsAll (dp : Dataplane ν ω) (t : PtrTable) : Prop :=
  ∃ ports, dp.listPorts = .ok ports ∧ ports.Perm (t.data.flatten.map HashEntry.value)

/-- One round of the loop of `fp_dataplane_list_ports`. -/
def listOne (t : PtrTable) (i : Nat) : Checked Ptr := do
  let chain ← load t.data i
  match chain with
  | ent :: _ => do
      let _ ← checkInt (i + 1)
      return ent.value
  | [] => .error .nullDeref

theorem listPorts_eq {dp : Dataplane ν ω} {t : PtrTable} (h : dp.ports = .owned t) :
    dp.listPorts = (List.range t.size).mapM (listOne t) := by
  rw [listPorts, h]
  rfl

/-- A round that returned read an entry, at an index that the counter can pass. -/
theorem listOne_ok {t : PtrTable} {i : Nat} {port : Ptr} (h : listOne t i = .ok port) :
    (∃ c, t.data[i]? = some c ∧ c ≠ []) ∧ i + 1 ≤ 2147483647 := by
  obtain ⟨chain, hload, h⟩ := bind_eq_ok h
  obtain ⟨-, hget⟩ := load_ok hload
  cases chain with
  | nil => cases h
  | cons ent rest =>
      obtain ⟨j, hcheck, -⟩ := bind_eq_ok h
      have hmax : ((i : Int) + 1) ≤ 2147483647 := (checkInt_bounds hcheck).2
      exact ⟨⟨ent :: rest, hget, List.cons_ne_nil _ _⟩, by omega⟩

theorem listOne_eq {t : PtrTable} {i : Nat} {ent : HashEntry Nat Ptr} {rest : List (HashEntry Nat Ptr)}
    (hget : t.data[i]? = some (ent :: rest)) (hi : i + 1 ≤ 2147483647) : listOne t i = .ok ent.value := by
  have hcheck : checkInt ((i : Int) + 1) = .ok ((i : Int) + 1) :=
    checkInt_of_bounds (by omega) (by omega)
  rw [listOne, load_natCast hget, ok_bind]
  show (checkInt ((i : Int) + 1) >>= _) = _
  rw [hcheck]
  rfl

/-- **When a listing lists every port.** With the size counting the entries, it does so exactly when the size is an
    `int` and none of the first `size` buckets is empty. -/
theorem listPorts_all_iff (dp : Dataplane ν ω) (t : PtrTable) (hports : dp.ports = .owned t)
    (hsize : t.size = t.data.flatten.length) :
    ListsAll dp t ↔ t.size ≤ 2147483647 ∧ ∀ i < t.size, ∃ c, t.data[i]? = some c ∧ c ≠ [] := by
  unfold ListsAll
  rw [listPorts_eq hports]
  constructor
  · rintro ⟨ports, hlist, -⟩
    obtain ⟨hlen, hall⟩ := List.forall₂_iff_get.mp (mapM_eq_ok_iff.mp hlist)
    have hone : ∀ i < t.size, (∃ c, t.data[i]? = some c ∧ c ≠ []) ∧ i + 1 ≤ 2147483647 := by
      intro i hi
      have hi' : i < (List.range t.size).length := by rwa [List.length_range]
      have hround := hall i hi' (hlen ▸ hi')
      rw [List.get_eq_getElem, List.getElem_range] at hround
      exact listOne_ok hround
    refine ⟨?_, fun i hi => (hone i hi).1⟩
    -- the counter reaches `size` behind the last round
    rcases Nat.eq_zero_or_pos t.size with h | h
    · omega
    · have := (hone (t.size - 1) (by omega)).2
      omega
  · rintro ⟨hmax, hne⟩
    -- with no more entries than that, each of the first `size` buckets has one
    have htake := take_eq_singletons hsize.symm hne
    refine ⟨t.data.flatten.map HashEntry.value, mapM_eq_ok_iff.mpr ?_, List.Perm.refl _⟩
    have hlen : (List.range t.size).length = (t.data.flatten.map HashEntry.value).length := by
      rw [List.length_range, List.length_map, hsize]
    refine List.forall₂_iff_get.mpr ⟨hlen, fun i hi hi' => ?_⟩
    rw [List.length_range] at hi
    rw [List.length_map] at hi'
    have hget : t.data[i]? = some [t.data.flatten[i]] := by
      rw [← List.getElem?_take_of_lt hi, htake, List.getElem?_map, List.getElem?_eq_getElem hi']
      rfl
    rw [List.get_eq_getElem, List.getElem_range, List.get_eq_getElem, List.getElem_map]
    exact listOne_eq hget (show i + 1 ≤ 2147483647 by omega)

/-- A data plane with three ports, whose ids fill the first three buckets. -/
theorem listPorts_all_three :
    ∃ dp : Dataplane Nat Nat, ListsAll dp
      ⟨3, 17, uintHash, uintEq, [[⟨0, some 4⟩], [⟨18, some 5⟩], [⟨2, some 6⟩]] ++ List.replicate 14 []⟩ := by
  refine ⟨⟨0, 0, 0, 0, .owned _, .null, none⟩, (listPorts_all_iff _ _ rfl (by decide)).mpr ⟨by decide, ?_⟩⟩
  intro i hi
  match i, hi with
  | 0, _ => exact ⟨_, rfl, by decide⟩
  | 1, _ => exact ⟨_, rfl, by decide⟩
  | 2, _ => exact ⟨_, rfl, by decide⟩

/-- A listing that dereferences an empty bucket: the one port has the id 5, and bucket 0 is read. -/
theorem listPorts_skips : ∃ (dp : Dataplane Nat Nat) (t : PtrTable), dp.ports = .owned t ∧
    t.data.length = t.buckets ∧ Located (fun e => t.hash e.key % t.buckets) t.data ∧
    t.size = t.data.flatten.length ∧ dp.listPorts = .error .nullDeref ∧ ¬ ListsAll dp t := by
  have hlist : (⟨0, 0, 0, 0, .owned ⟨1, 17, uintHash, uintEq, (List.replicate 17 []).set 5 [⟨5, some 9⟩]⟩, .null,
      none⟩ : Dataplane Nat Nat).listPorts = .error .nullDeref := by
    decide
  refine ⟨_, _, rfl, rfl, (located_replicate _ 17).set ?_, rfl, hlist, ?_⟩
  · intro e he
    rw [List.mem_singleton] at he
    subst he
    rfl
  · rintro ⟨ports, hports, -⟩
    rw [hlist] at hports
    cases hports

end Dataplane
end Flowpath
end Freeflow
