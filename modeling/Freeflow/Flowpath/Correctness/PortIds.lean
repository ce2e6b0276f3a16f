import Freeflow.Flowpath.Port
import Freeflow.Flowpath.Correctness.HashSafety

/-!
# `Flowpath.Correctness.PortIds` — when live ports have different ids

`allocate_port_id` looks for an id that the table `ports_` does not have, and nothing ever puts one there. So the table
stays as it is set up, the cursor stays at 1, and every port gets the id 1: `live_ids_iff`.
-/

namespace Freeflow
namespace Flowpath

variable {D : Type}

/-- **Live ports have different ids**, and none of them is reserved. -/
def DistinctLive (s : PortState D) : Prop :=
  (∀ a b p q, s.heap.cells a = some p → s.heap.cells b = some q → p.id = q.id → a = b) ∧
  ∀ a p, s.heap.cells a = some p → p.id ≤ portMaxId

/-- A port is created only when there is none. -/
def CreatesAlone (s : PortState D) (op : PortOp D) : Prop := ∀ dev, op = .create dev → ∀ a, s.heap.cells a = none

/-- No id is recorded in `ports_`, and the cursor has not moved. -/
structure Unrecorded (s : PortState D) : Prop where
  table : ∃ t, s.ports = .owned t ∧ t.Shaped ∧ t.data.flatten = []
  cursor : s.portAlloc = 1

/-- **The invariant of the runs**: nothing is recorded, and there is at most one port, with the id 1. -/
structure OnePort (s : PortState D) : Prop where
  unrecorded : Unrecorded s
  id_eq : ∀ a p, s.heap.cells a = some p → p.id = 1
  lone : ∀ a b p q, s.heap.cells a = some p → s.heap.cells b = some q → a = b

variable {s s' : PortState D}

theorem OnePort.distinct (O : OnePort s) : DistinctLive s := by
  refine ⟨fun a b p q ha hb _ => O.lone a b p q ha hb, fun a p ha => ?_⟩
  rw [O.id_eq a p ha]
  decide

/-! ## What the operations do while nothing is recorded -/

/-- The first id is free. -/
theorem Unrecorded.allocatePortId_eq (U : Unrecorded s) : allocatePortId s = .ok 1 := by
  obtain ⟨t, ht, S, hempty⟩ := U.table
  obtain ⟨n, hbucket⟩ := S.bucket_of_flatten_eq_nil hempty (1 : PortId).toNat
  have hfind : t.find (1 : PortId).toNat = .ok [] := by
    rw [ChainedHashTable.find, hbucket]
    rfl
  unfold allocatePortId
  rw [ht, Owner.deref_owned, ok_bind, U.cursor, allocateLoop, hfind]
  rfl

/-- There is no entry to update. -/
theorem Unrecorded.releasePortId_eq (U : Unrecorded s) (id : PortId) : releasePortId s id = .ok s := by
  obtain ⟨t, ht, S, hempty⟩ := U.table
  obtain ⟨n, hbucket⟩ := S.bucket_of_flatten_eq_nil hempty id.toNat
  have hupdate : t.update id.toNat none = .ok t := by
    rw [ChainedHashTable.update, hbucket]
    rfl
  unfold releasePortId
  rw [ht, Owner.deref_owned, ok_bind, hupdate, ok_bind, ← ht]
  rfl

/-- Every new port gets the id 1. -/
theorem Unrecorded.portCreate_eq (U : Unrecorded s) (dev : D) :
    portCreate s dev = .ok ({ s with heap := s.heap.alloc ⟨1, dev⟩ }, some s.heap.next) := by
  unfold portCreate
  rw [U.allocatePortId_eq, ok_bind, ← U.cursor]
  rfl

/-- A deletion that returned freed the port and changed nothing else. -/
theorem Unrecorded.portDelete_cases {port : Ptr} (U : Unrecorded s) (h : portDelete s port = .ok s') :
    ∃ a heap, port = some a ∧ heap.cells = Function.update s.heap.cells a none ∧ s' = { s with heap } := by
  obtain ⟨p, hp, h⟩ := bind_eq_ok h
  obtain ⟨a, rfl, ha⟩ := Heap.derefPtr_ok hp
  rw [U.releasePortId_eq, ok_bind] at h
  obtain ⟨heap, hfree, hcells, -⟩ := Heap.free_eq ha
  rw [hfree, ok_bind] at h
  cases h
  exact ⟨a, heap, rfl, hcells, rfl⟩

/-! ## One operation -/

/-- A creation leaves different ids exactly when there was no port. -/
theorem OnePort.create {dev : D} {o : Ptr} (O : OnePort s) (h : portStep s (.create dev) = .ok (s', o)) :
    (CreatesAlone s (.create dev) → OnePort s') ∧ (DistinctLive s' → CreatesAlone s (.create dev)) := by
  change portCreate s dev = _ at h
  rw [O.unrecorded.portCreate_eq dev] at h
  cases h
  have hnew : (s.heap.alloc ⟨1, dev⟩).cells s.heap.next = some ⟨1, dev⟩ := Function.update_self _ _ _
  have hold : ∀ a p, s.heap.cells a = some p → (s.heap.alloc ⟨1, dev⟩).cells a = some p := by
    intro a p ha
    rw [Heap.cells_alloc, Function.update_of_ne (Nat.ne_of_lt (Heap.lt_next ha))]
    exact ha
  constructor
  · intro halone
    have honly : ∀ a p, (s.heap.alloc ⟨1, dev⟩).cells a = some p → a = s.heap.next ∧ p = ⟨1, dev⟩ := by
      intro a p ha
      by_cases heq : a = s.heap.next
      · rw [heq, hnew] at ha
        exact ⟨heq, (Option.some.inj ha).symm⟩
      · rw [Heap.cells_alloc, Function.update_of_ne heq, halone dev rfl a] at ha
        cases ha
    refine ⟨⟨O.unrecorded.table, O.unrecorded.cursor⟩, fun a p ha => ?_, fun a b p q ha hb => ?_⟩
    · rw [(honly a p ha).2]
    · exact (honly a p ha).1.trans (honly b q hb).1.symm
  · rintro ⟨hdistinct, -⟩ _ - a
    cases ha : s.heap.cells a with
    | none => rfl
    | some p =>
        -- an older port has the id 1 as well, so it would be the new one
        have heq := hdistinct a s.heap.next p ⟨1, dev⟩ (hold a p ha) hnew (O.id_eq a p ha)
        exact absurd (Heap.lt_next ha) (by omega)

/-- A deletion leaves at most one port. -/
theorem OnePort.delete {port o : Ptr} (O : OnePort s) (h : portStep s (.delete port) = .ok (s', o)) : OnePort s' := by
  obtain ⟨s₁, hdel, h⟩ := bind_eq_ok h
  cases h
  obtain ⟨a, heap, rfl, hcells, rfl⟩ := O.unrecorded.portDelete_cases hdel
  have hold : ∀ b p, heap.cells b = some p → s.heap.cells b = some p :=
    fun b p hb => (Heap.live_of_freed hcells hb).2
  exact ⟨⟨O.unrecorded.table, O.unrecorded.cursor⟩, fun b p hb => O.id_eq b p (hold b p hb),
    fun b c p q hb hc => O.lone b c p q (hold b p hb) (hold c q hc)⟩

/-- **Live ports have different ids exactly in the runs that create a port only when there is none.** The run starts
    without ports, with a valid empty table and the cursor at its initial value. -/
theorem live_ids_iff {t : PtrTable} (hports : s.ports = .owned t) (S : t.Shaped) (hempty : t.data.flatten = [])
    (hcursor : s.portAlloc = 1) (hnone : ∀ a, s.heap.cells a = none) (ops : List (PortOp D)) :
    (∀ n s' os, runAll portStep s (ops.take n) = .ok (s', os) → DistinctLive s') ↔
      Guarded portStep (fun s op => (∃ r, portStep s op = .ok r) → CreatesAlone s op) s ops := by
  refine runAll_good_iff OnePort DistinctLive (fun s O => O.distinct) ?_ ?_ ops s
    ⟨⟨⟨t, hports, S, hempty⟩, hcursor⟩, fun a p ha => ?_, fun a b p q ha => ?_⟩
  · intro s op s' o O h hguard
    cases op with
    | create dev => exact (O.create h).1 hguard
    | delete port => exact O.delete h
  · intro s op s' o O h hgood
    cases op with
    | create dev => exact (O.create h).2 hgood
    | delete port => exact fun dev hop => by cases hop
  · rw [hnone a] at ha
    cases ha
  · rw [hnone a] at ha
    cases ha

/-- A new table beside the ports of `heap`. -/
def portsIn (heap : Heap (Port Nat)) : PortState Nat := ⟨heap, 1, .owned (ChainedHashTable.new 17 uintHash uintEq)⟩

theorem portsIn_unrecorded (heap : Heap (Port Nat)) : Unrecorded (portsIn heap) :=
  ⟨⟨_, rfl, ChainedHashTable.newUint_placed.shaped, by decide⟩, rfl⟩

/-- A port is created, deleted, and another one created. -/
theorem live_ids_one_after_another :
    (∀ n s' os, runAll portStep (portsIn Heap.empty) ([.create 5000, .delete (some 0), .create 5001].take n)
      = .ok (s', os) → DistinctLive s') ↔
    Guarded portStep (fun s op => (∃ r, portStep s op = .ok r) → CreatesAlone s op) (portsIn Heap.empty)
      [.create 5000, .delete (some 0), .create 5001] :=
  live_ids_iff rfl ChainedHashTable.newUint_placed.shaped (by decide) rfl (fun _ => rfl) _

/-- Two ports are created, and both have the id 1. -/
theorem two_ports_one_id : ∃ s',
    runAll portStep (portsIn Heap.empty) [.create 5000, .create 5001] = .ok (s', [some 0, some 1]) ∧
      ¬ DistinctLive s' := by
  have h₁ : portStep (portsIn Heap.empty) (.create 5000) = .ok (portsIn (Heap.empty.alloc ⟨1, 5000⟩), some 0) :=
    (portsIn_unrecorded _).portCreate_eq 5000
  have h₂ : portStep (portsIn (Heap.empty.alloc ⟨1, 5000⟩)) (.create 5001)
      = .ok (portsIn ((Heap.empty.alloc ⟨1, 5000⟩).alloc ⟨1, 5001⟩), some 1) :=
    (portsIn_unrecorded _).portCreate_eq 5001
  refine ⟨_, by rw [runAll_cons_ok h₁, runAll_cons_ok h₂]; rfl, fun hdistinct => ?_⟩
  exact absurd (hdistinct.1 0 1 ⟨1, 5000⟩ ⟨1, 5001⟩ rfl rfl rfl) (by decide)

end Flowpath
end Freeflow
