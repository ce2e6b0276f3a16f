import Mathlib.Data.Nat.Find
import Freeflow.Flowpath.Port
import Freeflow.Flowpath.Correctness.HashSafety

/-!
# `Flowpath.Correctness.PortSearch` — the id that a new port gets

`allocate_port_id` goes through the ids from the cursor on, and from the last one to the first. `idFrom` is the order in which
it meets them, every id once in a round (`exists_idFrom_eq`); so where some id is free the loop ends on the first free one.
The induction is on the distance to that id.
-/

namespace Freeflow
namespace Flowpath

variable {D : Type}

/-! ## The order of the search -/

/-- The ids that a port may have. -/
def Allocatable (id : PortId) : Prop := 1 ≤ id ∧ id ≤ portMaxId

/-- The `k`-th id from `cursor` on, in cyclic order. -/
def idFrom (cursor : PortId) (k : Nat) : PortId := UInt32.ofNat ((cursor.toNat - 1 + k) % portMaxId.toNat + 1)

/-- `(port_alloc + 1 > FP_PORT_MAX_ID ? 1 : port_alloc + 1)`. -/
def nextId (cursor : PortId) : PortId := if cursor + 1 > portMaxId then 1 else cursor + 1

variable {cursor id : PortId}

theorem Allocatable.toNat_bounds (h : Allocatable id) : 1 ≤ id.toNat ∧ id.toNat ≤ 4294967040 :=
  ⟨UInt32.le_iff_toNat_le.mp h.1, UInt32.le_iff_toNat_le.mp h.2⟩

theorem toNat_idFrom (cursor : PortId) (k : Nat) :
    (idFrom cursor k).toNat = (cursor.toNat - 1 + k) % 4294967040 + 1 := by
  have hlt : (cursor.toNat - 1 + k) % 4294967040 < 4294967040 := Nat.mod_lt _ (by decide)
  rw [idFrom, UInt32.toNat_ofNat']
  exact Nat.mod_eq_of_lt (by show (cursor.toNat - 1 + k) % 4294967040 + 1 < 2 ^ 32; omega)

theorem allocatable_idFrom (cursor : PortId) (k : Nat) : Allocatable (idFrom cursor k) := by
  have hlt : (cursor.toNat - 1 + k) % 4294967040 < 4294967040 := Nat.mod_lt _ (by decide)
  constructor
  · rw [UInt32.le_iff_toNat_le, toNat_idFrom]
    show 1 ≤ _ + 1
    omega
  · rw [UInt32.le_iff_toNat_le, toNat_idFrom]
    show _ + 1 ≤ 4294967040
    omega

/-- The search begins at the cursor. -/
theorem idFrom_zero (h : Allocatable cursor) : idFrom cursor 0 = cursor := by
  obtain ⟨hlo, hhi⟩ := h.toNat_bounds
  apply UInt32.toNat_inj.mp
  rw [toNat_idFrom]
  omega

theorem toNat_nextId (h : Allocatable cursor) : (nextId cursor).toNat = cursor.toNat % 4294967040 + 1 := by
  obtain ⟨hlo, hhi⟩ := h.toNat_bounds
  have hsucc : (cursor + 1).toNat = cursor.toNat + 1 := by
    rw [UInt32.toNat_add]
    show (cursor.toNat + 1) % 4294967296 = _
    omega
  have hgt : cursor + 1 > portMaxId ↔ 4294967040 < cursor.toNat + 1 := by
    rw [gt_iff_lt, UInt32.lt_iff_toNat_lt, hsucc]
    rfl
  rw [nextId]
  by_cases hround : cursor + 1 > portMaxId
  · rw [if_pos hround]
    have hlast := hgt.mp hround
    show 1 = cursor.toNat % 4294967040 + 1
    omega
  · rw [if_neg hround, hsucc]
    have hlast := mt hgt.mpr hround
    omega

theorem Allocatable.next (h : Allocatable cursor) : Allocatable (nextId cursor) := by
  have hlt : cursor.toNat % 4294967040 < 4294967040 := Nat.mod_lt _ (by decide)
  constructor
  · rw [UInt32.le_iff_toNat_le, toNat_nextId h]
    show 1 ≤ _ + 1
    omega
  · rw [UInt32.le_iff_toNat_le, toNat_nextId h]
    show _ + 1 ≤ 4294967040
    omega

/-- One step of the loop goes on in the order. -/
theorem idFrom_next (h : Allocatable cursor) (k : Nat) : idFrom (nextId cursor) k = idFrom cursor (k + 1) := by
  obtain ⟨hlo, hhi⟩ := h.toNat_bounds
  apply UInt32.toNat_inj.mp
  rw [toNat_idFrom, toNat_idFrom, toNat_nextId h]
  omega

/-- Every id is met in the first round. -/
theorem exists_idFrom_eq (hcursor : Allocatable cursor) (hid : Allocatable id) : ∃ k < portMaxId.toNat, idFrom cursor k = id := by
  obtain ⟨hlo, hhi⟩ := hcursor.toNat_bounds
  obtain ⟨hlo', hhi'⟩ := hid.toNat_bounds
  refine ⟨(id.toNat + 4294967040 - cursor.toNat) % 4294967040, Nat.mod_lt _ (by decide), ?_⟩
  apply UInt32.toNat_inj.mp
  rw [toNat_idFrom]
  omega

/-! ## The search -/

/-- `ent && ent->value`, for what a lookup gives. -/
def taken : List (HashEntry Nat Ptr) → Bool
  | ⟨_, some _⟩ :: _ => true
  | _ => false

/-- One iteration of the loop. -/
theorem allocateLoop_succ {t : PtrTable} {es : List (HashEntry Nat Ptr)} (hfind : t.find cursor.toNat = .ok es) (fuel : Nat) :
    allocateLoop t (fuel + 1) cursor = if taken es then allocateLoop t fuel (nextId cursor) else .ok cursor := by
  rw [allocateLoop, hfind, ok_bind]
  match es with
  | [] => rfl
  | ⟨_, none⟩ :: _ => rfl
  | ⟨_, some _⟩ :: _ => rfl

/-- The loop goes on while the ids are taken, and ends on the first that is not. -/
theorem allocateLoop_eq {t : PtrTable} {content : PortId → List (HashEntry Nat Ptr)}
    (hfind : ∀ id, Allocatable id → t.find id.toNat = .ok (content id)) :
    ∀ (k fuel : Nat) (cursor : PortId), Allocatable cursor → k < fuel →
      (∀ j < k, taken (content (idFrom cursor j)) = true) → taken (content (idFrom cursor k)) = false →
      allocateLoop t fuel cursor = .ok (idFrom cursor k)
  | _, 0, _, _, hfuel, _, _ => absurd hfuel (Nat.not_lt_zero _)
  | 0, fuel + 1, cursor, hcursor, _, _, hfree => by
      rw [idFrom_zero hcursor] at hfree ⊢
      rw [allocateLoop_succ (hfind cursor hcursor), hfree]
      rfl
  | k + 1, fuel + 1, cursor, hcursor, hfuel, htaken, hfree => by
      have hfirst := htaken 0 (Nat.succ_pos k)
      rw [idFrom_zero hcursor] at hfirst
      rw [allocateLoop_succ (hfind cursor hcursor), hfirst, ← idFrom_next hcursor]
      apply allocateLoop_eq hfind k fuel (nextId cursor) hcursor.next (Nat.lt_of_succ_lt_succ hfuel)
      · intro j hj
        rw [idFrom_next hcursor]
        exact htaken (j + 1) (Nat.succ_lt_succ hj)
      · rw [idFrom_next hcursor]
        exact hfree

/-- **The search for a port id ends on the first free one** in cyclic order from the cursor, whatever the table holds, if
    some id is free. That is where the cursor is left, so both are neither 0 nor reserved. -/
theorem allocatePortId_first {s : PortState D} {t : PtrTable} (hports : s.ports = .owned t)
    {content : PortId → List (HashEntry Nat Ptr)} (hfind : ∀ id, Allocatable id → t.find id.toNat = .ok (content id))
    (hcursor : Allocatable s.portAlloc) (hfree : ∃ id, Allocatable id ∧ taken (content id) = false) :
    ∃ k < portMaxId.toNat, allocatePortId s = .ok (idFrom s.portAlloc k)
      ∧ taken (content (idFrom s.portAlloc k)) = false
      ∧ (∀ j < k, taken (content (idFrom s.portAlloc j)) = true)
      ∧ Allocatable (idFrom s.portAlloc k)
      ∧ ∀ dev, portCreate s dev = .ok ({ s with
          heap := s.heap.alloc ⟨idFrom s.portAlloc k, dev⟩
          portAlloc := idFrom s.portAlloc k }, some s.heap.next) := by
  obtain ⟨id, hid, hidfree⟩ := hfree
  obtain ⟨n, hn, rfl⟩ := exists_idFrom_eq hcursor hid
  have hexists : ∃ k, taken (content (idFrom s.portAlloc k)) = false := ⟨n, hidfree⟩
  have hle : Nat.find hexists ≤ n := Nat.find_le hidfree
  have hbefore : ∀ j < Nat.find hexists, taken (content (idFrom s.portAlloc j)) = true := by
    intro j hj
    exact (Bool.not_eq_false _).mp (Nat.find_min hexists hj)
  have heq : allocatePortId s = .ok (idFrom s.portAlloc (Nat.find hexists)) := by
    rw [allocatePortId, hports]
    exact allocateLoop_eq hfind _ _ _ hcursor (by omega) hbefore (Nat.find_spec hexists)
  refine ⟨Nat.find hexists, by omega, heq, Nat.find_spec hexists, hbefore, allocatable_idFrom _ _, fun dev => ?_⟩
  rw [portCreate, heq]
  rfl

/-- The table of a process whose port has the id 1. -/
def onePort : PtrTable :=
  ⟨1, 17, uintHash, uintEq, (List.replicate 17 []).set 1 [⟨1, some 0⟩]⟩

theorem onePort_shaped : onePort.Shaped :=
  ⟨by decide, by decide, (ChainedHashTable.newUint_placed : ChainedHashTable.Placed (.new 17 uintHash uintEq : PtrTable)).fits⟩

/-- The content of a shaped table. -/
def contentOf (t : PtrTable) (id : PortId) : List (HashEntry Nat Ptr) := (t.find id.toNat).toOption.getD []

theorem find_contentOf {t : PtrTable} (S : t.Shaped) (id : PortId) : t.find id.toNat = .ok (contentOf t id) := by
  obtain ⟨chain, -, hfind⟩ := S.find_eq id.toNat
  rw [contentOf, hfind]
  rfl

/-- The id 1 is taken, and 2 is not. -/
theorem allocatePortId_first_two :
    ∃ k < portMaxId.toNat, allocatePortId (⟨Heap.empty, 1, .owned onePort⟩ : PortState Nat) = .ok (idFrom 1 k)
      ∧ taken (contentOf onePort (idFrom 1 k)) = false
      ∧ (∀ j < k, taken (contentOf onePort (idFrom 1 j)) = true)
      ∧ Allocatable (idFrom 1 k)
      ∧ ∀ dev, portCreate (⟨Heap.empty, 1, .owned onePort⟩ : PortState Nat) dev
        = .ok (⟨Heap.empty.alloc ⟨idFrom 1 k, dev⟩, idFrom 1 k, .owned onePort⟩, some 0) :=
  allocatePortId_first (s := ⟨Heap.empty, 1, .owned onePort⟩) rfl (fun id _ => find_contentOf onePort_shaped id)
    ⟨by decide, by decide⟩ ⟨2, ⟨by decide, by decide⟩, by decide⟩

end Flowpath
end Freeflow
