import Freeflow.Flowpath.Requests
import Freeflow.Flowpath.Wire

/-!
# `Flowpath.Correctness.PortDelete` — which port a request to delete deletes

`fp_on_port_del` takes the address of the field that holds the port id for the id, and passes what it finds there, which
may be null, to the wire, where null is an empty slot. The port table is left as it is in any case. So a request is
served rightly only where it names no port of the table, and the wire has no slot for what was found
(`port_del_iff`).
-/

namespace Freeflow
namespace Flowpath

variable {D : Type}

/-! ## The port id of a request -/

/-- The offset of `args->pid`. -/
def pidOffset : Nat := dataOffset + stringMaxLen

/-- The number that a string of decimal digits denotes. -/
def decimal (digits : List UInt8) : Nat := digits.foldl (fun n c => 10 * n + (c.toNat - 48)) 0

/-- The `pid` field of the request is the decimal string of `p`. -/
def HoldsPid (req : List UInt8) (p : PortId) : Prop :=
  ∃ digits rest, req.drop pidOffset = digits ++ 0 :: rest ∧ digits ≠ [] ∧ digits.length < stringMaxLen ∧
    (∀ c ∈ digits, 48 ≤ c ∧ c ≤ 57) ∧ decimal digits = p.toNat

/-! ## What the request is for -/

/-- The request names the data plane at `a`, which has the port table `t` and the wire `w`. -/
structure NamesWire (req : List UInt8) (s : Managed Wire D) (a : Nat) (dp : Dataplane Nat Wire) (t : PtrTable)
    (w : Wire) : Prop where
  found : lookupName req s = .ok (some a)
  live : s.registry.heap.deref a = .ok dp
  ports : dp.ports = .owned t
  pipeline : dp.pipeline = some (Wire.pipeline w)

/-- The data plane at `a` has the port table `t` and the wire `w`. -/
def HoldsWire (s : Managed Wire D) (a : Nat) (t : PtrTable) (w : Wire) : Prop :=
  ∃ dp, s.registry.heap.deref a = .ok dp ∧ dp.ports = .owned t ∧ dp.pipeline = some (Wire.pipeline w)

/-- A port with the id `p` is in the table. -/
def InTable (t : PtrTable) (p : PortId) : Prop := ∃ ent ∈ t.data.flatten, ent.key = p.toNat

/-- **DeletesNamed.** If the port with the id `p` of the request is in the table, it is taken out of the table and off the
    wire, and the result is `FP_OK`. Otherwise the result is an error, and the table and the wire stay. -/
def DeletesNamed (e : Env Wire D) (req : List UInt8) (s : Managed Wire D) (a : Nat) (t : PtrTable) (w : Wire) : Prop :=
  ∀ p, HoldsPid req p →
  (InTable t p → ∃ s' t' w' port, onPortDel e req s = .ok (s', fpOk) ∧ HoldsWire s' a t' w' ∧
    (⟨p.toNat, port⟩ :: t'.data.flatten).Perm t.data.flatten ∧ w'.port0 ≠ port ∧ w'.port1 ≠ port) ∧
  (¬ InTable t p → ∃ s' result, onPortDel e req s = .ok (s', result) ∧ result ≠ fpOk ∧ HoldsWire s' a t w)

/-! ## What the request does -/

/-- What a removal makes of the wire. -/
theorem delPort_of_free {w : Wire} {q : Ptr} (h0 : w.port0 ≠ q) (h1 : w.port1 ≠ q) : w.delPort q = (w, fpError) := by
  rw [Wire.delPort, if_neg h0, if_neg h1]

theorem delPort_of_slot {w : Wire} {q : Ptr} (h : w.port0 = q ∨ w.port1 = q) : (w.delPort q).2 = fpOk := by
  unfold Wire.delPort
  by_cases h0 : w.port0 = q
  · rw [if_pos h0]
  · rw [if_neg h0, if_pos (h.resolve_left h0)]

variable {e : Env Wire D} {req : List UInt8} {s : Managed Wire D} {a : Nat} {dp : Dataplane Nat Wire} {t : PtrTable}
  {w : Wire}

/-- **One request to delete**: the wire is asked for the port that is found under the address of the id, and the port
    table stays. -/
theorem NamesWire.onPortDel_eq (N : NamesWire req s a dp t w) {q : Ptr} (hq : dp.getPort e.pid = .ok q) :
    ∃ s', onPortDel e req s = .ok (s', (w.delPort q).2) ∧ HoldsWire s' a t (w.delPort q).1 := by
  have hcell := Heap.deref_ok N.live
  obtain ⟨heap, hwrite, hcells, -⟩ := Heap.write_eq hcell { dp with pipeline := some (Wire.pipeline (w.delPort q).1) }
  have hremove : dp.removePort q =
      .ok ({ dp with pipeline := some (Wire.pipeline (w.delPort q).1) }, (w.delPort q).2) := by
    rw [Dataplane.removePort, Dataplane.derefPipeline, N.pipeline]
    rfl
  refine ⟨{ s with registry := { s.registry with heap } }, ?_,
    { dp with pipeline := some (Wire.pipeline (w.delPort q).1) }, Heap.deref_eq ?_, N.ports, rfl⟩
  rotate_left
  · show heap.cells a = _
    rw [hcells, Function.update_self]
  rw [onPortDel, N.found, ok_bind]
  show (s.registry.heap.deref a >>= _) = _
  rw [N.live, ok_bind, hq, ok_bind, hremove, ok_bind]
  show (s.registry.heap.write a _ >>= _) = _
  rw [hwrite]
  rfl

/-- A request that returned has found what it looked for. -/
theorem NamesWire.getPort_ok (N : NamesWire req s a dp t w) {s' : Managed Wire D} {result : Int}
    (h : onPortDel e req s = .ok (s', result)) : ∃ q, dp.getPort e.pid = .ok q := by
  rw [onPortDel, N.found, ok_bind] at h
  obtain ⟨dp', hdp, h⟩ := bind_eq_ok h
  rw [N.live] at hdp
  cases hdp
  obtain ⟨q, hq, -⟩ := bind_eq_ok h
  exact ⟨q, hq⟩

theorem HoldsWire.unique {t' : PtrTable} {w' : Wire} (h : HoldsWire s a t w) (h' : HoldsWire s a t' w') : t = t' := by
  obtain ⟨dp, hdp, hports, -⟩ := h
  obtain ⟨dp', hdp', hports', -⟩ := h'
  rw [hdp] at hdp'
  cases hdp'
  rw [hports] at hports'
  exact Owner.owned.inj hports'

/-- **When a request deletes the port it names, or refuses**: exactly when the port is not in the table, and what the
    lookup of the address of its id finds (null, if it finds nothing) is in no slot of the wire. -/
theorem port_del_iff (e : Env Wire D) (req : List UInt8) (s : Managed Wire D) (a : Nat) (dp : Dataplane Nat Wire)
    (t : PtrTable) (w : Wire) (N : NamesWire req s a dp t w) :
    DeletesNamed e req s a t w ↔ ∀ p, HoldsPid req p →
      ¬ InTable t p ∧ ∃ q, dp.getPort e.pid = .ok q ∧ w.port0 ≠ q ∧ w.port1 ≠ q := by
  refine forall_congr' (fun p => imp_congr_right (fun _ => ?_))
  constructor
  · rintro ⟨hin, hout⟩
    -- the table that is left is the one that was there, so no entry can have been taken out of it
    have hnot : ¬ InTable t p := by
      intro h
      obtain ⟨s', t', w', port, hrun, hafter, hperm, -⟩ := hin h
      obtain ⟨q, hq⟩ := N.getPort_ok hrun
      obtain ⟨s₁, h₁, hafter₁⟩ := N.onPortDel_eq hq
      rw [hrun, Except.ok.injEq, Prod.mk.injEq] at h₁
      rw [← h₁.1] at hafter₁
      rw [hafter.unique hafter₁] at hperm
      have := hperm.length_eq
      rw [List.length_cons] at this
      omega
    obtain ⟨s', result, hrun, hresult, -⟩ := hout hnot
    obtain ⟨q, hq⟩ := N.getPort_ok hrun
    obtain ⟨s₁, h₁, -⟩ := N.onPortDel_eq hq
    rw [hrun] at h₁
    cases h₁
    refine ⟨hnot, q, hq, fun h => ?_, fun h => ?_⟩
    · exact hresult (delPort_of_slot (Or.inl h))
    · exact hresult (delPort_of_slot (Or.inr h))
  · rintro ⟨hnot, q, hq, h0, h1⟩
    refine ⟨fun h => absurd h hnot, fun _ => ?_⟩
    obtain ⟨s', hrun, hafter⟩ := N.onPortDel_eq hq
    rw [delPort_of_free h0 h1] at hrun hafter
    exact ⟨s', fpError, hrun, by decide, hafter⟩

/-! ## Two requests -/

/-- A data plane with the name of the request, a port table with the id 7, and this wire. -/
def wirePlane (w : Wire) : Dataplane Nat Wire where
  id := 0
  state := 0
  name := nameOffset
  type := typeOffset
  ports := .owned ⟨1, 17, uintHash, uintEq, (List.replicate 17 []).set 7 [⟨7, some 0⟩]⟩
  tables := .null
  pipeline := some (Wire.pipeline w)

/-- The process with this data plane only. -/
def wireState (w : Wire) : Managed Wire Nat where
  registry := ⟨Heap.empty.alloc (wirePlane w), Slots.empty.put 0 (some 0)⟩
  ports := ⟨Heap.empty.alloc ⟨7, 100⟩, 7, .null⟩

/-- A request with the name `a` and the id `c`, which has one digit. -/
def delRequest (c : UInt8) : List UInt8 :=
  [fpRequest, portDel, 97] ++ List.replicate 127 0 ++ c :: List.replicate 893 0

/-- Memory at whose address the message lies. -/
def delEnv : Env Wire Nat := ⟨⟨0, .wild, .wild⟩, .noModule, (0, fpOk), 0, 305419896⟩

theorem delRequest_named (w : Wire) (c : UInt8) :
    NamesWire (delRequest c) (wireState w) 0 (wirePlane w)
      ⟨1, 17, uintHash, uintEq, (List.replicate 17 []).set 7 [⟨7, some 0⟩]⟩ w where
  found := rfl
  live := rfl
  ports := rfl
  pipeline := rfl

theorem drop_delRequest (c : UInt8) : (delRequest c).drop pidOffset = c :: 0 :: List.replicate 892 0 := rfl

/-- The id of such a request is its one digit. -/
theorem toNat_of_holdsPid {c : UInt8} {p : PortId} (h : HoldsPid (delRequest c) p) : p.toNat = c.toNat - 48 := by
  obtain ⟨digits, rest, hsplit, hne, -, hdigit, hvalue⟩ := h
  rw [drop_delRequest] at hsplit
  cases digits with
  | nil => exact absurd rfl hne
  | cons d digits =>
      rw [List.cons_append, List.cons.injEq] at hsplit
      cases digits with
      | nil =>
          rw [← hvalue, hsplit.1, decimal, List.foldl_cons, List.foldl_nil]
          omega
      | cons d' digits =>
          rw [List.cons_append, List.cons.injEq] at hsplit
          have hlow := (hdigit d' (by simp)).1
          rw [← hsplit.2.1] at hlow
          exact absurd hlow (by decide)

/-- A request for the id 9, which is not in the table, where both slots are taken. -/
theorem port_del_refused : DeletesNamed delEnv (delRequest 57) (wireState ⟨some 0, some 1⟩) 0
    ⟨1, 17, uintHash, uintEq, (List.replicate 17 []).set 7 [⟨7, some 0⟩]⟩ ⟨some 0, some 1⟩ := by
  refine (port_del_iff _ _ _ 0 _ _ _ (delRequest_named _ 57)).mpr (fun p hpid => ?_)
  refine ⟨?_, none, by decide, by decide, by decide⟩
  have hp : p.toNat = 9 := toNat_of_holdsPid hpid
  rintro ⟨ent, hmem, hkey⟩
  have hseven : ent = ⟨7, some 0⟩ := by
    simpa [List.replicate] using hmem
  rw [hseven, hp] at hkey
  exact absurd hkey (by decide)

/-- **A request for the id 7 is answered with `FP_OK`, and nothing is deleted**: the lookup of the address finds no
    port, and null is in the second slot, which is empty. -/
theorem port_del_keeps :
    NamesWire (delRequest 55) (wireState ⟨some 0, none⟩) 0 (wirePlane ⟨some 0, none⟩)
      ⟨1, 17, uintHash, uintEq, (List.replicate 17 []).set 7 [⟨7, some 0⟩]⟩ ⟨some 0, none⟩ ∧
    HoldsPid (delRequest 55) 7 ∧
    (onPortDel delEnv (delRequest 55) (wireState ⟨some 0, none⟩)).map (fun r => r.2) = .ok fpOk ∧
    ¬ DeletesNamed delEnv (delRequest 55) (wireState ⟨some 0, none⟩) 0
      ⟨1, 17, uintHash, uintEq, (List.replicate 17 []).set 7 [⟨7, some 0⟩]⟩ ⟨some 0, none⟩ := by
  have N := delRequest_named ⟨some 0, none⟩ 55
  have hdigit : ∀ c ∈ ([55] : List UInt8), 48 ≤ c ∧ c ≤ 57 := List.forall_mem_singleton.mpr ⟨by decide, by decide⟩
  have hpid : HoldsPid (delRequest 55) 7 :=
    ⟨[55], List.replicate 892 0, drop_delRequest 55, List.cons_ne_nil 55 [], by decide, hdigit, rfl⟩
  have hnone : (wirePlane ⟨some 0, none⟩).getPort delEnv.pid = .ok none := by decide
  obtain ⟨s₁, h₁, hafter₁⟩ := N.onPortDel_eq hnone
  refine ⟨N, hpid, by rw [h₁]; rfl, fun h => ?_⟩
  have hin : InTable ⟨1, 17, uintHash, uintEq, (List.replicate 17 []).set 7 [⟨7, some 0⟩]⟩ 7 :=
    ⟨⟨7, some 0⟩, by decide, rfl⟩
  obtain ⟨s', t', w', port, hrun, hafter, hperm, -⟩ := (h 7 hpid).1 hin
  rw [h₁, Except.ok.injEq, Prod.mk.injEq] at hrun
  rw [hrun.1] at hafter₁
  rw [hafter.unique hafter₁] at hperm
  have hlen := hperm.length_eq
  rw [List.length_cons] at hlen
  exact absurd hlen (Nat.succ_ne_self _)

end Flowpath
end Freeflow
